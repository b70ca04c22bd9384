import AffiniX.EpollReadiness

/-! What the backend does to the send queue of one descriptor. -/
namespace AffiniX.Epoll
open Transition Function List

def tagged (s : Epoll) (tag : UserData) (n : Nat) : List Completion :=
  (s.reaped.drop n++s.out++s.ready).filter (·.user == tag)

structure FdState.Strange (st : FdState) (tag : UserData) : Prop where
  watch : st.watchUd ≠ tag
  recv : st.recvUd ≠ tag
  accept : st.acceptUd ≠ tag
  connect : st.connectUd ≠ tag

structure Owns (s : Epoll) (fd : Fd) (tag : UserData) : Prop where
  strange : ∀ f, (s.state f).Strange tag
  sends : ∀ f, ∀ req ∈ (s.state f).sendq, (req.user = tag ↔ f = fd)

structure Aside (fd : Fd) (tag : UserData) (s s' : Epoll) : Prop where
  sendq : (s'.state fd).sendq = (s.state fd).sendq
  wire : (s'.sockets fd).wire = (s.sockets fd).wire
  tagged : ∀ n ≤ s.reaped.length, s'.tagged tag n = s.tagged tag n
  reaped : s.reaped.length ≤ s'.reaped.length
  owns : s.Owns fd tag → s'.Owns fd tag

def Action.foreign (fd : Fd) (tag : UserData) : Action → Bool
  | .attach _ _ user _ | .modify _ _ user | .submitRecv user _ _ _ | .submitAccept user _ _
  | .submitConnect user _ _ _ | .cancel user _ => user != tag
  | .submitSendv user f _ _ _ => user != tag && f != fd
  | .detach f => f != fd
  | .arrive _ _ | .fin _ | .wait _ | .pending | .poll _ | .event | .dispatch _ => true

namespace FdState
lemma updateEvents_sendq (st : FdState) : st.updateEvents.sendq = st.sendq := by
  unfold updateEvents
  split <;> rfl

lemma Strange.updateEvents {st : FdState} {tag : UserData} (strange : st.Strange tag) :
    st.updateEvents.Strange tag := by
  unfold FdState.updateEvents
  split
  · exact ⟨strange.watch,strange.recv,strange.accept,strange.connect⟩
  · exact strange

lemma request_sendq (st : FdState) (add : Bool) : (st.request add).1.sendq = st.sendq := by
  unfold request register
  cases st.registered <;> cases add <;> simp [updateEvents_sendq]

lemma Strange.request {st : FdState} {tag : UserData} (strange : st.Strange tag) (add : Bool) :
    (st.request add).1.Strange tag := by
  unfold FdState.request register
  cases st.registered with
  | true => exact strange.updateEvents
  | false =>
    cases add with
    | true =>
      have registered : FdState.Strange { st with registered := true } tag :=
        ⟨strange.watch,strange.recv,strange.accept,strange.connect⟩
      exact registered.updateEvents
    | false => exact strange
end FdState
section
variable {fd f : Fd} {tag : UserData} {s s' s'' : Epoll} {st : FdState} {c : Completion} {ev : Events}

lemma tagged_push {n : Nat} (other : c.user ≠ tag) : (s.push c).tagged tag n = s.tagged tag n := by
  simp [tagged,push,filter_append,other]

lemma tagged_queueAll {n : Nat} {cs : List Completion} (other : ∀ c ∈ cs, c.user ≠ tag) :
    (s.queueAll cs).tagged tag n = s.tagged tag n := by
  have none' : cs.filter (·.user == tag) = [] := by
    rw [filter_eq_nil_iff]
    simpa using other
  simp [tagged,queueAll,filter_append,none']

lemma Owns.setFd (owns : s.Owns fd tag) (strange : st.Strange tag)
    (sends : ∀ req ∈ st.sendq, (req.user = tag ↔ f = fd)) : (s.setFd f st).Owns fd tag := by
  constructor
  · intro g
    rw [state_setFd]
    split
    · exact strange
    · exact owns.strange g
  intro g
  rw [state_setFd]
  split
  next same =>
    rw [same]
    exact sends
  · exact owns.sends g

namespace Aside
lemma refl (fd : Fd) (tag : UserData) (s : Epoll) : Aside fd tag s s := ⟨rfl,rfl,fun _ _ => rfl,Nat.le_refl _,id⟩

lemma trans (first : Aside fd tag s s') (second : Aside fd tag s' s'') : Aside fd tag s s'' where
  sendq := second.sendq.trans first.sendq
  wire := second.wire.trans first.wire
  tagged n early := (second.tagged n (Nat.le_trans early first.reaped)).trans (first.tagged n early)
  reaped := Nat.le_trans first.reaped second.reaped
  owns := second.owns ∘ first.owns

lemma of_eq (fds : s'.fds = s.fds) (wire : (s'.sockets fd).wire = (s.sockets fd).wire) (reaped : s'.reaped = s.reaped)
    (out : s'.out = s.out) (ready : s'.ready = s.ready) : Aside fd tag s s' := by
  have state : s'.state = s.state := by
    funext f
    simp only [Epoll.state,fds]
  refine ⟨by rw [state],wire,?_,by simp [reaped],?_⟩
  · intro n _
    simp only [Epoll.tagged,reaped,out,ready]
  intro owns
  constructor
  · rw [state]
    exact owns.strange
  rw [state]
  exact owns.sends

lemma setFd (sendq : st.sendq = (s.state f).sendq)
    (strange : s.Owns fd tag → st.Strange tag) : Aside fd tag s (s.setFd f st) := by
  refine ⟨?_,rfl,fun _ _ => rfl,Nat.le_refl _,?_⟩
  · rw [state_setFd]
    split
    next same => rw [sendq,same]
    · rfl
  intro owns
  apply owns.setFd (strange owns)
  rw [sendq]
  exact owns.sends f

lemma emit (other : c.user ≠ tag) : Aside fd tag s (s.emit c f ev) := by
  unfold Epoll.emit
  split
  · exact of_eq rfl rfl rfl rfl rfl
  · exact ⟨rfl,rfl,fun _ _ => tagged_push other,Nat.le_refl _,fun owns => ⟨owns.strange,owns.sends⟩⟩

lemma queueAll {cs : List Completion} (other : ∀ c ∈ cs, c.user ≠ tag) : Aside fd tag s (s.queueAll cs) :=
  ⟨rfl,rfl,fun _ _ => tagged_queueAll other,Nat.le_refl _,fun owns => ⟨owns.strange,owns.sends⟩⟩

lemma enter {serial : Nat} {add : Bool} (sendq : st.sendq = (s.state f).sendq)
    (strange : s.Owns fd tag → st.Strange tag) : Aside fd tag s (s.enter f st serial add).1 := by
  have entered : Aside fd tag s (s.setFd f (st.request add).1) :=
    setFd ((st.request_sendq add).trans sendq) fun owns => (strange owns).request add
  unfold Epoll.enter
  dsimp only
  split
  · exact entered
  · exact entered.trans (of_eq rfl rfl rfl rfl rfl)
end Aside
end
section
variable {fd f : Fd} {tag : UserData} {s s' : Epoll} {a : Action}

lemma countOp_aside (f : Fd) : Aside fd tag s (s.countOp f) := .of_eq rfl rfl rfl rfl rfl

lemma wire_aside {g : Fd} {wire : Bytes} (other : g ≠ fd) :
    Aside fd tag s (s.setSocket g { s.sockets g with wire := wire }) := by
  refine .of_eq rfl ?_ rfl rfl rfl
  exact congrArg Socket.wire (update_of_ne other.symm _ _)

variable {st : FdState} {user : UserData}

lemma other_aside (other : f ≠ fd) (fits : s.Owns fd tag → st.Strange tag ∧ ∀ req ∈ st.sendq, req.user ≠ tag) :
    Aside fd tag s (s.setFd f st) := by
  refine ⟨?_,rfl,fun _ _ => rfl,Nat.le_refl _,?_⟩
  · rw [state_setFd,if_neg other.symm]
  intro owns
  obtain ⟨strange,sends⟩ := fits owns
  apply owns.setFd strange
  intro req queued
  exact iff_of_false (sends req queued) other

lemma otherEnter_aside {serial : Nat} {add : Bool} (other : f ≠ fd)
    (fits : s.Owns fd tag → st.Strange tag ∧ ∀ req ∈ st.sendq, req.user ≠ tag) :
    Aside fd tag s (s.enter f st serial add).1 := by
  have entered : Aside fd tag s (s.setFd f (st.request add).1) := by
    apply other_aside other
    intro owns
    rw [FdState.request_sendq]
    exact (fits owns).imp_left fun strange => strange.request add
  unfold enter
  dsimp only
  split
  · exact entered
  · exact entered.trans (.of_eq rfl rfl rfl rfl rfl)

lemma submitSendv_aside (iov : List Bytes) (reply : SendReply) (add : Bool)
    (named : user ≠ tag) (other : f ≠ fd) : Aside fd tag s (s.submitSendv user f iov reply add).1 := by
  have counted : Aside fd tag s (s.countOp f) := countOp_aside f
  have earlier (owns : s.Owns fd tag) : ∀ req ∈ (s.state f).sendq, req.user ≠ tag :=
    fun req queued equal => other ((owns.sends f req queued).1 equal)
  have same : Aside fd tag s ((s.countOp f).setFd f (s.state f)) :=
    counted.trans (other_aside other fun owns => ⟨owns.strange f,earlier ⟨owns.strange,owns.sends⟩⟩)
  have instant (c : Completion) (user' : c.user = user) :
      Aside fd tag s (((s.countOp f).setFd f (s.state f)).queueCompletion c) := by
    apply same.trans
    apply Aside.queueAll
    simp [user',named]
  have tail (sent : Nat) : Aside fd tag s ((s.countOp f).sendTail user f (s.state f) iov.flatten
      (s.serials f) sent add).1 := by
    unfold sendTail
    dsimp only
    have written : Aside fd tag s ((s.countOp f).setSocket f { s.sockets f with
        wire := (s.sockets f).wire++iov.flatten.take sent }) := counted.trans (wire_aside other)
    apply written.trans
    split
    · have stored : Aside fd tag ((s.countOp f).setSocket f { s.sockets f with
          wire := (s.sockets f).wire++iov.flatten.take sent }) (((s.countOp f).setSocket f
          { s.sockets f with wire := (s.sockets f).wire++iov.flatten.take sent }).setFd f (s.state f)) :=
        other_aside other fun owns => ⟨owns.strange f,earlier ⟨owns.strange,owns.sends⟩⟩
      apply stored.trans
      apply Aside.queueAll
      simp [named]
    apply otherEnter_aside other
    intro owns
    have strange := owns.strange f
    refine ⟨⟨strange.watch,strange.recv,strange.accept,strange.connect⟩,?_⟩
    simp [named]
  unfold submitSendv
  dsimp only
  split
  · apply counted.trans
    apply other_aside other
    intro owns
    have strange := owns.strange f
    have before := earlier ⟨owns.strange,owns.sends⟩
    refine ⟨FdState.Strange.updateEvents ⟨strange.watch,strange.recv,strange.accept,strange.connect⟩,?_⟩
    rw [FdState.updateEvents_sendq]
    intro req queued
    obtain old | new := mem_append.1 queued
    · exact before req old
    rw [mem_singleton.1 new]
    exact named
  · cases reply with
    | wrote | again => exact tail _
    | intr | error => exact instant _ rfl

lemma cancelAt_aside (named : user ≠ tag) (owns : s.Owns fd tag) : Aside fd tag s (s.cancelAt user f) := by
  unfold cancelAt
  split
  · exact .refl fd tag s
  next st known =>
  have held := state_of_fds known
  have strange := owns.strange f
  have sends := owns.sends f
  rw [held] at strange sends
  have without : (st.without user).Strange tag := ⟨strange.watch,strange.recv,strange.accept,strange.connect⟩
  have sendq : (if (st.cancelled user f).isEmpty then st.without user
      else (st.without user).updateEvents).sendq = st.sendq.filter (·.user != user) := by
    split
    · rfl
    · exact FdState.updateEvents_sendq _
  refine @Aside.trans fd tag s (s.setFd f (if (st.cancelled user f).isEmpty then st.without user
    else (st.without user).updateEvents)) _ ?_ ?_
  · have fits : (if (st.cancelled user f).isEmpty then st.without user
        else (st.without user).updateEvents).Strange tag := by
      split
      · exact without
      · exact without.updateEvents
    by_cases same : f = fd
    · apply Aside.setFd _ fun _ => fits
      rw [sendq,held,filter_eq_self]
      intro req queued
      have own := (sends req queued).2 same
      simpa [own] using named.symm
    apply other_aside same
    intro _
    refine ⟨fits,?_⟩
    rw [sendq]
    intro req queued equal
    exact same ((sends req (mem_of_mem_filter queued)).1 equal)
  apply Aside.queueAll
  intro c done
  simp only [FdState.cancelled,mem_append,mem_ite_nil_right,mem_singleton, mem_map] at done
  obtain ((⟨_,rfl⟩ | ⟨_,_,rfl⟩) | ⟨_,rfl⟩) | ⟨_,rfl⟩ := done <;> exact named

lemma cancel_aside (order : List Fd) (named : user ≠ tag) (owns : s.Owns fd tag) :
    Aside fd tag s (order.foldl (fun s f => s.cancelAt user f) s) := by
  induction order generalizing s with
  | nil => exact .refl fd tag s
  | cons f _ rest =>
    have one : Aside fd tag s (s.cancelAt user f) := cancelAt_aside named owns
    exact one.trans (rest (one.owns owns))

lemma submitConnect_aside (reply : ConnectReply) (add : Bool) (named : user ≠ tag) :
    Aside fd tag s (s.submitConnect user f reply add).1 := by
  have same : Aside fd tag s ((s.countOp f).setFd f (s.state f)) :=
    (countOp_aside f).trans (.setFd rfl fun owns => owns.strange f)
  cases reply with
  | ok | error => exact same.trans (.queueAll (by simp [named]))
  | inProgress =>
    apply (countOp_aside f).trans
    apply Aside.enter
    · rfl
    intro owns
    have strange := owns.strange f
    exact ⟨strange.watch,strange.recv,strange.accept,named⟩

lemma submitRecv_aside (len : Nat) (add : Bool) (named : user ≠ tag) :
    Aside fd tag s (s.submitRecv user f len add).1 := by
  unfold submitRecv
  dsimp only
  split
  · exact .setFd rfl fun owns => owns.strange f
  apply (countOp_aside f).trans
  apply Aside.enter
  · rfl
  intro owns
  have strange := owns.strange f
  exact ⟨strange.watch,named,strange.accept,strange.connect⟩

lemma request_aside (add : Bool) (sendq : st.sendq = (s.state f).sendq)
    (strange : s.Owns fd tag → st.Strange tag) : Aside fd tag s (s.setFd f (st.request add).1) :=
  .setFd ((st.request_sendq add).trans sendq) fun owns => (strange owns).request add

lemma detach_aside (other : f ≠ fd) (named : (0 : UserData) ≠ tag) : Aside fd tag s (s.detach f) := by
  unfold detach
  split
  · exact .refl fd tag s
  refine ⟨?_,rfl,fun _ _ => rfl,Nat.le_refl _,?_⟩
  · simp only [state,update_of_ne other.symm]
  intro owns
  have cases' (g : Fd) : Epoll.state { s with fds := update s.fds f none } g = if g = f then {} else s.state g := by
    simp only [state,update_apply]
    split <;> rfl
  constructor
  · intro g
    change (Epoll.state { s with fds := update s.fds f none } g).Strange tag
    rw [cases']
    split
    · exact ⟨named,named,named,named⟩
    · exact owns.strange g
  intro g req queued
  change req ∈ (Epoll.state { s with fds := update s.fds f none } g).sendq at queued
  rw [cases'] at queued
  split at queued
  · cases queued
  · exact owns.sends g req queued

lemma finishWait_aside : Aside fd tag s s.finishWait := by
  refine ⟨rfl,rfl,?_,?_,fun owns => ⟨owns.strange,owns.sends⟩⟩
  · intro n early
    simp only [tagged,finishWait,append_nil]
    rw [drop_append_of_le_length early]
  · simp [finishWait]

lemma beginWait_aside (cap : Nat) (empty : s.out = []) : Aside fd tag s (s.beginWait cap) := by
  have taken : Aside fd tag s { s with cap := cap, out := s.ready.take cap, ready := s.ready.drop cap } := by
    refine ⟨rfl,rfl,?_,Nat.le_refl _,fun owns => ⟨owns.strange,owns.sends⟩⟩
    intro n _
    simp only [tagged,empty,append_nil]
    rw [append_assoc,take_append_drop]
  unfold beginWait
  dsimp only
  split
  · exact taken.trans finishWait_aside
  · exact taken.trans (.of_eq rfl rfl rfl rfl rfl)

lemma modify_aside (interest : Interest) (named : user ≠ tag) : Aside fd tag s (s.modify f interest user).1 := by
  unfold modify
  split
  · exact .refl fd tag s
  next known =>
  have held := state_of_fds known
  refine .setFd ?_ fun owns => ?_
  · rw [FdState.updateEvents_sendq,held]
  have strange := owns.strange f
  rw [held] at strange
  exact FdState.Strange.updateEvents ⟨named,strange.recv,strange.accept,strange.connect⟩

lemma call_aside (called : s.call a = some s') (foreign : a.foreign fd tag) (owns : s.Owns fd tag)
    (named : (0 : UserData) ≠ tag) (empty : s.out = []) : Aside fd tag s s' := by
  unfold call at called
  split at called
  next f _ user add =>
    cases called
    have other : user ≠ tag := by simpa [Action.foreign] using foreign
    refine request_aside add (by rfl) fun owns => ?_
    exact ⟨other,(owns.strange f).recv,(owns.strange f).accept,(owns.strange f).connect⟩
  · cases called
    exact modify_aside _ (by simpa [Action.foreign] using foreign)
  · cases called
    exact detach_aside (by simpa [Action.foreign] using foreign) named
  · cases called
    exact submitRecv_aside _ _ (by simpa [Action.foreign] using foreign)
  next user f iov reply add =>
    obtain ⟨_,rfl⟩ := enabled called
    have both : user ≠ tag ∧ f ≠ fd := by simpa [Action.foreign] using foreign
    exact submitSendv_aside iov reply add both.1 both.2
  next user f add =>
    cases called
    have other : user ≠ tag := by simpa [Action.foreign] using foreign
    refine request_aside add (by rfl) fun owns => ?_
    exact ⟨(owns.strange f).watch,(owns.strange f).recv,other,(owns.strange f).connect⟩
  · split at called
    · cases called
      exact submitConnect_aside _ _ (by simpa [Action.foreign] using foreign)
    · cases called
  · cases called
    exact cancel_aside _ (by simpa [Action.foreign] using foreign) owns
  · split at called
    · cases called
      exact beginWait_aside _ empty
    · cases called
  · cases called
end

inductive Progress (fd : Fd) (tag : UserData) (s s' : Epoll) : Prop
  | aside (same : Aside fd tag s s')
  | wrote (req : SendReq) (queue : List SendReq) (n : Nat) (front : (s.state fd).sendq = req::queue)
      (sendq : (s'.state fd).sendq = { req with off := req.off+n }::queue)
      (more : n ≤ req.bytes.length-req.off)
      (wire : (s'.sockets fd).wire = (s.sockets fd).wire++(req.bytes.drop req.off).take n)
      (tagged : ∀ n, s'.tagged tag n = s.tagged tag n) (reaped : s'.reaped = s.reaped)
      (owns : s'.Owns fd tag)
  | finished (req : SendReq) (queue : List SendReq) (front : (s.state fd).sendq = req::queue)
      (sendq : (s'.state fd).sendq = queue)
      (wire : (s'.sockets fd).wire = (s.sockets fd).wire++req.bytes.drop req.off)
      (c : Completion) (user : c.user = req.user) (result : c.result = int32 req.bytes.length)
      (tagged : ∀ n, s'.tagged tag n = s.tagged tag n ∨
        (s.tagged tag n = [] → s'.tagged tag n = [c])) (reaped : s'.reaped = s.reaped)
      (owns : s'.Owns fd tag)

variable {fd f : Fd} {tag : UserData} {s s' : Epoll} {a : Action} {ev : Events} {stage : Stage}
  {rest : Option (List (Fd × Events))}

lemma cut_le (n left : Nat) : cut n left ≤ left := by
  unfold cut
  omega

lemma setFd_emit_aside {st : FdState} {c : Completion} {g : Fd} {ev' : Events}
    (sendq : st.sendq = (s.state f).sendq) (strange : st.Strange tag) (other : c.user ≠ tag) :
    Aside fd tag s ((s.setFd f st.updateEvents).emit c g ev') := by
  have moved : Aside fd tag s (s.setFd f st.updateEvents) :=
    .setFd ((FdState.updateEvents_sendq st).trans sendq) fun _ => strange.updateEvents
  exact moved.trans (.emit other)

lemma recv_aside {result : Int} {data : Bytes} {ev' : Events} (owns : s.Owns fd tag) :
    Aside fd tag s (if s.full then (s.setFd f (s.state f).updateEvents).postpone f ev'
    else (s.setFd f { s.state f with recvArmed := false }.updateEvents).emit
        ⟨(s.state f).recvUd,result,.recv f (s.state f).recvSerial data⟩ f ev') := by
  have strange := owns.strange f
  split
  · have moved : Aside fd tag s (s.setFd f (s.state f).updateEvents) :=
      .setFd (FdState.updateEvents_sendq _) fun _ => strange.updateEvents
    exact moved.trans (.of_eq rfl rfl rfl rfl rfl)
  exact setFd_emit_aside (by rfl) ⟨strange.watch,strange.recv,strange.accept,strange.connect⟩ strange.recv

lemma errorish_aside (err : Nat) (owns : s.Owns fd tag) : Aside fd tag s (s.onErrorish f (s.state f) ev err) := by
  unfold onErrorish
  split
  · exact recv_aside owns
  split
  · exact .emit (owns.strange f).watch
  · exact .refl fd tag s

lemma onAccept_aside (count : Nat) (peer : Option Fd) (owns : s.Owns fd tag) :
    Aside fd tag s (s.onAccept f (s.state f) count peer).1 := by
  cases peer with
  | none => exact .refl fd tag s
  | some peer =>
    have noted : Aside fd tag s (s.noteAccepted f peer) := .of_eq rfl rfl rfl rfl rfl
    unfold onAccept
    dsimp only
    split
    · exact noted.trans (.of_eq rfl rfl rfl rfl rfl)
    · exact noted.trans (.emit (owns.strange f).accept)

lemma onRecv_aside (data : Bytes) (reply : RecvReply) (owns : s.Owns fd tag) :
    Aside fd tag s (s.onRecv f (s.state f) data reply).1 := by
  have strange := owns.strange f
  unfold onRecv
  split
  · exact recv_aside owns
  cases reply with
  | chunk =>
    refine .of_eq rfl ?_ rfl rfl rfl
    simp only [setSocket,update_apply]
    split
    next same => rw [same]
    · rfl
  | eof | error => exact recv_aside owns
  | again =>
    dsimp only
    split
    · exact .setFd rfl fun _ => ⟨strange.watch,strange.recv,strange.accept,strange.connect⟩
    · exact recv_aside owns
  | intr => exact .refl fd tag s

lemma onConnected_aside (err : Nat) (owns : s.Owns fd tag) : Aside fd tag s (s.onConnected f (s.state f) err) := by
  have strange := owns.strange f
  unfold onConnected
  split
  · exact setFd_emit_aside (by rfl) ⟨strange.watch,strange.recv,strange.accept,strange.connect⟩
      strange.connect
  · exact .refl fd tag s

lemma watchReadable_aside (owns : s.Owns fd tag) : Aside fd tag s (s.watchReadable f (s.state f) ev) := by
  unfold watchReadable
  split
  · exact .emit (owns.strange f).watch
  · exact .refl fd tag s

lemma watchWritable_aside (owns : s.Owns fd tag) : Aside fd tag s (s.watchWritable f (s.state f)) := by
  unfold watchWritable
  split
  · exact .emit (owns.strange f).watch
  · exact .refl fd tag s

lemma Aside.goto (same : Aside fd tag s s') : Aside fd tag s (s'.goto f ev stage rest) :=
  same.trans (.of_eq rfl rfl rfl rfl rfl)

lemma Aside.leave (same : Aside fd tag s s') : Aside fd tag s (s'.leave rest) :=
  same.trans (.of_eq rfl rfl rfl rfl rfl)

lemma send_aside {req : SendReq} {queue : List SendReq} (reply : SendReply) (other : f ≠ fd)
    (front : (s.state f).sendq = req::queue) (owns : s.Owns fd tag) :
    Aside fd tag s (s.onSend f (s.state f) req queue reply).1 := by
  have strange := owns.strange f
  have users : ∀ r ∈ req::queue, r.user ≠ tag := by
    intro r queued equal
    rw [← front] at queued
    exact other ((owns.sends f r queued).1 equal)
  have mine : req.user ≠ tag := users req mem_cons_self
  have popped (t : Epoll) (before : Aside fd tag s t) :
      Aside fd tag s (t.setFd f { s.state f with sendq := queue }.updateEvents) := by
    apply before.trans
    apply other_aside other
    intro _
    rw [FdState.updateEvents_sendq]
    refine ⟨FdState.Strange.updateEvents ⟨strange.watch,strange.recv,strange.accept,strange.connect⟩,?_⟩
    exact fun r queued => users r (mem_cons_of_mem _ queued)
  cases reply with
  | intr => exact .refl fd tag s
  | again => exact .setFd rfl fun _ => ⟨strange.watch,strange.recv,strange.accept,strange.connect⟩
  | error => exact (popped s (.refl fd tag s)).trans (.emit mine)
  | wrote =>
    unfold onSend
    dsimp only
    split
    · exact (popped _ (wire_aside other)).trans (.emit mine)
    apply (wire_aside other).trans
    apply other_aside other
    intro _
    refine ⟨⟨strange.watch,strange.recv,strange.accept,strange.connect⟩,?_⟩
    intro r queued
    obtain rfl | later := mem_cons.1 queued
    · exact mine
    · exact users r (mem_cons_of_mem _ later)

lemma send_progress {req : SendReq} {queue : List SendReq} {reply : SendReply}
    (front : (s.state fd).sendq = req::queue) (sound : ∀ errno, reply ≠ .error errno) (owns : s.Owns fd tag) :
    Progress fd tag s ((s.onSend fd (s.state fd) req queue reply).1.goto fd ev stage rest) := by
  have strange := owns.strange fd
  have users := owns.sends fd
  rw [front] at users
  cases reply with
  | intr => exact .aside (Aside.goto (.refl fd tag s))
  | again =>
    refine .aside (Aside.goto (.setFd rfl fun _ => ?_))
    exact ⟨strange.watch,strange.recv,strange.accept,strange.connect⟩
  | error errno => exact absurd rfl (sound errno)
  | wrote n =>
    unfold onSend
    dsimp only
    let data := (req.bytes.drop req.off).take (cut n (req.bytes.length-req.off))
    let sock : Socket := { s.sockets fd with wire := (s.sockets fd).wire++data }
    have wire (t : Epoll) (same : t.sockets = (s.setSocket fd sock).sockets) :
        (t.sockets fd).wire = (s.sockets fd).wire++data := by
      simp [same,setSocket,sock]
    split
    next =>
      have all : data = req.bytes.drop req.off := by
        apply take_of_length_le
        rw [length_drop]
        omega
      have owner : req.user = tag := (users req mem_cons_self).2 rfl
      have kept : (s.setFd fd { s.state fd with sendq := queue }.updateEvents).Owns fd tag := by
        apply owns.setFd
        · exact FdState.Strange.updateEvents ⟨strange.watch,strange.recv,strange.accept,strange.connect⟩
        rw [FdState.updateEvents_sendq]
        exact fun r queued => users r (mem_cons_of_mem _ queued)
      have sendq : ((s.setFd fd { s.state fd with sendq := queue }.updateEvents).state fd).sendq = queue := by
        rw [state_setFd,if_pos rfl,FdState.updateEvents_sendq]
      unfold emit
      split
      · refine .finished req queue front sendq ((wire _ rfl).trans (by rw [all]))
          ⟨req.user,int32 req.bytes.length,.send fd req.serial req.bytes.length⟩ rfl rfl
          (fun _ => .inl rfl) rfl ⟨kept.strange,kept.sends⟩
      refine .finished req queue front sendq ((wire _ rfl).trans (by rw [all]))
        ⟨req.user,int32 req.bytes.length,.send fd req.serial req.bytes.length⟩ rfl rfl
        (fun n => .inr fun none' => ?_) rfl ⟨kept.strange,kept.sends⟩
      simp only [tagged,filter_append,append_eq_nil_iff] at none'
      simp only [tagged,goto,push,setFd,setSocket,filter_append,none'.1.1,none'.1.2,none'.2]
      simp [owner]
    · refine .wrote req queue _ front ?_ (cut_le n _) (wire _ rfl) (fun _ => rfl) rfl ?_
      · exact congrArg FdState.sendq ((state_setFd _ fd fd _).trans (if_pos rfl))
      have kept : (s.setFd fd { s.state fd with
          sendq := { req with off := req.off+cut n (req.bytes.length-req.off) }::queue }).Owns fd tag := by
        apply owns.setFd
        · exact ⟨strange.watch,strange.recv,strange.accept,strange.connect⟩
        intro r queued
        obtain rfl | later := mem_cons.1 queued
        · exact users req mem_cons_self
        · exact users r (mem_cons_of_mem _ later)
      exact ⟨kept.strange,kept.sends⟩

lemma network_aside (came : s.network a = some s') : Aside fd tag s s' := by
  have wire {g : Fd} {sock : Socket} (same : sock.wire = (s.sockets g).wire) :
      ((s.setSocket g sock).sockets fd).wire = (s.sockets fd).wire := by
    simp only [setSocket,update_apply]
    split
    next equal => rw [same,equal]
    · rfl
  unfold network at came
  split at came
  · dsimp only at came
    split at came
    · cases came
    cases came
    exact .of_eq rfl (wire rfl) rfl rfl rfl
  · cases came
    exact .of_eq rfl (wire rfl) rfl rfl rfl
  · cases came

lemma report_aside (events : List (Fd × Events)) : Aside fd tag s (s.report events) := by
  have same (g : Fd) : ∃ owed, (s.report events).state g = { s.state g with owed := owed } := by
    cases known : s.fds g with
    | none => exact ⟨{},by simp [state,report,known]⟩
    | some st =>
      refine ⟨((s.report events).state g).owed,?_⟩
      simp [state,report,known]
  refine ⟨?_,rfl,fun _ _ => rfl,Nat.le_refl _,?_⟩
  · obtain ⟨_,now⟩ := same fd
    rw [now]
  intro owns
  constructor
  · intro g
    obtain ⟨_,now⟩ := same g
    have strange := owns.strange g
    rw [now]
    exact ⟨strange.watch,strange.recv,strange.accept,strange.connect⟩
  intro g
  obtain ⟨_,now⟩ := same g
  rw [now]
  exact owns.sends g

def Action.sound (fd : Fd) (s : Epoll) : Action → Bool
  | .dispatch (.send (.error _)) =>
    match s.phase with
    | .dispatch f _ _ _ => f != fd
    | _ => true
  | _ => true

lemma turn_progress (turn : Turn s a s') (foreign : a.foreign fd tag) (sound : a.sound fd s) (owns : s.Owns fd tag)
    (named : (0 : UserData) ≠ tag) (placed : Placed s) : Progress fd tag s s' := by
  cases turn with
  | network came => exact .aside (network_aside came)
  | call idle called => exact .aside (call_aside called foreign owns named (placed.idle idle))
  | pending =>
    apply Progress.aside
    unfold nextPending
    split
    · exact finishWait_aside
    split
    · exact .of_eq rfl rfl rfl rfl rfl
    dsimp only
    split <;> exact .of_eq rfl rfl rfl rfl rfl
  | poll => exact .aside (report_aside _)
  | @event rest _ =>
    apply Progress.aside
    cases rest with
    | nil => exact finishWait_aside
    | cons =>
      unfold nextEvent
      dsimp only
      split_ifs <;> exact .of_eq rfl rfl rfl rfl rfl
  | errorish =>
    apply Progress.aside
    apply Aside.goto
    split
    · exact errorish_aside _ owns
    · exact .refl fd tag s
  | readable => exact .aside (watchReadable_aside owns).goto
  | accept => exact .aside (onAccept_aside _ _ owns).goto
  | recv => exact .aside (onRecv_aside _ _ owns).goto
  | unwritable => exact .aside (Aside.leave (.refl fd tag s))
  | writable => exact .aside (onConnected_aside _ owns).goto
  | @send f _ _ req queue reply at' front _ =>
    by_cases own : f = fd
    · subst own
      apply send_progress front _ owns
      rintro errno rfl
      simp [Action.sound,at'] at sound
    · exact .aside (send_aside reply own front owns).goto
  | sent => exact .aside (Aside.goto (.refl fd tag s))
  | watch => exact .aside (watchWritable_aside owns).leave
end AffiniX.Epoll
