import AffiniX.EpollReadiness

/-! The completions of one-shot operations, and the reports of accepted descriptors. -/
namespace AffiniX.Epoll
open Transition Function List

def Origin.oneShot (f : Fd) : Origin → Option Nat
  | .recv fd serial _ | .send fd serial _ | .connect fd serial => if fd = f then some serial else none
  | .watch _ | .accepted _ _ | .acceptCancelled _ => none

def Origin.peer (f : Fd) : Origin → Option Fd
  | .accepted fd peer => if fd = f then some peer else none
  | .watch _ | .recv _ _ _ | .send _ _ _ | .connect _ _ | .acceptCancelled _ => none

def completions (s : Epoll) : List Completion := s.reaped++s.out++s.ready

def finished (s : Epoll) (f : Fd) (k : Nat) : Nat := s.completions.countP fun c => c.origin.oneShot f = some k

def announced (s : Epoll) (f : Fd) (p : Fd) : Nat := s.completions.countP fun c => c.origin.peer f = some p

def total (s : Epoll) (f : Fd) (k : Nat) : Nat :=
  s.finished f k+(s.state f).outstanding.count k+(s.discarded f).count k

/-- The accounts of one descriptor: each submitted operation is in one place, and each accepted
descriptor has been reported. -/
structure Tally (s : Epoll) (f : Fd) : Prop where
  ops : ∀ k, s.total f k = if k < s.serials f then 1 else 0
  peers : ∀ p, s.announced f p = (s.acceptedFds f).count p

namespace FdState
variable (st : FdState)

lemma count_outstanding (k : Nat) : st.outstanding.count k =
    (if st.recvArmed ∧ st.recvSerial = k then 1 else 0)+st.sendq.countP (fun req => req.serial = k)+
    if st.connectPending ∧ st.connectSerial = k then 1 else 0 := by
  have recv : (if st.recvArmed then [st.recvSerial] else []).count k =
      if st.recvArmed ∧ st.recvSerial = k then 1 else 0 := by
    cases st.recvArmed <;> simp [count_singleton]
  have connect : (if st.connectPending then [st.connectSerial] else []).count k =
      if st.connectPending ∧ st.connectSerial = k then 1 else 0 := by
    cases st.connectPending <;> simp [count_singleton]
  have sends : (st.sendq.map (·.serial)).count k = st.sendq.countP fun req => req.serial = k := by
    rw [count_eq_countP,countP_map]
    rfl
  rw [outstanding,count_append,count_append,recv,connect,sends]

lemma cancelled_count (user : UserData) (f : Fd) (k : Nat) : (st.without user).outstanding.count k+
    (st.cancelled user f).countP (fun c => c.origin.oneShot f = some k) =
    st.outstanding.count k := by
  have sends := countP_eq_countP_filter_add st.sendq (fun req => req.serial = k) fun req => req.user == user
  simp only [count_outstanding,without,cancelled,countP_append,countP_map,
    comp_def,Origin.oneShot,if_true,Option.some.injEq,sends]
  have recv : (if (st.recvArmed && st.recvUd != user) ∧ st.recvSerial = k then 1 else 0)+
      (if st.recvArmed ∧ st.recvUd = user then
        [(⟨user,-ecanceled,.recv f st.recvSerial []⟩ : Completion)] else []).countP
          (fun c => c.origin.oneShot f = some k) =
      if st.recvArmed ∧ st.recvSerial = k then 1 else 0 := by
    by_cases own : st.recvUd = user <;> cases st.recvArmed <;> simp [own,countP_singleton,Origin.oneShot]
  have accept : (if st.acceptArmed ∧ st.acceptUd = user then
      [(⟨user,-ecanceled,.acceptCancelled f⟩ : Completion)] else []).countP
        (fun c => c.origin.oneShot f = some k) = 0 := by
    split <;> simp [Origin.oneShot]
  have connect : (if (st.connectPending && st.connectUd != user) ∧ st.connectSerial = k then 1 else 0)+
      (if st.connectPending ∧ st.connectUd = user then
        [(⟨user,-ecanceled,.connect f st.connectSerial⟩ : Completion)] else []).countP
          (fun c => c.origin.oneShot f = some k) =
      if st.connectPending ∧ st.connectSerial = k then 1 else 0 := by
    by_cases own : st.connectUd = user <;> cases st.connectPending <;> simp [own,countP_singleton,Origin.oneShot]
  simp only [Origin.oneShot] at recv accept connect
  rw [← recv,← connect,accept]
  simp only [bne]
  omega

lemma cancelled_origin {user : UserData} {fd : Fd} {c : Completion} (done : c ∈ st.cancelled user fd) (f : Fd) :
    c.origin.peer f = none ∧ (f ≠ fd → c.origin.oneShot f = none) := by
  simp only [cancelled,mem_append,mem_ite_nil_right,mem_singleton,mem_map] at done
  obtain ((⟨_,rfl⟩ | ⟨_,_,rfl⟩) | ⟨_,rfl⟩) | ⟨_,rfl⟩ := done
  · exact ⟨rfl,fun other => if_neg other.symm⟩
  · exact ⟨rfl,fun other => if_neg other.symm⟩
  · exact ⟨rfl,fun _ => rfl⟩
  · exact ⟨rfl,fun other => if_neg other.symm⟩
end FdState

/-- A change of state that keeps the accounts of a descriptor: what is opened in the count of
operations is opened in the accounts. -/
structure Keeps (s s' : Epoll) (f : Fd) : Prop where
  ops : ∀ k, s'.total f k+(if k < s.serials f then 1 else 0) = s.total f k+(if k < s'.serials f then 1 else 0)
  peers : ∀ p, s'.announced f p+(s.acceptedFds f).count p = s.announced f p+(s'.acceptedFds f).count p

namespace Keeps
variable {s s' s'' : Epoll} {f fd : Fd}

lemma refl (s : Epoll) (f : Fd) : Keeps s s f := ⟨fun _ => rfl,fun _ => rfl⟩

lemma trans (first : Keeps s s' f) (second : Keeps s' s'' f) : Keeps s s'' f := by
  constructor
  · intro k
    have one := first.ops k
    have two := second.ops k
    omega
  intro p
  have one := first.peers p
  have two := second.peers p
  omega

lemma tally (keeps : Keeps s s' f) (tally : Tally s f) : Tally s' f := by
  constructor
  · intro k
    have one := keeps.ops k
    have two := tally.ops k
    omega
  intro p
  have one := keeps.peers p
  have two := tally.peers p
  omega

lemma of_eq (completions : s'.completions = s.completions) (state : s'.state f = s.state f)
    (discarded : s'.discarded f = s.discarded f) (serials : s'.serials f = s.serials f)
    (accepted : s'.acceptedFds f = s.acceptedFds f) : Keeps s s' f := by
  constructor
  · intro k
    simp only [total,finished,completions,state,discarded,serials]
  intro p
  simp only [announced,completions,accepted]

lemma of_socket {sock : Socket} (keeps : Keeps (s.setSocket fd sock) s' f) : Keeps s s' f := by
  have written : Keeps s (s.setSocket fd sock) f := .of_eq rfl rfl rfl rfl rfl
  exact written.trans keeps
end Keeps
section
variable (s : Epoll) (f fd : Fd) (st : FdState) (c : Completion) (cs : List Completion)

lemma total_push (k : Nat) : (s.push c).total f k = s.total f k+if c.origin.oneShot f = some k then 1 else 0 := by
  simp only [total,finished,completions,push,countP_append,countP_singleton,decide_eq_true_eq]
  change _+(s.state f).outstanding.count k+_ = _
  omega

lemma total_queueAll (k : Nat) : (s.queueAll cs).total f k =
    s.total f k+cs.countP fun c => c.origin.oneShot f = some k := by
  simp only [total,finished,completions,queueAll,countP_append]
  change _+(s.state f).outstanding.count k+_ = _
  omega

lemma announced_push (p : Fd) : (s.push c).announced f p =
    s.announced f p+if c.origin.peer f = some p then 1 else 0 := by
  simp only [announced,completions,push,countP_append,countP_singleton,decide_eq_true_eq]
  omega

lemma announced_queueAll (p : Fd) : (s.queueAll cs).announced f p =
    s.announced f p+cs.countP fun c => c.origin.peer f = some p := by
  simp only [announced,completions,queueAll,countP_append]
  omega

lemma total_setFd (k : Nat) : (s.setFd fd st).total f k+(if f = fd then (s.state fd).outstanding.count k else 0) =
    s.total f k+(if f = fd then st.outstanding.count k else 0) := by
  simp only [total,state_setFd]
  change s.finished f k+_+(s.discarded f).count k+_ = _
  split
  next same =>
    subst same
    omega
  · omega

lemma serials_countOp : (s.countOp fd).serials f = s.serials f+if f = fd then 1 else 0 := by
  simp only [countOp,update_apply]
  split
  next same => rw [same]
  · rfl
end

lemma own_count (f fd : Fd) (serial k : Nat) : (if (if fd = f then some serial else none) = some k then 1 else 0) =
    if f = fd then (if serial = k then 1 else 0) else 0 := by
  by_cases same : f = fd
  · simp [same]
  · simp [same,Ne.symm same]

section
variable {s : Epoll} {f fd : Fd} {st : FdState} {c : Completion} {ev : Events}

lemma keeps_setFd (same : st.outstanding = (s.state fd).outstanding) : Keeps s (s.setFd fd st) f := by
  refine ⟨?_,fun _ => rfl⟩
  intro k
  have moved := total_setFd s f fd st k
  rw [same] at moved
  change (s.setFd fd st).total f k+_ = s.total f k+(if k < s.serials f then 1 else 0)
  omega

lemma keeps_emit (serial : c.origin.oneShot f = none) (peer : c.origin.peer f = none) : Keeps s (s.emit c fd ev) f := by
  unfold emit
  split
  · exact .of_eq rfl rfl rfl rfl rfl
  constructor
  · intro k
    rw [total_push,serial]
    rfl
  intro p
  rw [announced_push,peer]
  rfl

lemma emit_of_room (room : s.full = false) : s.emit c fd ev = s.push c := by
  rw [emit,if_neg]
  simp [room]

lemma keeps_complete {serial : Nat} (room : s.full = false)
    (origin : ∀ f, c.origin.oneShot f = if fd = f then some serial else none) (peer : ∀ f, c.origin.peer f = none)
    (left : ∀ k, st.outstanding.count k+(if serial = k then 1 else 0) = (s.state fd).outstanding.count k) :
    Keeps s ((s.setFd fd st).emit c fd ev) f := by
  rw [emit_of_room (s := s.setFd fd st) room]
  constructor
  · intro k
    have moved := total_setFd s f fd st k
    have counts := left k
    rw [total_push,origin,own_count]
    change _+(if k < s.serials f then 1 else 0) = s.total f k+(if k < s.serials f then 1 else 0)
    by_cases same : f = fd
    · simp only [if_pos same] at moved ⊢
      omega
    simp only [if_neg same] at moved ⊢
    omega
  intro p
  rw [announced_push,peer]
  rfl

lemma keeps_open (more : ∀ k, st.outstanding.count k =
    (s.state fd).outstanding.count k+if s.serials fd = k then 1 else 0) :
    Keeps s ((s.countOp fd).setFd fd st) f := by
  refine ⟨?_,fun _ => rfl⟩
  intro k
  have moved := total_setFd (s.countOp fd) f fd st k
  have counts := more k
  change _+(if f = fd then (s.state fd).outstanding.count k else 0) = s.total f k+_ at moved
  change _+_ = _+(if k < (s.countOp fd).serials f then 1 else 0)
  rw [serials_countOp]
  by_cases same : f = fd
  · subst same
    simp only [if_true] at moved ⊢
    split_ifs at counts ⊢ <;> omega
  simp only [if_neg same,Nat.add_zero] at moved ⊢
  omega

lemma keeps_enter {add : Bool} {serial : Nat} (more : ∀ k, st.outstanding.count k =
    (s.state fd).outstanding.count k+if s.serials fd = k then 1 else 0) :
    Keeps s ((s.countOp fd).enter fd st serial add).1 f := by
  have entered : Keeps s ((s.countOp fd).setFd fd (st.request add).1) f := by
    apply keeps_open
    rw [FdState.request_outstanding]
    exact more
  unfold enter
  dsimp only
  split
  · exact entered
  · exact entered.trans (.of_eq rfl rfl rfl rfl rfl)

lemma keeps_instant (same : st.outstanding = (s.state fd).outstanding)
    (origin : ∀ f, c.origin.oneShot f = if fd = f then some (s.serials fd) else none)
    (peer : ∀ f, c.origin.peer f = none) : Keeps s (((s.countOp fd).setFd fd st).queueCompletion c) f := by
  have entered : Keeps (s.countOp fd) ((s.countOp fd).setFd fd st) f := keeps_setFd same
  unfold queueCompletion
  constructor
  · intro k
    have kept := entered.ops k
    rw [total_queueAll,countP_singleton]
    simp only [decide_eq_true_eq]
    rw [origin,own_count]
    change _+_ = s.total f k+(if k < (s.countOp fd).serials f then 1 else 0) at kept
    change _+_ = _+(if k < (s.countOp fd).serials f then 1 else 0)
    rw [serials_countOp] at kept ⊢
    by_cases at' : f = fd
    · subst at'
      simp only [if_true] at kept ⊢
      split_ifs at kept ⊢ <;> omega
    simp only [if_neg at',Nat.add_zero] at kept ⊢
    omega
  intro p
  rw [announced_queueAll,countP_singleton]
  simp only [decide_eq_true_eq]
  rw [peer]
  rfl
end
section
variable {s : Epoll} {f : Fd}

lemma attach_keeps (fd : Fd) (interest : Interest) (user : UserData) (add : Bool) :
    Keeps s (s.attach fd interest user add).1 f :=
  keeps_setFd (FdState.request_outstanding _ _)

variable (user : UserData)
section
variable (fd : Fd)

lemma submitAccept_keeps (add : Bool) : Keeps s (s.submitAccept user fd add).1 f :=
  keeps_setFd (FdState.request_outstanding _ _)

lemma modify_keeps (interest : Interest) (user : UserData) : Keeps s (s.modify fd interest user).1 f := by
  unfold modify
  split
  · exact .refl s f
  next known =>
  apply keeps_setFd
  rw [FdState.updateEvents_outstanding,state_of_fds known]
  rfl

lemma detach_keeps : Keeps s (s.detach fd) f := by
  unfold detach
  split
  · exact .refl s f
  next known =>
  by_cases same : f = fd
  · subst same
    refine ⟨?_,fun _ => rfl⟩
    intro k
    have held := state_of_fds known
    simp only [total,held,update_self,count_append]
    simp only [state,update_self,Option.getD_none]
    change s.finished f k+0+_+_ = _
    omega
  apply Keeps.of_eq
  · rfl
  · simp only [state,update_of_ne same]
  · exact update_of_ne same _ _
  · rfl
  · rfl

lemma submitRecv_keeps (len : Nat) (add : Bool) : Keeps s (s.submitRecv user fd len add).1 f := by
  unfold submitRecv
  dsimp only
  split
  · exact keeps_setFd rfl
  next disarmed =>
  apply keeps_enter
  intro k
  simp only [FdState.count_outstanding,disarmed]
  simp
  omega

lemma sendTail_keeps (bytes : Bytes) (sent : Nat) (add : Bool) (queue : (s.state fd).sendq = []) :
    Keeps s ((s.countOp fd).sendTail user fd (s.state fd) bytes (s.serials fd) sent add).1 f := by
  let sock := s.sockets fd
  let s' := s.setSocket fd { sock with wire := sock.wire++bytes.take sent }
  unfold sendTail
  apply Keeps.of_socket
  split
  · exact keeps_instant rfl (fun _ => rfl) fun _ => rfl
  apply keeps_enter
  intro k
  change _ = (s.state fd).outstanding.count k+_
  simp only [FdState.count_outstanding,queue,countP_nil,countP_singleton, decide_eq_true_eq]
  change _+(if s.serials fd = k then 1 else 0)+_ = _+(if s.serials fd = k then 1 else 0)
  omega

lemma submitSendv_keeps (iov : List Bytes) (reply : SendReply)
    (add : Bool) : Keeps s (s.submitSendv user fd iov reply add).1 f := by
  unfold submitSendv
  dsimp only
  split
  · apply keeps_open
    intro k
    rw [FdState.updateEvents_outstanding]
    simp only [FdState.count_outstanding,countP_append,countP_singleton,decide_eq_true_eq]
    omega
  next empty =>
  have queue : (s.state fd).sendq = [] := by simpa using empty
  cases reply with
  | wrote | again => exact sendTail_keeps _ _ _ _ _ queue
  | intr | error => exact keeps_instant rfl (fun _ => rfl) fun _ => rfl

lemma submitConnect_keeps (reply : ConnectReply) (add : Bool)
    (free : reply = .inProgress → (s.state fd).connectPending = false) :
    Keeps s (s.submitConnect user fd reply add).1 f := by
  cases reply with
  | ok | error => exact keeps_instant rfl (fun _ => rfl) fun _ => rfl
  | inProgress =>
    apply keeps_enter
    intro k
    have idle := free rfl
    simp only [FdState.count_outstanding,idle]
    simp

lemma cancelAt_keeps : Keeps s (s.cancelAt user fd) f := by
  unfold cancelAt
  split
  · exact .refl s f
  next st known =>
  have held := state_of_fds known
  have left : (if (st.cancelled user fd).isEmpty then st.without user
      else (st.without user).updateEvents).outstanding = (st.without user).outstanding := by
    split
    · rfl
    · exact FdState.updateEvents_outstanding _
  constructor
  · intro k
    have moved := total_setFd s f fd (if (st.cancelled user fd).isEmpty then st.without user
      else (st.without user).updateEvents) k
    rw [left,held] at moved
    rw [total_queueAll]
    change _+(if k < s.serials f then 1 else 0) = _+(if k < s.serials f then 1 else 0)
    by_cases same : f = fd
    · subst same
      have counts := st.cancelled_count user f k
      simp only [if_true] at moved
      omega
    have none' : (st.cancelled user fd).countP (fun c => c.origin.oneShot f = some k) = 0 := by
      rw [countP_eq_zero]
      intro c done
      rw [(st.cancelled_origin done f).2 same]
      simp
    simp only [if_neg same] at moved
    omega
  intro p
  have none' : (st.cancelled user fd).countP (fun c => c.origin.peer f = some p) = 0 := by
    rw [countP_eq_zero]
    intro c done
    rw [(st.cancelled_origin done f).1]
    simp
  rw [announced_queueAll,none']
  rfl
end

lemma cancel_keeps (order : List Fd) : Keeps s (order.foldl (fun s fd => s.cancelAt user fd) s) f := by
  induction order generalizing s with
  | nil => exact .refl s f
  | cons fd _ rest => exact (cancelAt_keeps user fd).trans rest
end

def SendReply.ends (req : SendReq) : SendReply → Bool
  | .error _ => true
  | .wrote n => req.off+cut n (req.bytes.length-req.off) == req.bytes.length
  | .again | .intr => false

section
variable {s : Epoll} {f : Fd} {fd : Fd}

lemma keeps_recv {user : UserData} {result : Int} {data : Bytes} {ev ev' : Events} (armed : (s.state fd).recvArmed) :
    Keeps s (if s.full then (s.setFd fd (s.state fd).updateEvents).postpone fd ev
    else (s.setFd fd { s.state fd with recvArmed := false }.updateEvents).emit
        ⟨user,result,.recv fd (s.state fd).recvSerial data⟩ fd ev') f := by
  split
  · refine Keeps.trans (keeps_setFd ?_) (.of_eq rfl rfl rfl rfl rfl)
    exact FdState.updateEvents_outstanding _
  next room =>
  apply keeps_complete (Bool.eq_false_iff.2 room) (fun _ => rfl) (fun _ => rfl)
  intro k
  rw [FdState.updateEvents_outstanding]
  simp only [FdState.count_outstanding,armed]
  simp
  omega

lemma onErrorish_keeps (ev : Events) (err : Nat) : Keeps s (s.onErrorish fd (s.state fd) ev err) f := by
  unfold onErrorish
  split
  · exact keeps_recv ‹_›
  split
  · exact keeps_emit rfl rfl
  · exact .refl s f

lemma watchReadable_keeps (st : FdState) (ev : Events) : Keeps s (s.watchReadable fd st ev) f := by
  unfold watchReadable
  split
  · exact keeps_emit rfl rfl
  · exact .refl s f

lemma watchWritable_keeps (st : FdState) : Keeps s (s.watchWritable fd st) f := by
  unfold watchWritable
  split
  · exact keeps_emit rfl rfl
  · exact .refl s f

lemma onAccept_keeps (st : FdState) (count : Nat) (peer : Option Fd)
    (room : peer.isSome → s.full = false) : Keeps s (s.onAccept fd st count peer).1 f := by
  cases peer with
  | none => exact .refl s f
  | some peer =>
    have free : (s.noteAccepted fd peer).full = false := room rfl
    unfold onAccept
    dsimp only
    rw [if_neg (Bool.eq_false_iff.1 free),emit_of_room free]
    constructor
    · intro k
      rw [total_push]
      rfl
    intro p
    rw [announced_push]
    change s.announced f p+_+_ = s.announced f p+((s.noteAccepted fd peer).acceptedFds f).count p
    simp only [Origin.peer,noteAccepted,update_apply]
    by_cases same : f = fd
    · subst same
      simp only [if_true,count_append,count_singleton,Option.some.injEq,beq_iff_eq]
      omega
    · simp [same,Ne.symm same]

lemma onRecv_keeps (data : Bytes) (reply : RecvReply) (armed : (s.state fd).recvArmed) :
    Keeps s (s.onRecv fd (s.state fd) data reply).1 f := by
  unfold onRecv
  split
  · exact keeps_recv armed
  cases reply with
  | chunk => exact .of_eq rfl rfl rfl rfl rfl
  | eof | error => exact keeps_recv armed
  | again =>
    dsimp only
    split
    · exact keeps_setFd rfl
    · exact keeps_recv armed
  | intr => exact .refl s f

lemma onConnected_keeps (err : Nat) (room : (s.state fd).connectPending → s.full = false) :
    Keeps s (s.onConnected fd (s.state fd) err) f := by
  unfold onConnected
  split
  next pending =>
    apply keeps_complete (room pending) (fun _ => rfl) (fun _ => rfl)
    intro k
    rw [FdState.updateEvents_outstanding]
    simp only [FdState.count_outstanding,pending]
    simp
  · exact .refl s f

lemma onSend_keeps (req : SendReq) (queue : List SendReq) (reply : SendReply)
    (queued : (s.state fd).sendq = req::queue) (room : reply.ends req → s.full = false) :
    Keeps s (s.onSend fd (s.state fd) req queue reply).1 f := by
  have popped : ∀ k, ({ s.state fd with sendq := queue } : FdState).updateEvents.outstanding.count k+
      (if req.serial = k then 1 else 0) = (s.state fd).outstanding.count k := by
    intro k
    rw [FdState.updateEvents_outstanding]
    simp only [FdState.count_outstanding,queued,countP_cons,decide_eq_true_eq]
    omega
  cases reply with
  | intr => exact .refl s f
  | again => exact keeps_setFd rfl
  | error => exact keeps_complete (room rfl) (fun _ => rfl) (fun _ => rfl) popped
  | wrote =>
    unfold onSend
    dsimp only
    split
    next last =>
      apply Keeps.of_socket
      exact keeps_complete (room (by simp [SendReply.ends,last])) (fun _ => rfl) (fun _ => rfl) popped
    · apply Keeps.of_socket
      apply keeps_setFd
      change _ = (s.state fd).outstanding
      simp only [FdState.outstanding,queued]
      rfl
end

/-- Nothing is dropped that cannot be reported at once, no connect replaces one that is pending, and no send relies on a
registration that failed. -/
def Action.spacious (s : Epoll) : Action → Bool
  | .submitConnect _ fd .inProgress _ => !(s.state fd).connectPending
  | .dispatch (.accept (some _)) => !s.full
  | .dispatch (.writable _) =>
    match s.phase with
    | .dispatch fd ev _ _ => !(ev.output && (s.state fd).connectPending) || !s.full
    | _ => true
  | .dispatch (.send reply) =>
    match s.phase with
    | .dispatch fd _ _ _ => !((s.state fd).sendq.head?.any reply.ends) || !s.full
    | _ => true
  | a => a.behind s

section
variable {s s' : Epoll} {a : Action} {f : Fd}

lemma beginWait_keeps (cap : Nat) (empty : s.out = []) : Keeps s (s.beginWait cap) f := by
  have kept : s.reaped++s.ready.take cap++s.ready.drop cap = s.completions := by simp [completions,empty,append_assoc]
  unfold beginWait
  dsimp only
  split
  · refine .of_eq ?_ rfl rfl rfl rfl
    rw [← kept]
    simp [completions,finishWait]
  · exact .of_eq kept rfl rfl rfl rfl

lemma finishWait_keeps : Keeps s s.finishWait f := by
  refine .of_eq ?_ rfl rfl rfl rfl
  simp [completions,finishWait]

lemma call_keeps (called : s.call a = some s') (spacious : a.spacious s) (empty : s.out = []) : Keeps s s' f := by
  unfold call at called
  split at called
  · cases called
    exact attach_keeps _ _ _ _
  · cases called
    exact modify_keeps _ _ _
  · cases called
    exact detach_keeps _
  · cases called
    exact submitRecv_keeps _ _ _ _
  · split at called
    · cases called
      exact submitSendv_keeps _ _ _ _ _
    · cases called
  · cases called
    exact submitAccept_keeps _ _ _
  · split at called
    · cases called
      apply submitConnect_keeps
      rintro rfl
      simpa [Action.spacious] using spacious
    · cases called
  · cases called
    exact cancel_keeps _ _
  · split at called
    · cases called
      exact beginWait_keeps _ empty
    · cases called
  · cases called

lemma network_keeps (came : s.network a = some s') : Keeps s s' f := by
  unfold network at came
  split at came
  · dsimp only at came
    split at came
    · cases came
    cases came
    exact .of_eq rfl rfl rfl rfl rfl
  · cases came
    exact .of_eq rfl rfl rfl rfl rfl
  · cases came

lemma report_keeps (events : List (Fd × Events)) : Keeps s (s.report events) f := by
  have same : ((s.report events).state f).outstanding = (s.state f).outstanding := by
    cases known : s.fds f with
    | none => simp [state,report,known]
    | some => simp [state,report,known,FdState.outstanding]
  refine ⟨?_,fun _ => rfl⟩
  intro k
  simp only [total,same]
  rfl

lemma nextPending_keeps : Keeps s s.nextPending f := by
  unfold nextPending
  split
  · exact finishWait_keeps
  split
  · exact .of_eq rfl rfl rfl rfl rfl
  dsimp only
  split <;> exact .of_eq rfl rfl rfl rfl rfl

lemma nextEvent_keeps (rest : List (Fd × Events)) : Keeps s (s.nextEvent rest) f := by
  cases rest with
  | nil => exact finishWait_keeps
  | cons =>
    unfold nextEvent
    dsimp only
    split_ifs <;> exact .of_eq rfl rfl rfl rfl rfl

lemma keeps_goto {t : Epoll} {fd : Fd} {ev : Events} {stage : Stage}
    {rest : Option (List (Fd × Events))} (keeps : Keeps s t f) : Keeps s (t.goto fd ev stage rest) f :=
  keeps.trans (.of_eq rfl rfl rfl rfl rfl)

lemma keeps_leave {t : Epoll} {rest : Option (List (Fd × Events))} (keeps : Keeps s t f) : Keeps s (t.leave rest) f :=
  keeps.trans (.of_eq rfl rfl rfl rfl rfl)

lemma turn_keeps (turn : Turn s a s') (placed : Placed s) (spacious : a.spacious s) : Keeps s s' f := by
  cases turn with
  | network came => exact network_keeps came
  | call idle called => exact call_keeps called spacious (placed.idle idle)
  | pending => exact nextPending_keeps
  | poll => exact report_keeps _
  | event => exact nextEvent_keeps _
  | errorish =>
    apply keeps_goto
    split
    · exact onErrorish_keeps _ _
    · exact .refl s f
  | readable => exact keeps_goto (watchReadable_keeps _ _)
  | @accept _ _ _ _ peer _ =>
    apply keeps_goto
    apply onAccept_keeps
    cases peer with
    | none => exact nofun
    | some => simpa [Action.spacious] using spacious
  | recv at' => exact keeps_goto (onRecv_keeps _ _ (placed.receiving at'))
  | unwritable => exact keeps_leave (.refl s f)
  | writable at' output =>
    apply keeps_goto
    apply onConnected_keeps
    intro pending
    simpa [Action.spacious,at',output,pending] using spacious
  | send at' front =>
    apply keeps_goto
    apply onSend_keeps _ _ _ front
    intro ends
    simpa [Action.spacious,at',front,ends] using spacious
  | sent => exact keeps_goto (.refl s f)
  | watch => exact keeps_leave (watchWritable_keeps _)
end

lemma spacious_behind {s : Epoll} {a : Action} (spacious : a.spacious s) : a.behind s := by
  cases a with
  | submitSendv => exact spacious
  | _ => rfl

lemma run_tallies {s : Epoll} {actions : List Action}
    (run : Exec (Guarded Step fun s a => a.spacious s) create actions s) :
    Placed s ∧ ∀ f, s.Tally f ∧ s.Attended f := by
  apply run.invariant (fun s => Placed s ∧ ∀ f, s.Tally f ∧ s.Attended f)
  · intro s a s' moved before
    obtain ⟨placed,held⟩ := before
    have turn := step_turn moved.2
    refine ⟨turn_placed turn placed,?_⟩
    intro f
    have kept : Keeps s s' f := turn_keeps turn placed moved.1
    exact ⟨kept.tally (held f).1, turn_attended turn placed (spacious_behind moved.1) fun f => (held f).2⟩
  refine ⟨⟨fun _ => rfl,nofun,nofun⟩,?_⟩
  exact fun f => ⟨⟨fun _ => rfl,fun _ => rfl⟩,⟨nofun,nofun,nofun,nofun⟩⟩

/-- Without a dropped report, every one-shot operation was completed once, waits, or ended with a detachment, and what
waits cannot miss its readiness. -/
theorem oneShots_complete_once {s : Epoll} {actions : List Action}
    (run : Exec (Guarded Step fun s a => a.spacious s) create actions s) (f : Fd) :
    (∀ k < s.serials f, s.finished f k+(s.state f).outstanding.count k+(s.discarded f).count k = 1) ∧
      (∀ p, s.announced f p = (s.acceptedFds f).count p) ∧ s.Attended f := by
  obtain ⟨tally,attended⟩ := (run_tallies run).2 f
  refine ⟨?_,tally.peers,attended⟩
  intro k submitted
  have counted := tally.ops k
  rw [if_pos submitted] at counted
  exact counted

def bothReady (cap : Nat) : List Action :=
  [.submitRecv 1 5 4 true,.submitSendv 2 5 [[1,2]] .again true,.arrive 5 [7],.wait cap,.pending,
    .poll [(5,{ input := true, output := true })],.event,.dispatch (.errorish 0),.dispatch .readable,
    .dispatch (.recv (.chunk 1)),.dispatch (.recv .again),.dispatch (.writable 0),
    .dispatch (.send (.wrote 2)),.dispatch .sent,.dispatch .watch,.event]

theorem bothReady_complete : ∃ s : Epoll,
    Exec (Guarded Step fun s a => a.spacious s) create (bothReady 2) s ∧ s.serials 5 = 2 ∧
      s.finished 5 0 = 1 ∧ s.finished 5 1 = 1 := by
  refine Exec.shown_of_drive (P := fun s => s.serials 5 = 2 ∧ (s.state 5).outstanding = [] ∧
    s.discarded 5 = []) (by decide +kernel) ?_
  rintro s run ⟨serials,waiting,discarded⟩
  have once := (oneShots_complete_once run 5).1
  simp only [serials,waiting,discarded,count_nil,Nat.add_zero] at once
  exact ⟨serials,once 0 (by decide),once 1 (by decide)⟩

/-- With room for one completion the send is written and forgotten. -/
theorem bothReady_loses : ∃ s : Epoll, Exec Step create (bothReady 1) s ∧ s.phase = .idle ∧
    s.serials 5 = 2 ∧ (s.sockets 5).wire = [1,2] ∧ s.finished 5 1 = 0 ∧
      (s.state 5).outstanding = [] ∧ s.discarded 5 = [] :=
  Exec.run_of_drive (by decide +kernel) fun _ _ => id

end AffiniX.Epoll
