import AffiniX.EpollReadiness

/-! What the receive completions of a descriptor hand out of its byte stream. -/
namespace AffiniX.Epoll
open Transition Function List Completion

def Completion.bytes (f : Fd) (c : Completion) : Bytes := match c.origin with
  | .recv fd _ data => if fd = f ∧ 0 < c.result then data.take c.result.toNat else []
  | .watch _ | .send _ _ _ | .connect _ _ | .accepted _ _ | .acceptCancelled _ => []

def Completion.eof (f : Fd) (c : Completion) : Bool := match c.origin with
  | .recv fd _ _ => fd = f ∧ c.result = 0
  | .watch _ | .send _ _ _ | .connect _ _ | .accepted _ _ | .acceptCancelled _ => false

def handed (s : Epoll) : List Completion := s.reaped++s.out

def received (s : Epoll) (f : Fd) : Bytes := s.handed.flatMap (bytes f)

def inTransit (s : Epoll) (f : Fd) : Bytes := match s.phase with
  | .dispatch fd _ (.receiving data) _ => if fd = f then data else []
  | _ => []

def Completion.Silent (f : Fd) (c : Completion) : Prop := c.bytes f = [] ∧ c.eof f = false

structure Intact (s : Epoll) (f : Fd) : Prop where
  flow : s.received f++s.inTransit f++(s.sockets f).inbox = (s.sockets f).stream
  ready : ∀ c ∈ s.ready, c.Silent f
  eof : ∀ before c after, s.handed = before++c::after → c.eof f →
    (s.sockets f).fin ∧ before.flatMap (bytes f) = (s.sockets f).stream

structure Quiet (s s' : Epoll) (f : Fd) : Prop where
  stream : (s'.sockets f).stream = (s.sockets f).stream
  inbox : (s'.sockets f).inbox = (s.sockets f).inbox
  fin : (s'.sockets f).fin = (s.sockets f).fin
  handed : ∃ cs, s'.handed = s.handed++cs ∧ ∀ c ∈ cs, c.Silent f
  ready : ∀ c ∈ s'.ready, c ∈ s.ready ∨ c.Silent f

lemma splits_before {α : Type*} {xs ys before after : List α} {x : α}
    (split : xs++ys = before++x::after) (old : x ∉ ys) : ∃ rest, xs = before++x::rest := by
  obtain ⟨rest,_,tail⟩ | ⟨rest,whole,tail⟩ := append_eq_append_iff.1 split
  · rw [tail] at old
    exact absurd (mem_append_right _ mem_cons_self) old
  cases rest with
  | nil =>
    rw [← show x::after = ys from tail] at old
    exact absurd mem_cons_self old
  | cons y rest =>
    cases tail
    exact ⟨rest,whole⟩

section
variable {s s' s'' : Epoll} {f fd : Fd} {c : Completion} {ev : Events}
namespace Quiet
lemma refl (s : Epoll) (f : Fd) : Quiet s s f := ⟨rfl,rfl,rfl,⟨[],by simp,nofun⟩,fun _ waits => .inl waits⟩

lemma trans (first : Quiet s s' f) (second : Quiet s' s'' f) : Quiet s s'' f := by
  obtain ⟨cs,one,silent⟩ := first.handed
  obtain ⟨ds,two,silent'⟩ := second.handed
  refine ⟨second.stream.trans first.stream,second.inbox.trans first.inbox,second.fin.trans first.fin,
    ⟨cs++ds,by rw [two,one,append_assoc],?_⟩,?_⟩
  · intro c added
    exact (mem_append.1 added).elim (silent c) (silent' c)
  intro c waits
  exact (second.ready c waits).elim (first.ready c) .inr

lemma of_eq (sockets : s'.sockets = s.sockets) (handed : s'.handed = s.handed)
    (ready : s'.ready = s.ready) : Quiet s s' f := by
  refine ⟨by rw [sockets],by rw [sockets],by rw [sockets],⟨[],?_,nofun⟩,?_⟩
  · rw [handed,append_nil]
  rw [ready]
  exact fun _ => .inl

lemma emit (quiet : Quiet s s' f) (silent : c.Silent f) : Quiet s (s'.emit c fd ev) f := by
  apply quiet.trans
  unfold Epoll.emit
  split
  · exact .of_eq rfl rfl rfl
  refine ⟨rfl,rfl,rfl,⟨[c],?_,?_⟩,fun _ => .inl⟩
  · simp [Epoll.handed,push]
  · simpa using silent

lemma queueAll {cs : List Completion} (quiet : Quiet s s' f) (silent : ∀ c ∈ cs, c.Silent f) :
    Quiet s (s'.queueAll cs) f := by
  apply quiet.trans
  refine ⟨rfl,rfl,rfl,⟨[],by simp [Epoll.handed,Epoll.queueAll],nofun⟩,?_⟩
  intro c waits
  exact (mem_append.1 waits).imp_right (silent c)

lemma intact (quiet : Quiet s s' f) (transit : s'.inTransit f = s.inTransit f) (intact : s.Intact f) : s'.Intact f := by
  obtain ⟨cs,handed,silent⟩ := quiet.handed
  have nothing : cs.flatMap (bytes f) = [] := by
    rw [flatMap_eq_nil_iff]
    exact fun c added => (silent c added).1
  constructor
  · rw [received,handed,flatMap_append,nothing,append_nil,transit,quiet.inbox,quiet.stream]
    exact intact.flow
  · exact fun c waits => (quiet.ready c waits).elim (intact.ready c) id
  intro before c _ split ends
  rw [quiet.fin,quiet.stream]
  rw [handed] at split
  have old : c ∉ cs := by
    intro added
    rw [(silent c added).2] at ends
    cases ends
  obtain ⟨rest,earlier⟩ := splits_before split old
  exact intact.eof before c rest earlier ends
end Quiet
end
section
variable {s s' : Epoll} {a : Action} {f : Fd}

lemma silent_of_neg {user : UserData} {result : Int} {fd : Fd} {serial : Nat} {data : Bytes}
    (failed : result < 0) : Silent f ⟨user,result,.recv fd serial data⟩ := by
  constructor
  · exact if_neg fun both => absurd both.2 (Int.not_lt.2 (Int.le_of_lt failed))
  simp only [eof,decide_eq_false_iff_not]
  omega

lemma silent_of_other {user : UserData} {result : Int} {fd : Fd} {serial : Nat} {data : Bytes}
    (other : f ≠ fd) : Silent f ⟨user,result,.recv fd serial data⟩ := by
  constructor
  · exact if_neg fun both => other both.1.symm
  simp only [eof,decide_eq_false_iff_not]
  exact fun both => other both.1.symm

lemma enter_quiet (fd : Fd) (st : FdState) (serial : Nat) (add : Bool) : Quiet s (s.enter fd st serial add).1 f := by
  unfold enter
  dsimp only
  split <;> exact .of_eq rfl rfl rfl

lemma wire_quiet (fd : Fd) (wire : Bytes) : Quiet s (s.setSocket fd { s.sockets fd with wire := wire }) f := by
  have same : (s.setSocket fd { s.sockets fd with wire := wire }).sockets f =
      { s.sockets f with wire := if f = fd then wire else (s.sockets f).wire } := by
    simp only [setSocket,update_apply]
    split
    next equal => rw [equal]
    · rfl
  exact ⟨by rw [same],by rw [same],by rw [same],⟨[],by simp [handed,setSocket],nofun⟩,fun _ => .inl⟩

section
variable (user : UserData)

lemma submitSendv_quiet (fd : Fd) (iov : List Bytes) (reply : SendReply)
    (add : Bool) : Quiet s (s.submitSendv user fd iov reply add).1 f := by
  have tail (sent : Nat) : Quiet s ((s.countOp fd).sendTail user fd (s.state fd) iov.flatten
      (s.serials fd) sent add).1 f := by
    have counted : Quiet s (s.countOp fd) f := .of_eq rfl rfl rfl
    apply counted.trans
    unfold sendTail
    apply (wire_quiet fd ((s.sockets fd).wire++iov.flatten.take sent)).trans
    dsimp only
    split
    · exact Quiet.queueAll (.of_eq rfl rfl rfl) (by simp [Silent,bytes,eof])
    · exact enter_quiet fd _ _ add
  have instant (c : Completion) (silent : c.Silent f) :
      Quiet s (((s.countOp fd).setFd fd (s.state fd)).queueCompletion c) f :=
    Quiet.queueAll (.of_eq rfl rfl rfl) (by simpa using silent)
  unfold submitSendv
  dsimp only
  split
  · exact .of_eq rfl rfl rfl
  cases reply with
  | wrote | again => exact tail _
  | intr | error => exact instant _ ⟨rfl,rfl⟩

lemma cancelAt_quiet (fd : Fd) : Quiet s (s.cancelAt user fd) f := by
  unfold cancelAt
  split
  · exact .refl s f
  refine Quiet.queueAll (.of_eq rfl rfl rfl) ?_
  intro c done
  simp only [FdState.cancelled,mem_append,mem_ite_nil_right,mem_singleton, mem_map] at done
  obtain ((⟨_,rfl⟩ | ⟨_,_,rfl⟩) | ⟨_,rfl⟩) | ⟨_,rfl⟩ := done
  · exact silent_of_neg (by decide)
  · exact ⟨rfl,rfl⟩
  · exact ⟨rfl,rfl⟩
  · exact ⟨rfl,rfl⟩

lemma cancel_quiet (order : List Fd) : Quiet s (order.foldl (fun s fd => s.cancelAt user fd) s) f := by
  induction order generalizing s with
  | nil => exact .refl s f
  | cons fd _ rest => exact (cancelAt_quiet user fd).trans rest

lemma submitConnect_quiet (fd : Fd) (reply : ConnectReply) (add : Bool) :
    Quiet s (s.submitConnect user fd reply add).1 f := by
  have counted : Quiet s (s.countOp fd) f := .of_eq rfl rfl rfl
  apply counted.trans
  cases reply with
  | ok | error => exact Quiet.queueAll (.of_eq rfl rfl rfl) (by simp [Silent,bytes,eof])
  | inProgress => exact enter_quiet fd _ _ add
end

lemma beginWait_quiet (cap : Nat) (empty : s.out = []) (silent : ∀ c ∈ s.ready, c.Silent f) :
    Quiet s (s.beginWait cap) f := by
  have taken : ∀ c ∈ s.ready.take cap, c.Silent f := fun c taken => silent c (mem_of_mem_take taken)
  have left : ∀ c ∈ s.ready.drop cap, c ∈ s.ready ∨ c.Silent f := fun c left => .inl (mem_of_mem_drop left)
  unfold beginWait
  dsimp only
  split
  · refine ⟨rfl,rfl,rfl,⟨s.ready.take cap,?_,taken⟩,left⟩
    simp [handed,finishWait,empty]
  refine ⟨rfl,rfl,rfl,⟨s.ready.take cap,?_,taken⟩,left⟩
  simp [handed,empty]

lemma finishWait_quiet : Quiet s s.finishWait f := .of_eq rfl (by simp [handed,finishWait]) rfl

lemma call_quiet (called : s.call a = some s') (empty : s.out = [])
    (silent : ∀ c ∈ s.ready, c.Silent f) : Quiet s s' f := by
  unfold call at called
  split at called
  · cases called
    exact .of_eq rfl rfl rfl
  · cases called
    unfold modify
    split <;> exact .of_eq rfl rfl rfl
  · cases called
    unfold detach
    split <;> exact .of_eq rfl rfl rfl
  · cases called
    unfold submitRecv
    dsimp only
    split
    · exact .of_eq rfl rfl rfl
    have counted (fd : Fd) : Quiet s (s.countOp fd) f := .of_eq rfl rfl rfl
    exact (counted _).trans (enter_quiet _ _ _ _)
  · split at called
    · cases called
      exact submitSendv_quiet _ _ _ _ _
    · cases called
  · cases called
    exact .of_eq rfl rfl rfl
  · split at called
    · cases called
      exact submitConnect_quiet _ _ _ _
    · cases called
  · cases called
    exact cancel_quiet _ _
  · split at called
    · cases called
      exact beginWait_quiet _ empty silent
    · cases called
  · cases called
end

def RecvReply.fails : RecvReply → Bool
  | .error _ => true
  | .chunk _ | .eof | .again | .intr => false

def FdState.reports (st : FdState) (data : Bytes) : RecvReply → Bool
  | .chunk _ | .intr => st.recvLen ≤ data.length
  | .eof | .again | .error _ => true

/-- An error event ends a receive as at the end of the stream. Bytes are lost if their report finds no room, does not
fit or gives way to an error. -/
def Action.faithful (s : Epoll) : Action → Bool
  | .dispatch (.errorish err) =>
    match s.phase with
    | .dispatch fd ev .errorish _ =>
      !(ev.errorish && (s.state fd).recvArmed && err == 0 && !s.full) ||
        ((s.sockets fd).fin && (s.sockets fd).inbox.isEmpty)
    | _ => true
  | .dispatch (.recv reply) =>
    match s.phase with
    | .dispatch fd _ (.receiving data) _ =>
      if data.isEmpty then
        (s.state fd).recvLen != 0 || s.full || ((s.sockets fd).fin && (s.sockets fd).inbox.isEmpty)
      else
        !(s.state fd).reports data reply ||
          (!s.full && data.length < 2^31 && !(data.length < (s.state fd).recvLen && reply.fails))
    | _ => true
  | _ => true

section
variable {s s' t : Epoll} {f fd : Fd} {ev : Events} {rest : Option (List (Fd × Events))}
  {c : Completion}

lemma Intact.hand (intact : s.Intact f) (sockets : s'.sockets = s.sockets) (handed : s'.handed = s.handed++[c])
    (ready : s'.ready = s.ready) (bytes : c.bytes f++s'.inTransit f = s.inTransit f)
    (ends : c.eof f → (s.sockets f).fin ∧ s.received f = (s.sockets f).stream) : s'.Intact f := by
  constructor
  · rw [received,handed,flatMap_append,flatMap_singleton,sockets,append_assoc _ _
      (s'.inTransit f),bytes]
    exact intact.flow
  · rw [ready]
    exact intact.ready
  intro before x after split eof
  rw [sockets]
  rw [handed] at split
  obtain rfl | ⟨rest,last,rfl⟩ := eq_nil_or_concat after
  · obtain ⟨rfl,same⟩ := append_inj' split rfl
    cases same
    exact ends eof
  rw [concat_eq_append,← cons_append,← append_assoc] at split
  obtain ⟨earlier,_⟩ := append_inj' split rfl
  exact intact.eof before x rest earlier eof

lemma inTransit_of_quiet {stage : Stage} (quiet : ∀ data, stage ≠ .receiving data) :
    (t.goto fd ev stage rest).inTransit f = [] := by
  unfold inTransit goto
  split
  next now =>
    cases now
    exact absurd rfl (quiet _)
  · rfl

lemma inTransit_leave : (t.leave rest).inTransit f = [] := by
  cases rest with
  | none | some => rfl

lemma errorish_intact (err : Nat) (at' : s.phase = .dispatch fd ev .errorish rest)
    (faithful : Action.faithful s (.dispatch (.errorish err))) (intact : s.Intact f) :
    ((if ev.errorish then s.onErrorish fd (s.state fd) ev err else s).goto fd ev .readable rest).Intact f := by
  have before : s.inTransit f = [] := by
    unfold inTransit
    rw [at']
  have flow := intact.flow
  rw [before,append_nil] at flow
  have quietly (t : Epoll) (quiet : Quiet s t f) : (t.goto fd ev .readable rest).Intact f := by
    have moved : Quiet t (t.goto fd ev .readable rest) f := .of_eq rfl rfl rfl
    exact (quiet.trans moved).intact before.symm intact
  split
  next errorish =>
    unfold onErrorish
    split
    next armed =>
      split
      · exact quietly _ (.of_eq rfl rfl rfl)
      next room =>
      by_cases other : f = fd
      · subst other
        by_cases clean : err = 0
        · -- The stream has ended and has been read.
          simp only [Action.faithful,at',errorish,armed,clean,Bool.eq_false_iff.2 room] at faithful
          have ended : (s.sockets f).fin ∧ (s.sockets f).inbox = [] := by simpa using faithful
          rw [ended.2,append_nil] at flow
          rw [emit,if_neg (show ¬ (s.setFd f _).full = true from room)]
          refine intact.hand (c := ⟨(s.state f).recvUd,-err,.recv f (s.state f).recvSerial []⟩) rfl
            ?_ rfl ?_ fun _ => ⟨ended.1,flow⟩
          · simp [handed,goto,push,setFd]
          rw [before]
          simp [bytes,clean]
          rfl
        · exact quietly _ (Quiet.emit (.of_eq rfl rfl rfl) (silent_of_neg (by omega)))
      · exact quietly _ (Quiet.emit (.of_eq rfl rfl rfl) (silent_of_other other))
    · split
      · exact quietly _ (Quiet.emit (.refl s f) ⟨rfl,rfl⟩)
      · exact quietly _ (.refl s f)
  · exact quietly _ (.refl s f)

lemma reportRecv_intact {data data' : Bytes} {result : Int}
    (at' : s.phase = .dispatch fd ev (.receiving data) rest) (intact : s.Intact f)
    (room : s.full → data = [])
    (bytes : s.full = false →
    Completion.bytes fd ⟨(s.state fd).recvUd,result,.recv fd (s.state fd).recvSerial data'⟩ = data)
    (ends : s.full = false → result = 0 → (s.sockets fd).fin ∧ (s.sockets fd).inbox = [] ∧ data = []) :
    ((s.reportRecv fd (s.state fd) result data').goto fd ev .writable rest).Intact f := by
  have transit : s.inTransit f = if fd = f then data else [] := by
    unfold inTransit
    rw [at']
  have drained : (Epoll.goto (s.reportRecv fd (s.state fd) result data') fd ev .writable rest).inTransit f =
      [] := inTransit_of_quiet nofun
  unfold reportRecv at drained ⊢
  split at drained
  next full =>
    rw [if_pos full]
    have nothing : s.inTransit f = [] := by
      rw [transit,room full]
      split <;> rfl
    exact Quiet.intact (s := s) (.of_eq rfl rfl rfl) (drained.trans nothing.symm) intact
  next full =>
  have free := Bool.eq_false_iff.2 full
  rw [if_neg full]
  rw [emit,if_neg (show ¬ (s.setFd fd _).full = true from full)] at drained ⊢
  refine intact.hand (c := ⟨(s.state fd).recvUd,result,.recv fd (s.state fd).recvSerial data'⟩) rfl ?_ rfl ?_ ?_
  · simp [handed,goto,push,setFd]
  · rw [drained,append_nil,transit]
    split
    next same =>
      rw [← same]
      exact bytes free
    next other => exact (silent_of_other (Ne.symm other)).1
  intro eof
  simp only [Completion.eof,decide_eq_true_eq] at eof
  obtain ⟨rfl,zero⟩ := eof
  obtain ⟨fin,empty,none'⟩ := ends free zero
  have flow := intact.flow
  rw [transit,none',empty,if_pos rfl,append_nil,append_nil] at flow
  exact ⟨fin,flow⟩

lemma bytes_whole {user : UserData} {serial : Nat} {data : Bytes} (small : data.length < 2^31) :
    bytes fd ⟨user,int32 data.length,.recv fd serial data⟩ = data := by
  simp only [bytes,int32_of_lt small,true_and]
  cases data with
  | nil => rfl
  | cons => simp

lemma int32_zero_iff {data : Bytes} (small : data.length < 2^31) (zero : int32 data.length = 0) : data = [] := by
  rw [int32_of_lt small] at zero
  exact length_eq_zero_iff.1 (by omega)

lemma chunk_intact {data : Bytes} (n : Nat) (at' : s.phase = .dispatch fd ev (.receiving data) rest)
    (intact : s.Intact f) :
    ((s.setSocket fd { s.sockets fd with inbox := (s.sockets fd).inbox.drop n }).goto fd ev
      (.receiving (data++(s.sockets fd).inbox.take n)) rest).Intact f := by
  have transit : s.inTransit f = if fd = f then data else [] := by
    unfold inTransit
    rw [at']
  by_cases other : f = fd
  · subst other
    have flow := intact.flow
    rw [transit,if_pos rfl] at flow
    refine ⟨?_,intact.ready,?_⟩
    · simp only [inTransit,goto,setSocket,update_self,if_true]
      rw [append_assoc,append_assoc,take_append_drop,← append_assoc]
      exact flow
    intro before c after split ends
    simp only [goto,setSocket,update_self]
    exact intact.eof before c after split ends
  have same : (s.setSocket fd { s.sockets fd with inbox := (s.sockets fd).inbox.drop n }).sockets f =
      s.sockets f := update_of_ne other _ _
  have quiet : Quiet s ((s.setSocket fd { s.sockets fd with inbox := (s.sockets fd).inbox.drop n }).goto
      fd ev (.receiving (data++(s.sockets fd).inbox.take n)) rest) f := by
    refine ⟨?_,?_,?_,⟨[],by simp [handed,goto,setSocket],nofun⟩,fun _ => .inl⟩
    · exact congrArg Socket.stream same
    · exact congrArg Socket.inbox same
    · exact congrArg Socket.fin same
  apply quiet.intact _ intact
  rw [transit,if_neg (Ne.symm other)]
  exact if_neg (Ne.symm other)

lemma recv_intact (data : Bytes) (reply : RecvReply)
    (at' : s.phase = .dispatch fd ev (.receiving data) rest) (possible : reply.possible (s.sockets fd))
    (faithful : Action.faithful s (.dispatch (.recv reply))) (intact : s.Intact f) :
    ((s.onRecv fd (s.state fd) data reply).1.goto fd ev (s.onRecv fd (s.state fd) data reply).2 rest).Intact f := by
  simp only [Action.faithful,at'] at faithful
  -- What the condition says about a report of read bytes and about an empty one.
  have reported : (s.state fd).reports data reply → data ≠ [] → s.full = false ∧ data.length < 2^31 ∧
      ((s.state fd).recvLen ≤ data.length ∨ reply.fails = false) := by
    intro reports some'
    rw [if_neg (by simpa using some'),reports] at faithful
    simpa [and_assoc] using faithful
  have empty : data = [] → (s.state fd).recvLen = 0 → s.full = false →
      (s.sockets fd).fin ∧ (s.sockets fd).inbox = [] := by
    rintro rfl zero free
    simpa [zero,free] using faithful
  have room (reports : (s.state fd).reports data reply) : s.full → data = [] := by
    intro full
    by_contra some'
    rw [(reported reports some').1] at full
    cases full
  have small (reports : (s.state fd).reports data reply) : data.length < 2^31 := by
    by_cases none' : data = []
    · rw [none']
      decide
    · exact (reported reports none').2.1
  unfold onRecv
  split
  next filled =>
    have reports : (s.state fd).reports data reply := by
      cases reply <;> simp [FdState.reports,filled]
    refine reportRecv_intact at' intact (room reports) (fun _ => bytes_whole (small reports)) ?_
    intro free zero
    have none' := int32_zero_iff (small reports) zero
    rw [none'] at filled
    obtain ⟨fin,inbox⟩ := empty none' (Nat.le_zero.1 filled) free
    exact ⟨fin,inbox,none'⟩
  next short =>
  cases reply with
  | chunk => exact chunk_intact _ at' intact
  | eof =>
    refine reportRecv_intact at' intact (room rfl) (fun _ => bytes_whole (small rfl)) ?_
    intro _ zero
    have ended : (s.sockets fd).inbox = [] ∧ (s.sockets fd).fin := by simpa [RecvReply.possible] using possible
    exact ⟨ended.2,ended.1,int32_zero_iff (small rfl) zero⟩
  | again =>
    dsimp only
    split
    next none' =>
      have nothing : s.inTransit f = [] := by
        unfold inTransit
        rw [at']
        dsimp only
        rw [List.isEmpty_iff.1 none']
        split <;> rfl
      refine Quiet.intact (s := s) (.of_eq rfl rfl rfl) ?_ intact
      rw [nothing]
      exact inTransit_of_quiet nofun
    next some' =>
    refine reportRecv_intact at' intact (room rfl) (fun _ => bytes_whole (small rfl)) ?_
    intro _ zero
    exact absurd (int32_zero_iff (small rfl) zero) (by simpa using some')
  | intr =>
    refine Quiet.intact (s := s) (.of_eq rfl rfl rfl) ?_ intact
    unfold inTransit goto
    rw [at']
  | error errno =>
    have fresh : data = [] := by
      by_contra some'
      exact (reported rfl some').2.2.elim short nofun
    have failed : errno ≠ 0 := by
      have failure' : failure errno := possible
      simp only [failure,Bool.and_eq_true,decide_eq_true_eq] at failure'
      exact failure'.1.1
    refine reportRecv_intact at' intact (room rfl) ?_ ?_
    · intro _
      rw [fresh]
      exact (silent_of_neg (by omega)).1
    intro _ _
    omega

lemma accept_quiet (count : Nat) (peer : Option Fd) : Quiet s (s.onAccept fd (s.state fd) count peer).1 f := by
  cases peer with
  | none => exact .refl s f
  | some =>
    unfold onAccept
    dsimp only
    split
    · exact .of_eq rfl rfl rfl
    · exact Quiet.emit (.of_eq rfl rfl rfl) ⟨rfl,rfl⟩

lemma send_quiet (req : SendReq) (queue : List SendReq) (reply : SendReply) :
    Quiet s (s.onSend fd (s.state fd) req queue reply).1 f := by
  cases reply with
  | intr => exact .refl s f
  | again => exact .of_eq rfl rfl rfl
  | error => exact Quiet.emit (.of_eq rfl rfl rfl) ⟨rfl,rfl⟩
  | wrote =>
    unfold onSend
    dsimp only
    split
    · exact Quiet.emit ((wire_quiet fd _).trans (.of_eq rfl rfl rfl)) ⟨rfl,rfl⟩
    · exact (wire_quiet fd _).trans (.of_eq rfl rfl rfl)

lemma onConnected_quiet (err : Nat) : Quiet s (s.onConnected fd (s.state fd) err) f := by
  unfold onConnected
  split
  · exact Quiet.emit (.of_eq rfl rfl rfl) ⟨rfl,rfl⟩
  · exact .refl s f

lemma watchReadable_quiet : Quiet s (s.watchReadable fd (s.state fd) ev) f := by
  unfold watchReadable
  split
  · exact Quiet.emit (.refl s f) ⟨rfl,rfl⟩
  · exact .refl s f

lemma watchWritable_quiet : Quiet s (s.watchWritable fd (s.state fd)) f := by
  unfold watchWritable
  split
  · exact Quiet.emit (.refl s f) ⟨rfl,rfl⟩
  · exact .refl s f
end
section
variable {s s' : Epoll} {a : Action} {f : Fd}

lemma network_intact (came : s.network a = some s') (intact : s.Intact f) : s'.Intact f := by
  have elsewhere {fd : Fd} {sock : Socket} (other : f ≠ fd) : (s.setSocket fd sock).Intact f := by
    have same : (s.setSocket fd sock).sockets f = s.sockets f := update_of_ne other _ _
    refine ⟨?_,intact.ready,?_⟩
    · rw [same]
      exact intact.flow
    rw [same]
    exact intact.eof
  unfold network at came
  split at came
  next fd bytes =>
    dsimp only at came
    split at came
    · cases came
    next going =>
    cases came
    by_cases other : f = fd
    · subst other
      refine ⟨?_,intact.ready,?_⟩
      · simp only [setSocket,update_self]
        rw [← intact.flow,append_assoc _ _ bytes]
        rfl
      -- The stream has not ended, so its end has not been reported.
      intro before c after split ends
      exact absurd (intact.eof before c after split ends).1 going
    · exact elsewhere other
  next fd =>
    cases came
    by_cases other : f = fd
    · subst other
      refine ⟨?_,intact.ready,?_⟩
      · simp only [setSocket,update_self]
        exact intact.flow
      intro before c after split ends
      simp only [setSocket,update_self]
      exact ⟨trivial,(intact.eof before c after split ends).2⟩
    · exact elsewhere other
  · cases came

lemma turn_intact (turn : Turn s a s') (placed : Placed s) (faithful : a.faithful s)
    (intact : s.Intact f) : s'.Intact f := by
  have still (nothing : s.inTransit f = []) (t : Epoll) (quiet : Quiet s t f)
      (drained : t.inTransit f = []) : t.Intact f :=
    quiet.intact (drained.trans nothing.symm) intact
  have outside (free : ∀ fd ev data rest, s.phase ≠ .dispatch fd ev (.receiving data) rest) : s.inTransit f = [] := by
    unfold inTransit
    split
    · exact absurd ‹_› (free _ _ _ _)
    · rfl
  cases turn with
  | network came => exact network_intact came intact
  | call idle called =>
    apply still (outside (by simp [idle])) _ (call_quiet called (placed.idle idle) intact.ready)
    obtain ⟨_,_,_,rfl⟩ | ⟨phase,_⟩ := call_still called
    · unfold beginWait
      dsimp only
      split <;> rfl
    unfold inTransit
    rw [phase,idle]
  | pending at' =>
    have nothing := outside (by simp [at'])
    unfold nextPending
    split
    · exact still nothing _ finishWait_quiet rfl
    split
    · exact still nothing _ (.of_eq rfl rfl rfl) rfl
    dsimp only
    split
    · exact still nothing _ (.of_eq rfl rfl rfl) rfl
    · exact still nothing _ (.of_eq rfl rfl rfl) nothing
  | poll at' | sent at' => exact still (outside (by simp [at'])) _ (.of_eq rfl rfl rfl) rfl
  | @event rest at' =>
    have nothing := outside (by simp [at'])
    cases rest with
    | nil => exact still nothing _ finishWait_quiet rfl
    | cons =>
      unfold nextEvent
      dsimp only
      split_ifs <;> exact still nothing _ (.of_eq rfl rfl rfl) rfl
  | errorish at' => exact errorish_intact _ at' faithful intact
  | readable at' =>
    refine still (outside (by simp [at'])) _ (watchReadable_quiet.trans (.of_eq rfl rfl rfl)) ?_
    unfold inTransit goto readStage
    split_ifs <;> simp
  | @accept fd ev count rest peer at' =>
    refine still (outside (by simp [at'])) _ ((accept_quiet count peer).trans (.of_eq rfl rfl rfl)) ?_
    apply inTransit_of_quiet
    intro _
    cases peer with
    | none => exact nofun
    | some =>
      unfold onAccept
      dsimp only
      split_ifs <;> exact nofun
  | recv at' possible => exact recv_intact _ _ at' possible faithful intact
  | unwritable at' => exact still (outside (by simp [at'])) _ (.of_eq rfl rfl rfl) inTransit_leave
  | writable at' => exact still (outside (by simp [at'])) _ ((onConnected_quiet _).trans (.of_eq rfl rfl rfl)) rfl
  | @send fd ev rest req queue reply at' _ _ =>
    refine still (outside (by simp [at'])) _ ((send_quiet req queue reply).trans (.of_eq rfl rfl rfl)) ?_
    apply inTransit_of_quiet
    intro _
    cases reply with
    | intr | again | error => exact nofun
    | wrote =>
      unfold onSend
      dsimp only
      split <;> exact nofun
  | watch at' =>
    exact still (outside (by simp [at'])) _ (watchWritable_quiet.trans (.of_eq rfl rfl rfl)) inTransit_leave
end

lemma run_intact {s : Epoll} {actions : List Action}
    (run : Exec (Guarded Step fun s a => a.faithful s) create actions s) : Placed s ∧ ∀ f, s.Intact f := by
  apply run.invariant (fun s => Placed s ∧ ∀ f, s.Intact f)
  · intro s a _ moved before
    have turn := step_turn moved.2
    exact ⟨turn_placed turn before.1,fun f => turn_intact turn before.1 moved.1 (before.2 f)⟩
  refine ⟨⟨fun _ => rfl,nofun,nofun⟩,fun f => ⟨rfl,nofun,?_⟩⟩
  intro before c after split
  have nil : [] = before++c::after := split
  simp at nil

/-- Receive completions hand out a prefix of the peer's stream, and an end of stream stands behind all of it. -/
theorem received_prefix_stream {s : Epoll} {actions : List Action}
    (run : Exec (Guarded Step fun s a => a.faithful s) create actions s) (f : Fd) :
    s.received f <+: (s.sockets f).stream ∧
      ∀ before c after, s.handed = before++c::after → c.eof f →
        (s.sockets f).fin ∧ before.flatMap (bytes f) = (s.sockets f).stream := by
  have intact := (run_intact run).2 f
  refine ⟨⟨s.inTransit f++(s.sockets f).inbox,?_⟩,intact.eof⟩
  rw [← append_assoc]
  exact intact.flow

def readThenFin : List Action :=
  [.submitRecv 1 5 4 true,.arrive 5 [7,8],.wait 4,.pending,.poll [(5,{ input := true })],.event,
    .dispatch (.errorish 0),.dispatch .readable,.dispatch (.recv (.chunk 2)),.dispatch (.recv .again),
    .dispatch (.writable 0),.event,.fin 5,.submitRecv 1 5 4 true,.wait 4,.pending,
    .poll [(5,{ input := true, rdhup := true })],.event,.dispatch (.errorish 0)]

theorem readThenFin_received : ∃ s : Epoll,
    Exec (Guarded Step fun s a => a.faithful s) create readThenFin s ∧
      s.received 5 <+: [7,8] ∧ ∃ c : Completion, c.eof 5 ∧
        ∃ before, s.handed = before++[c] ∧ before.flatMap (bytes 5) = [7,8] := by
  refine Exec.shown_of_drive (P := fun s => s.handed = [⟨1,2,.recv 5 0 [7,8]⟩,⟨1,0,.recv 5 1 []⟩] ∧
    (s.sockets 5).stream = [7,8]) (by decide +kernel) ?_
  rintro s run ⟨handed,stream⟩
  have held := received_prefix_stream run 5
  rw [stream] at held
  have last := held.2 [⟨1,2,.recv 5 0 [7,8]⟩] ⟨1,0,.recv 5 1 []⟩ [] handed rfl
  exact ⟨held.1,⟨1,0,.recv 5 1 []⟩,rfl,_,handed,last.2⟩

def finWithUnread : List Action :=
  [.submitRecv 1 5 4 true,.arrive 5 [7],.fin 5,.wait 4,.pending,
    .poll [(5,{ input := true, rdhup := true })],.event,.dispatch (.errorish 0)]

/-- The end of the stream is reported, and the byte is not. -/
theorem finWithUnread_eof : ∃ s : Epoll, Exec Step create finWithUnread s ∧
    s.handed = [⟨1,0,.recv 5 0 []⟩] ∧ s.received 5 = [] ∧ (s.sockets 5).stream = [7] :=
  Exec.run_of_drive (by decide +kernel) fun _ _ => id

end AffiniX.Epoll
