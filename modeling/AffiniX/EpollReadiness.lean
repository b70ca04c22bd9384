import AffiniX.Epoll

/-! The kernel reports readiness once, on a change. While an operation waits, the kernel owes the report, or the backend
holds it. -/
namespace AffiniX.Epoll
open Transition List Stage

def Stage.reads : Stage → Bool
  | .errorish | .readable | .accepting _ | .receiving _ => true
  | .writable | .sending | .watchWritable => false

def Stage.connects : Stage → Bool
  | .sending | .watchWritable => false
  | .errorish | .readable | .accepting _ | .receiving _ | .writable => true

def Stage.writes : Stage → Bool
  | .watchWritable => false
  | .errorish | .readable | .accepting _ | .receiving _ | .writable | .sending => true

def Phase.left : Phase → List (Fd × Events)
  | .events rest => rest
  | .dispatch _ _ _ rest => rest.getD []
  | .idle | .pending | .poll => []

def Phase.Serves (phase : Phase) (f : Fd) (bit : Events → Bool) (upTo : Stage → Bool) : Prop :=
  ∃ ev stage rest, phase = .dispatch f ev stage rest ∧ bit ev ∧ upTo stage

def Holds (s : Epoll) (f : Fd) (bit : Events → Bool) (upTo : Stage → Bool) : Prop :=
  (∃ ev, (f,ev) ∈ s.pendingEvents++s.phase.left ∧ bit ev) ∨ s.phase.Serves f bit upTo

/-- Each waiting operation is registered, and its readiness is owed or held. A descriptor that accepts has no receives.
-/
structure FdState.Asked (st : FdState) (refused : List Nat) (reading connecting writing : Prop) : Prop where
  registered : ∀ k ∈ st.outstanding, st.registered ∨ k ∈ refused
  recv : st.registered → st.recvArmed → st.acceptArmed ∨ st.owed.readable ∨ reading
  connect : st.registered → st.connectPending → st.owed.writable ∨ connecting
  send : st.registered → st.sendq ≠ [] → st.owed.writable ∨ writing

/-- No readiness that an operation of `f` waits for can be missed. -/
def Attended (s : Epoll) (f : Fd) : Prop :=
  (s.state f).Asked (s.refused f) (s.Holds f (·.input) reads)
    (s.Holds f (·.output) connects) (s.Holds f (·.output) writes)

namespace FdState
@[simp] lemma updateEvents_outstanding (st : FdState) : st.updateEvents.outstanding = st.outstanding := by
  unfold updateEvents
  split <;> rfl

@[simp] lemma request_outstanding (st : FdState) (add : Bool) : (st.request add).1.outstanding = st.outstanding := by
  unfold request register
  cases st.registered <;> cases add <;> simp
  all_goals rfl

variable {st : FdState} {refused refused' : List Nat}
  {reading connecting writing reading' connecting' writing' : Prop}

lemma Asked.mono (asked : st.Asked refused reading connecting writing)
    (read : reading → reading') (connect : connecting → connecting') (write : writing → writing') :
    st.Asked refused reading' connecting' writing' where
  registered := asked.registered
  recv known armed := (asked.recv known armed).imp_right (.imp_right read)
  connect known pending := (asked.connect known pending).imp_right connect
  send known queued := (asked.send known queued).imp_right write

lemma Asked.update (registered : ∀ k ∈ st.outstanding, st.registered ∨ k ∈ refused) :
    st.updateEvents.Asked refused reading connecting writing := by
  by_cases known : st.registered
  · have asked : st.updateEvents = { st with owed :=
        ⟨st.interest.readable || st.recvArmed || st.acceptArmed,
          st.interest.writable || !st.sendq.isEmpty || st.connectPending⟩ } := if_pos known
    rw [asked]
    refine ⟨registered,?_,?_,?_⟩
    · intro _ _
      simp_all
    · intro _ _
      simp_all
    intro _ _
    simp_all
  · have same : st.updateEvents = st := if_neg known
    rw [same]
    exact ⟨registered,fun now => absurd now known,fun now => absurd now known, fun now => absurd now known⟩

lemma Asked.request {add : Bool} (registered : ∀ k ∈ st.outstanding, st.registered ∨ add ∨ k ∈ refused) :
    (st.request add).1.Asked refused reading connecting writing := by
  unfold FdState.request register
  by_cases known : st.registered
  · rw [if_pos known]
    exact Asked.update fun _ _ => .inl known
  rw [if_neg known]
  cases add with
  | true =>
    change (updateEvents { st with registered := true }).Asked _ _ _ _
    exact Asked.update fun _ _ => .inl rfl
  | false =>
    refine ⟨?_,fun now => absurd now known,fun now => absurd now known,fun now => absurd now known⟩
    intro k waits
    exact (registered k waits).imp_right fun rest => rest.resolve_left nofun
end FdState
section
variable {s t : Epoll} {f fd : Fd} {bit : Events → Bool} {upTo : Stage → Bool} {ev : Events}
  {stage stage' : Stage} {rest : Option (List (Fd × Events))}

lemma Holds.goto (at' : s.phase = .dispatch fd ev stage rest)
    (kept : s.pendingEvents ⊆ t.pendingEvents) (on : f = fd → bit ev → upTo stage → upTo stage')
    (holds : s.Holds f bit upTo) : (t.goto fd ev stage' rest).Holds f bit upTo := by
  obtain ⟨e,queued,sets⟩ | ⟨e,_,_,now,sets,before⟩ := holds
  · refine .inl ⟨e,?_,sets⟩
    rw [at',mem_append] at queued
    apply mem_append.2
    exact queued.imp (fun pending => kept pending) id
  rw [at'] at now
  cases now
  exact .inr ⟨ev,stage',rest,rfl,sets,on rfl sets before⟩

lemma Holds.leave (at' : s.phase = .dispatch fd ev stage rest) (kept : s.pendingEvents ⊆ t.pendingEvents)
    (off : bit ev → upTo stage = false) (holds : s.Holds f bit upTo) : (t.leave rest).Holds f bit upTo := by
  obtain ⟨e,queued,sets⟩ | ⟨e,_,_,now,sets,before⟩ := holds
  · refine .inl ⟨e,?_,sets⟩
    rw [at',mem_append] at queued
    apply mem_append.2
    refine queued.imp (fun pending => kept pending) ?_
    cases rest with
    | none | some => exact id
  rw [at'] at now
  cases now
  rw [off sets] at before
  cases before
end

structure Local (s t : Epoll) (fd : Fd) (st : FdState) : Prop where
  state : ∀ f, t.state f = if f = fd then st else s.state f
  refused : t.refused = s.refused
  pending : s.pendingEvents ⊆ t.pendingEvents

namespace Local
variable {s t : Epoll} {f fd : Fd} {st : FdState} {ev : Events} {stage stage' : Stage}
  {rest : Option (List (Fd × Events))}

lemma setFd (s : Epoll) (fd : Fd) (st : FdState) : Local s (s.setFd fd st) fd st :=
  ⟨fun f => state_setFd s f fd st,rfl,fun _ kept => kept⟩

lemma refl (s : Epoll) (fd : Fd) : Local s s fd (s.state fd) := by
  refine ⟨?_,rfl,fun _ kept => kept⟩
  intro f
  split
  next same => rw [same]
  · rfl

lemma of_socket {sock : Socket} (loc : Local (s.setSocket fd sock) t fd st) : Local s t fd st :=
  ⟨loc.state,loc.refused,loc.pending⟩

lemma postpone (loc : Local s t fd st) (other : Fd) (ev : Events) : Local s (t.postpone other ev) fd st :=
  ⟨loc.state,loc.refused,fun _ kept => mem_append_left _ (loc.pending kept)⟩

lemma emit (loc : Local s t fd st) (c : Completion) (other : Fd) (ev : Events) : Local s (t.emit c other ev) fd st := by
  unfold Epoll.emit
  split
  · exact loc.postpone other ev
  · exact ⟨loc.state,loc.refused,loc.pending⟩

lemma attended_goto (loc : Local s t fd st) (at' : s.phase = .dispatch fd ev stage rest)
    (own : st.Asked (s.refused fd) ((t.goto fd ev stage' rest).Holds fd (·.input) reads)
      ((t.goto fd ev stage' rest).Holds fd (·.output) connects)
      ((t.goto fd ev stage' rest).Holds fd (·.output) writes))
    (attended : s.Attended f) : (t.goto fd ev stage' rest).Attended f := by
  change (t.state f).Asked (t.refused f) _ _ _
  rw [loc.state,loc.refused]
  by_cases same : f = fd
  · rw [if_pos same,same]
    exact own
  rw [if_neg same]
  have kept {bit : Events → Bool} {upTo : Stage → Bool} (holds : s.Holds f bit upTo) :
      (t.goto fd ev stage' rest).Holds f bit upTo :=
    holds.goto at' loc.pending fun equal => absurd equal same
  exact attended.mono kept kept kept

lemma attended_stage (loc : Local s t fd (s.state fd)) (at' : s.phase = .dispatch fd ev stage rest)
    (attended : ∀ f, s.Attended f)
    (reads : (s.state fd).recvArmed → !(s.state fd).acceptArmed → ev.input → stage.reads → stage'.reads)
    (connects : (s.state fd).connectPending → ev.output → stage.connects → stage'.connects)
    (writes : (s.state fd).sendq ≠ [] → ev.output → stage.writes → stage'.writes) :
    (t.goto fd ev stage' rest).Attended f := by
  apply loc.attended_goto at' _ (attended f)
  have own := attended fd
  refine ⟨own.registered,?_,?_,?_⟩
  · intro known armed
    by_cases accepts : (s.state fd).acceptArmed
    · exact .inl accepts
    apply (own.recv known armed).imp_right
    exact .imp_right fun holds => holds.goto at' loc.pending fun _ => reads armed (by simp [accepts])
  · intro known pending
    exact (own.connect known pending).imp_right fun holds => holds.goto at' loc.pending fun _ => connects pending
  intro known queued
  exact (own.send known queued).imp_right fun holds => holds.goto at' loc.pending fun _ => writes queued

lemma attended_leave (loc : Local s t fd (s.state fd)) (at' : s.phase = .dispatch fd ev stage rest)
    (off : (ev.input → stage.reads = false) ∧ (ev.output → stage.connects = false) ∧ (ev.output → stage.writes = false))
    (attended : s.Attended f) : (t.leave rest).Attended f := by
  have same : t.state f = s.state f := by
    rw [loc.state]
    split
    next equal => rw [equal]
    · rfl
  change (t.state f).Asked (t.refused f) _ _ _
  rw [same,loc.refused]
  exact attended.mono (Holds.leave at' loc.pending off.1) (Holds.leave at' loc.pending off.2.1)
    (Holds.leave at' loc.pending off.2.2)

lemma attended_update (loc : Local s t fd st.updateEvents) (at' : s.phase = .dispatch fd ev stage rest)
    (fewer : st.outstanding ⊆ (s.state fd).outstanding) (known : st.registered = (s.state fd).registered)
    (attended : ∀ f, s.Attended f) : (t.goto fd ev stage' rest).Attended f := by
  apply loc.attended_goto at' _ (attended f)
  apply FdState.Asked.update
  intro k waits
  rw [known]
  exact (attended fd).registered k (fewer waits)
end Local

lemma FdState.outstanding_subset {st st' : FdState} (recv : st'.recvArmed → st.recvArmed)
    (recvSerial : st'.recvSerial = st.recvSerial) (sends : st'.sendq ⊆ st.sendq)
    (connect : st'.connectPending → st.connectPending)
    (connectSerial : st'.connectSerial = st.connectSerial) : st'.outstanding ⊆ st.outstanding := by
  intro k waits
  simp only [outstanding,mem_append,mem_ite_nil_right,mem_map,recvSerial, connectSerial] at waits ⊢
  obtain (⟨armed,serial⟩ | ⟨req,queued,serial⟩) | ⟨pending,serial⟩ := waits
  · exact .inl (.inl ⟨recv armed,serial⟩)
  · exact .inl (.inr ⟨req,sends queued,serial⟩)
  · exact .inr ⟨connect pending,serial⟩

section
variable {s : Epoll} {f fd : Fd} {ev : Events} {stage stage' : Stage}
  {rest : Option (List (Fd × Events))}

lemma recv_attended {user : UserData} {result : Int} {data : Bytes} {ev' : Events}
    (at' : s.phase = .dispatch fd ev stage rest) (attended : ∀ f, s.Attended f) :
    ((if s.full then (s.setFd fd (s.state fd).updateEvents).postpone fd ev'
    else (s.setFd fd { s.state fd with recvArmed := false }.updateEvents).emit
        ⟨user,result,.recv fd (s.state fd).recvSerial data⟩ fd ev').goto fd ev stage' rest).Attended f := by
  split
  · exact ((Local.setFd s fd _).postpone fd ev').attended_update at' (fun _ waits => waits) rfl attended
  have loc := (Local.setFd s fd { s.state fd with recvArmed := false }.updateEvents).emit
    ⟨user,result,.recv fd (s.state fd).recvSerial data⟩ fd ev'
  refine loc.attended_update at' ?_ rfl attended
  exact FdState.outstanding_subset nofun rfl (fun _ queued => queued) id rfl

lemma errorish_attended (err : Nat) (at' : s.phase = .dispatch fd ev .errorish rest) (attended : ∀ f, s.Attended f) :
    ((if ev.errorish then s.onErrorish fd (s.state fd) ev err else s).goto fd ev .readable rest).Attended f := by
  have quiet (t : Epoll) (loc : Local s t fd (s.state fd)) : (t.goto fd ev .readable rest).Attended f :=
    loc.attended_stage at' attended (fun _ _ _ _ => rfl) (fun _ _ _ => rfl) fun _ _ _ => rfl
  split
  · unfold onErrorish
    split
    · exact recv_attended at' attended
    split
    · exact quiet _ ((Local.refl s fd).emit _ fd ev)
    · exact quiet s (.refl s fd)
  · exact quiet s (.refl s fd)

lemma readable_attended (at' : s.phase = .dispatch fd ev .readable rest) (attended : ∀ f, s.Attended f) :
    ((s.watchReadable fd (s.state fd) ev).goto fd ev (readStage (s.state fd) ev) rest).Attended f := by
  have loc : Local s (s.watchReadable fd (s.state fd) ev) fd (s.state fd) := by
    unfold watchReadable
    split
    · exact (Local.refl s fd).emit _ fd _
    · exact .refl s fd
  refine loc.attended_stage at' attended ?_ ?_ ?_
  · intro armed accepts input _
    have none' : (s.state fd).acceptArmed = false := by simpa using accepts
    rw [readStage,input,none',armed]
    rfl
  · intro _ _ _
    unfold readStage
    split_ifs <;> rfl
  intro _ _ _
  unfold readStage
  split_ifs <;> rfl

lemma accept_attended (count : Nat) (peer : Option Fd)
    (at' : s.phase = .dispatch fd ev (.accepting count) rest) (armed : (s.state fd).acceptArmed)
    (attended : ∀ f, s.Attended f) :
    ((s.onAccept fd (s.state fd) count peer).1.goto fd ev
    (s.onAccept fd (s.state fd) count peer).2 rest).Attended f := by
  have listens (t : Epoll) (stage : Stage) (loc : Local s t fd (s.state fd))
      (before : stage.connects ∧ stage.writes) : (t.goto fd ev stage rest).Attended f := by
    refine loc.attended_stage at' attended ?_ (fun _ _ _ => before.1) fun _ _ _ => before.2
    intro _ none'
    rw [armed] at none'
    cases none'
  cases peer with
  | none => exact listens s .writable (.refl s fd) ⟨rfl,rfl⟩
  | some peer =>
    have noted : Local s (s.noteAccepted fd peer) fd (s.state fd) := ⟨(Local.refl s fd).state,rfl,fun _ kept => kept⟩
    unfold onAccept
    dsimp only
    split
    · exact listens _ .writable (noted.postpone fd _) ⟨rfl,rfl⟩
    apply listens _ _ (noted.emit _ fd _)
    split <;> exact ⟨rfl,rfl⟩

lemma onRecv_attended (data : Bytes) (reply : RecvReply)
    (at' : s.phase = .dispatch fd ev (.receiving data) rest) (attended : ∀ f, s.Attended f) :
    ((s.onRecv fd (s.state fd) data reply).1.goto fd ev (s.onRecv fd (s.state fd) data reply).2 rest).Attended f := by
  have again (t : Epoll) (data : Bytes) (loc : Local s t fd (s.state fd)) :
      (t.goto fd ev (.receiving data) rest).Attended f :=
    loc.attended_stage at' attended (fun _ _ _ _ => rfl) (fun _ _ _ => rfl) fun _ _ _ => rfl
  unfold onRecv
  split
  · exact recv_attended at' attended
  cases reply with
  | chunk => exact again _ _ ⟨(Local.refl s fd).state,rfl,fun _ kept => kept⟩
  | eof | error => exact recv_attended at' attended
  | intr => exact again s data (.refl s fd)
  | again =>
    dsimp only
    split
    · have loc := Local.setFd s fd (s.state fd).awaitReadable
      apply loc.attended_goto at' _ (attended f)
      have own := attended fd
      refine ⟨own.registered,fun _ _ => .inr (.inl rfl),?_,?_⟩
      · intro known pending
        exact (own.connect known pending).imp_right fun holds => holds.goto at' loc.pending fun _ _ _ => rfl
      intro known queued
      exact (own.send known queued).imp_right fun holds => holds.goto at' loc.pending fun _ _ _ => rfl
    · exact recv_attended at' attended

lemma writable_attended (err : Nat) (at' : s.phase = .dispatch fd ev .writable rest) (attended : ∀ f, s.Attended f) :
    ((s.onConnected fd (s.state fd) err).goto fd ev .sending rest).Attended f := by
  unfold onConnected
  split
  · have loc := (Local.setFd s fd { s.state fd with connectPending := false }.updateEvents).emit
      ⟨(s.state fd).connectUd,-err,.connect fd (s.state fd).connectSerial⟩ fd { output := true }
    refine loc.attended_update at' ?_ rfl attended
    exact FdState.outstanding_subset id rfl (fun _ queued => queued) nofun rfl
  next connected =>
  refine (Local.refl s fd).attended_stage at' attended ?_ ?_ fun _ _ _ => rfl
  · exact fun _ _ _ before => absurd before nofun
  · exact fun pending => absurd pending connected

lemma send_attended (req : SendReq) (queue : List SendReq) (reply : SendReply)
    (at' : s.phase = .dispatch fd ev .sending rest) (front : (s.state fd).sendq = req::queue)
    (attended : ∀ f, s.Attended f) :
    ((s.onSend fd (s.state fd) req queue reply).1.goto fd ev
    (s.onSend fd (s.state fd) req queue reply).2 rest).Attended f := by
  have own := attended fd
  have popped (t : Epoll) (loc : Local s t fd { s.state fd with sendq := queue }.updateEvents) :
      (t.goto fd ev .sending rest).Attended f := by
    apply loc.attended_update at' _ rfl attended
    refine FdState.outstanding_subset id rfl ?_ id rfl
    rw [front]
    exact subset_cons_self req queue
  cases reply with
  | intr =>
    exact (Local.refl s fd).attended_stage at' attended (fun _ _ _ before => before)
      (fun _ _ before => before) fun _ _ _ => rfl
  | again =>
    have loc := Local.setFd s fd (s.state fd).awaitWritable
    apply loc.attended_goto at' _ (attended f)
    refine ⟨own.registered,?_,fun _ _ => .inl rfl,fun _ _ => .inl rfl⟩
    intro known armed
    apply (own.recv known armed).imp_right
    exact .imp_right fun holds => holds.goto at' loc.pending fun _ _ before => absurd before nofun
  | error => exact popped _ ((Local.setFd s fd _).emit _ fd _)
  | wrote n =>
    unfold onSend
    dsimp only
    split
    · apply popped
      exact Local.of_socket ((Local.setFd _ fd _).emit _ fd _)
    -- The request stays at the front of the queue, and the loop goes on.
    have loc := Local.setFd s fd { s.state fd with
      sendq := { req with off := req.off+cut n (req.bytes.length-req.off) }::queue }
    refine Local.attended_goto (.of_socket (.setFd _ fd _)) at' ?_ (attended f)
    constructor
    · intro k waits
      apply own.registered k
      simp only [FdState.outstanding,front] at waits ⊢
      exact waits
    · intro known armed
      apply (own.recv known armed).imp_right
      exact .imp_right fun holds => holds.goto at' loc.pending fun _ _ before => before
    · intro known pending
      exact (own.connect known pending).imp_right fun holds => holds.goto at' loc.pending fun _ _ before => before
    intro known _
    apply (own.send known (by simp [front])).imp_right
    exact fun holds => holds.goto at' loc.pending fun _ _ before => before

lemma sent_attended (at' : s.phase = .dispatch fd ev .sending rest) (empty : (s.state fd).sendq = [])
    (attended : ∀ f, s.Attended f) : (s.goto fd ev .watchWritable rest).Attended f :=
  (Local.refl s fd).attended_stage at' attended (fun _ _ _ before => before)
    (fun _ _ before => before) fun queued => absurd empty queued

lemma unwritable_attended (at' : s.phase = .dispatch fd ev .writable rest)
    (quiet : ev.output = false) (attended : s.Attended f) : (s.leave rest).Attended f := by
  apply (Local.refl s fd).attended_leave at' _ attended
  simp [quiet,reads]

lemma watch_attended (at' : s.phase = .dispatch fd ev .watchWritable rest)
    (attended : s.Attended f) : ((s.watchWritable fd (s.state fd)).leave rest).Attended f := by
  have loc : Local s (s.watchWritable fd (s.state fd)) fd (s.state fd) := by
    unfold watchWritable
    split
    · exact (Local.refl s fd).emit _ fd _
    · exact .refl s fd
  exact loc.attended_leave at' ⟨fun _ => rfl,fun _ => rfl,fun _ => rfl⟩ attended
end
section
variable {s t : Epoll} {f fd : Fd} {st : FdState}

lemma Holds.congr {bit : Events → Bool} {upTo : Stage → Bool} (pending : t.pendingEvents = s.pendingEvents)
    (phase : t.phase = s.phase) (holds : s.Holds f bit upTo) : t.Holds f bit upTo := by
  unfold Holds
  rw [pending,phase]
  exact holds

lemma Attended.congr (state : t.state f = s.state f) (refused : t.refused f = s.refused f)
    (pending : t.pendingEvents = s.pendingEvents) (phase : t.phase = s.phase)
    (attended : s.Attended f) : t.Attended f := by
  unfold Attended
  rw [state,refused]
  exact FdState.Asked.mono attended (.congr pending phase) (.congr pending phase) (.congr pending phase)

lemma setFd_attended (own : st.Asked (s.refused fd) (s.Holds fd (·.input) reads)
      (s.Holds fd (·.output) connects) (s.Holds fd (·.output) writes))
    (attended : s.Attended f) : (s.setFd fd st).Attended f := by
  by_cases same : f = fd
  · subst same
    change ((s.setFd f st).state f).Asked _ _ _ _
    rw [state_setFd,if_pos rfl]
    exact own
  · exact attended.congr ((state_setFd s f fd st).trans (if_neg same)) rfl rfl rfl

lemma request_attended {add : Bool} (same : st.outstanding = (s.state fd).outstanding)
    (known : st.registered = (s.state fd).registered) (attended : ∀ f, s.Attended f) :
    (s.setFd fd (st.request add).1).Attended f := by
  apply setFd_attended _ (attended f)
  apply FdState.Asked.request
  intro k waits
  rw [known]
  rw [same] at waits
  exact ((attended fd).registered k waits).imp_right .inr

lemma FdState.request_ok (st : FdState) (add : Bool) : (st.request add).2 = (st.registered || add) := by
  unfold request register
  cases st.registered <;> cases add <;> rfl

lemma enter_attended {serial : Nat} {add : Bool}
    (more : ∀ k ∈ st.outstanding, k = serial ∨ k ∈ (s.state fd).outstanding)
    (known : st.registered = (s.state fd).registered) (attended : ∀ f, s.Attended f) :
    (s.enter fd st serial add).1.Attended f := by
  have ok := st.request_ok add
  unfold enter
  dsimp only
  split
  next taken =>
    apply setFd_attended _ (attended f)
    apply FdState.Asked.request
    intro _ _
    rw [ok,Bool.or_eq_true] at taken
    exact taken.imp_right .inl
  next =>
  have waits : (st.request add).1.Asked (s.refused fd++[serial])
      (s.Holds fd (·.input) reads) (s.Holds fd (·.output) connects)
      (s.Holds fd (·.output) writes) := by
    apply FdState.Asked.request
    intro k waits
    rw [known]
    obtain new | old := more k waits
    · exact .inr (.inr (mem_append_right _ (mem_singleton.2 new)))
    apply ((attended fd).registered k old).imp_right
    exact fun refused => .inr (mem_append_left _ refused)
  by_cases same : f = fd
  · subst same
    change ((s.setFd f (st.request add).1).state f).Asked (Function.update s.refused f (s.refused f++[serial]) f) _ _ _
    rw [state_setFd,if_pos rfl,Function.update_self]
    exact waits
  refine Attended.congr (s := s) ?_ (Function.update_of_ne same _ _) rfl rfl (attended f)
  exact (state_setFd s f fd _).trans (if_neg same)

lemma detach_attended (attended : s.Attended f) : (s.detach fd).Attended f := by
  unfold detach
  split
  · exact attended
  by_cases same : f = fd
  · subst same
    change (Option.getD (Function.update s.fds f none f) {}).Asked _ _ _ _
    rw [Function.update_self]
    exact ⟨nofun,nofun,nofun,nofun⟩
  refine Attended.congr (s := s) ?_ rfl rfl rfl attended
  simp only [state,Function.update_of_ne same]

lemma FdState.without_eq {user : UserData} (none' : st.cancelled user fd = []) : st.without user = st := by
  simp only [cancelled,append_eq_nil_iff,map_eq_nil_iff,filter_eq_nil_iff] at none'
  obtain ⟨⟨⟨recv,sends⟩,accept⟩,connect⟩ := none'
  have sendq : st.sendq.filter (·.user != user) = st.sendq := by
    rw [filter_eq_self]
    intro req queued
    have other := sends req queued
    simpa using other
  have keep {armed : Bool} {owner : UserData} {c : Completion}
      (quiet : (if armed ∧ owner = user then [c] else []) = []) :
      (armed && owner != user) = armed := by
    cases armed <;> simp_all
  simp only [without,sendq,keep recv,keep accept,keep connect]

lemma cancelAt_attended (user : UserData) (attended : ∀ f, s.Attended f) : (s.cancelAt user fd).Attended f := by
  unfold cancelAt
  split
  · exact attended f
  next st known =>
  have held := state_of_fds known
  have own := attended fd
  have moved : (s.setFd fd (if (st.cancelled user fd).isEmpty then st.without user
      else (st.without user).updateEvents)).Attended f := by
    apply setFd_attended _ (attended f)
    split
    next none' =>
      rw [FdState.without_eq (List.isEmpty_iff.1 none'),← held]
      exact own
    · apply FdState.Asked.update
      intro k waits
      rw [← held]
      apply own.registered
      rw [held]
      have fewer : (st.without user).outstanding ⊆ st.outstanding := by
        refine FdState.outstanding_subset ?_ rfl ?_ ?_ rfl
        · simp +contextual [FdState.without]
        · exact filter_subset_self _
        · simp +contextual [FdState.without]
      exact fewer waits
  exact moved.congr rfl rfl rfl rfl
end

def Action.behind (s : Epoll) : Action → Bool
  | .submitSendv _ fd _ _ _ => (s.state fd).sendq.isEmpty || (s.state fd).registered
  | _ => true

section
variable {s s' : Epoll} {f : Fd}
section
variable (user : UserData)

lemma sendTail_attended (fd : Fd) (bytes : Bytes) (serial sent : Nat) (add : Bool) (attended : ∀ f, s.Attended f) :
    (s.sendTail user fd (s.state fd) bytes serial sent add).1.Attended f := by
  let sock := s.sockets fd
  let s' := s.setSocket fd { sock with wire := sock.wire++bytes.take sent }
  have before : ∀ f, s'.Attended f := fun f => (attended f).congr rfl rfl rfl rfl
  unfold sendTail
  split
  · have entered : (s'.setFd fd (s'.state fd)).Attended f := setFd_attended (before fd) (before f)
    exact entered.congr rfl rfl rfl rfl
  refine enter_attended ?_ (by rfl) before
  intro k waits
  simp only [FdState.outstanding,map_cons,map_nil,mem_append, mem_singleton] at waits ⊢
  tauto

lemma counted_attended {fd : Fd} (c : Completion) (attended : ∀ f, s.Attended f) :
    (((s.countOp fd).setFd fd (s.state fd)).queueCompletion c).Attended f :=
  have counted (f : Fd) : (s.countOp fd).Attended f := (attended f).congr rfl rfl rfl rfl
  (setFd_attended (counted fd) (counted f)).congr rfl rfl rfl rfl

lemma submitSendv_attended (fd : Fd) (iov : List Bytes) (reply : SendReply)
    (add : Bool) (behind : (s.state fd).sendq ≠ [] → (s.state fd).registered)
    (attended : ∀ f, s.Attended f) : (s.submitSendv user fd iov reply add).1.Attended f := by
  have counted : ∀ f, (s.countOp fd).Attended f := fun f => (attended f).congr rfl rfl rfl rfl
  unfold submitSendv
  dsimp only
  split
  next queue =>
    apply setFd_attended _ (counted f)
    apply FdState.Asked.update
    intro _ _
    exact .inl (behind (by simpa using queue))
  · cases reply with
    | wrote | again => exact sendTail_attended _ _ _ _ _ _ counted
    | intr | error => exact counted_attended _ attended

lemma submitRecv_attended (fd : Fd) (len : Nat) (add : Bool)
    (attended : ∀ f, s.Attended f) : (s.submitRecv user fd len add).1.Attended f := by
  unfold submitRecv
  dsimp only
  split
  · exact setFd_attended (attended fd) (attended f)
  refine enter_attended ?_ (by rfl) fun f => (attended f).congr rfl rfl rfl rfl
  intro k waits
  simp only [FdState.outstanding,mem_append,mem_singleton,if_true] at waits ⊢
  tauto

lemma submitConnect_attended (fd : Fd) (reply : ConnectReply) (add : Bool)
    (attended : ∀ f, s.Attended f) : (s.submitConnect user fd reply add).1.Attended f := by
  have counted : ∀ f, (s.countOp fd).Attended f := fun f => (attended f).congr rfl rfl rfl rfl
  cases reply with
  | ok | error => exact counted_attended _ attended
  | inProgress =>
    refine enter_attended ?_ (by rfl) counted
    intro k waits
    simp only [FdState.outstanding,mem_append,mem_singleton,if_true] at waits ⊢
    tauto

lemma modify_attended (fd : Fd) (interest : Interest) (user : UserData)
    (attended : ∀ f, s.Attended f) : (s.modify fd interest user).1.Attended f := by
  unfold modify
  split
  · exact attended f
  next known =>
  apply setFd_attended _ (attended f)
  apply FdState.Asked.update
  have own := (attended fd).registered
  rw [state_of_fds known] at own
  exact own

lemma cancel_attended (order : List Fd) (attended : ∀ f, s.Attended f) :
    (order.foldl (fun s fd => s.cancelAt user fd) s).Attended f := by
  induction order generalizing s with
  | nil => exact attended f
  | cons _ _ rest => exact rest fun f => cancelAt_attended user attended
end

lemma Attended.of_queued (state : s'.state f = s.state f) (refused : s'.refused f = s.refused f)
    (quiet : ∀ ev stage rest, s.phase ≠ .dispatch f ev stage rest)
    (queued : ∀ ev, (f,ev) ∈ s.pendingEvents++s.phase.left →
    (f,ev) ∈ s'.pendingEvents++s'.phase.left ∨ ∃ rest, s'.phase = .dispatch f ev .errorish rest)
    (attended : s.Attended f) : s'.Attended f := by
  have kept {bit : Events → Bool} {upTo : Stage → Bool} (first : upTo .errorish)
      (holds : s.Holds f bit upTo) : s'.Holds f bit upTo := by
    obtain ⟨ev,held,sets⟩ | ⟨ev,stage,rest,now,_⟩ := holds
    · obtain still | ⟨rest,now⟩ := queued ev held
      · exact .inl ⟨ev,still,sets⟩
      · exact .inr ⟨ev,.errorish,rest,now,sets,first⟩
    · exact absurd now (quiet ev stage rest)
  unfold Attended
  rw [state,refused]
  exact FdState.Asked.mono attended (kept rfl) (kept rfl) (kept rfl)

lemma finishWait_attended (quiet : s.phase.left = []) (outside : ∀ ev stage rest, s.phase ≠ .dispatch f ev stage rest)
    (attended : s.Attended f) : s.finishWait.Attended f := by
  refine Attended.of_queued (s := s) rfl rfl outside ?_ attended
  intro _ held
  rw [quiet] at held
  exact .inl held
end

structure Placed (s : Epoll) : Prop where
  idle : s.phase = .idle → s.out = []
  accepting : ∀ {fd ev count rest}, s.phase = .dispatch fd ev (.accepting count) rest → (s.state fd).acceptArmed
  receiving : ∀ {fd ev data rest}, s.phase = .dispatch fd ev (.receiving data) rest → (s.state fd).recvArmed

variable {s s' : Epoll} {a : Action} {f : Fd}

lemma network_same (came : s.network a = some s') : s'.fds = s.fds ∧ s'.refused = s.refused ∧
    s'.pendingEvents = s.pendingEvents ∧ s'.phase = s.phase ∧ s'.out = s.out := by
  unfold network at came
  split at came
  · dsimp only at came
    split at came
    · cases came
    cases came
    exact ⟨rfl,rfl,rfl,rfl,rfl⟩
  · cases came
    exact ⟨rfl,rfl,rfl,rfl,rfl⟩
  · cases came

def Still (s s' : Epoll) : Prop := s'.phase = s.phase ∧ s'.out = s.out

lemma enter_still (fd : Fd) (st : FdState) (serial : Nat) (add : Bool) : Still s (s.enter fd st serial add).1 := by
  unfold enter
  dsimp only
  split <;> exact ⟨rfl,rfl⟩

lemma submitSendv_still (user : UserData) (fd : Fd) (iov : List Bytes) (reply : SendReply)
    (add : Bool) : Still s (s.submitSendv user fd iov reply add).1 := by
  have tail (sent : Nat) : Still s ((s.countOp fd).sendTail user fd (s.state fd) iov.flatten
      (s.serials fd) sent add).1 := by
    unfold sendTail
    dsimp only
    split
    · exact ⟨rfl,rfl⟩
    · exact enter_still fd _ _ add
  unfold submitSendv
  dsimp only
  split
  · exact ⟨rfl,rfl⟩
  cases reply with
  | wrote | again => exact tail _
  | intr | error => exact ⟨rfl,rfl⟩

lemma cancel_still (user : UserData) (order : List Fd) : Still s (order.foldl (fun s fd => s.cancelAt user fd) s) := by
  induction order generalizing s with
  | nil => exact ⟨rfl,rfl⟩
  | cons fd _ rest =>
    have one : Still s (s.cancelAt user fd) := by
      unfold cancelAt
      split <;> exact ⟨rfl,rfl⟩
    have others := rest (s := s.cancelAt user fd)
    exact ⟨others.1.trans one.1,others.2.trans one.2⟩

lemma call_still (called : s.call a = some s') :
    (∃ cap, 0 < cap ∧ a = .wait cap ∧ s' = s.beginWait cap) ∨ Still s s' := by
  unfold call at called
  split at called
  · cases called
    exact .inr ⟨rfl,rfl⟩
  · cases called
    right
    unfold modify
    split <;> exact ⟨rfl,rfl⟩
  · cases called
    right
    unfold detach
    split <;> exact ⟨rfl,rfl⟩
  · cases called
    right
    unfold submitRecv
    dsimp only
    split
    · exact ⟨rfl,rfl⟩
    · exact enter_still _ _ _ _
  · split at called
    · cases called
      exact .inr (submitSendv_still _ _ _ _ _)
    · cases called
  · cases called
    exact .inr ⟨rfl,rfl⟩
  · split at called
    · cases called
      right
      unfold submitConnect
      split
      · exact ⟨rfl,rfl⟩
      · exact ⟨rfl,rfl⟩
      · exact enter_still _ _ _ _
    · cases called
  · cases called
    exact .inr (cancel_still _ _)
  · split at called
    · cases called
      exact .inl ⟨_,‹_›,rfl,rfl⟩
    · cases called
  · cases called

lemma beginWait_attended (cap : Nat) (idle : s.phase = .idle) (attended : s.Attended f) :
    (s.beginWait cap).Attended f := by
  unfold beginWait
  dsimp only
  have outside : ∀ ev stage rest, s.phase ≠ .dispatch f ev stage rest := by simp [idle]
  split
  · refine Attended.of_queued (s := s) rfl rfl outside ?_ attended
    intro _ held
    rw [idle] at held
    exact .inl held
  refine Attended.of_queued (s := s) rfl rfl outside ?_ attended
  intro _ held
  rw [idle] at held
  exact .inl held

lemma call_attended (idle : s.phase = .idle) (called : s.call a = some s')
    (behind : a.behind s) (attended : ∀ f, s.Attended f) : s'.Attended f := by
  unfold call at called
  split at called
  · cases called
    exact request_attended (by rfl) (by rfl) attended
  · cases called
    exact modify_attended _ _ _ attended
  · cases called
    exact detach_attended (attended f)
  · cases called
    exact submitRecv_attended _ _ _ _ attended
  · split at called
    · cases called
      apply submitSendv_attended _ _ _ _ _ _ attended
      simp only [Action.behind,Bool.or_eq_true,List.isEmpty_iff] at behind
      exact behind.resolve_left
    · cases called
  · cases called
    exact request_attended (by rfl) (by rfl) attended
  · split at called
    · cases called
      exact submitConnect_attended _ _ _ _ attended
    · cases called
  · cases called
    exact cancel_attended _ _ attended
  · split at called
    · cases called
      exact beginWait_attended _ idle (attended f)
    · cases called
  · cases called

lemma attended_of_none (unknown : s.fds f = none) : s.Attended f := by
  have nothing : s.state f = {} := by simp [state,unknown]
  unfold Attended
  rw [nothing]
  constructor <;> simp [FdState.outstanding]

lemma nextPending_attended (at' : s.phase = .pending) (attended : s.Attended f) : s.nextPending.Attended f := by
  have outside : ∀ ev stage rest, s.phase ≠ .dispatch f ev stage rest := by simp [at']
  unfold nextPending
  split
  · exact finishWait_attended (by rw [at']; rfl) outside attended
  split
  next =>
    refine Attended.of_queued (s := s) rfl rfl outside ?_ attended
    intro _ held
    rw [at'] at held
    exact .inl held
  next fd _ _ more =>
  dsimp only
  split
  · refine Attended.of_queued (s := s) rfl rfl outside ?_ attended
    intro e held
    rw [at',more] at held
    obtain here | there := mem_cons.1 held
    · cases here
      exact .inr ⟨none,rfl⟩
    · exact .inl there
  next unknown =>
  by_cases same : f = fd
  · subst same
    exact attended_of_none (by simpa using unknown)
  refine Attended.of_queued (s := s) rfl rfl outside ?_ attended
  intro e held
  rw [at',more] at held
  obtain here | there := mem_cons.1 held
  · cases here
    exact absurd rfl same
  refine .inl ?_
  rw [at']
  exact there

lemma nextEvent_attended {rest : List (Fd × Events)} (at' : s.phase = .events rest)
    (attended : s.Attended f) : (s.nextEvent rest).Attended f := by
  have outside : ∀ ev stage rest, s.phase ≠ .dispatch f ev stage rest := by simp [at']
  cases rest with
  | nil => exact finishWait_attended (by rw [at']; rfl) outside attended
  | cons head rest =>
    obtain ⟨fd,_⟩ := head
    unfold nextEvent
    dsimp only
    split
    next unknown =>
      by_cases same : f = fd
      · subst same
        exact attended_of_none (by simpa using unknown)
      refine Attended.of_queued (s := s) rfl rfl outside ?_ attended
      intro e held
      rw [at'] at held
      obtain pending | left := mem_append.1 held
      · exact .inl (mem_append_left _ pending)
      obtain here | there := mem_cons.1 left
      · cases here
        exact absurd rfl same
      · exact .inl (mem_append_right _ there)
    · split
      · refine Attended.of_queued (s := s) rfl rfl outside ?_ attended
        intro e held
        rw [at'] at held
        obtain pending | left := mem_append.1 held
        · exact .inl (mem_append_left _ (mem_append_left _ pending))
        obtain here | there := mem_cons.1 left
        · cases here
          exact .inl (mem_append_left _ (mem_append_right _ (mem_singleton.2 rfl)))
        · exact .inl (mem_append_right _ there)
      refine Attended.of_queued (s := s) rfl rfl outside ?_ attended
      intro e held
      rw [at'] at held
      obtain pending | left := mem_append.1 held
      · exact .inl (mem_append_left _ pending)
      obtain here | there := mem_cons.1 left
      · cases here
        exact .inr ⟨some rest,rfl⟩
      · exact .inl (mem_append_right _ there)

lemma report_attended {events : List (Fd × Events)} (at' : s.phase = .poll)
    (attended : s.Attended f) : (s.report events).Attended f := by
  have told {bit : Events → Bool} {upTo : Stage → Bool}
      (any : (events.any fun e => e.1 == f && bit e.2) = true) : (s.report events).Holds f bit upTo := by
    obtain ⟨⟨_,ev⟩,reported,matches'⟩ := any_eq_true.1 any
    simp only [Bool.and_eq_true,beq_iff_eq] at matches'
    obtain ⟨rfl,sets⟩ := matches'
    exact .inl ⟨ev,mem_append_right _ reported,sets⟩
  have kept {bit : Events → Bool} {upTo : Stage → Bool} (holds : s.Holds f bit upTo) :
      (s.report events).Holds f bit upTo := by
    obtain ⟨ev,held,sets⟩ | ⟨ev,_,_,now,_⟩ := holds
    · rw [at'] at held
      have pending : (f,ev) ∈ s.pendingEvents := by simpa [Phase.left] using held
      exact .inl ⟨ev,mem_append_left _ pending,sets⟩
    rw [at'] at now
    cases now
  have owes {bit : Events → Bool} {upTo : Stage → Bool} {owed : Bool} (before : owed ∨ s.Holds f bit upTo) :
      (owed && !events.any fun e => e.1 == f && bit e.2) = true ∨ (s.report events).Holds f bit upTo := by
    cases reported : events.any fun e => e.1 == f && bit e.2
    · simpa using before.imp_right kept
    · exact .inr (told reported)
  cases known : s.fds f with
  | none =>
    apply attended_of_none
    simp [report,known]
  | some st =>
    have own := attended
    unfold Attended at own
    rw [state_of_fds known] at own
    have after : (s.report events).fds f = some { st with owed :=
        ⟨st.owed.readable && !events.any fun e => e.1 == f && e.2.input,
          st.owed.writable && !events.any fun e => e.1 == f && e.2.output⟩ } := by
      simp [report,known]
    unfold Attended
    rw [state_of_fds after]
    refine ⟨own.registered,?_,?_,?_⟩
    · intro registered armed
      exact (own.recv registered armed).imp_right fun rest => owes rest
    · intro registered pending
      exact owes (own.connect registered pending)
    intro registered queued
    exact owes (own.send registered queued)

lemma finishWait_placed (s : Epoll) : Placed s.finishWait := ⟨fun _ => rfl,nofun,nofun⟩

lemma leave_placed (s : Epoll) (rest : Option (List (Fd × Events))) : Placed (s.leave rest) := by
  cases rest with
  | none | some => exact ⟨nofun,nofun,nofun⟩

variable {rest : Option (List (Fd × Events))} {fd : Fd} {ev : Events}

lemma goto_placed {stage : Stage} (accepting : ∀ count, stage = .accepting count → (s.state fd).acceptArmed)
    (receiving : ∀ data, stage = .receiving data → (s.state fd).recvArmed) : Placed (s.goto fd ev stage rest) := by
  refine ⟨nofun,?_,?_⟩
  · intro _ _ count _ now
    cases now
    exact accepting count rfl
  intro _ _ data _ now
  cases now
  exact receiving data rfl

lemma readable_placed : Placed ((s.watchReadable fd (s.state fd) ev).goto fd ev (readStage (s.state fd) ev) rest) := by
  have same : (s.watchReadable fd (s.state fd) ev).state fd = s.state fd := by
    unfold watchReadable emit
    split_ifs <;> rfl
  unfold readStage
  apply goto_placed
  · intro _ next
    rw [same]
    split_ifs at next
    assumption
  intro _ next
  rw [same]
  split_ifs at next
  assumption

lemma accept_placed {count : Nat} {peer : Option Fd} (armed : (s.state fd).acceptArmed) :
    Placed ((s.onAccept fd (s.state fd) count peer).1.goto fd ev (s.onAccept fd (s.state fd) count peer).2 rest) := by
  cases peer with
  | none => exact goto_placed nofun nofun
  | some =>
    unfold onAccept
    dsimp only
    split
    · exact goto_placed nofun nofun
    apply goto_placed
    · intro _ _
      unfold emit
      split <;> exact armed
    intro _ next
    split at next <;> cases next

lemma recv_placed {data : Bytes} {reply : RecvReply} (armed : (s.state fd).recvArmed) :
    Placed ((s.onRecv fd (s.state fd) data reply).1.goto fd ev (s.onRecv fd (s.state fd) data reply).2 rest) := by
  unfold onRecv
  split
  · exact goto_placed nofun nofun
  cases reply with
  | chunk | intr => exact goto_placed nofun fun _ _ => armed
  | eof | error => exact goto_placed nofun nofun
  | again =>
    dsimp only
    split <;> exact goto_placed nofun nofun

lemma send_placed {req : SendReq} {queue : List SendReq} {reply : SendReply} :
    Placed ((s.onSend fd (s.state fd) req queue reply).1.goto fd ev
    (s.onSend fd (s.state fd) req queue reply).2 rest) := by
  cases reply with
  | intr | again | error => exact goto_placed nofun nofun
  | wrote =>
    unfold onSend
    dsimp only
    split <;> exact goto_placed nofun nofun

lemma turn_placed (turn : Turn s a s') (placed : Placed s) : Placed s' := by
  cases turn with
  | network came =>
    obtain ⟨fds,_,_,phase,out⟩ := network_same came
    have state : ∀ f, s'.state f = s.state f := fun f => by simp only [state,fds]
    constructor
    · rw [phase,out]
      exact placed.idle
    · intro _ _ _ _ now
      rw [phase] at now
      rw [state]
      exact placed.accepting now
    intro _ _ _ _ now
    rw [phase] at now
    rw [state]
    exact placed.receiving now
  | call idle called =>
    obtain ⟨_,_,_,rfl⟩ | ⟨phase,out⟩ := call_still called
    · unfold beginWait
      dsimp only
      split
      · exact finishWait_placed _
      · constructor <;> simp
    rw [idle] at phase
    constructor
    · rw [out]
      exact fun _ => placed.idle idle
    · intro _ _ _ _ now
      rw [phase] at now
      cases now
    intro _ _ _ _ now
    rw [phase] at now
    cases now
  | pending at' =>
    unfold nextPending
    split
    · exact finishWait_placed _
    split
    · constructor <;> simp
    dsimp only
    split
    · constructor <;> simp
    · refine ⟨?_,?_,?_⟩ <;> simp [at']
  | poll => constructor <;> intros <;> contradiction
  | @event rest _ =>
    cases rest with
    | nil => exact finishWait_placed s
    | cons =>
      unfold nextEvent
      dsimp only
      split_ifs <;> constructor <;> intros <;> rename_i now <;> cases now
  | errorish | writable | sent => exact goto_placed (by simp) (by simp)
  | readable => exact readable_placed
  | accept at' => exact accept_placed (placed.accepting at')
  | recv at' => exact recv_placed (placed.receiving at')
  | unwritable | watch => exact leave_placed _ _
  | send => exact send_placed

lemma turn_attended (turn : Turn s a s') (placed : Placed s) (behind : a.behind s)
    (attended : ∀ f, s.Attended f) : s'.Attended f := by
  cases turn with
  | network came =>
    obtain ⟨fds,refused,pending,phase,_⟩ := network_same came
    refine (attended f).congr ?_ (congrFun refused f) pending phase
    simp only [state,fds]
  | call idle called => exact call_attended idle called behind attended
  | pending at' => exact nextPending_attended at' (attended f)
  | poll at' => exact report_attended at' (attended f)
  | event at' => exact nextEvent_attended at' (attended f)
  | errorish at' => exact errorish_attended _ at' attended
  | readable at' => exact readable_attended at' attended
  | accept at' => exact accept_attended _ _ at' (placed.accepting at') attended
  | recv at' => exact onRecv_attended _ _ at' attended
  | unwritable at' quiet => exact unwritable_attended at' quiet (attended f)
  | writable at' => exact writable_attended _ at' attended
  | send at' front => exact send_attended _ _ _ at' front attended
  | sent at' empty => exact sent_attended at' empty attended
  | watch at' => exact watch_attended at' (attended f)
end AffiniX.Epoll
