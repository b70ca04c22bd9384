import AffiniX.EpollReadiness

/-! What the calls and turns of the backend do to the operations, the events and the completions of a descriptor. -/
namespace AffiniX
open Function List Option Nat
namespace Epoll.FdState
variable (st : FdState)

def Has (fd : Fd) : Origin → Prop
  | .watch f => f = fd ∧ st.interest ≠ {}
  | .recv f serial _ => f = fd ∧ st.recvArmed ∧ serial = st.recvSerial
  | .send f serial _ => f = fd ∧ ∃ req ∈ st.sendq, req.serial = serial
  | .connect f serial => f = fd ∧ st.connectPending ∧ serial = st.connectSerial
  | .accepted f _ | .acceptCancelled f => f = fd ∧ st.acceptArmed

def Fewer (new old : FdState) : Prop := ∀ fd origin, new.Has fd origin → old.Has fd origin

lemma Fewer.refl : st.Fewer st := fun _ _ => id

lemma Fewer.trans {a b c : FdState} (first : a.Fewer b) (second : b.Fewer c) : a.Fewer c :=
  fun fd origin has => second fd origin (first fd origin has)

lemma Fewer.of_fields {new old : FdState} (interest : new.interest = old.interest)
    (recv : new.recvArmed → old.recvArmed ∧ new.recvSerial = old.recvSerial)
    (send : ∀ req ∈ new.sendq, ∃ req' ∈ old.sendq, req'.serial = req.serial)
    (connect : new.connectPending → old.connectPending ∧ new.connectSerial = old.connectSerial)
    (accept : new.acceptArmed → old.acceptArmed) : new.Fewer old := by
  intro fd origin has
  cases origin with
  | watch f => exact ⟨has.1,interest ▸ has.2⟩
  | recv f serial data =>
    obtain ⟨armed,same⟩ := recv has.2.1
    exact ⟨has.1,armed,has.2.2.trans same⟩
  | send f serial written =>
    obtain ⟨here,req,queued,same⟩ := has
    obtain ⟨req',queued',same'⟩ := send req queued
    exact ⟨here,req',queued',same'.trans same⟩
  | connect f serial =>
    obtain ⟨pending,same⟩ := connect has.2.1
    exact ⟨has.1,pending,has.2.2.trans same⟩
  | accepted | acceptCancelled => exact ⟨has.1,accept has.2⟩

lemma Fewer.of_same {new old : FdState} (interest : new.interest = old.interest)
    (recvArmed : new.recvArmed = old.recvArmed) (recvSerial : new.recvSerial = old.recvSerial)
    (sendq : new.sendq = old.sendq) (connectPending : new.connectPending = old.connectPending)
    (connectSerial : new.connectSerial = old.connectSerial) (acceptArmed : new.acceptArmed = old.acceptArmed) :
    new.Fewer old := by
  refine .of_fields interest ?_ ?_ ?_ ?_
  · rw [recvArmed]
    exact fun armed => ⟨armed,recvSerial⟩
  · rw [sendq]
    exact fun req queued => ⟨req,queued,rfl⟩
  · rw [connectPending]
    exact fun pending => ⟨pending,connectSerial⟩
  rw [acceptArmed]
  exact id

lemma updateEvents_fewer : st.updateEvents.Fewer st := by
  unfold updateEvents
  split
  · exact .of_same rfl rfl rfl rfl rfl rfl rfl
  · exact .refl st

lemma request_fewer (add : Bool) : (st.request add).1.Fewer st := by
  unfold request register
  cases registered : st.registered with
  | true => exact updateEvents_fewer st
  | false =>
    cases add with
    | true => exact (updateEvents_fewer _).trans (.of_same rfl rfl rfl rfl rfl rfl rfl)
    | false => exact .refl st

lemma without_fewer (user : UserData) : (st.without user).Fewer st := by
  refine .of_fields rfl ?_ ?_ ?_ ?_
  · intro armed
    exact ⟨(Bool.and_eq_true_iff.1 armed).1,rfl⟩
  · intro req queued
    exact ⟨req,mem_of_mem_filter queued,rfl⟩
  · intro pending
    exact ⟨(Bool.and_eq_true_iff.1 pending).1,rfl⟩
  intro armed
  exact (Bool.and_eq_true_iff.1 armed).1
end Epoll.FdState
namespace Epoll
/-- A step in the handling of an event of `fd`: operations of `fd` end, its events are put off, and completions report
them. -/
structure Serves (fd : Fd) (s t : Epoll) : Prop where
  others : ∀ f, f ≠ fd → t.fds f = s.fds f
  known : (s.fds fd).isSome → (t.fds fd).isSome
  fewer : (t.state fd).Fewer (s.state fd)
  pending : ∃ new, t.pendingEvents = s.pendingEvents++new ∧ ∀ e ∈ new, e.1 = fd
  out : ∃ new, t.out = s.out++new ∧ ∀ c ∈ new, (s.state fd).Has fd c.origin
  kept : t.ready = s.ready ∧ t.reaped = s.reaped

namespace Serves
variable {fd : Fd} {s t u : Epoll}

lemma of_eq (fds : t.fds = s.fds) (pending : t.pendingEvents = s.pendingEvents) (out : t.out = s.out)
    (kept : t.ready = s.ready ∧ t.reaped = s.reaped) : Serves fd s t where
  others _ _ := congrFun fds _
  known := by rw [fds]; exact id
  fewer := by
    have same : t.state fd = s.state fd := by rw [state,state,fds]
    rw [same]
    exact .refl _
  pending := ⟨[],by rw [pending,append_nil],nofun⟩
  out := ⟨[],by rw [out,append_nil],nofun⟩
  kept := kept

lemma refl (s : Epoll) : Serves fd s s := .of_eq rfl rfl rfl ⟨rfl,rfl⟩

lemma trans (first : Serves fd s t) (second : Serves fd t u) : Serves fd s u := by
  obtain ⟨put,pending,own⟩ := first.pending
  obtain ⟨put',pending',own'⟩ := second.pending
  obtain ⟨done,out,has⟩ := first.out
  obtain ⟨done',out',has'⟩ := second.out
  refine ⟨fun f other => (second.others f other).trans (first.others f other),second.known ∘ first.known,
    second.fewer.trans first.fewer,⟨put++put',?_,?_⟩,⟨done++done',?_,?_⟩,
    second.kept.1.trans first.kept.1,second.kept.2.trans first.kept.2⟩
  · rw [pending',pending,append_assoc]
  · intro e inside
    rcases mem_append.1 inside with inside | inside
    · exact own e inside
    · exact own' e inside
  · rw [out',out,append_assoc]
  intro c inside
  rcases mem_append.1 inside with inside | inside
  · exact has c inside
  · exact first.fewer fd c.origin (has' c inside)

variable {st : FdState} {req : SendReq} {queue : List SendReq}

lemma setFd (fewer : st.Fewer (s.state fd)) : Serves fd s (s.setFd fd st) where
  others f other := update_of_ne other _ _
  known _ := by simp [Epoll.setFd]
  fewer := by
    rw [state_setFd,if_pos rfl]
    exact fewer
  pending := ⟨[],(append_nil _).symm,nofun⟩
  out := ⟨[],(append_nil _).symm,nofun⟩
  kept := ⟨rfl,rfl⟩

lemma postpone (ev : Events) : Serves fd s (s.postpone fd ev) where
  others _ _ := rfl
  known := id
  fewer := .refl _
  pending := ⟨[(fd,ev)],rfl,fun e same => by rw [mem_singleton.1 same]⟩
  out := ⟨[],(append_nil _).symm,nofun⟩
  kept := ⟨rfl,rfl⟩

lemma emit {c : Completion} (ev : Events) (has : (s.state fd).Has fd c.origin) : Serves fd s (s.emit c fd ev) := by
  unfold Epoll.emit
  split
  · exact postpone ev
  exact ⟨fun _ _ => rfl,id,.refl _,⟨[],(append_nil _).symm,nofun⟩,
    ⟨[c],rfl,fun c' same => by rw [mem_singleton.1 same]; exact has⟩,rfl,rfl⟩

lemma finish {c : Completion} (ev : Events) (fewer : st.Fewer (s.state fd))
    (has : (s.state fd).Has fd c.origin) : Serves fd s ((s.setFd fd st).emit c fd ev) := by
  have stored := setFd fewer
  unfold Epoll.emit
  split
  · exact stored.trans (postpone ev)
  obtain ⟨put,pending,own⟩ := stored.pending
  exact ⟨stored.others,stored.known,stored.fewer,⟨put,pending,own⟩,
    ⟨[c],rfl,fun c' same => by rw [mem_singleton.1 same]; exact has⟩,rfl,rfl⟩

lemma watch (user : UserData) (result : Int) (ev : Events) (asked : (s.state fd).interest ≠ {}) :
    Serves fd s (s.emit ⟨user,result,.watch fd⟩ fd ev) :=
  emit ev ⟨rfl,asked⟩

lemma setSocket (sock : Socket) : Serves fd s (s.setSocket fd sock) := .of_eq rfl rfl rfl ⟨rfl,rfl⟩

lemma goto (served : Serves fd s t) (ev : Events) (stage : Stage) (rest : Option (List (Fd × Events))) :
    Serves fd s (t.goto fd ev stage rest) :=
  served.trans (.of_eq rfl rfl rfl ⟨rfl,rfl⟩)

lemma leave (served : Serves fd s t) (rest : Option (List (Fd × Events))) : Serves fd s (t.leave rest) :=
  served.trans (.of_eq rfl rfl rfl ⟨rfl,rfl⟩)

lemma onErrorish (ev : Events) (err : Nat) : Serves fd s (s.onErrorish fd (s.state fd) ev err) := by
  unfold Epoll.onErrorish
  split
  next armed =>
    split
    · exact (setFd (FdState.updateEvents_fewer _)).trans (postpone ev)
    refine finish ev ?_ ⟨rfl,armed,rfl⟩
    exact (FdState.updateEvents_fewer _).trans (.of_fields rfl nofun (fun req queued => ⟨req,queued,rfl⟩)
      (fun pending => ⟨pending,rfl⟩) id)
  · split
    · exact watch _ _ ev ‹_›
    · exact .refl s

lemma interest_ne {interest : Interest} (set : interest.readable = true ∨ interest.writable = true) :
    interest ≠ {} := by
  intro same
  subst same
  simp at set

lemma watchReadable (ev : Events) : Serves fd s (s.watchReadable fd (s.state fd) ev) := by
  unfold Epoll.watchReadable
  split
  next asked => exact watch _ _ _ (interest_ne (.inl (Bool.and_eq_true_iff.1 asked).2))
  · exact .refl s

lemma watchWritable : Serves fd s (s.watchWritable fd (s.state fd)) := by
  unfold Epoll.watchWritable
  split
  next asked => exact watch _ _ _ (interest_ne (.inr asked))
  · exact .refl s

lemma onAccept {count : Nat} {peer : Option Fd} (armed : (s.state fd).acceptArmed) :
    Serves fd s (s.onAccept fd (s.state fd) count peer).1 := by
  cases peer with
  | none => exact .refl s
  | some peer =>
    have noted : Serves fd s (s.noteAccepted fd peer) := .of_eq rfl rfl rfl ⟨rfl,rfl⟩
    unfold Epoll.onAccept
    dsimp only
    split
    · exact noted.trans (postpone _)
    · exact noted.trans (emit _ ⟨rfl,armed⟩)

lemma reportRecv (result : Int) (data : Bytes) (armed : (s.state fd).recvArmed) :
    Serves fd s (s.reportRecv fd (s.state fd) result data) := by
  unfold Epoll.reportRecv
  split
  · exact (setFd (FdState.updateEvents_fewer _)).trans (postpone _)
  refine finish _ ?_ ⟨rfl,armed,rfl⟩
  exact (FdState.updateEvents_fewer _).trans (.of_fields rfl nofun (fun req queued => ⟨req,queued,rfl⟩)
    (fun pending => ⟨pending,rfl⟩) id)

lemma onRecv {data : Bytes} {reply : RecvReply} (armed : (s.state fd).recvArmed) :
    Serves fd s (s.onRecv fd (s.state fd) data reply).1 := by
  unfold Epoll.onRecv
  split
  · exact reportRecv _ _ armed
  cases reply with
  | chunk => exact setSocket _
  | eof | error => exact reportRecv _ _ armed
  | intr => exact .refl s
  | again =>
    dsimp only
    split
    · exact setFd (.of_same rfl rfl rfl rfl rfl rfl rfl)
    · exact reportRecv _ _ armed

lemma onConnected (err : Nat) : Serves fd s (s.onConnected fd (s.state fd) err) := by
  unfold Epoll.onConnected
  split
  next pending =>
    refine finish _ ?_ ⟨rfl,pending,rfl⟩
    exact (FdState.updateEvents_fewer _).trans (.of_fields rfl (fun armed => ⟨armed,rfl⟩)
      (fun req queued => ⟨req,queued,rfl⟩) nofun id)
  · exact .refl s

lemma dequeued_fewer (queued : st.sendq = req::queue) : FdState.Fewer { st with sendq := queue } st :=
  .of_fields rfl (fun armed => ⟨armed,rfl⟩)
    (fun other inside => ⟨other,queued ▸ mem_cons_of_mem req inside,rfl⟩) (fun pending => ⟨pending,rfl⟩) id

lemma advanced_fewer (off : Nat) (queued : st.sendq = req::queue) :
    FdState.Fewer { st with sendq := { req with off := off }::queue } st := by
  refine .of_fields rfl (fun armed => ⟨armed,rfl⟩) ?_ (fun pending => ⟨pending,rfl⟩) id
  intro other inside
  rw [queued]
  rcases mem_cons.1 inside with same | inside
  · rw [same]
    exact ⟨req,mem_cons_self,rfl⟩
  · exact ⟨other,mem_cons_of_mem req inside,rfl⟩

lemma onSend {reply : SendReply} (queued : (s.state fd).sendq = req::queue) :
    Serves fd s (s.onSend fd (s.state fd) req queue reply).1 := by
  have first : req ∈ (s.state fd).sendq := by
    rw [queued]
    exact mem_cons_self
  have dropped := (FdState.updateEvents_fewer { s.state fd with sendq := queue }).trans (dequeued_fewer queued)
  cases reply with
  | intr => exact .refl s
  | again => exact setFd (.of_same rfl rfl rfl rfl rfl rfl rfl)
  | error => exact finish _ dropped ⟨rfl,req,first,rfl⟩
  | wrote =>
    unfold Epoll.onSend
    dsimp only
    split
    · exact (setSocket _).trans (finish _ dropped ⟨rfl,req,first,rfl⟩)
    · exact (setSocket _).trans (setFd (advanced_fewer _ queued))
end Serves

lemma dispatch_serves {s t : Epoll} {answer : Answer} {fd : Fd} {ev : Events} {stage : Stage}
    {rest : Option (List (Fd × Events))} (turn : Turn s (.dispatch answer) t) (placed : Placed s)
    (now : s.phase = .dispatch fd ev stage rest) : Serves fd s t := by
  cases turn with
  | network came => cases came
  | call idle => cases now.symm.trans idle
  | errorish at' =>
    cases now.symm.trans at'
    apply Serves.goto
    split
    · exact .onErrorish ev _
    · exact .refl s
  | readable at' =>
    cases now.symm.trans at'
    exact (Serves.watchReadable ev).goto _ _ _
  | accept at' =>
    cases now.symm.trans at'
    exact (Serves.onAccept (placed.accepting at')).goto _ _ _
  | recv at' =>
    cases now.symm.trans at'
    exact (Serves.onRecv (placed.receiving at')).goto _ _ _
  | unwritable => exact (Serves.refl s).leave _
  | writable at' =>
    cases now.symm.trans at'
    exact (Serves.onConnected _).goto _ _ _
  | send at' queued =>
    cases now.symm.trans at'
    exact (Serves.onSend queued).goto _ _ _
  | sent at' =>
    cases now.symm.trans at'
    exact (Serves.refl s).goto _ _ _
  | watch at' =>
    cases now.symm.trans at'
    exact Serves.watchWritable.leave _

structure Trims (s t : Epoll) : Prop where
  known : ∀ f, (t.fds f).isSome → (s.fds f).isSome
  fewer : ∀ f, (t.state f).Fewer (s.state f)

namespace Trims
variable {s t u : Epoll}

lemma of_fds (fds : t.fds = s.fds) : Trims s t where
  known f := by
    rw [fds]
    exact id
  fewer f := by
    have same : t.state f = s.state f := by rw [state,state,fds]
    rw [same]
    exact .refl _

lemma trans (first : Trims s t) (second : Trims t u) : Trims s u :=
  ⟨fun f => first.known f ∘ second.known f,fun f => (second.fewer f).trans (first.fewer f)⟩

lemma report (events : List (Fd × Events)) : Trims s (s.report events) where
  known f := by
    intro known
    simpa [Epoll.report] using known
  fewer f := by
    unfold state Epoll.report
    dsimp only
    cases s.fds f with
    | none => exact .refl _
    | some => exact .of_same rfl rfl rfl rfl rfl rfl rfl

lemma cancelAt (user : UserData) (fd : Fd) : Trims s (s.cancelAt user fd) := by
  unfold Epoll.cancelAt
  split
  · exact .of_fds rfl
  next st known =>
  have fewer : (if (st.cancelled user fd).isEmpty then st.without user
      else (st.without user).updateEvents).Fewer (s.state fd) := by
    rw [state_of_fds known]
    split
    · exact st.without_fewer user
    · exact (FdState.updateEvents_fewer _).trans (st.without_fewer user)
  have served := Serves.setFd fewer
  constructor
  · intro f inside
    by_cases same : f = fd
    · subst same
      simp [known]
    rw [← served.others f same]
    exact inside
  intro f
  by_cases same : f = fd
  · subst same
    exact served.fewer
  have kept := served.others f same
  unfold state
  rw [← kept]
  exact .refl _

lemma cancel (user : UserData) (order : List Fd) : Trims s (order.foldl (fun s fd => s.cancelAt user fd) s) := by
  induction order generalizing s with
  | nil => exact .of_fds rfl
  | cons fd _ rest => exact (cancelAt user fd).trans rest
end Trims

structure Queues (own : Origin → Prop) (s t : Epoll) : Prop where
  ready : ∃ new, t.ready = s.ready++new ∧ ∀ c ∈ new, own c.origin
  out : t.out = s.out
  reaped : t.reaped = s.reaped

namespace Queues
variable {own : Origin → Prop} {s t u : Epoll}

lemma of_eq (ready : t.ready = s.ready) (out : t.out = s.out) (reaped : t.reaped = s.reaped) : Queues own s t :=
  ⟨⟨[],by rw [ready,append_nil],nofun⟩,out,reaped⟩

lemma one {c : Completion} (ready : t.ready = s.ready++[c]) (out : t.out = s.out)
    (reaped : t.reaped = s.reaped) (owned : own c.origin) : Queues own s t :=
  ⟨⟨[c],ready,fun c' same => by rw [mem_singleton.1 same]; exact owned⟩,out,reaped⟩

lemma trans (first : Queues own s t) (second : Queues own t u) : Queues own s u := by
  obtain ⟨new,ready,owned⟩ := first.ready
  obtain ⟨new',ready',owned'⟩ := second.ready
  refine ⟨⟨new++new',?_,?_⟩,second.out.trans first.out,second.reaped.trans first.reaped⟩
  · rw [ready',ready,append_assoc]
  intro c inside
  exact (mem_append.1 inside).elim (owned c) (owned' c)

lemma mono {own' : Origin → Prop} (queues : Queues own s t) (wider : ∀ origin, own origin → own' origin) :
    Queues own' s t := by
  obtain ⟨new,ready,owned⟩ := queues.ready
  exact ⟨⟨new,ready,fun c inside => wider _ (owned c inside)⟩,queues.out,queues.reaped⟩

lemma drop (queues : Queues own s t) {c : Completion} (inside : c ∈ t.ready.drop s.ready.length) : own c.origin := by
  obtain ⟨_,ready,owned⟩ := queues.ready
  rw [ready,drop_left] at inside
  exact owned c inside
end Queues

lemma cancelled_has {st : FdState} {user : UserData} {fd : Fd} {c : Completion}
    (inside : c ∈ st.cancelled user fd) : st.Has fd c.origin := by
  unfold FdState.cancelled at inside
  simp only [mem_append,List.mem_map,mem_ite_nil_right,mem_singleton,mem_filter] at inside
  rcases inside with ((⟨armed,rfl⟩ | ⟨req,queued,rfl⟩) | ⟨armed,rfl⟩) | ⟨pending,rfl⟩
  · exact ⟨rfl,armed.1,rfl⟩
  · exact ⟨rfl,req,queued.1,rfl⟩
  · exact ⟨rfl,armed.1⟩
  · exact ⟨rfl,pending.1,rfl⟩

lemma cancel_queues (s : Epoll) (user : UserData) (order : List Fd) :
    Queues (fun origin => ∃ fd, (s.state fd).Has fd origin) s (order.foldl (fun s fd => s.cancelAt user fd) s) := by
  induction order generalizing s with
  | nil => exact .of_eq rfl rfl rfl
  | cons fd _ rest =>
    have one : Queues (fun origin => ∃ fd, (s.state fd).Has fd origin) s (s.cancelAt user fd) := by
      unfold cancelAt
      split
      · exact .of_eq rfl rfl rfl
      next known =>
      refine ⟨⟨_,rfl,?_⟩,rfl,rfl⟩
      intro c inside
      refine ⟨fd,?_⟩
      rw [state_of_fds known]
      exact cancelled_has inside
    apply one.trans
    apply (rest (s.cancelAt user fd)).mono
    intro origin ⟨f,has⟩
    exact ⟨f,(Trims.cancelAt user fd).fewer f f origin has⟩

inductive Op
  | watch (fd : Fd)
  | oneShot (fd : Fd) (serial : Nat)
  | accept (fd : Fd)
deriving DecidableEq

def Op.fd : Op → Fd
  | .watch fd | .oneShot fd _ | .accept fd => fd

def Origin.op : Origin → Op
  | .watch fd => .watch fd
  | .recv fd serial _ | .send fd serial _ | .connect fd serial => .oneShot fd serial
  | .accepted fd _ | .acceptCancelled fd => .accept fd

lemma FdState.Has.op_fd {st : FdState} {fd : Fd} {origin : Origin} (has : st.Has fd origin) : origin.op.fd = fd := by
  cases origin <;> exact has.1

structure Begins (op : Op) (s t : Epoll) : Prop where
  others : ∀ f, f ≠ op.fd → t.fds f = s.fds f
  has : ∀ origin, (t.state op.fd).Has op.fd origin → (s.state op.fd).Has op.fd origin ∨ origin.op = op
  pending : t.pendingEvents = s.pendingEvents
  queues : Queues (·.op = op) s t

namespace Begins
variable {op : Op} {fd : Fd} {s : Epoll}

lemma refl (s : Epoll) : Begins op s s := ⟨fun _ _ => rfl,fun _ => .inl,rfl,.of_eq rfl rfl rfl⟩

lemma store {s' t : Epoll} {new st : FdState} (here : op.fd = fd) (fds : s'.fds = s.fds)
    (after : t.fds = (s'.setFd fd new).fds) (pending : t.pendingEvents = s.pendingEvents)
    (queues : Queues (·.op = op) s t) (fewer : new.Fewer st) (has : ∀ origin, st.Has fd origin → (s.state fd).Has fd origin ∨ origin.op = op) :
    Begins op s t := by
  subst here
  refine ⟨?_,?_,pending,queues⟩
  · intro f other
    rw [after,← fds]
    exact update_of_ne other _ _
  intro origin has'
  have now : t.state op.fd = new := by
    have stored := state_setFd s' op.fd op.fd new
    rw [if_pos rfl] at stored
    rw [state,after]
    exact stored
  rw [now] at has'
  exact has origin (fewer op.fd origin has')

lemma attach (interest : Interest) (user : UserData) (add : Bool) :
    Begins (.watch fd) s (s.attach fd interest user add).1 := by
  refine store rfl rfl rfl rfl (.of_eq rfl rfl rfl) (FdState.request_fewer _ add) ?_
  intro origin has
  cases origin with
  | watch f => exact .inr (congrArg Op.watch has.1)
  | _ => exact .inl has

lemma modify (interest : Interest) (user : UserData) : Begins (.watch fd) s (s.modify fd interest user).1 := by
  unfold Epoll.modify
  split
  · exact .refl s
  next st known =>
  refine store rfl rfl rfl rfl (.of_eq rfl rfl rfl) (FdState.updateEvents_fewer _) ?_
  rw [show s.state (Op.watch fd).fd = st from state_of_fds known]
  intro origin has
  cases origin with
  | watch f => exact .inr (congrArg Op.watch has.1)
  | _ => exact .inl has

variable (user : UserData)

lemma submitAccept (add : Bool) : Begins (.accept fd) s (s.submitAccept user fd add).1 := by
  refine store rfl rfl rfl rfl (.of_eq rfl rfl rfl) (FdState.request_fewer _ add) ?_
  intro origin has
  cases origin with
  | accepted | acceptCancelled => exact .inr (congrArg Op.accept has.1)
  | _ => exact .inl has

lemma enter {s' : Epoll} {st : FdState} {serial : Nat} (add : Bool) (fds : s'.fds = s.fds)
    (pending : s'.pendingEvents = s.pendingEvents) (queues : Queues (·.op = .oneShot fd serial) s s')
    (has : ∀ origin, st.Has fd origin → (s.state fd).Has fd origin ∨ origin.op = .oneShot fd serial) :
    Begins (.oneShot fd serial) s (s'.enter fd st serial add).1 := by
  have fewer := st.request_fewer add
  unfold Epoll.enter
  dsimp only
  split <;> exact store rfl fds rfl pending (queues.trans (.of_eq rfl rfl rfl)) fewer has

lemma submitRecv (len : Nat) (add : Bool) : Begins (.oneShot fd (s.serials fd)) s (s.submitRecv user fd len add).1 := by
  unfold Epoll.submitRecv
  dsimp only
  split
  · exact store rfl rfl rfl rfl (.of_eq rfl rfl rfl) (.refl _) fun _ => .inl
  refine enter add rfl rfl (.of_eq rfl rfl rfl) ?_
  intro origin has
  cases origin with
  | recv f serial data => exact .inr (congrArg₂ Op.oneShot has.1 has.2.2)
  | _ => exact .inl has

lemma sendTail {s' : Epoll} (bytes : Bytes) (serial sent : Nat) (add : Bool)
    (fds : s'.fds = s.fds) (pending : s'.pendingEvents = s.pendingEvents)
    (queues : Queues (·.op = .oneShot fd serial) s s') :
    Begins (.oneShot fd serial) s (s'.sendTail user fd (s.state fd) bytes serial sent add).1 := by
  unfold Epoll.sendTail
  split
  · exact store rfl fds rfl pending (queues.trans (.one rfl rfl rfl rfl)) (.refl _) fun _ => .inl
  refine enter add fds pending (queues.trans (.of_eq rfl rfl rfl)) ?_
  intro origin has
  cases origin with
  | send f number written =>
    obtain ⟨here,req,queued,same⟩ := has
    rw [mem_singleton.1 queued] at same
    exact .inr (congrArg₂ Op.oneShot here same.symm)
  | _ => exact .inl has

lemma submitSendv (iov : List Bytes) (reply : SendReply) (add : Bool) :
    Begins (.oneShot fd (s.serials fd)) s (s.submitSendv user fd iov reply add).1 := by
  unfold Epoll.submitSendv
  dsimp only
  split
  · refine store rfl rfl rfl rfl (.of_eq rfl rfl rfl) (FdState.updateEvents_fewer _) ?_
    intro origin has
    cases origin with
    | send f number written =>
      obtain ⟨here,req,queued,same⟩ := has
      rcases mem_append.1 queued with queued | last
      · exact .inl ⟨here,req,queued,same⟩
      rw [mem_singleton.1 last] at same
      exact .inr (congrArg₂ Op.oneShot here same.symm)
    | _ => exact .inl has
  cases reply with
  | wrote | again => exact sendTail _ _ _ _ add rfl rfl (.of_eq rfl rfl rfl)
  | intr | error => exact store rfl rfl rfl rfl (.one rfl rfl rfl rfl) (.refl _) fun _ => .inl

lemma submitConnect (reply : ConnectReply) (add : Bool) :
    Begins (.oneShot fd (s.serials fd)) s (s.submitConnect user fd reply add).1 := by
  cases reply with
  | ok | error => exact store rfl rfl rfl rfl (.one rfl rfl rfl rfl) (.refl _) fun _ => .inl
  | inProgress =>
    refine enter add rfl rfl (.of_eq rfl rfl rfl) ?_
    intro origin has
    cases origin with
    | connect f serial => exact .inr (congrArg₂ Op.oneShot has.1 has.2.2)
    | _ => exact .inl has
end Begins
end Epoll
end AffiniX
