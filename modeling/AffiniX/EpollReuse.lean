import AffiniX.EpollServing

/-! Descriptor numbers that are used again. -/
namespace AffiniX
open Function List Option Nat Epoll Transition

/-- A completion, with the uses of the number that its event, its operation and its socket belong to. What a call
completes at once has no event. -/
structure Report where
  completion : Completion
  recorded : Option Nat
  submitted : Nat
  produced : Nat
deriving DecidableEq

def Report.Own (r : Report) : Prop := (∀ use ∈ r.recorded, use = r.submitted) ∧ r.produced = r.submitted

/-- The backend with the uses of its numbers: `marks` for the events left over, `serving` for the dispatched one,
`births` for operations. -/
structure EpollReuse where
  epoll : Epoll
  use : Fd → Nat
  marks : List Nat
  serving : Nat
  births : Op → Nat
  reports : List Report

namespace EpollReuse
def create : EpollReuse where
  epoll := .create
  use := fun _ => 0
  marks := []
  serving := 0
  births := fun _ => 0
  reports := []

inductive Move
  | backend (a : Action)
  | reopen (fd : Fd)
deriving DecidableEq

variable (s : EpollReuse)

def newUse (fd : Fd) : EpollReuse := { s with use := update s.use fd (s.use fd+1) }

def bear (op : Op) : EpollReuse := { s with births := update s.births op (s.use op.fd) }

def putOff (mark : Nat) (next : Epoll) : EpollReuse :=
  { s with
    marks := s.marks++.replicate (next.pendingEvents.length-s.epoll.pendingEvents.length) mark }

def reportOf (recorded : Option Nat) (c : Completion) : Report :=
  ⟨c,recorded,s.births c.origin.op,s.use c.origin.op.fd⟩

def account (next : Epoll) : Action → EpollReuse
  | .detach fd => s.newUse fd
  | .attach fd _ _ _ | .modify fd _ _ => s.bear (.watch fd)
  | .submitRecv _ fd _ _ | .submitSendv _ fd _ _ _ | .submitConnect _ fd _ _ =>
    s.bear (.oneShot fd (s.epoll.serials fd))
  | .submitAccept _ fd _ => s.bear (.accept fd)
  | .pending =>
    { s with
      marks := s.marks.drop (s.epoll.pendingEvents.length-next.pendingEvents.length)
      serving := s.marks.headD 0 }
  | .event =>
    match s.epoll.phase with
    | .events ((fd,_)::_) => { (s.putOff (s.use fd) next) with serving := s.use fd }
    | _ => s
  | .dispatch _ =>
    { (s.putOff s.serving next) with
      reports := s.reports++(next.out.drop s.epoll.out.length).map (s.reportOf (some s.serving)) }
  | _ => s

def arrive (next : Epoll) : EpollReuse :=
  { s with
    epoll := next
    reports := s.reports++(next.ready.drop s.epoll.ready.length).map (s.reportOf none) }

def step (s : EpollReuse) : Move → Option EpollReuse
  | .backend a => (s.epoll.step a).map fun next => (s.account next a).arrive next
  | .reopen fd =>
    if s.epoll.phase = .idle ∧ s.epoll.fds fd = none then
      some { s.newUse fd with epoll := s.epoll.setSocket fd {} }
    else none

def target : Action → Option Fd
  | .attach fd _ _ _ | .submitRecv _ fd _ _ | .submitSendv _ fd _ _ _ | .submitAccept _ fd _
  | .submitConnect _ fd _ _ => some fd
  | _ => none

def Drained : Move → Prop
  | .backend a => ∀ fd ∈ target a, s.epoll.fds fd = none → ∀ e ∈ s.epoll.pendingEvents, e.1 ≠ fd
  | .reopen _ => True

instance (s : EpollReuse) (m : Move) : Decidable (s.Drained m) := by
  unfold Drained
  split <;> infer_instance

def Fresh (e : Fd × Events) (mark : Nat) : Prop := (s.epoll.fds e.1).isSome → mark = s.use e.1

structure Inv (s : EpollReuse) : Prop where
  placed : Placed s.epoll
  fresh : List.Forall₂ s.Fresh s.epoll.pendingEvents s.marks
  served : ∀ {fd ev stage rest}, s.epoll.phase = .dispatch fd ev stage rest →
    (s.epoll.fds fd).isSome ∧ s.serving = s.use fd
  born : ∀ fd origin, (s.epoll.state fd).Has fd origin → s.births origin.op = s.use fd
  settled : ∀ r ∈ s.reports, r.Own

variable {s s' : EpollReuse} {next : Epoll} {a : Action}

lemma create_inv : Inv create := ⟨⟨fun _ => rfl,nofun,nofun⟩,.nil,nofun,fun _ _ _ => rfl,nofun⟩

lemma fresh_of_known (inv : Inv s) (pending : next.pendingEvents = s.epoll.pendingEvents)
    (known : ∀ e ∈ s.epoll.pendingEvents, (next.fds e.1).isSome → (s.epoll.fds e.1).isSome) :
    List.Forall₂ (fun e mark => (next.fds e.1).isSome → mark = s.use e.1) next.pendingEvents s.marks := by
  rw [pending]
  have both := (List.forall₂_and_left _ _).2 ⟨known,inv.fresh⟩
  exact both.imp fun e mark held here => held.2 (held.1 here)

lemma Inv.submit {op : Op} (inv : Inv s) (begins : Begins op s.epoll next) (placed : Placed next)
    (idle : next.phase = .idle)
    (drained : s.epoll.fds op.fd = none → (next.fds op.fd).isSome → ∀ e ∈ s.epoll.pendingEvents, e.1 ≠ op.fd) :
    Inv { s.bear op with epoll := next } where
  placed := placed
  fresh := by
    apply fresh_of_known inv begins.pending
    intro e left here
    by_cases same : e.1 = op.fd
    · rw [same] at here ⊢
      rw [isSome_iff_ne_none]
      exact fun unknown => drained unknown here e left same
    rw [← begins.others e.1 same]
    exact here
  served now := by cases idle.symm.trans now
  born := by
    intro fd origin has
    change update s.births op (s.use op.fd) origin.op = s.use fd
    have here : origin.op.fd = fd := has.op_fd
    by_cases new : origin.op = op
    · rw [new,update_self,← here,new]
    rw [update_of_ne new]
    apply inv.born fd origin
    by_cases same : fd = op.fd
    · subst same
      exact (begins.has origin has).resolve_right new
    rw [state,← begins.others fd same]
    exact has
  settled := inv.settled

lemma Inv.trim (inv : Inv s) (trims : Trims s.epoll next) (placed : Placed next)
    (pending : next.pendingEvents = s.epoll.pendingEvents)
    (served : ∀ {fd ev stage rest}, next.phase = .dispatch fd ev stage rest →
    s.epoll.phase = .dispatch fd ev stage rest ∧ next.fds = s.epoll.fds) :
    Inv { s with epoll := next } where
  placed := placed
  fresh := by
    apply fresh_of_known inv pending
    exact fun e _ => trims.known e.1
  served now := by
    obtain ⟨before,fds⟩ := served now
    have old := inv.served before
    exact ⟨fds ▸ old.1,old.2⟩
  born fd origin has := inv.born fd origin (trims.fewer fd fd origin has)
  settled := inv.settled

lemma Inv.renew {fd : Fd} (inv : Inv s) (fds : ∀ f, f ≠ fd → next.fds f = s.epoll.fds f)
    (gone : next.fds fd = none) (placed : Placed next) (idle : next.phase = .idle)
    (pending : next.pendingEvents = s.epoll.pendingEvents) :
    Inv { s.newUse fd with epoll := next } where
  placed := placed
  fresh := by
    rw [pending]
    apply inv.fresh.imp
    intro e mark fresh known
    have other : e.1 ≠ fd := by
      intro same
      rw [same] at known
      simp [gone] at known
    change mark = update s.use fd _ e.1
    rw [update_of_ne other]
    apply fresh
    rw [← fds e.1 other]
    exact known
  served now := by cases idle.symm.trans now
  born := by
    intro f origin has
    have other : f ≠ fd := by
      intro same
      subst same
      have empty : next.state f = {} := by simp [state,gone]
      rw [empty] at has
      cases origin <;> simp [FdState.Has] at has
    change s.births origin.op = update s.use fd _ f
    rw [update_of_ne other]
    apply inv.born f origin
    rw [state,← fds f other]
    exact has
  settled := inv.settled

lemma detach_renew (inv : Inv s) (fd : Fd) (idle : s.epoll.phase = .idle)
    (placed : Placed (s.epoll.detach fd)) : Inv { s.newUse fd with epoll := s.epoll.detach fd } := by
  cases known : s.epoll.fds fd with
  | none =>
    have same : s.epoll.detach fd = s.epoll := by simp [detach,known]
    rw [same] at placed ⊢
    exact inv.renew (fun _ _ => rfl) known placed idle rfl
  | some =>
    apply inv.renew _ _ placed
    · simpa [detach,known] using idle
    · simp [detach,known]
    · intro f other
      simp [detach,known,update_of_ne other]
    · simp [detach,known]

lemma beginWait_trims (s : Epoll) (cap : Nat) : Trims s (s.beginWait cap) ∧
    (s.beginWait cap).pendingEvents = s.pendingEvents ∧
    ∀ {fd ev stage rest}, (s.beginWait cap).phase ≠ .dispatch fd ev stage rest := by
  unfold beginWait
  dsimp only
  split <;> exact ⟨.of_fds rfl,rfl,nofun⟩

lemma cancel_pending (s : Epoll) (user : UserData) (order : List Fd) :
    (order.foldl (fun s fd => s.cancelAt user fd) s).pendingEvents = s.pendingEvents := by
  induction order generalizing s with
  | nil => rfl
  | cons _ _ rest =>
    rw [foldl_cons,rest]
    unfold cancelAt
    split <;> rfl

lemma call_inv (inv : Inv s) (idle : s.epoll.phase = .idle) (called : s.epoll.call a = some next)
    (drained : s.Drained (.backend a)) (placed : Placed next) : Inv { s.account next a with epoll := next } := by
  have still (waits : ∀ cap, a ≠ .wait cap) : next.phase = .idle := by
    obtain ⟨cap,_,same,_⟩ | still := call_still called
    · exact absurd same (waits cap)
    · exact still.1.trans idle
  have submit {op : Op} (waits : ∀ cap, a ≠ .wait cap) (own : op.fd ∈ target a)
      (begins : Begins op s.epoll next) : Inv { s.bear op with epoll := next } :=
    inv.submit begins placed (still waits) fun unknown _ => drained op.fd own unknown
  cases a with
  | attach _ interest user add =>
    cases called
    exact submit nofun rfl (.attach interest user add)
  | modify fd interest user =>
    cases called
    refine inv.submit (.modify interest user) placed (still nofun) ?_
    intro unknown known
    change s.epoll.fds fd = none at unknown
    simp [Epoll.modify,unknown,Op.fd] at known
  | detach fd =>
    cases called
    exact detach_renew inv fd idle placed
  | submitRecv user _ len add =>
    cases called
    exact submit nofun rfl (.submitRecv user len add)
  | submitSendv user _ iov reply add =>
    obtain ⟨_,rfl⟩ := enabled called
    exact submit nofun rfl (.submitSendv user iov reply add)
  | submitAccept user _ add =>
    cases called
    exact submit nofun rfl (.submitAccept user add)
  | submitConnect user _ reply add =>
    obtain ⟨_,rfl⟩ := enabled called
    exact submit nofun rfl (.submitConnect user reply add)
  | cancel user order =>
    cases called
    apply inv.trim (.cancel user order) placed (cancel_pending _ _ _)
    intro _ _ _ _ now
    cases (still nofun).symm.trans now
  | wait cap =>
    obtain ⟨_,rfl⟩ := enabled called
    obtain ⟨trims,pending,outside⟩ := beginWait_trims s.epoll cap
    exact inv.trim trims placed pending fun now => absurd now outside
  | _ => cases called

lemma pending_inv (inv : Inv s) (at' : s.epoll.phase = .pending) (placed : Placed s.epoll.nextPending) :
    Inv { s.account s.epoll.nextPending .pending with epoll := s.epoll.nextPending } := by
  have resting {next : Epoll} (placed : Placed next) (fds : next.fds = s.epoll.fds)
      (pending : next.pendingEvents = s.epoll.pendingEvents)
      (outside : ∀ {fd ev stage rest}, next.phase ≠ .dispatch fd ev stage rest) :
      Inv { s.account next .pending with epoll := next } := by
    refine ⟨placed,?_,fun now => absurd now outside,?_,inv.settled⟩
    · simp only [account,pending,Nat.sub_self,drop_zero]
      apply inv.fresh.imp
      intro e _ fresh known
      exact fresh (fds ▸ known)
    · simpa only [account,state,fds] using inv.born
  unfold nextPending at placed ⊢
  split at placed
  next full =>
    rw [if_pos full]
    exact resting placed rfl rfl (by rintro _ _ _ _ ⟨⟩)
  next room =>
  rw [if_neg room]
  have fresh := inv.fresh
  have born := inv.born
  cases waiting : s.epoll.pendingEvents with
  | nil =>
    rw [waiting] at placed
    exact resting placed rfl waiting.symm (by rintro _ _ _ _ ⟨⟩)
  | cons head =>
    obtain ⟨_,_⟩ := head
    rw [waiting] at placed fresh
    obtain ⟨_,_,own,others,marked⟩ := List.forall₂_cons_left_iff.1 fresh
    dsimp only at placed ⊢
    split at placed
    next known =>
      rw [if_pos known]
      refine ⟨placed,?_,?_,?_,inv.settled⟩
      · simp only [account,waiting,marked,length_cons,Nat.add_sub_cancel_left,drop_succ_cons, drop_zero]
        exact others
      · intro f _ _ _ now
        cases now
        exact ⟨known,by simp only [account,marked,headD_cons]; exact own known⟩
      · exact born
    next unknown =>
    rw [if_neg unknown]
    refine ⟨placed,?_,?_,?_,inv.settled⟩
    · simp only [account,waiting,marked,length_cons,Nat.add_sub_cancel_left,drop_succ_cons, drop_zero]
      exact others
    · intro f _ _ _ now
      cases at'.symm.trans now
    · exact born

lemma forall₂_replicate {new : List (Fd × Events)} {mark : Nat} {R : Fd × Events → Nat → Prop}
    (all : ∀ e ∈ new, R e mark) : List.Forall₂ R new (.replicate new.length mark) := by
  induction new with
  | nil => exact .nil
  | cons e _ rest => exact .cons (all e mem_cons_self) (rest fun e' inside => all e' (mem_cons_of_mem e inside))

lemma event_inv {rest : List (Fd × Events)} (inv : Inv s) (at' : s.epoll.phase = .events rest)
    (placed : Placed (s.epoll.nextEvent rest)) :
    Inv { s.account (s.epoll.nextEvent rest) .event with epoll := s.epoll.nextEvent rest } := by
  cases rest with
  | nil =>
    unfold account
    rw [at']
    exact inv.trim (.of_fds rfl) placed rfl nofun
  | cons head =>
    obtain ⟨_,_⟩ := head
    unfold account
    rw [at']
    unfold nextEvent at placed ⊢
    dsimp only at placed ⊢
    split at placed
    next unknown =>
      rw [if_pos unknown]
      refine ⟨placed,?_,nofun,inv.born,inv.settled⟩
      simp only [putOff,Nat.sub_self,replicate_zero,append_nil]
      exact inv.fresh
    next known =>
    rw [if_neg known]
    split at placed
    next full =>
      rw [if_pos full]
      refine ⟨placed,?_,nofun,inv.born,inv.settled⟩
      simp only [putOff,postpone,length_append,Nat.add_sub_cancel_left]
      exact rel_append inv.fresh (.cons (fun _ => rfl) .nil)
    next room =>
    rw [if_neg room]
    refine ⟨placed,?_,?_,inv.born,inv.settled⟩
    · simp only [putOff,Nat.sub_self,replicate_zero,append_nil]
      exact inv.fresh
    intro f _ _ _ now
    cases now
    exact ⟨by simpa [Option.isSome_iff_ne_none] using known,rfl⟩

lemma dispatch_phase {s t : Epoll} {answer : Answer} (turn : Turn s (.dispatch answer) t) :
    ∃ fd ev stage rest, s.phase = .dispatch fd ev stage rest ∧
    ∀ {fd' ev' stage' rest'}, t.phase = .dispatch fd' ev' stage' rest' → fd' = fd := by
  have going {t : Epoll} {fd : Fd} {ev : Events} {stage : Stage} {rest : Option (List (Fd × Events))}
      {fd' : Fd} {ev' : Events} {stage' : Stage} {rest' : Option (List (Fd × Events))}
      (now : (t.goto fd ev stage rest).phase = .dispatch fd' ev' stage' rest') : fd' = fd := by
    cases now
    rfl
  have left {t : Epoll} {fd : Fd} {rest : Option (List (Fd × Events))}
      {fd' : Fd} {ev' : Events} {stage' : Stage} {rest' : Option (List (Fd × Events))}
      (now : (t.leave rest).phase = .dispatch fd' ev' stage' rest') : fd' = fd := by
    cases rest with
    | none | some => cases now
  cases turn with
  | network came | call _ came => cases came
  | errorish at' | readable at' | accept at' | recv at' | writable at' | send at' | sent at' =>
    exact ⟨_,_,_,_,at',going⟩
  | unwritable at' | watch at' => exact ⟨_,_,_,_,at',left⟩

lemma dispatch_inv {answer : Answer} (inv : Inv s) (turn : Turn s.epoll (.dispatch answer) next)
    (placed : Placed next) : Inv { s.account next (.dispatch answer) with epoll := next } := by
  obtain ⟨fd,ev,stage,rest,now,stays⟩ := dispatch_phase turn
  have serves := dispatch_serves turn inv.placed now
  obtain ⟨known,serving⟩ := inv.served now
  obtain ⟨put,pending,own⟩ := serves.pending
  obtain ⟨done,out,has⟩ := serves.out
  have before (f : Fd) (here : (next.fds f).isSome) : (s.epoll.fds f).isSome := by
    by_cases same : f = fd
    · exact same ▸ known
    rw [← serves.others f same]
    exact here
  refine ⟨placed,?_,?_,?_,?_⟩
  · simp only [account,putOff,pending,length_append,Nat.add_sub_cancel_left]
    apply rel_append
    · exact inv.fresh.imp fun e mark fresh here => fresh (before e.1 here)
    apply forall₂_replicate
    intro e inside _
    rw [own e inside]
    exact serving
  · intro f ev' stage' rest' later
    rw [stays later]
    exact ⟨serves.known known,serving⟩
  · intro f origin has'
    apply inv.born f origin
    by_cases same : f = fd
    · subst same
      exact serves.fewer f origin has'
    rw [state,← serves.others f same]
    exact has'
  intro r inside
  simp only [account,putOff,out,drop_left] at inside
  rcases mem_append.1 inside with old | new
  · exact inv.settled r old
  obtain ⟨c,reported,rfl⟩ := mem_map.1 new
  have has := has c reported
  have born := inv.born fd c.origin has
  change (∀ use ∈ some s.serving, use = s.births c.origin.op) ∧ s.use c.origin.op.fd = s.births c.origin.op
  rw [born,has.op_fd]
  exact ⟨fun use same => (Option.mem_some_iff.1 same).symm.trans serving,rfl⟩

lemma turn_passes {s t : Epoll} (turn : Turn s a t) (placed : Placed s) :
    (t.ready = s.ready ∧ (t.reaped++t.out = s.reaped++s.out ∨
    ∃ answer, a = .dispatch answer ∧ t.reaped = s.reaped ∧ ∃ new, t.out = s.out++new)) ∨
    s.phase = .idle ∧ s.call a = some t := by
  have kept (ready : t.ready = s.ready) (reaped : t.reaped = s.reaped) (out : t.out = s.out) :
      t.ready = s.ready ∧ (t.reaped++t.out = s.reaped++s.out ∨
        ∃ answer, a = .dispatch answer ∧ t.reaped = s.reaped ∧ ∃ new, t.out = s.out++new) :=
    ⟨ready,.inl (by rw [reaped,out])⟩
  cases a with
  | dispatch answer =>
    obtain ⟨_,_,_,_,now,_⟩ := dispatch_phase turn
    have serves := dispatch_serves turn placed now
    obtain ⟨new,out,_⟩ := serves.out
    exact .inl ⟨serves.kept.1,.inr ⟨answer,rfl,serves.kept.2,new,out⟩⟩
  | pending =>
    cases turn with
    | network came | call _ came => cases came
    | pending =>
      left
      unfold nextPending at kept ⊢
      split
      · exact ⟨rfl,.inl (append_nil _)⟩
      split
      · exact ⟨rfl,.inl rfl⟩
      dsimp only
      split <;> exact ⟨rfl,.inl rfl⟩
  | poll =>
    cases turn with
    | network came | call _ came => cases came
    | poll => exact .inl (kept rfl rfl rfl)
  | event =>
    cases turn with
    | network came | call _ came => cases came
    | @event rest _ =>
      left
      cases rest with
      | nil => exact ⟨rfl,.inl (append_nil _)⟩
      | cons =>
        unfold nextEvent
        dsimp only
        split_ifs <;> exact ⟨rfl,.inl rfl⟩
  | arrive =>
    cases turn with
    | network came =>
      obtain ⟨_,same⟩ := ite_none_left_eq_some.1 came
      cases same
      exact .inl (kept rfl rfl rfl)
    | call _ called => cases called
  | fin =>
    cases turn with
    | network came =>
      cases came
      exact .inl (kept rfl rfl rfl)
    | call _ called => cases called
  | _ =>
    cases turn with
    | network came => cases came
    | call idle called => exact .inr ⟨idle,called⟩

lemma call_queues (inv : Inv s) (called : s.epoll.call a = some next) : (∃ cap, next = s.epoll.beginWait cap) ∨
    Queues (fun origin => (s.account next a).births origin.op = (s.account next a).use origin.op.fd) s.epoll next := by
  have own {op : Op} (begins : Begins op s.epoll next) :
      Queues (fun origin => (s.bear op).births origin.op = (s.bear op).use origin.op.fd) s.epoll next := by
    apply begins.queues.mono
    intro _ same
    rw [same]
    exact update_self _ _ _
  cases a with
  | attach _ interest user add =>
    cases called
    exact .inr (own (.attach interest user add))
  | modify _ interest user =>
    cases called
    exact .inr (own (.modify interest user))
  | detach =>
    cases called
    right
    unfold detach
    split <;> exact .of_eq rfl rfl rfl
  | submitRecv user _ len add =>
    cases called
    exact .inr (own (.submitRecv user len add))
  | submitSendv user _ iov reply add =>
    obtain ⟨_,rfl⟩ := enabled called
    exact .inr (own (.submitSendv user iov reply add))
  | submitAccept user _ add =>
    cases called
    exact .inr (own (.submitAccept user add))
  | submitConnect user _ reply add =>
    obtain ⟨_,rfl⟩ := enabled called
    exact .inr (own (.submitConnect user reply add))
  | cancel user order =>
    cases called
    right
    apply (cancel_queues s.epoll user order).mono
    intro origin ⟨fd,has⟩
    rw [has.op_fd]
    exact inv.born fd origin has
  | wait cap =>
    obtain ⟨_,rfl⟩ := enabled called
    exact .inl ⟨cap,rfl⟩
  | _ => cases called

lemma beginWait_made (s : Epoll) (cap : Nat) : (s.beginWait cap).ready = s.ready.drop cap ∧
    (s.beginWait cap).reaped++(s.beginWait cap).out = s.reaped++s.ready.take cap := by
  unfold beginWait
  dsimp only
  split
  · exact ⟨rfl,append_nil _⟩
  · exact ⟨rfl,rfl⟩

lemma arrive_inv (inv : Inv { s with epoll := next })
    (own : ∀ c ∈ next.ready.drop s.epoll.ready.length, s.births c.origin.op = s.use c.origin.op.fd) :
    Inv (s.arrive next) :=
  { inv with
    settled := by
      intro r inside
      rcases mem_append.1 inside with old | new
      · exact inv.settled r old
      obtain ⟨c,queued,rfl⟩ := mem_map.1 new
      exact ⟨nofun,(own c queued).symm⟩ }

lemma account_inv (inv : Inv s) (turn : Turn s.epoll a next) (drained : s.Drained (.backend a)) :
    Inv { s.account next a with epoll := next } := by
  have placed := turn_placed turn inv.placed
  have came (arrived : s.epoll.network a = some next) : Inv { s with epoll := next } := by
    obtain ⟨fds,_,pending,phase,_⟩ := network_same arrived
    exact inv.trim (.of_fds fds) placed pending fun now => ⟨phase ▸ now,fds⟩
  cases a with
  | dispatch => exact dispatch_inv inv turn placed
  | pending =>
    cases turn with
    | network arrived | call _ arrived => cases arrived
    | pending at' => exact pending_inv inv at' placed
  | poll events =>
    cases turn with
    | network arrived | call _ arrived => cases arrived
    | poll => exact inv.trim (.report events) placed rfl nofun
  | event =>
    cases turn with
    | network arrived | call _ arrived => cases arrived
    | event at' => exact event_inv inv at' placed
  | arrive | fin =>
    cases turn with
    | network arrived => exact came arrived
    | call _ called => cases called
  | _ =>
    cases turn with
    | network arrived => cases arrived
    | call idle called => exact call_inv inv idle called drained placed

lemma account_epoll (s : EpollReuse) (next : Epoll) (a : Action) : (s.account next a).epoll = s.epoll := by
  unfold account
  split <;> try rfl
  split <;> rfl

lemma step_inv {m : Move} (inv : Inv s) (drained : s.Drained m) (moved : s.step m = some s') : Inv s' := by
  cases m with
  | reopen fd =>
    obtain ⟨⟨idle,gone⟩,rfl⟩ := enabled moved
    have placed : Placed (s.epoll.setSocket fd {}) := by
      refine ⟨inv.placed.idle,?_,?_⟩
      · exact fun now => inv.placed.accepting now
      · exact fun now => inv.placed.receiving now
    exact inv.renew (fun _ _ => rfl) gone placed idle rfl
  | backend =>
    obtain ⟨_,stepped,rfl⟩ := map_eq_some_iff.1 moved
    have turn := step_turn stepped
    apply arrive_inv (account_inv inv turn drained)
    intro c queued
    rw [account_epoll] at queued
    obtain ⟨same,_⟩ | ⟨_,called⟩ := turn_passes turn inv.placed
    · rw [same,drop_length] at queued
      cases queued
    obtain ⟨cap,rfl⟩ | queues := call_queues inv called
    · rw [(beginWait_made s.epoll cap).1,drop_drop,drop_eq_nil_of_le (by omega)] at queued
      cases queued
    · exact queues.drop queued

def Told (s : EpollReuse) : Prop :=
  ∀ c ∈ s.epoll.reaped++s.epoll.out++s.epoll.ready, ∃ r ∈ s.reports, r.completion = c

lemma create_told : Told create := nofun

lemma reports_grow {m : Move} (moved : s.step m = some s') : ∃ new, s'.reports = s.reports++new := by
  cases m with
  | reopen =>
    obtain ⟨_,rfl⟩ := enabled moved
    exact ⟨[],(append_nil _).symm⟩
  | backend a =>
    obtain ⟨next,_,rfl⟩ := map_eq_some_iff.1 moved
    have account : ∃ new, (s.account next a).reports = s.reports++new := by
      unfold account
      split
      all_goals try exact ⟨[],(append_nil _).symm⟩
      · split <;> exact ⟨[],(append_nil _).symm⟩
      · exact ⟨_,rfl⟩
    obtain ⟨_,grown⟩ := account
    exact ⟨_,by rw [arrive,grown,append_assoc]⟩

lemma step_told {m : Move} (inv : Inv s) (told : Told s) (moved : s.step m = some s') : Told s' := by
  obtain ⟨new,grown⟩ := reports_grow moved
  have before {c : Completion} (made : c ∈ s.epoll.reaped++s.epoll.out++s.epoll.ready) :
      ∃ r ∈ s'.reports, r.completion = c := by
    obtain ⟨r,inside,same⟩ := told c made
    exact ⟨r,grown ▸ mem_append_left _ inside,same⟩
  cases m with
  | reopen =>
    obtain ⟨_,rfl⟩ := enabled moved
    exact fun c made => before made
  | backend a =>
    obtain ⟨next,stepped,rfl⟩ := map_eq_some_iff.1 moved
    intro c made
    change c ∈ next.reaped++next.out++next.ready at made
    obtain ⟨ready,same | ⟨_,rfl,reaped,_,out⟩⟩ | ⟨_,called⟩ := turn_passes (step_turn stepped) inv.placed
    · rw [same,ready] at made
      exact before made
    · rw [reaped,out,ready,append_assoc,mem_append,mem_append,mem_append] at made
      rcases made with old | (old | new) | old
      · exact before (mem_append_left _ (mem_append_left _ old))
      · exact before (mem_append_left _ (mem_append_right _ old))
      · refine ⟨s.reportOf (some s.serving) c,?_,rfl⟩
        apply mem_append_left
        apply mem_append_right
        rw [out,drop_left]
        exact mem_map_of_mem new
      · exact before (mem_append_right _ old)
    obtain ⟨cap,rfl⟩ | queues := call_queues inv called
    · obtain ⟨ready,returned⟩ := beginWait_made s.epoll cap
      rw [returned,ready,append_assoc,take_append_drop] at made
      rcases mem_append.1 made with old | old
      · exact before (mem_append_left _ (mem_append_left _ old))
      · exact before (mem_append_right _ old)
    obtain ⟨_,ready,_⟩ := queues.ready
    rw [queues.reaped,queues.out,ready,← append_assoc] at made
    rcases mem_append.1 made with old | new'
    · exact before old
    refine ⟨(s.account next a).reportOf none c,?_,rfl⟩
    apply mem_append_right
    rw [account_epoll,ready,drop_left]
    exact mem_map_of_mem new'

/-- While a number is used again only after the events of its last use are gone, the event and the socket of a
completion are of the use that its operation was submitted in. -/
theorem completions_of_own_use {moves : List Move}
    (run : Exec (Guarded (Via step) Drained) create moves s) :
    (∀ c ∈ s.epoll.reaped++s.epoll.out++s.epoll.ready, ∃ r ∈ s.reports, r.completion = c) ∧
    ∀ r ∈ s.reports, r.produced = r.submitted ∧ ∀ use ∈ r.recorded, use = r.submitted := by
  have both : Inv s ∧ Told s := by
    apply run.invariant (fun s => Inv s ∧ Told s)
    · intro s m t ⟨drained,moved⟩ ⟨inv,told⟩
      exact ⟨step_inv inv drained moved,step_told inv told moved⟩
    · exact ⟨create_inv,create_told⟩
  refine ⟨both.2,?_⟩
  intro r inside
  have own := both.1.settled r inside
  exact ⟨own.2,own.1⟩

def saturate (ev : Events) : List Move :=
  [.backend (.wait 1),.backend .pending,.backend (.poll [(3,{ input := true }),(4,ev)]),.backend .event,
    .backend (.dispatch (.errorish 0)),.backend (.dispatch .readable),
    .backend (.dispatch (.recv (.chunk 1))),.backend (.dispatch (.recv .again)),
    .backend (.dispatch (.writable 0)),.backend .event,.backend .event]

def leftHangUp : List Move :=
  .backend (.submitRecv 1 3 1 true)::.backend (.submitRecv 2 4 1 true)::.backend (.arrive 3 [7])::
    saturate { hup := true }

def leftWritable : List Move :=
  .backend (.submitRecv 1 3 1 true)::.backend (.submitConnect 2 4 .inProgress true)::
    .backend (.arrive 3 [7])::saturate { output := true }

def drainAndReuse : List Move :=
  [.backend (.wait 1),.backend .pending,.backend (.dispatch (.errorish 0)),
    .backend (.dispatch .readable),.backend (.dispatch (.writable 0)),.backend .pending,
    .backend (.detach 4),.reopen 4,.backend (.submitRecv 5 4 1 true)]

def reuseToReceive : List Move :=
  [.backend (.detach 4),.reopen 4,.backend (.submitRecv 5 4 1 true),.backend (.wait 1),
    .backend .pending,.backend (.dispatch (.errorish 0))]

def reuseToConnect : List Move :=
  [.backend (.detach 4),.reopen 4,.backend (.submitConnect 5 4 .inProgress true),.backend (.wait 1),
    .backend .pending,.backend (.dispatch (.errorish 0)),.backend (.dispatch .readable),
    .backend (.dispatch (.writable 0))]

/-- The event left over is dispatched, and ends the receive it is for, before the number is used again. -/
theorem drained_then_reused : ∃ s, Exec (Guarded (Via step) Drained) create
      (leftHangUp++drainAndReuse) s ∧
    s.reports = [⟨⟨1,1,.recv 3 0 [7]⟩,some 0,0,0⟩,⟨⟨2,0,.recv 4 0 []⟩,some 0,0,0⟩] ∧
    ∀ r ∈ s.reports, r.produced = r.submitted ∧ ∀ use ∈ r.recorded, use = r.submitted :=
  Exec.seen_of_drive (by decide +kernel) fun _ run _ => (completions_of_own_use run).2

/-- The event of a detached descriptor ends the first receive on the number's next socket, and reports that socket
connected while it is not. -/
theorem stale_event_completes :
    (∃ s, Exec (Guarded (Via step) fun _ _ => True) create
      (leftHangUp++reuseToReceive) s ∧
      s.epoll.sockets 4 = {} ∧ s.epoll.out = [⟨5,0,.recv 4 1 []⟩] ∧
      s.reports = [⟨⟨1,1,.recv 3 0 [7]⟩,some 0,0,0⟩,⟨⟨5,0,.recv 4 1 []⟩,some 0,2,2⟩]) ∧
    ∃ s, Exec (Guarded (Via step) fun _ _ => True) create
      (leftWritable++reuseToConnect) s ∧
      s.epoll.out = [⟨5,0,.connect 4 1⟩] ∧
      s.reports = [⟨⟨1,1,.recv 3 0 [7]⟩,some 0,0,0⟩,⟨⟨5,0,.connect 4 1⟩,some 0,2,2⟩] :=
  ⟨Exec.end_of_drive (by decide +kernel),Exec.end_of_drive (by decide +kernel)⟩

end EpollReuse
end AffiniX
