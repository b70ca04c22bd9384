import AffiniX.Channel

/-! Whether a set `drain_posted` is owed a drain. -/
namespace AffiniX.Channel
open Transition Function List
variable {ι α : Type*} {c t : Channel ι α}
section
variable (c : Channel ι α)

def Owed : Prop :=
  (∃ i point, c.senders i = some (.posting point)) ∨ (∃ item ∈ c.mailbox.queue, item.fn = .drain) ∨ c.loop = some .clear

def Reliable : Move ι α → Prop
  | .sender i _ =>
    match c.senders i with
    | some (.posting (.push _)) => c.mailbox.full → c.mailbox.overflow ≠ .fail
    | _ => True
  | .take => ∀ item ∈ c.mailbox.queue.head?, item.fn = .drain → item.ctx.deadline.expired c.now = false
  | _ => True

instance (move : Move ι α) : Decidable (c.Reliable move) := by
  unfold Reliable
  split
  · split <;> infer_instance
  · infer_instance
  · infer_instance

structure Rung : Prop where
  owed : c.mailbox.dead = false → c.drainPosted → c.Owed
  jobs : ∀ i point, c.senders i = some (.posting point) →
    point = .aborted ∨ ∃ item, point.item = some item ∧ item.fn = .drain
end

lemma Owed.mono (owed : c.Owed)
    (posting : ∀ i point, c.senders i = some (.posting point) → t.senders i = some (.posting point))
    (queue : ∀ item ∈ c.mailbox.queue, item.fn = .drain → item ∈ t.mailbox.queue)
    (loop : c.loop = some .clear → t.loop = some .clear) : t.Owed := by
  rcases owed with ⟨i,point,at'⟩ | ⟨item,inside,job⟩ | clear
  · exact .inl ⟨i,point,posting i point at'⟩
  · exact .inr (.inl ⟨item,queue item inside job,job⟩)
  · exact .inr (.inr (loop clear))

lemma Rung.still (rung : c.Rung) (flag : t.drainPosted = c.drainPosted) (mailbox : t.mailbox = c.mailbox)
    (loop : c.loop = some .clear → t.loop = some .clear)
    (posting : ∀ i point, t.senders i = some (.posting point) ↔ c.senders i = some (.posting point)) : t.Rung := by
  constructor
  · intro alive posted
    rw [mailbox] at alive
    rw [flag] at posted
    refine (rung.owed alive posted).mono (fun i point => (posting i point).2) ?_ loop
    intro _ inside _
    rw [mailbox]
    exact inside
  intro i point at'
  exact rung.jobs i point ((posting i point).1 at')

def ringing (c : Channel ι α) (i : ι) : Bool := match c.senders i with
  | some (.exchange _) => true
  | some (.pushing _ _ n) =>
    match c.kind with
    | .spsc =>
      match c.spsc.producer with
      | some (.returned m) => decide (0 < m)
      | _ => false
    | .mpsc =>
      decide (0 < n) || match c.mpsc.producers i with
        | some .pushed => true
        | _ => false
  | _ => false

variable {i : ι} {p : Option (Sender α)}

lemma ringing_exchange {ctx : Context} (at' : c.senders i = some (.exchange ctx)) : c.ringing i = true := by
  unfold ringing
  rw [at']

lemma ringing_congr (kind : t.kind = c.kind) (sender : t.senders i = c.senders i)
    (spsc : t.spsc.producer = c.spsc.producer) (mpsc : t.mpsc.producers i = c.mpsc.producers i) :
    t.ringing i = c.ringing i := by
  unfold ringing
  rw [kind,sender,spsc,mpsc]

lemma create_rung (kind : ChannelKind) (n : Nat) (blank : α) (mailbox : Mailbox Job) :
    Rung (create kind n blank mailbox : Channel ι α) :=
  ⟨fun _ => nofun,nofun⟩

variable [DecidableEq ι]

lemma setSender_self : (c.setSender i p).senders i = p := update_self _ _ _

lemma setSender_other {j : ι} (other : j ≠ i) : (c.setSender i p).senders j = c.senders j := update_of_ne other _ _

lemma ringing_of_rings {ctx : Context} {k : Nat} (some' : 0 < k) : (c.setSender i (rings ctx k)).ringing i = true := by
  have exchange : (c.setSender i (rings ctx k)).senders i = some (.exchange ctx) := by
    rw [setSender_self,rings,if_pos some']
  exact ringing_exchange exchange

lemma setSender_posting (before : ∀ point, c.senders i ≠ some (.posting point))
    (after : ∀ point, p ≠ some (.posting point)) (j : ι) (point : Posting Job) :
    (c.setSender i p).senders j = some (.posting point) ↔ c.senders j = some (.posting point) := by
  by_cases own : j = i
  · subst own
    rw [setSender_self]
    exact ⟨fun there => absurd there (after point),fun there => absurd there (before point)⟩
  · rw [setSender_other own]

lemma rings_ne (ctx : Context) (n : Nat) (point : Posting Job) :
    (rings ctx n : Option (Sender α)) ≠ some (.posting point) := by
  unfold rings
  split <;> exact nofun

lemma Rung.moves (rung : c.Rung) {q : Option (Sender α)} (at' : c.senders i = q)
    (before : ∀ point, q ≠ some (.posting point)) (after : ∀ point, p ≠ some (.posting point))
    (flag : t.drainPosted = c.drainPosted) (mailbox : t.mailbox = c.mailbox) (loop : t.loop = c.loop)
    (senders : t.senders = c.senders) : (t.setSender i p).Rung := by
  refine rung.still flag mailbox (fun clear => loop.trans clear) ?_
  intro j _
  rw [setSender_posting]
  · rw [senders]
  · rw [senders,at']
    exact before
  · exact after

lemma Rung.turn (rung : c.Rung) {m : Mailbox Job} {flag : Bool}
    (owed : m.dead = false → Owed ({ c with mailbox := m, drainPosted := flag }.setSender i p))
    (job : ∀ point, p = some (.posting point) → point = .aborted ∨ ∃ item, point.item = some item ∧ item.fn = .drain) :
    Rung ({ c with mailbox := m, drainPosted := flag }.setSender i p) := by
  refine ⟨fun alive _ => owed alive,?_⟩
  intro j point at'
  by_cases own : j = i
  · subst own
    rw [setSender_self] at at'
    exact job point at'
  rw [setSender_other own] at at'
  exact rung.jobs j point at'

lemma Rung.post (rung : c.Rung) {point : Posting Job} (at' : c.senders i = some (.posting point))
    (accepted : ∀ item, point = .push item → c.mailbox.full → c.mailbox.overflow ≠ .fail) :
    Rung ({ c with mailbox := (c.mailbox.postStep point).1 }.setSender i (match (c.mailbox.postStep point).2 with
      | .returned _ => none
      | point => some (.posting point))) := by
  have still (m : Mailbox Job) (point' : Posting Job)
      (job : point' = .aborted ∨ ∃ item, point'.item = some item ∧ item.fn = .drain) :
      Rung ({ c with mailbox := m }.setSender i (some (.posting point'))) := by
    refine rung.turn (fun _ => .inl ⟨i,point',setSender_self⟩) ?_
    rintro p ⟨⟩
    exact job
  have job := rung.jobs i point at'
  cases point with
  | open' | spin =>
    simp only [Mailbox.postStep]
    split
    next dead =>
      refine rung.turn (fun alive => ?_) (fun _ => nofun)
      cases alive.symm.trans dead
    · exact still _ _ (.inr (job.resolve_left nofun))
  | push item =>
    have drain : item.fn = .drain := by
      obtain ⟨_,⟨⟩,job⟩ := job.resolve_left nofun
      exact job
    simp only [Mailbox.postStep]
    split
    next full =>
      cases policy : c.mailbox.overflow with
      | fail => exact absurd policy (accepted item rfl full)
      | abort => exact still _ _ (.inl rfl)
      | spinRetry => exact still _ _ (.inr ⟨item,rfl,drain⟩)
    · refine rung.turn (fun _ => .inr (.inl ⟨item,?_,drain⟩)) (fun _ => nofun)
      exact mem_append_right _ (mem_singleton_self item)
  | returned =>
    obtain ⟨_,⟨⟩,_⟩ := job.resolve_left nofun
  | aborted => exact still _ _ (.inl rfl)

lemma step_rung {move : Move ι α} (taken : Step c move t) (reliable : c.Reliable move) (rung : c.Rung) : t.Rung := by
  cases step_turn taken with
  | startSpsc i call ctx ring kind idle | startMpsc i call ctx v rest ring kind idle =>
    exact rung.moves idle (fun _ => nofun) (fun _ => nofun) rfl rfl rfl rfl
  | pushSpsc | pushMpsc | poll | batch | pop => exact rung.still rfl rfl id fun _ _ => Iff.rfl
  | pushedSpsc i spurious ctx rest n m kind at' | lastMpsc i spurious ctx n kind at'
  | fullMpsc i spurious ctx rest n v kind at' => exact rung.moves at' (fun _ => nofun) (rings_ne _ _) rfl rfl rfl rfl
  | nextMpsc i spurious ctx v rest n kind at' | rung i spurious ctx at' =>
    exact rung.moves at' (fun _ => nofun) (fun _ => nofun) rfl rfl rfl rfl
  | ring i spurious ctx at' clear =>
    refine rung.turn (fun _ => .inl ⟨i,_,setSender_self⟩) ?_
    rintro p ⟨⟩
    exact .inr ⟨_,rfl,rfl⟩
  | post i spurious point at' =>
    refine rung.post at' ?_
    rintro item rfl
    simp only [Reliable,at'] at reliable
    exact reliable
  | idle => exact rung
  | other ctx =>
    refine ⟨fun alive posted => ?_,rung.jobs⟩
    exact (rung.owed alive posted).mono (fun _ _ => id) (fun _ inside _ => mem_append_left _ inside) id
  | drop item queue free front kept =>
    have other : item.fn ≠ .drain := by
      intro job
      have fresh := reliable item (by rw [front]; rfl) job
      rcases kept with expired | other
      · cases fresh.symm.trans expired
      · cases job.symm.trans other
    refine ⟨fun alive posted => ?_,rung.jobs⟩
    refine (rung.owed alive posted).mono (fun _ _ => id) ?_ id
    intro item' inside job
    rw [front] at inside
    rcases mem_cons.1 inside with rfl | behind
    · exact absurd job other
    · exact behind
  | run item queue free front job => exact ⟨fun _ _ => .inr (.inr rfl),rung.jobs⟩
  | clearSpsc | clearMpsc | die => exact ⟨nofun,rung.jobs⟩
  | batched m at' | popped filled v chunks filled' at' | empty filled chunks at' =>
    refine rung.still rfl rfl ?_ fun _ _ => Iff.rfl
    intro clear
    rw [at'] at clear
    cases clear

theorem flag_owed {kind : ChannelKind} {n : Nat} {blank : α} {mailbox : Mailbox Job}
    {moves : List (Move ι α)} (run : Exec (Guarded Step Reliable) (create kind n blank mailbox) moves c)
    (alive : c.mailbox.dead = false) (posted : c.drainPosted = true) : c.Owed :=
  (run.invariant Rung (fun _ _ _ taken => step_rung taken.2 taken.1)
    (create_rung kind n blank mailbox)).owed alive posted

def pushAlone (v : Nat) (deadline : Option Int) : List (Move Unit Nat) :=
  .send () (.tryPushOne v) { Context.empty with deadline := ⟨deadline⟩ }:: replicate 8 (.sender () false)

theorem pushAlone_owed : ∃ moves c, Exec (Guarded Step Reliable)
    (create .spsc 1 0 ⟨2,.fail,false,[]⟩ : Channel Unit Nat) moves c ∧
      c.mailbox.dead = false ∧ c.drainPosted = true ∧ c.Owed :=
  ⟨pushAlone 7 none,Exec.shown_of_drive (P := fun c => c.mailbox.dead = false ∧ c.drainPosted = true)
    (by decide +kernel) fun _ run ⟨alive,posted⟩ => ⟨alive,posted,flag_owed run alive posted⟩⟩

lemma not_owed {c : Channel Unit Nat} (sender : (c.senders ()).isNone)
    (queue : c.mailbox.queue.all (·.fn = .other)) (loop : c.loop.isNone) : ¬ c.Owed := by
  rintro (⟨i,point,at'⟩ | ⟨item,inside,job⟩ | clear)
  · rw [at'] at sender
    cases sender
  · have other := all_eq_true.1 queue item inside
    rw [job] at other
    revert other
    decide
  rw [clear] at loop
  cases loop

/-- A full mailbox refuses the drain, or it is shed for the pusher's deadline; the flag stays set for good. -/
theorem lostDrain_stuck :
    (∃ moves c, Exec Step (create .spsc 1 0 ⟨2,.fail,false,[]⟩ : Channel Unit Nat)
      (.post .empty::.post .empty::moves) c ∧ c.mailbox.dead = false ∧ c.drainPosted = true ∧ ¬ c.Owed) ∧
    ∃ moves c, Exec Step (create .spsc 1 0 ⟨2,.fail,false,[]⟩ : Channel Unit Nat)
      (moves++[.poll 10,.take]) c ∧ c.mailbox.dead = false ∧ c.drainPosted = true ∧ ¬ c.Owed := by
  have found (moves : List (Move Unit Nat))
      (ends : ((drive step (fun _ _ => True) (create .spsc 1 0 ⟨2,.fail,false,[]⟩ : Channel Unit Nat)
        moves).map fun c => decide (c.mailbox.dead = false ∧ c.drainPosted = true ∧ (c.senders ()).isNone ∧
          c.mailbox.queue.all (·.fn = .other) ∧ c.loop.isNone)) = some true) :
      ∃ c, Exec Step (create .spsc 1 0 ⟨2,.fail,false,[]⟩ : Channel Unit Nat) moves c ∧
        c.mailbox.dead = false ∧ c.drainPosted = true ∧ ¬ c.Owed :=
    Exec.run_of_drive ends fun _ _ ⟨alive,posted,sender,queue,loop⟩ => ⟨alive,posted,not_owed sender queue loop⟩
  refine ⟨⟨pushAlone 7 none,found _ ?_⟩,⟨pushAlone 7 (some 5),found _ ?_⟩⟩ <;> decide +kernel

end AffiniX.Channel
