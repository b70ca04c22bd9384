import AffiniX.MpscChannel
import AffiniX.SpscChannel

/-! A channel at rest has delivered every accepted item, provided that no drain has left items behind that it saw. -/
namespace AffiniX.Channel
open Transition WrapCounter List
variable {ι α : Type*} {c t : Channel ι α} {n : Nat}

structure AtRest (c : Channel ι α) : Prop where
  senders : ∀ i, c.senders i = none
  loop : c.loop = none
  queue : ∀ item ∈ c.mailbox.queue, item.fn ≠ .drain

lemma AtRest.not_owed (rest : c.AtRest) : ¬ c.Owed := by
  rintro (⟨i,point,at'⟩ | ⟨item,inside,job⟩ | clear)
  · rw [rest.senders i] at at'
    cases at'
  · exact rest.queue item inside job
  rw [rest.loop] at clear
  cases clear

lemma AtRest.not_ringing (rest : c.AtRest) (i : ι) : ¬ c.ringing i = true := by
  unfold ringing
  rw [rest.senders i]
  exact nofun

lemma Spsc.at_rest (inv : c.Spsc n) (rest : c.AtRest) (clear : c.drainPosted = false) :
    c.empty ∧ c.delivered = c.accepted := by
  have free : c.spsc.consumer = none := inv.idle (by rw [rest.loop]; exact nofun)
  have level : c.spsc.released = c.spsc.accepted.length := by
    rcases inv.due with level | ⟨i,rings⟩ | posted | ⟨p,there,_⟩
    · unfold SpscRing.Sides.seen at level
      rwa [free] at level
    · exact absurd rings (rest.not_ringing i)
    · cases clear.symm.trans posted
    rw [free] at there
    cases there
  have gets := inv.sound.gets
  rw [free] at gets
  have given : c.spsc.handed.length = c.spsc.released := gets
  unfold Channel.empty delivered accepted
  rw [inv.kind]
  constructor
  · rw [inv.sound.head,inv.sound.tail,level]
  have taken := inv.sound.taken
  rw [given,level,take_length] at taken
  exact taken

variable [DecidableEq ι]

lemma Mpsc.at_rest (inv : c.Mpsc n) (rest : c.AtRest) (clear : c.drainPosted = false) :
    c.empty ∧ c.delivered = c.accepted := by
  have free : c.mpsc.consumer = none := inv.idle (by rw [rest.loop]; exact nofun)
  have takes := inv.sound.takes
  rw [free] at takes
  obtain ⟨deqPos,_⟩ := takes
  have unpublished : ¬ c.mpsc.past.published c.mpsc.past.released = true := by
    intro published
    rcases inv.due published with ⟨i,rings⟩ | posted | ⟨filled,chunk,_⟩
    · exact rest.not_ringing i rings
    · cases clear.symm.trans posted
    rw [rest.loop] at chunk
    cases chunk
  -- A claimed position that is not published is held by a push.
  have level : c.mpsc.past.claimed.length ≤ c.mpsc.past.released := by
    by_contra behind
    obtain ⟨i,⟨p,there,_⟩,_⟩ := inv.sound.held c.mpsc.past.released (by omega) (by simpa using unpublished)
    obtain ⟨_,_,k,at'⟩ := inv.busy i (by rw [there]; exact nofun)
    rw [rest.senders i] at at'
    cases at'
  unfold Channel.empty delivered accepted
  rw [inv.kind]
  constructor
  · have cell := inv.sound.cells c.mpsc.past.released (le_rfl) (Nat.lt_add_of_pos_right (Nat.two_pow_pos n))
    rw [if_neg unpublished] at cell
    simp only [MpscRing.empty,bne_iff_ne,ne_eq,MpscRing.Threads.dif_eq_zero]
    rw [inv.sound.index,deqPos,cell]
    intro same
    have equal := ofNat_inj (Nat.le_succ _) (by omega) (same.trans (word_add _ 1))
    omega
  have all := inv.sound.popped
  rw [take_of_length_le (by rw [length_map]; omega)] at all
  have given := inv.given
  unfold inChunk at given
  rw [rest.loop,append_nil] at given
  exact given.symm.trans all

def Executed (c : Channel ι α) (move : Move ι α) : Prop := c.Reliable move ∧ move ≠ .die

/-- No batch of one producer's ring is cut short with nobody else on the way, and the ring of
many producers tells its counts apart. -/
def Complete (c : Channel ι α) : Move ι α → Prop
  | .drain => c.Whole
  | .sender i spurious => c.kind = .mpsc → c.mpsc.Timely (.producer i spurious)
  | _ => True

instance (move : Move ι α) : Decidable (c.Executed move) := match move with
  | .die => .isFalse fun both => both.2 rfl
  | .send .. | .sender .. | .post _ | .poll _ | .take | .drain => decidable_of_iff _ (and_iff_left nofun).symm

instance [Fintype ι] : Decidable c.Whole := by
  unfold Whole
  split <;> infer_instance

instance [Fintype ι] (move : Move ι α) : Decidable (c.Complete move) := match move with
  | .drain => inferInstanceAs (Decidable c.Whole)
  | .sender .. => inferInstanceAs (Decidable (_ → _))
  | .send .. | .post _ | .poll _ | .take | .die => .isTrue trivial

lemma postStep_dead {τ : Type*} (m : Mailbox τ) (point : Posting τ) : (m.postStep point).1.dead = m.dead := by
  cases point with
  | push =>
    simp only [Mailbox.postStep]
    split
    · split <;> rfl
    · rfl
  | open' | spin =>
    simp only [Mailbox.postStep]
    split <;> rfl
  | _ => rfl

lemma step_alive {move : Move ι α} (taken : Step c move t) (living : move ≠ .die) :
    t.mailbox.dead = c.mailbox.dead := by
  cases step_turn taken with
  | post => exact postStep_dead _ _
  | die => exact absurd rfl living
  | _ => rfl

theorem channel_delivers {kind : ChannelKind} (small : n < 64) (pair : kind = .mpsc → 0 < n) {blank : α}
    {mailbox : Mailbox Job} (alive : mailbox.dead = false) {moves : List (Move ι α)}
    (run : Exec (Guarded Step fun c move => c.Executed move ∧ c.Complete move) (create kind n blank mailbox) moves c)
    (rest : c.AtRest) : c.empty ∧ c.delivered = c.accepted := by
  have living : c.mailbox.dead = false := run.invariant (·.mailbox.dead = false)
    (fun _ _ _ taken before => (step_alive taken.2 taken.1.1.2).trans before) alive
  have rung : c.Rung := run.invariant Rung (fun _ _ _ taken => step_rung taken.2 taken.1.1.1)
    (create_rung kind n blank mailbox)
  have clear : c.drainPosted = false := by
    by_contra posted
    exact rest.not_owed (rung.owed living (by simpa using posted))
  cases kind with
  | spsc =>
    have inv : c.Spsc n := run.invariant (Spsc n)
      (fun _ _ _ taken => step_spsc small taken.2 fun drain => by
        have complete := taken.1.2
        rw [drain] at complete
        exact complete)
      ⟨rfl,SpscRing.Sides.create_sound n blank,nofun,fun _ => rfl,nofun,.inl rfl⟩
    exact inv.at_rest rest clear
  | mpsc =>
    have inv : c.Mpsc n := by
      refine run.invariant (fun c => c.Mpsc n) ?_
        ⟨rfl,MpscRing.Threads.create_sound small blank,nofun,fun _ => rfl,fun _ some' => absurd rfl some', rfl,nofun⟩
      intro s _ _ taken before
      refine step_mpsc (pair rfl) small taken.2 ?_ before
      rintro i spurious rfl
      exact taken.1.2 before.kind
    exact inv.at_rest rest clear

def drainAlone (k : Nat) : List (Move Unit Nat) := .take::replicate (5+k) .drain

lemma at_rest_unit {c : Channel Unit Nat} (senders : (c.senders ()).isNone) (loop : c.loop.isNone)
    (queue : c.mailbox.queue.all (·.fn ≠ .drain)) : c.AtRest where
  senders _ := Option.isNone_iff_eq_none.1 senders
  loop := Option.isNone_iff_eq_none.1 loop
  queue item inside := of_decide_eq_true (all_eq_true.1 queue item inside)

theorem pushAndDrain_delivers : ∃ moves c,
    Exec (Guarded Step fun c move => c.Executed move ∧ c.Complete move)
      (create .spsc 1 0 ⟨2,.fail,false,[]⟩ : Channel Unit Nat) moves c ∧
      c.AtRest ∧ c.accepted = [7] ∧ c.empty ∧ c.delivered = c.accepted := by
  refine ⟨pushAlone 7 none++drainAlone 1,Exec.shown_of_drive (P := fun c => c.accepted = [7] ∧
    (c.senders ()).isNone ∧ c.loop.isNone ∧ c.mailbox.queue.all (·.fn ≠ .drain)) (by decide +kernel) ?_⟩
  rintro c run ⟨accepted,senders,loop,queue⟩
  have rest := at_rest_unit senders loop queue
  exact ⟨rest,accepted,channel_delivers (by decide) (fun _ => Nat.one_pos) rfl run rest⟩

/-- A batch ends at the end of the array: of two items that go round it, one is delivered. A ring of many producers with
one cell loses both. -/
theorem roundTheEnd_strands :
    (∃ moves c, Exec (Guarded Step Executed) (create .spsc 1 0 ⟨2,.fail,false,[]⟩ : Channel Unit Nat)
      moves c ∧ c.AtRest ∧ c.accepted = [7,8,9] ∧ c.delivered = [7,8]) ∧
    ∃ moves c, Exec (Guarded Step Executed) (create .mpsc 0 0 ⟨2,.fail,false,[]⟩ : Channel Unit Nat)
      moves c ∧ c.AtRest ∧ c.accepted = [7,8] ∧ c.delivered = [] := by
  have found (kind : ChannelKind) (n : Nat) (moves : List (Move Unit Nat)) (accepted delivered : List Nat)
      (ends : ((drive step Executed (create kind n 0 ⟨2,.fail,false,[]⟩ : Channel Unit Nat) moves).map
        fun c => decide ((c.accepted = accepted ∧ c.delivered = delivered) ∧ (c.senders ()).isNone ∧
          c.loop.isNone ∧ c.mailbox.queue.all (·.fn ≠ .drain))) = some true) :
      ∃ c, Exec (Guarded Step Executed) (create kind n 0 ⟨2,.fail,false,[]⟩ : Channel Unit Nat) moves c ∧
        c.AtRest ∧ c.accepted = accepted ∧ c.delivered = delivered :=
    Exec.shown_of_drive ends fun _ _ ⟨seen,senders,loop,queue⟩ => ⟨at_rest_unit senders loop queue,seen⟩
  let sends (p : SpscRing.Put Nat) (steps : Nat) : List (Move Unit Nat) :=
    .send () p .empty::replicate steps (.sender () false)
  let drains : List (Move Unit Nat) := .take::replicate 3 .drain
  refine ⟨⟨pushAlone 7 none++drainAlone 1++sends (.tryPushBulk [8,9]) 9++drainAlone 1,
    found _ _ _ _ _ ?_⟩,⟨sends (.tryPushOne 7) 9++sends (.tryPushOne 8) 7++drains,found _ _ _ _ _ ?_⟩⟩
  · decide +kernel
  · decide +kernel

end AffiniX.Channel
