import AffiniX.Transition
import AffiniX.MpscRing

/-! The arm/block protocol between a mailbox's producers and the loop that drains it, over sequentially consistent
memory. -/
namespace AffiniX
open Function

inductive MailboxState
  | running
  | blocked
deriving DecidableEq

structure MailboxMemory (α : Type*) where
  ring : MpscRing α
  state : MailboxState
  tokens : Nat

/-- A thread inside a post: pushing an item, with `rest` to follow and `sent` pushed, at its state check, or about to
call `wake`. -/
inductive Producer (α : Type*)
  | idle
  | pushing (point : MpscRing.Push α) (rest : List α) (sent : Nat) (spin : Bool)
  | check
  | wake
deriving DecidableEq

inductive ProducerMove (α : Type*)
  | post (first : α) (rest : List α) (spin : Bool)
  | run (spurious : Bool)

inductive Consumer (α : Type*)
  | drain (left : Nat) (pop : MpscRing.Pop α)
  | emptyCheck
  | arm
  | recheck
  | disarm
  | enter
  | waiting (blocked : Bool)
  | woken (blocked : Bool)
deriving DecidableEq

/-- The next step of the consumer. `choice`: the loop may block, or a returning wait has read the wake counter. -/
structure ConsumerMove where
  choice : Bool
  batch : Nat

inductive Move (ι α : Type*)
  | producer (i : ι) (m : ProducerMove α)
  | consumer (m : ConsumerMove)

variable {ι α : Type*}

/-- One step of a producer. A full ring ends a batch at the state check, and a single post by the overflow policy. -/
def Producer.step (m : MailboxMemory α) : Producer α → ProducerMove α → MailboxMemory α × Producer α
  | .idle, .post first rest spin => (m,.pushing (.loadPos first) rest 0 spin)
  | .pushing .pushed [] _ _, .run _ => (m,.check)
  | .pushing .pushed (v::rest) sent spin, .run _ => (m,.pushing (.loadPos v) rest (sent+1) spin)
  | .pushing (.full v) rest sent spin, .run _ =>
    if sent ≠ 0 then (m,.check)
    else if spin then (m,.pushing (.loadPos v) rest 0 spin)
    else (m,.idle)
  | .pushing point rest sent spin, .run spurious =>
    let (ring,point) := m.ring.pushStep spurious point
    ({m with ring := ring},.pushing point rest sent spin)
  | .check, .run _ => (m,if m.state = .blocked then .wake else .idle)
  | .wake, .run _ => ({m with tokens := m.tokens+1},.idle)
  | p, _ => (m,p)

/-- One step of the event loop. The stages between the wait and the next drain touch
neither the ring nor the state. -/
def Consumer.step (m : MailboxMemory α) (move : ConsumerMove) : Consumer α → MailboxMemory α × Consumer α
  | .drain 0 .loadSeq => (m,.emptyCheck)
  | .drain _ .none => (m,.emptyCheck)
  | .drain left (.popped _) => (m,.drain (left-1) .loadSeq)
  | .drain left pop =>
    let (ring,pop) := m.ring.popStep pop
    ({m with ring := ring},.drain left pop)
  | .emptyCheck => (m,if m.ring.empty && move.choice then .arm else .waiting false)
  | .arm => ({m with state := .blocked},.recheck)
  | .recheck => (m,if m.ring.empty then .enter else .disarm)
  | .disarm => ({m with state := .running},.waiting false)
  | .enter => (m,.waiting true)
  | .waiting blocked => (if move.choice then {m with tokens := 0} else m,.woken blocked)
  | .woken blocked => (if blocked then {m with state := .running} else m,.drain move.batch .loadSeq)

def Producer.owes : Producer α → Bool
  | .idle => false
  | .pushing .pushed _ _ _ => true
  | .pushing _ _ sent _ => sent != 0
  | .check => true
  | .wake => true

lemma Producer.step_spec (m : MailboxMemory α) (p : Producer α) (move : ProducerMove α) :
    (p.step m move).1.state = m.state ∧ m.tokens ≤ (p.step m move).1.tokens ∧
    (m.ring.empty = true → (p.step m move).1.ring.empty = false → (p.step m move).2.owes = true) ∧
    (p.owes = true → m.state = .blocked → (p.step m move).1.tokens ≠ 0 ∨ (p.step m move).2.owes = true) := by
  have still : ∀ q : Producer α, (q.owes = true ∨ p.owes = false) → m.state = m.state ∧ m.tokens ≤ m.tokens ∧
      (m.ring.empty = true → m.ring.empty = false → q.owes = true) ∧
      (p.owes = true → m.state = .blocked → m.tokens ≠ 0 ∨ q.owes = true) := by
    intro q kept
    refine ⟨rfl,Nat.le_refl _,fun before after => ?_,fun owed _ => .inr ?_⟩
    · rw [before] at after
      contradiction
    · exact kept.resolve_right (by simp [owed])
  fun_cases Producer.step m p move with
  | case1 first rest spin => exact still _ (.inr rfl)
  | case2 sent spin => exact still .check (.inl rfl)
  | case3 v rest sent spin => exact still _ (.inl (by simp [owes]))
  | case4 v rest sent spin _ more => exact still .check (.inl rfl)
  | case5 v rest sent _ none => exact still _ (.inr (by simpa [owes] using none))
  | case6 v rest sent spin _ none => exact still .idle (.inr (by simpa [owes] using none))
  | case7 point rest sent spin spurious notLast notNext notFull ring next result =>
    -- inside `push_impl`, where the ring may change
    have published := m.ring.pushStep_empty spurious point
    rw [result] at published
    refine ⟨rfl,Nat.le_refl _,fun before after => ?_,fun owed _ => .inr ?_⟩
    · obtain rfl : next = .pushed := published before after
      rfl
    have more : (sent != 0) = true := by
      cases point with
      | pushed =>
        cases rest with
        | nil => exact (notLast rfl rfl).elim
        | cons v rest => exact (notNext v rest rfl rfl).elim
      | _ => exact owed
    cases next <;> first | rfl | exact more
  | case8 spurious =>
    refine ⟨rfl,Nat.le_refl _,fun before after => ?_,fun _ blocked => .inr ?_⟩
    · cases before.symm.trans after
    rw [if_pos blocked]
    rfl
  | case9 spurious =>
    refine ⟨rfl,Nat.le_succ _,fun before after => ?_,fun _ _ => .inl (Nat.succ_ne_zero _)⟩
    cases before.symm.trans after
  | case10 => exact still p (by cases p.owes <;> simp)

structure ArmBlock (ι α : Type*) where
  memory : MailboxMemory α
  producers : ι → Producer α
  consumer : Consumer α

namespace ArmBlock
def create (cap : Size) (blank : α) (batch : Nat) : ArmBlock ι α where
  memory := ⟨MpscRing.create cap blank,.running,0⟩
  producers := fun _ => .idle
  consumer := .drain batch .loadSeq

variable [DecidableEq ι]

def step (s : ArmBlock ι α) : Move ι α → ArmBlock ι α
  | .producer i move =>
    let (memory,p) := (s.producers i).step s.memory move
    {s with memory := memory, producers := update s.producers i p}
  | .consumer move =>
    let (memory,c) := s.consumer.step s.memory move
    {s with memory := memory, consumer := c}

structure LostWakeup (s : ArmBlock ι α) : Prop where
  sleeping : s.consumer = .waiting true
  noToken : s.memory.tokens = 0
  published : s.memory.ring.empty = false
  settled : ∀ i, (s.producers i).owes = false

def Covered (s : ArmBlock ι α) : Prop := s.memory.tokens ≠ 0 ∨ ∃ i, (s.producers i).owes = true

/-- The consumer has found the ring empty after storing `Blocked`, and has not stored
`Running` since. -/
def Armed : Consumer α → Prop
  | .enter => True
  | .waiting blocked => blocked = true
  | _ => False

structure Inv (s : ArmBlock ι α) : Prop where
  state : Armed s.consumer ∨ s.consumer = .recheck → s.memory.state = .blocked
  covered : Armed s.consumer → s.memory.ring.empty = false → s.Covered

lemma Inv.producer {s : ArmBlock ι α} (inv : s.Inv) (i : ι) (move : ProducerMove α) :
    (s.step (.producer i move)).Inv := by
  obtain ⟨state,tokens,published,paid⟩ := (s.producers i).step_spec s.memory move
  refine ⟨fun armed => state.trans (inv.state armed),?_⟩
  intro armed ready
  have blocked := inv.state (.inl armed)
  have own : ((s.step (.producer i move)).producers i) = ((s.producers i).step s.memory move).2 := update_self _ _ _
  cases before : s.memory.ring.empty with
  | true => exact .inr ⟨i,by rw [own]; exact published before ready⟩
  | false =>
    cases inv.covered armed before with
    | inl pending => exact .inl (by change ((s.producers i).step s.memory move).1.tokens ≠ 0; omega)
    | inr debt =>
      obtain ⟨j,owed⟩ := debt
      by_cases same : j = i
      · subst same
        refine (paid owed blocked).imp (fun woken => woken) (fun still => ⟨j,?_⟩)
        rw [own]
        exact still
      refine .inr ⟨j,?_⟩
      have other : (s.step (.producer i move)).producers j = s.producers j := update_of_ne same _ _
      rw [other]
      exact owed

lemma Inv.consumer {s : ArmBlock ι α} (inv : s.Inv) (move : ConsumerMove) : (s.step (.consumer move)).Inv := by
  obtain ⟨memory,producers,consumer⟩ := s
  have idle : ∀ (m : MailboxMemory α) (c : Consumer α), ¬ Armed c → c ≠ .recheck →
      Inv (⟨m,producers,c⟩ : ArmBlock ι α) := by
    intro m c unarmed elsewhere
    exact ⟨fun armed => (armed.elim unarmed elsewhere).elim,fun armed => (unarmed armed).elim⟩
  cases consumer with
  | drain left pop =>
    have unarmed : ∀ c : Consumer α, (∃ n p, c = .drain n p) ∨ c = .emptyCheck → ¬ Armed c ∧ c ≠ .recheck := by
      rintro c (⟨n,p,rfl⟩ | rfl) <;> simp [Armed]
    have after : (∃ n p, (Consumer.step memory move (.drain left pop)).2 = .drain n p) ∨
        (Consumer.step memory move (.drain left pop)).2 = .emptyCheck := by
      cases pop with
      | loadSeq =>
        cases left with
        | zero => exact .inr rfl
        | succ left => exact .inl ⟨left+1,_,rfl⟩
      | none => exact .inr (by cases left <;> rfl)
      | popped => exact .inl ⟨left-1,.loadSeq,by cases left <;> rfl⟩
      | _ => exact .inl ⟨left,_,by cases left <;> rfl⟩
    exact idle _ _ (unarmed _ after).1 (unarmed _ after).2
  | emptyCheck =>
    apply idle
    · dsimp only [Consumer.step]
      split <;> simp [Armed]
    dsimp only [Consumer.step]
    split <;> simp
  | arm => exact ⟨fun _ => rfl,fun armed => armed.elim⟩
  | recheck =>
    cases found : memory.ring.empty with
    | false =>
      apply idle
      · simp [found,Armed]
      · simp [found]
    | true =>
      refine ⟨fun _ => inv.state (.inr rfl),fun _ ready => ?_⟩
      cases found.symm.trans ready
  | disarm | waiting | woken => exact idle _ _ (by simp [Armed]) (by simp)
  | enter => exact ⟨fun _ => inv.state (.inl trivial),fun _ => inv.covered trivial⟩

omit [DecidableEq ι] in
lemma create_inv (cap : Size) (blank : α) (batch : Nat) : (create cap blank batch : ArmBlock ι α).Inv :=
  ⟨fun armed => by simp [create,Armed] at armed,fun armed => armed.elim⟩

/-- Whatever the threads do, in whatever order, the consumer never sleeps over a published
item that nobody will wake it for. -/
theorem never_lostWakeup (cap : Size) (blank : α) (batch : Nat) (moves : List (Move ι α)) :
    ¬ (moves.foldl step (create cap blank batch : ArmBlock ι α)).LostWakeup := by
  have run := Transition.Exec.foldl step (create cap blank batch : ArmBlock ι α) moves
  have inv := run.invariant Inv (fun s move t taken inv => ?_) (create_inv cap blank batch)
  · intro lost
    have armed : Armed (moves.foldl step (create cap blank batch)).consumer := by
      rw [lost.sleeping]
      rfl
    cases inv.covered armed lost.published with
    | inl pending => exact pending lost.noToken
    | inr debt =>
      obtain ⟨i,owed⟩ := debt
      rw [lost.settled i] at owed
      contradiction
  subst taken
  cases move with
  | producer i move => exact inv.producer i move
  | consumer move => exact inv.consumer move

/-- The consumer does get to sleep, and a post then finds it blocked. -/
example : let run := fun c => Move.consumer (ι := Fin 1) (α := Nat) ⟨c,1⟩
    let push := Move.producer (ι := Fin 1) (α := Nat) 0 (.run false)
    let s := ([run true,run true,run true,run true,run true,run true,.producer 0 (.post 7 [] false),
      push,push,push,push,push,push,push].foldl step (create 2 0 1))
    s.consumer = .waiting true ∧ s.memory.ring.empty = false ∧ s.producers 0 = .wake := by
  decide
end ArmBlock
end AffiniX
