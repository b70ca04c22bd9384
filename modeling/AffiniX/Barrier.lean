import AffiniX.Transition

/-! `Barrier::arrive_all`: every mailbox is given a task that runs `per_shard` and counts down, and the last one runs
`done`. -/
namespace AffiniX.Barrier
open List Transition

inductive Place
  | unposted
  | refused
  | queued
  | shed
  | perShard
  | threw
  | counting
  | ended
deriving DecidableEq

def Place.next : Place → List Place
  | .unposted => [.refused,.queued]
  | .queued => [.shed,.perShard]
  | .perShard => [.threw,.counting]
  | .counting => [.ended]
  | _ => []

def Place.ran (p : Place) : Bool := p = .counting ∨ p = .ended

inductive Call
  | perShard
  | done
deriving DecidableEq

/-- `calls` has a call of `per_shard` when it returns, and one of `done` when it is made. -/
structure State where
  places : List Place
  remaining : Nat
  calls : List Call

def arriveAll (n : Nat) : State := ⟨replicate n .unposted,n,[]⟩

def State.move (s : State) (i : Nat) (p : Place) : State where
  places := s.places.set i p
  remaining := if p = .ended then s.remaining-1 else s.remaining
  calls := s.calls++match p with
    | .counting => [.perShard]
    | .ended => if s.remaining = 1 then [.done] else []
    | _ => []

/-- The posts are made in the order of the list. -/
def step (s : State) (m : Nat × Place) : Option State :=
  if m.2 ∈ s.places[m.1]?.elim [] Place.next ∧ (m.2 = .queued ∨ m.2 = .refused → .unposted ∉ s.places.take m.1)
  then some (s.move m.1 m.2) else none

structure Inv (n : Nat) (s : State) : Prop where
  length : s.places.length = n
  remaining : s.remaining = s.places.countP (· ≠ .ended)
  calls : s.calls = replicate (s.places.countP Place.ran) .perShard++if s.remaining = 0 then [.done] else []

lemma step_inv {n : Nat} {s t : State} {m : Nat × Place} (taken : step s m = some t) (inv : Inv n s) : Inv n t := by
  obtain ⟨length,remaining,calls⟩ := inv
  obtain ⟨⟨goes,_⟩,rfl⟩ := enabled taken
  obtain ⟨i,p⟩ := m
  have inside : i < s.places.length := by
    by_contra out
    simp [Nat.le_of_not_lt out] at goes
  have waits := countP_set (p := (· ≠ Place.ended)) (a := p) inside
  have ran := countP_set (p := Place.ran) (a := p) inside
  have member := getElem_mem inside
  simp only [getElem?_eq_getElem inside,Option.elim_some] at goes
  generalize s.places[i] = old at *
  -- A task that has not counted down is among the remaining ones, and `done` was not called yet.
  have more : 0 < s.remaining := by
    rw [remaining]
    refine countP_pos_iff.2 ⟨old,member,?_⟩
    cases old <;> first | rfl | cases goes
  have last : s.remaining = 1 ↔ s.remaining-1 = 0 := by omega
  have before (holds : old.ran) : 0 < s.places.countP Place.ran := countP_pos_iff.2 ⟨old,member,holds⟩
  rw [if_neg (Nat.ne_of_gt more),append_nil] at calls
  rw [remaining] at more
  refine ⟨(length_set ..).trans length,?_,?_⟩
  -- One case for each arrow of `next`.
  · cases old <;> cases p <;> first
      | exact absurd goes (by decide)
      | simp_all [State.move]
  cases old <;> cases p <;> first
    | exact absurd goes (by decide)
    | simp_all [State.move,Place.ran,replicate_succ']

def Quiet (s : State) : Prop := ∀ p ∈ s.places, p.next = []

instance (s : State) : Decidable (Quiet s) := decidableBAll _ _

/-- At rest `per_shard` has returned once for every entry and then `done` was called, once, if no post was refused, no
task shed and nothing thrown. -/
theorem done_once {n : Nat} (nonempty : n ≠ 0) {s : State} {moves : List (Nat × Place)}
    (run : Exec (Via step) (arriveAll n) moves s) (quiet : Quiet s)
    (kept : ∀ p ∈ s.places, p ≠ .refused ∧ p ≠ .shed ∧ p ≠ .threw) : s.calls = replicate n .perShard++[.done] := by
  obtain ⟨length,remaining,calls⟩ := run.invariant (Inv n) (fun _ _ _ => step_inv) (by
    constructor <;> simp [arriveAll,countP_replicate,Place.ran,nonempty])
  have ended (p : Place) (member : p ∈ s.places) : p = .ended := by
    have rest := quiet p member
    obtain ⟨_,_,_⟩ := kept p member
    cases p <;> first | rfl | contradiction
  have none' : s.remaining = 0 := by
    rw [remaining,countP_eq_zero]
    intro p member
    simp [ended p member]
  have all : s.places.countP Place.ran = n := by
    rw [← length,countP_eq_length]
    intro p member
    rw [ended p member]
    rfl
  rwa [if_pos none',all] at calls

def served (i : Nat) : List (Nat × Place) := [(i,.perShard),(i,.counting),(i,.ended)]

theorem both_arrive : ∃ s, Exec (Via step) (arriveAll 2)
    ((0,.queued)::(1,.queued)::served 1++served 0) s ∧ s.calls = [.perShard,.perShard,.done] :=
  Exec.run_of_drive (P := fun s => Quiet s ∧ ∀ p ∈ s.places, p ≠ .refused ∧ p ≠ .shed ∧ p ≠ .threw)
    (by decide +kernel) fun _ run ⟨quiet,kept⟩ => done_once (by decide) run quiet kept

/-- One task is shed: `done` is never called. -/
theorem done_missing : ∃ s, Exec (Via step) (arriveAll 2)
    ((0,.queued)::(1,.queued)::(1,.shed)::served 0) s ∧ Quiet s ∧ s.calls = [.perShard] :=
  Exec.run_of_drive (by decide +kernel) fun _ _ => id

/-- Whatever becomes of posts and tasks, `done` is called once every task has counted down, and not before. -/
theorem done_after_all {n : Nat} (nonempty : n ≠ 0) {s : State} {moves : List (Nat × Place)}
    (run : Exec (Via step) (arriveAll n) moves s) :
    if ∀ p ∈ s.places, p = .ended then s.calls = replicate n .perShard++[.done] else .done ∉ s.calls := by
  obtain ⟨length,remaining,calls⟩ := run.invariant (Inv n) (fun _ _ _ => step_inv) (by
    constructor <;> simp [arriveAll,countP_replicate,Place.ran,nonempty])
  have last : s.remaining = 0 ↔ ∀ p ∈ s.places, p = .ended := by simp [remaining]
  split
  next ended =>
    have all : s.places.countP Place.ran = s.places.length := countP_eq_length.2 fun p member => ended p member ▸ rfl
    rwa [if_pos (last.2 ended),all,length] at calls
  next more =>
    rw [calls,if_neg (mt last.1 more)]
    simp

theorem shed_after_all : ∃ s, Exec (Via step) (arriveAll 2)
    ((0,.queued)::(1,.queued)::(1,.shed)::served 0) s ∧ .done ∉ s.calls :=
  Exec.run_of_drive (P := fun s => ¬∀ p ∈ s.places, p = .ended) (by decide +kernel) fun _ run more =>
    (if_neg more).mp (done_after_all (by decide) run)
end AffiniX.Barrier
