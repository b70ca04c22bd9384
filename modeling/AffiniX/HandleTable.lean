import Mathlib

/-! Generation-checked handles over a slab of slots: `node` reads through a raw pointer, `get` through a handle. -/
namespace AffiniX
open Function

@[ext] structure Handle where
  idx : Nat
  gen : Nat
deriving DecidableEq

def Handle.none : Handle := ⟨0,0⟩

def Handle.valid (h : Handle) : Bool := h.gen != 0

structure Slot (α : Type*) where
  gen : Nat
  alive : Bool
  storage : α

structure HandleTable (α : Type*) where
  size : Nat
  slots : Nat → Slot α
  firstGen : Nat
  /-- The free list, its back first. -/
  free : List Nat
  deferred : List Nat
  live : Nat

namespace HandleTable
variable {α : Type*}

def create (firstGen : Nat) (blank : α) : HandleTable α :=
  ⟨0,fun _ => ⟨1,false,blank⟩,if firstGen = 0 then 1 else firstGen,[],[],0⟩

def nextGen (gen : Nat) : Nat := if (gen+1) % 2^32 = 0 then 1 else (gen+1) % 2^32

section
variable (t : HandleTable α)

def setSlot (i : Nat) (s : Slot α) : HandleTable α := {t with slots := update t.slots i s}

/-- Where `emplace` puts the next object, and the generation it gets there. -/
def nextIdx : Nat := t.free.headD t.size

def nextHandle : Handle := ⟨t.nextIdx,if t.free = [] then t.firstGen else (t.slots t.nextIdx).gen⟩

def emplace (x : α) : Handle × HandleTable α :=
  (t.nextHandle,{t with
      size := if t.free = [] then t.size+1 else t.size
      slots := update t.slots t.nextIdx ⟨t.nextHandle.gen,true,x⟩
      free := t.free.tail
      live := t.live+1})

def node (i : Nat) : α := (t.slots i).storage

def alive (t : HandleTable α) (i : Nat) : Bool := (t.slots i).alive

/-- Writing through the pointer that `get` or `emplace` returned. -/
def modify (i : Nat) (f : α → α) : HandleTable α := t.setSlot i {t.slots i with storage := f (t.node i)}

def holds (h : Handle) : Bool := h.valid && decide (h.idx < t.size) && t.alive h.idx && (t.slots h.idx).gen == h.gen

def get (h : Handle) : Option α := if t.holds h then some (t.node h.idx) else Option.none

def release (h : Handle) : HandleTable α :=
  if t.holds h then
    {t with
      slots := update t.slots h.idx ⟨nextGen h.gen,false,t.node h.idx⟩
      deferred := t.deferred ++ [h.idx]
      live := t.live-1}
  else t

def reclaim : HandleTable α := {t with free := t.deferred.reverse ++ t.free, deferred := []}

/-- Slots off the free list exist, free and deferred slots are dead, and no slot
is queued for reuse twice. -/
structure Wf : Prop where
  dead : ∀ i, i ∈ t.free ∨ i ∈ t.deferred → i < t.size ∧ t.alive i = false
  nodup : (t.deferred.reverse ++ t.free).Nodup
  bound : ∀ i, t.alive i = true → i < t.size
  gens : ∀ i, (t.slots i).gen ≠ 0
  first : t.firstGen ≠ 0

lemma create_wf (firstGen : Nat) (blank : α) : (create firstGen blank).Wf := by
  refine ⟨by simp [create],by simp [create],by simp [create,alive],by simp [create],?_⟩
  unfold create
  dsimp only
  split <;> omega

lemma nextGen_ne_zero (gen : Nat) : nextGen gen ≠ 0 := by
  unfold nextGen
  split <;> omega

lemma holds_iff (h : Handle) : t.holds h = true ↔
    h.gen ≠ 0 ∧ h.idx < t.size ∧ t.alive h.idx = true ∧ (t.slots h.idx).gen = h.gen := by
  simp [holds,Handle.valid,and_assoc]

lemma get_eq_some (h : Handle) (x : α) : t.get h = some x ↔ t.holds h = true ∧ t.node h.idx = x := by
  unfold get
  split <;> simp_all
end

variable {t : HandleTable α}

lemma Wf.holds_own (wf : t.Wf) {i : Nat} (live : t.alive i = true) : t.holds ⟨i,(t.slots i).gen⟩ = true :=
  (holds_iff t _).mpr ⟨wf.gens i,wf.bound i live,live,rfl⟩

section
variable (t : HandleTable α)

@[simp] lemma modify_slots_other {i j : Nat} (f : α → α) (apart : j ≠ i) : (t.modify i f).slots j = t.slots j :=
  update_of_ne apart _ _

lemma modify_slots_self (i : Nat) (f : α → α) : (t.modify i f).slots i = {t.slots i with storage := f (t.node i)} :=
  update_self _ _ _

@[simp] lemma modify_node (i j : Nat) (f : α → α) :
    (t.modify i f).node j = if j = i then f (t.node i) else t.node j := by
  unfold node
  split
  · next same => rw [same,modify_slots_self]; rfl
  · next apart => rw [modify_slots_other t f apart]

@[simp] lemma modify_gen (i j : Nat) (f : α → α) : ((t.modify i f).slots j).gen = (t.slots j).gen := by
  by_cases same : j = i
  · rw [same,modify_slots_self]
  · rw [modify_slots_other t f same]

@[simp] lemma modify_alive (i j : Nat) (f : α → α) : (t.modify i f).alive j = t.alive j := by
  unfold alive
  by_cases same : j = i
  · rw [same,modify_slots_self]
  · rw [modify_slots_other t f same]

lemma modify_self (i : Nat) (f : α → α) (same : f (t.node i) = t.node i) : t.modify i f = t := by
  unfold modify setSlot
  rw [same]
  congr 1
  exact update_eq_self i t.slots

structure SameSlots (t t' : HandleTable α) : Prop where
  size : t'.size = t.size
  firstGen : t'.firstGen = t.firstGen
  free : t'.free = t.free
  deferred : t'.deferred = t.deferred
  live : t'.live = t.live
  gen : ∀ i, (t'.slots i).gen = (t.slots i).gen
  alive : ∀ i, t'.alive i = t.alive i

lemma SameSlots.refl : SameSlots t t := ⟨rfl,rfl,rfl,rfl,rfl,fun _ => rfl,fun _ => rfl⟩
end

lemma SameSlots.trans {u v : HandleTable α} (first : SameSlots t u) (second : SameSlots u v) : SameSlots t v :=
  ⟨second.size.trans first.size,second.firstGen.trans first.firstGen,
    second.free.trans first.free,second.deferred.trans first.deferred,
    second.live.trans first.live,fun i => (second.gen i).trans (first.gen i),
    fun i => (second.alive i).trans (first.alive i)⟩

lemma modify_same (t : HandleTable α) (i : Nat) (f : α → α) : SameSlots t (t.modify i f) :=
  ⟨rfl,rfl,rfl,rfl,rfl,fun j => modify_gen t i j f,fun j => modify_alive t i j f⟩

lemma SameSlots.holds {t' : HandleTable α} (same : SameSlots t t') (h : Handle) : t'.holds h = t.holds h := by
  unfold HandleTable.holds
  rw [same.size,same.alive,same.gen]

lemma SameSlots.wf {t' : HandleTable α} (same : SameSlots t t') (wf : t.Wf) : t'.Wf := by
  constructor
  · intro j queued
    rw [same.size,same.alive]
    rw [same.free,same.deferred] at queued
    exact wf.dead j queued
  · rw [same.free,same.deferred]
    exact wf.nodup
  · intro j live
    rw [same.alive] at live
    rw [same.size]
    exact wf.bound j live
  · intro j
    rw [same.gen]
    exact wf.gens j
  rw [same.firstGen]
  exact wf.first

lemma nextIdx_dead (wf : t.Wf) : t.alive t.nextIdx = false := by
  unfold nextIdx
  cases list : t.free with
  | nil =>
    cases dead : t.alive t.size with
    | false => simpa using dead
    | true => exact absurd (wf.bound _ dead) (Nat.lt_irrefl _)
  | cons i => exact (wf.dead i (.inl (by simp [list]))).2

lemma emplace_slots (t : HandleTable α) (x : α) (j : Nat) : (t.emplace x).2.slots j =
    if j = t.nextIdx then ⟨t.nextHandle.gen,true,x⟩ else t.slots j :=
  update_apply _ _ _ _

lemma emplace_alive (t : HandleTable α) (x : α) (j : Nat) :
    (t.emplace x).2.alive j = if j = t.nextIdx then true else t.alive j := by
  unfold alive
  rw [emplace_slots]
  split <;> rfl

lemma emplace_node (t : HandleTable α) (x : α) (j : Nat) :
    (t.emplace x).2.node j = if j = t.nextIdx then x else t.node j := by
  unfold node
  rw [emplace_slots]
  split <;> rfl

lemma nextHandle_gen_ne_zero (wf : t.Wf) : t.nextHandle.gen ≠ 0 := by
  unfold nextHandle
  split
  · exact wf.first
  · exact wf.gens _

lemma emplace_wf (wf : t.Wf) (x : α) : (t.emplace x).2.Wf := by
  have larger : ∀ j, j < t.size → j < (t.emplace x).2.size := by
    intro j bound
    change j < if t.free = [] then t.size+1 else t.size
    split <;> omega
  have apart : ∀ j, j ∈ t.free.tail ∨ j ∈ t.deferred → j ≠ t.nextIdx := by
    intro j queued same
    unfold nextIdx at same
    cases list : t.free with
    | nil =>
      rcases queued with inFree | inDeferred
      · simp [list] at inFree
      have := (wf.dead j (.inr inDeferred)).1
      simp [list] at same
      omega
    | cons i rest =>
      have nodup := wf.nodup
      rw [list] at nodup queued same
      rw [List.nodup_append] at nodup
      simp only [List.headD_cons] at same
      subst same
      rcases queued with inFree | inDeferred
      · exact (List.nodup_cons.mp nodup.2.1).1 inFree
      · exact nodup.2.2 j (by simpa using inDeferred) j (by simp) rfl
  refine ⟨?_,?_,?_,?_,wf.first⟩
  · intro j queued
    have old := wf.dead j (queued.imp_left List.mem_of_mem_tail)
    rw [emplace_alive,if_neg (apart j queued)]
    exact ⟨larger j old.1,old.2⟩
  · exact wf.nodup.sublist ((List.Sublist.refl _).append (List.tail_sublist _))
  · intro j live
    rw [emplace_alive] at live
    split at live
    · next same =>
      subst same
      change t.free.headD t.size < if t.free = [] then t.size+1 else t.size
      cases list : t.free with
      | nil => simp
      | cons i rest => simpa using (wf.dead i (.inl (by simp [list]))).1
    · exact larger j (wf.bound j live)
  intro j
  rw [emplace_slots]
  split
  · exact nextHandle_gen_ne_zero wf
  · exact wf.gens j

lemma emplace_holds_new (wf : t.Wf) (x : α) : (t.emplace x).2.holds t.nextHandle = true := by
  have own := (emplace_wf wf x).holds_own (i := t.nextIdx) (by simp [emplace_alive])
  rw [emplace_slots,if_pos rfl] at own
  exact own

lemma emplace_holds (wf : t.Wf) (x : α) (h : Handle) :
    (t.emplace x).2.holds h = true ↔ h = t.nextHandle ∨ t.holds h = true := by
  constructor
  · intro held
    obtain ⟨gen,_,live,own⟩ := (holds_iff _ _).mp held
    rw [emplace_alive] at live
    rw [emplace_slots] at own
    split at own
    · next here => exact .inl (Handle.ext here own.symm)
    next other =>
    rw [if_neg other] at live
    exact .inr ((holds_iff _ _).mpr ⟨gen,wf.bound _ live,live,own⟩)
  rintro (rfl | held)
  · exact emplace_holds_new wf x
  obtain ⟨gen,_,live,own⟩ := (holds_iff _ _).mp held
  have other : h.idx ≠ t.nextIdx := by
    intro here
    rw [here,nextIdx_dead wf] at live
    contradiction
  refine (holds_iff _ _).mpr ⟨gen,?_,?_,?_⟩
  · change h.idx < if t.free = [] then t.size+1 else t.size
    split <;> omega
  · rw [emplace_alive,if_neg other]
    exact live
  rw [emplace_slots,if_neg other]
  exact own

section
variable (t : HandleTable α)

lemma release_slots (h : Handle) (j : Nat) : (t.release h).slots j =
    if t.holds h = true ∧ j = h.idx then ⟨nextGen h.gen,false,t.node h.idx⟩ else t.slots j := by
  unfold release
  split
  · next held => simp [held,update_apply]
  · next stale => simp [stale]

lemma release_alive (h : Handle) (j : Nat) : (t.release h).alive j =
    if t.holds h = true ∧ j = h.idx then false else t.alive j := by
  unfold alive
  rw [release_slots]
  split <;> rfl

@[simp] lemma release_node (h : Handle) (j : Nat) : (t.release h).node j = t.node j := by
  unfold node
  rw [release_slots]
  split
  · next same => rw [same.2]; rfl
  · rfl

@[simp] lemma release_size (h : Handle) : (t.release h).size = t.size := by
  unfold release
  split <;> rfl
end

lemma release_wf (wf : t.Wf) (h : Handle) : (t.release h).Wf := by
  cases held : t.holds h with
  | false =>
    have same : t.release h = t := if_neg (by simp [held])
    rw [same]
    exact wf
  | true =>
    obtain ⟨_,inside,live,_⟩ := (holds_iff t h).mp held
    have fresh : h.idx ∉ t.deferred.reverse ++ t.free := by
      intro queued
      have dead := (wf.dead h.idx (by simpa [or_comm] using queued)).2
      simp [dead] at live
    have free : (t.release h).free = t.free := by simp [release,held]
    have deferred : (t.release h).deferred = t.deferred ++ [h.idx] := by simp [release,held]
    constructor
    · intro j queued
      rw [free,deferred,List.mem_append,List.mem_singleton] at queued
      rw [release_alive,release_size]
      by_cases same : j = h.idx
      · simp [same,held,inside]
      have old := wf.dead j (by tauto)
      simpa [same] using old
    · rw [free,deferred]
      simpa using ⟨by simpa using fresh,wf.nodup⟩
    · intro j alive
      rw [release_alive] at alive
      rw [release_size]
      split at alive
      · contradiction
      · exact wf.bound j alive
    · intro j
      rw [release_slots]
      split
      · exact nextGen_ne_zero _
      · exact wf.gens j
    · simpa [release,held] using wf.first

lemma release_holds (t : HandleTable α) (h g : Handle) : (t.release h).holds g = true ↔ t.holds g = true ∧ g ≠ h := by
  rw [holds_iff,holds_iff,release_alive,release_slots,release_size]
  by_cases hit : t.holds h = true ∧ g.idx = h.idx
  · rw [if_pos hit]
    obtain ⟨_,_,_,gen⟩ := (holds_iff t h).mp hit.1
    constructor
    · rintro ⟨_,_,impossible,_⟩
      contradiction
    rintro ⟨⟨_,_,_,own⟩,apart⟩
    exact absurd (Handle.ext hit.2 (by rw [← own,hit.2,gen])) apart
  rw [if_neg hit,if_neg hit]
  constructor
  · intro old
    exact ⟨old,fun same => hit ⟨(holds_iff t h).mpr (same ▸ old),by rw [same]⟩⟩
  · exact fun old => old.1

lemma releaseAll_spec (wf : t.Wf) (hs : List Handle) :
    (hs.foldl release t).Wf ∧ (∀ i, (hs.foldl release t).node i = t.node i) ∧
    ∀ g, (hs.foldl release t).holds g = true ↔ t.holds g = true ∧ g ∉ hs := by
  induction hs generalizing t with
  | nil => exact ⟨wf,fun _ => rfl,fun g => by simp⟩
  | cons h _ ih =>
    obtain ⟨after,nodes,holds⟩ := ih (release_wf wf h)
    refine ⟨after,fun i => (nodes i).trans (release_node t h i),fun g => ?_⟩
    refine (holds g).trans ?_
    rw [release_holds,List.mem_cons,not_or,and_assoc]

lemma reclaim_wf (wf : t.Wf) : t.reclaim.Wf := by
  refine ⟨?_,by simpa [reclaim] using wf.nodup,wf.bound,wf.gens,wf.first⟩
  intro i queued
  exact wf.dead i (by simpa [reclaim,or_comm] using queued)

open Finset

def aliveSet (t : HandleTable α) : Finset Nat := (range t.size).filter fun i => t.alive i

lemma mem_aliveSet (wf : t.Wf) {i : Nat} : i ∈ t.aliveSet ↔ t.alive i = true := by
  simp only [aliveSet,mem_filter,mem_range]
  exact ⟨And.right,fun live => ⟨wf.bound i live,live⟩⟩

def Counted (t : HandleTable α) : Prop := t.live = t.aliveSet.card

lemma create_counted (firstGen : Nat) (blank : α) : (create firstGen blank).Counted := rfl

lemma SameSlots.aliveSet {t' : HandleTable α} (same : SameSlots t t') : t'.aliveSet = t.aliveSet := by
  simp only [HandleTable.aliveSet,same.size,same.alive]

lemma SameSlots.counted {t' : HandleTable α} (same : SameSlots t t') (counted : t.Counted) : t'.Counted := by
  rw [Counted,same.live,same.aliveSet]
  exact counted

lemma emplace_aliveSet (wf : t.Wf) (x : α) : (t.emplace x).2.aliveSet = insert t.nextIdx t.aliveSet := by
  ext i
  rw [mem_aliveSet (emplace_wf wf x),mem_insert,mem_aliveSet wf,emplace_alive]
  split <;> simp [*]

lemma emplace_counted (wf : t.Wf) (counted : t.Counted) (x : α) : (t.emplace x).2.Counted := by
  have fresh : t.nextIdx ∉ t.aliveSet := by
    rw [mem_aliveSet wf,nextIdx_dead wf]
    exact Bool.false_ne_true
  rw [Counted,emplace_aliveSet wf,card_insert_of_notMem fresh]
  exact congrArg (·+1) counted

lemma release_counted (wf : t.Wf) (counted : t.Counted) (h : Handle) : (t.release h).Counted := by
  cases held : t.holds h with
  | false =>
    have same : t.release h = t := if_neg (by simp [held])
    rw [same]
    exact counted
  | true =>
    have live := ((holds_iff t h).mp held).2.2.1
    have fewer : (t.release h).aliveSet = t.aliveSet.erase h.idx := by
      ext i
      rw [mem_aliveSet (release_wf wf h),mem_erase,mem_aliveSet wf,release_alive]
      by_cases same : i = h.idx
      · simp [same,held]
      · simp [same]
    have count : (t.release h).live = t.live-1 := by simp [release,held]
    rw [Counted,fewer,card_erase_of_mem ((mem_aliveSet wf).2 live),count,counted]

lemma releaseAll_counted (wf : t.Wf) (counted : t.Counted) (hs : List Handle) : (hs.foldl release t).Counted := by
  induction hs generalizing t with
  | nil => exact counted
  | cons h _ rest => exact rest (release_wf wf h) (release_counted wf counted h)
end HandleTable
end AffiniX
