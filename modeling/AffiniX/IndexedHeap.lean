import Mathlib

/-! Array-backed d-ary min-heaps whose elements remember their position. -/
set_option linter.unusedSectionVars false

namespace AffiniX
open Function List Nat

structure IndexedHeap (α : Type*) where
  size : Nat
  cell : Nat → α
  index : α → Nat

namespace IndexedHeap
variable {α K : Type*} [DecidableEq α] [LinearOrder K]

def absent : Nat := 2^64 - 1

def parent (d i : Nat) : Nat := (i-1)/d

def place (h : IndexedHeap α) (i : Nat) (a : α) : IndexedHeap α :=
  {h with cell := update h.cell i a, index := update h.index a i}

def swap (h : IndexedHeap α) (i j : Nat) : IndexedHeap α := (h.place i (h.cell j)).place j (h.cell i)

def siftUp (d : Nat) (key : α → K) : Nat → IndexedHeap α → Nat → IndexedHeap α
  | 0, h, _ => h
  | fuel+1, h, i =>
    if i = 0 then h
    else if key (h.cell i) < key (h.cell (parent d i)) then
      siftUp d key fuel (h.swap i (parent d i)) (parent d i)
    else h

def best (d : Nat) (key : α → K) (h : IndexedHeap α) (i : Nat) : Nat :=
  (range d).foldl (fun b k => if d*i+1+k < h.size ∧ key (h.cell (d*i+1+k)) < key (h.cell b) then d*i+1+k else b) i

def siftDown (d : Nat) (key : α → K) : Nat → IndexedHeap α → Nat → IndexedHeap α
  | 0, h, _ => h
  | fuel+1, h, i =>
    if best d key h i = i then h
    else siftDown d key fuel (h.swap i (best d key h i)) (best d key h i)

def push (d : Nat) (key : α → K) (h : IndexedHeap α) (a : α) : IndexedHeap α :=
  siftUp d key h.size ({h with size := h.size+1}.place h.size a) h.size

def remove (d : Nat) (key : α → K) (h : IndexedHeap α) (a : α) : IndexedHeap α := let i := h.index a
  let last := h.cell (h.size-1)
  let h := {h with size := h.size-1, index := update h.index a absent}
  if i < h.size then
    siftDown d key h.size (siftUp d key i (h.place i last) i) i
  else h

section
variable (h : IndexedHeap α)

def Mem (a : α) : Prop := ∃ i, i < h.size ∧ h.cell i = a

def members : List α := (range h.size).map h.cell

def Ordered (d : Nat) (key : α → K) (h : IndexedHeap α) : Prop :=
  ∀ c, 0 < c → c < h.size → key (h.cell (parent d c)) ≤ key (h.cell c)

def Indexed : Prop := ∀ i, i < h.size → h.index (h.cell i) = i

structure Valid (d : Nat) (key : α → K) (h : IndexedHeap α) : Prop where
  ordered : Ordered d key h
  indexed : Indexed h

lemma mem_members (a : α) : a ∈ h.members ↔ h.Mem a := by simp [members,Mem]
end

variable {h : IndexedHeap α} {d i j : Nat} {a : α} {key : α → K}

lemma Indexed.injective (indexed : h.Indexed)
    (left : i < h.size) (right : j < h.size) (same : h.cell i = h.cell j) : i = j := by
  rw [← indexed i left,← indexed j right,same]

lemma Indexed.nodup_members (indexed : h.Indexed) : h.members.Nodup := by
  refine Nodup.map_on ?_ nodup_range
  intro i left j right same
  exact indexed.injective (mem_range.mp left) (mem_range.mp right) same

lemma Indexed.index_mem (indexed : h.Indexed) (member : h.Mem a) : h.index a < h.size ∧ h.cell (h.index a) = a := by
  obtain ⟨i,bound,rfl⟩ := member
  rw [indexed i bound]
  exact ⟨bound,rfl⟩

section
variable (h : IndexedHeap α)

lemma mem_root (nonempty : h.size ≠ 0) : h.Mem (h.cell 0) := ⟨0,Nat.pos_of_ne_zero nonempty,rfl⟩

lemma parent_lt (d : Nat) (positive : 0 < i) : parent d i < i := by
  have := div_le_self (i-1) d
  unfold parent
  omega

lemma parent_child (d i k : Nat) (bound : k < d) : parent d (d*i+1+k) = i := by
  have shifted : d*i+1+k-1 = k + d*i := by omega
  rw [parent,shifted,Nat.add_mul_div_left _ _ (by omega),Nat.div_eq_of_lt bound,Nat.zero_add]

lemma child_of_parent (d : Nat) (arity : 0 < d) {c : Nat} (positive : 0 < c) : ∃ k, k < d ∧ c = d*parent d c+1+k := by
  refine ⟨(c-1)%d,mod_lt _ arity,?_⟩
  have := div_add_mod (c-1) d
  unfold parent
  omega

@[simp] lemma swap_size (i j : Nat) : (h.swap i j).size = h.size := rfl

lemma swap_cell (i j k : Nat) :
    (h.swap i j).cell k = if k = j then h.cell i else if k = i then h.cell j else h.cell k := by
  simp only [swap,place,update_apply]

lemma swap_left (i j : Nat) : (h.swap i j).cell i = h.cell j := by
  rw [swap_cell]
  split <;> simp_all

lemma swap_right (i j : Nat) : (h.swap i j).cell j = h.cell i := by
  rw [swap_cell,if_pos rfl]

lemma swap_other {k : Nat} (left : k ≠ i) (right : k ≠ j) : (h.swap i j).cell k = h.cell k := by
  rw [swap_cell,if_neg right,if_neg left]
end

lemma Indexed.swap (indexed : h.Indexed) (left : i < h.size) (right : j < h.size) : (h.swap i j).Indexed := by
  intro k bound
  rw [swap_size] at bound
  simp only [IndexedHeap.swap,place,update_apply]
  by_cases atRight : k = j
  · simp [atRight]
  by_cases atLeft : k = i
  · subst atLeft
    have apart : h.cell j ≠ h.cell k := fun same => atRight (indexed.injective left right same.symm)
    simp [atRight,apart]
  have fromLeft : h.cell k ≠ h.cell i := fun same => atLeft (indexed.injective bound left same)
  have fromRight : h.cell k ≠ h.cell j := fun same => atRight (indexed.injective bound right same)
  simp [atRight,atLeft,fromLeft,fromRight,indexed k bound]

lemma mem_swap (h : IndexedHeap α) (left : i < h.size) (right : j < h.size) (a : α) : (h.swap i j).Mem a ↔ h.Mem a := by
  constructor
  · rintro ⟨k,bound,rfl⟩
    rw [swap_cell]
    split_ifs
    · exact ⟨i,left,rfl⟩
    · exact ⟨j,right,rfl⟩
    · exact ⟨k,bound,rfl⟩
  rintro ⟨k,bound,rfl⟩
  by_cases atLeft : k = i
  · exact ⟨j,right,by rw [atLeft,swap_right]⟩
  by_cases atRight : k = j
  · exact ⟨i,left,by rw [atRight,swap_left]⟩
  · exact ⟨k,bound,swap_other h atLeft atRight⟩

structure SameMembers (before after : IndexedHeap α) : Prop where
  size : after.size = before.size
  indexed : before.Indexed → after.Indexed
  mem : ∀ a, after.Mem a ↔ before.Mem a

lemma SameMembers.refl (h : IndexedHeap α) : SameMembers h h := ⟨rfl,id,fun _ => Iff.rfl⟩

lemma SameMembers.trans {a b c : IndexedHeap α} (first : SameMembers a b)
    (second : SameMembers b c) : SameMembers a c :=
  ⟨second.size.trans first.size,fun start => second.indexed (first.indexed start),
    fun x => (second.mem x).trans (first.mem x)⟩

lemma SameMembers.swap (h : IndexedHeap α) (left : i < h.size) (right : j < h.size) : SameMembers h (h.swap i j) :=
  ⟨rfl,fun start => start.swap left right,mem_swap h left right⟩

lemma siftUp_same (d : Nat) (key : α → K) (fuel : Nat) (h : IndexedHeap α) (i : Nat)
    (bound : i < h.size) : SameMembers h (siftUp d key fuel h i) := by
  induction fuel generalizing h i with
  | zero => exact .refl h
  | succ _ ih =>
    rw [siftUp]
    split_ifs with root earlier
    · exact .refl h
    · have above := parent_lt d (Nat.pos_of_ne_zero root)
      exact (SameMembers.swap h bound (above.trans bound)).trans (ih _ _ (above.trans bound))
    · exact .refl h

/-- The order a sift up needs at its position: every other pair is in order, and
the position's children are no earlier than its parent. -/
structure UpOrder (d : Nat) (key : α → K) (h : IndexedHeap α) (i : Nat) : Prop where
  others : ∀ c, 0 < c → c < h.size → c ≠ i → key (h.cell (parent d c)) ≤ key (h.cell c)
  grand : 0 < i → ∀ c, 0 < c → c < h.size → parent d c = i → key (h.cell (parent d i)) ≤ key (h.cell c)

lemma UpOrder.move (order : UpOrder d key h i) (positive : 0 < i) (bound : i < h.size)
    (earlier : key (h.cell i) < key (h.cell (parent d i))) : UpOrder d key (h.swap i (parent d i)) (parent d i) := by
  have above := parent_lt d positive
  have chain : 0 < parent d i → key (h.cell (parent d (parent d i))) ≤ key (h.cell (parent d i)) :=
    fun inner => order.others _ inner (above.trans bound) above.ne
  constructor
  · intro c cpos cbound apart
    by_cases moved : c = i
    · rw [moved,swap_left,swap_right]
      exact earlier.le
    rw [swap_other h moved apart]
    by_cases child : parent d c = i
    · rw [child,swap_left]
      exact order.grand positive c cpos cbound child
    by_cases sibling : parent d c = parent d i
    · rw [sibling,swap_right]
      exact earlier.le.trans (sibling ▸ order.others c cpos cbound moved)
    rw [swap_other h child sibling]
    exact order.others c cpos cbound moved
  intro inner c cpos cbound child
  have top := parent_lt d inner
  rw [swap_other h (top.trans above).ne top.ne]
  by_cases moved : c = i
  · rw [moved,swap_left]
    exact chain inner
  have apart : c ≠ parent d i := by
    have := parent_lt d cpos
    omega
  rw [swap_other h moved apart]
  exact (chain inner).trans (child ▸ order.others c cpos cbound moved)

lemma siftUp_ordered (d : Nat) (key : α → K) (fuel : Nat) (h : IndexedHeap α) (i : Nat) (enough : i ≤ fuel)
    (bound : i < h.size) (order : UpOrder d key h i) : Ordered d key (siftUp d key fuel h i) := by
  induction fuel generalizing h i with
  | zero =>
    intro c cpos cbound
    exact order.others c cpos cbound (by omega)
  | succ fuel ih =>
    rw [siftUp]
    split_ifs with root earlier
    · intro c cpos cbound
      exact order.others c cpos cbound (by omega)
    · have positive := Nat.pos_of_ne_zero root
      have above := parent_lt d positive
      exact ih _ _ (by omega) (above.trans bound) (order.move positive bound earlier)
    intro c cpos cbound
    by_cases same : c = i
    · exact same ▸ not_lt.mp earlier
    · exact order.others c cpos cbound same

lemma siftUp_stay (d : Nat) (key : α → K) (fuel : Nat) (h : IndexedHeap α) (i : Nat)
    (stop : 0 < i → key (h.cell (parent d i)) ≤ key (h.cell i)) : siftUp d key fuel h i = h := by
  cases fuel with
  | zero => rfl
  | succ =>
    rw [siftUp]
    split_ifs with root earlier
    · rfl
    · exact absurd earlier (not_lt.mpr (stop (Nat.pos_of_ne_zero root)))
    · rfl

private lemma best_fold (d : Nat) (key : α → K) (h : IndexedHeap α) (i : Nat)
    (ks : List Nat) (inside : ∀ k ∈ ks, k < d) (b : Nat)
    (start : b = i ∨ ∃ k, k < d ∧ b = d*i+1+k ∧ b < h.size) :
    let r := ks.foldl (fun b k => if d*i+1+k < h.size ∧ key (h.cell (d*i+1+k)) < key (h.cell b) then d*i+1+k else b) b
    (r = i ∨ ∃ k, k < d ∧ r = d*i+1+k ∧ r < h.size) ∧ key (h.cell r) ≤ key (h.cell b) ∧
      ∀ k ∈ ks, d*i+1+k < h.size → key (h.cell r) ≤ key (h.cell (d*i+1+k)) := by
  induction ks generalizing b with
  | nil => exact ⟨start,le_refl _,by simp⟩
  | cons k ks ih =>
    have tail : ∀ k ∈ ks, k < d := fun k member => inside k (by simp [member])
    simp only [foldl_cons]
    split_ifs with taken
    · obtain ⟨shape,least,each⟩ := ih tail (d*i+1+k) (.inr ⟨k,inside k (by simp),rfl,taken.1⟩)
      refine ⟨shape,least.trans taken.2.le,?_⟩
      intro j member bound
      rcases mem_cons.mp member with rfl | later
      · exact least
      · exact each j later bound
    obtain ⟨shape,least,each⟩ := ih tail b start
    refine ⟨shape,least,?_⟩
    intro j member bound
    rcases mem_cons.mp member with rfl | later
    · exact least.trans (not_lt.mp (fun lt => taken ⟨bound,lt⟩))
    · exact each j later bound

lemma best_spec (d : Nat) (key : α → K) (h : IndexedHeap α) (i : Nat) (arity : 0 < d) :
    (best d key h i = i ∨ (i < best d key h i ∧ best d key h i < h.size ∧
    parent d (best d key h i) = i)) ∧ key (h.cell (best d key h i)) ≤ key (h.cell i) ∧
    ∀ c, 0 < c → c < h.size → parent d c = i → key (h.cell (best d key h i)) ≤ key (h.cell c) := by
  obtain ⟨shape,least,each⟩ := best_fold d key h i (range d) (fun k member => mem_range.mp member) i (.inl rfl)
  refine ⟨?_,least,?_⟩
  · rcases shape with same | ⟨k,inside,equal,bound⟩
    · exact .inl same
    have child : parent d (best d key h i) = i := (congrArg (parent d) equal).trans (parent_child d i k inside)
    have positive : 0 < best d key h i := lt_of_lt_of_eq (by omega) equal.symm
    have below := parent_lt d positive
    rw [child] at below
    exact .inr ⟨below,bound,child⟩
  intro c cpos cbound child
  obtain ⟨k,inside,equal⟩ := child_of_parent d arity cpos
  rw [child] at equal
  exact equal ▸ each k (mem_range.mpr inside) (equal ▸ cbound)

lemma siftDown_same (d : Nat) (key : α → K) (arity : 0 < d) (fuel : Nat) (h : IndexedHeap α)
    (i : Nat) (bound : i < h.size) : SameMembers h (siftDown d key fuel h i) := by
  induction fuel generalizing h i with
  | zero => exact .refl h
  | succ _ ih =>
    rw [siftDown]
    split_ifs with stop
    · exact .refl h
    obtain ⟨shape,_,_⟩ := best_spec d key h i arity
    have inside := (shape.resolve_left stop).2.1
    exact (SameMembers.swap h bound inside).trans (ih _ _ inside)

/-- The order a sift down needs: every pair without the position as parent is in order, and its children are no earlier
than its parent. -/
structure DownOrder (d : Nat) (key : α → K) (h : IndexedHeap α) (i : Nat) : Prop where
  others : ∀ c, 0 < c → c < h.size → parent d c ≠ i → key (h.cell (parent d c)) ≤ key (h.cell c)
  grand : 0 < i → ∀ c, 0 < c → c < h.size → parent d c = i → key (h.cell (parent d i)) ≤ key (h.cell c)

lemma DownOrder.move {b : Nat} (order : DownOrder d key h i) (below : i < b) (bound : b < h.size)
    (child : parent d b = i) (least : ∀ c, 0 < c → c < h.size → parent d c = i → key (h.cell b) ≤ key (h.cell c))
    (earlier : key (h.cell b) ≤ key (h.cell i)) : DownOrder d key (h.swap i b) b := by
  constructor
  · intro c cpos cbound apart
    rw [swap_size] at cbound
    by_cases atB : c = b
    · rw [atB,child,swap_left,swap_right]
      exact earlier
    by_cases atI : c = i
    · have up := parent_lt d cpos
      rw [atI] at up cpos ⊢
      rw [swap_left,swap_other h up.ne (up.trans below).ne]
      exact order.grand cpos b (by omega) bound child
    rw [swap_other h atI atB]
    by_cases sibling : parent d c = i
    · rw [sibling,swap_left]
      exact least c cpos cbound sibling
    rw [swap_other h sibling apart]
    exact order.others c cpos cbound sibling
  intro _ c cpos cbound inner
  rw [swap_size] at cbound
  have deeper := parent_lt d cpos
  rw [child,swap_left,swap_other h (by omega) (by omega)]
  exact inner ▸ order.others c cpos cbound (by omega)

lemma siftDown_ordered (d : Nat) (key : α → K) (arity : 0 < d) (fuel : Nat) (h : IndexedHeap α)
    (i : Nat) (enough : h.size ≤ i + fuel) (bound : i < h.size) (order : DownOrder d key h i) :
    Ordered d key (siftDown d key fuel h i) := by
  induction fuel generalizing h i with
  | zero => omega
  | succ fuel ih =>
    obtain ⟨shape,earlier,least⟩ := best_spec d key h i arity
    rw [siftDown]
    split_ifs with stop
    · intro c cpos cbound
      by_cases child : parent d c = i
      · have low := least c cpos cbound child
        rw [stop] at low
        rw [child]
        exact low
      · exact order.others c cpos cbound child
    obtain ⟨below,inside,child⟩ := shape.resolve_left stop
    exact ih _ _ (by rw [swap_size]; omega) inside (order.move below inside child least earlier)

lemma Ordered.downOrder (ordered : Ordered d key h) (i : Nat) (bound : i < h.size) : DownOrder d key h i := by
  refine ⟨fun c cpos cbound _ => ordered c cpos cbound,?_⟩
  intro positive c cpos cbound child
  exact (ordered i positive bound).trans (child ▸ ordered c cpos cbound)

lemma Ordered.root_le (ordered : Ordered d key h) (i : Nat) (bound : i < h.size) : key (h.cell 0) ≤ key (h.cell i) := by
  induction i using Nat.strong_induction_on with
  | _ i ih =>
    rcases Nat.eq_zero_or_pos i with rfl | positive
    · exact le_refl _
    have up := parent_lt d positive
    exact (ih _ up (up.trans bound)).trans (ordered i positive bound)

lemma Valid.push (valid : Valid d key h) (fresh : ¬ h.Mem a) :
    Valid d key (h.push d key a) ∧ ∀ b, (h.push d key a).Mem b ↔ b = a ∨ h.Mem b := by
  let grown : IndexedHeap α := {h with size := h.size+1}.place h.size a
  have keep : ∀ i, i < h.size → grown.cell i = h.cell i := fun i bound => update_of_ne bound.ne _ _
  have own : grown.cell h.size = a := update_self _ _ _
  have same := siftUp_same d key h.size grown h.size (lt_succ_self _)
  refine ⟨⟨siftUp_ordered d key h.size grown h.size le_rfl (lt_succ_self _) ⟨?_,?_⟩, same.indexed ?_⟩,?_⟩
  · intro c cpos cbound _
    have inside : c < h.size := by
      change c < h.size+1 at cbound
      omega
    rw [keep c inside,keep _ ((parent_lt d cpos).trans inside)]
    exact valid.ordered c cpos inside
  · intro _ c cpos cbound _
    have := parent_lt d cpos
    change c < h.size+1 at cbound
    omega
  · intro i bound
    change i < h.size+1 at bound
    by_cases last : i = h.size
    · rw [last,own]
      exact update_self _ _ _
    have inside : i < h.size := by omega
    rw [keep i inside]
    change update h.index a h.size (h.cell i) = i
    rw [update_of_ne (fun equal => fresh ⟨i,inside,equal⟩)]
    exact valid.indexed i inside
  intro b
  refine (same.mem b).trans ⟨?_,?_⟩
  · rintro ⟨i,bound,rfl⟩
    change i < h.size+1 at bound
    by_cases last : i = h.size
    · exact .inl (last ▸ own)
    · exact .inr ⟨i,by omega,(keep i (by omega)).symm⟩
  rintro (rfl | ⟨i,bound,rfl⟩)
  · exact ⟨h.size,lt_succ_self _,own⟩
  · exact ⟨i,bound.trans (lt_succ_self _),keep i bound⟩

private def filled (h : IndexedHeap α) (a : α) : IndexedHeap α :=
  {h with size := h.size-1, index := update h.index a absent}.place (h.index a) (h.cell (h.size-1))

private lemma filled_cell (h : IndexedHeap α) (a : α) (apart : i ≠ h.index a) : (filled h a).cell i = h.cell i :=
  update_of_ne apart _ _

private lemma filled_own (h : IndexedHeap α) (a : α) : (filled h a).cell (h.index a) = h.cell (h.size-1) :=
  update_self _ _ _

private lemma filled_indexed (indexed : h.Indexed) (member : h.Mem a) : (filled h a).Indexed := by
  obtain ⟨_,_⟩ := indexed.index_mem member
  intro i bound
  change i < h.size-1 at bound
  change update (update h.index a absent) (h.cell (h.size-1)) (h.index a) ((filled h a).cell i) = i
  by_cases same : i = h.index a
  · rw [same,filled_own,update_self]
  rw [filled_cell h a same]
  have notLast : h.cell i ≠ h.cell (h.size-1) := fun equal => by
    have := indexed.injective (by omega) (by omega) equal
    omega
  have notRemoved : h.cell i ≠ a := fun equal => same (by rw [← equal,indexed i (by omega)])
  rw [update_of_ne notLast,update_of_ne notRemoved]
  exact indexed i (by omega)

private lemma filled_mem (indexed : h.Indexed) (member : h.Mem a) (inner : h.index a < h.size-1) (b : α) :
    (filled h a).Mem b ↔ h.Mem b ∧ b ≠ a := by
  obtain ⟨_,own⟩ := indexed.index_mem member
  constructor
  · rintro ⟨i,bound,rfl⟩
    change i < h.size-1 at bound
    by_cases same : i = h.index a
    · rw [same,filled_own]
      refine ⟨⟨h.size-1,by omega,rfl⟩,fun equal => ?_⟩
      have := indexed (h.size-1) (by omega)
      rw [equal] at this
      omega
    rw [filled_cell h a same]
    exact ⟨⟨i,by omega,rfl⟩,fun equal => same (by rw [← equal,indexed i (by omega)])⟩
  rintro ⟨⟨i,bound,rfl⟩,apart⟩
  have notOwn : i ≠ h.index a := fun same => apart (by rw [same,own])
  by_cases last : i = h.size-1
  · exact ⟨h.index a,inner,by rw [filled_own,last]⟩
  · exact ⟨i,by change i < h.size-1; omega,filled_cell h a notOwn⟩

private lemma shrunk_mem (indexed : h.Indexed) (member : h.Mem a) (outer : ¬ h.index a < h.size-1) (b : α) :
    (∃ i, i < h.size-1 ∧ h.cell i = b) ↔ h.Mem b ∧ b ≠ a := by
  obtain ⟨_,own⟩ := indexed.index_mem member
  constructor
  · rintro ⟨i,inside,rfl⟩
    refine ⟨⟨i,by omega,rfl⟩,fun equal => ?_⟩
    have := indexed i (by omega)
    rw [equal] at this
    omega
  rintro ⟨⟨i,inside,rfl⟩,apart⟩
  have notOwn : i ≠ h.index a := fun same => apart (by rw [same,own])
  exact ⟨i,by omega,rfl⟩

/-- The replacement belongs above the removed position, for the sift up, or not, for the sift down. -/
private lemma filled_ordered (valid : Valid d key h) (arity : 0 < d) (inner : h.index a < h.size-1) :
    Ordered d key (siftDown d key (h.size-1) (siftUp d key (h.index a) (filled h a) (h.index a)) (h.index a)) := by
  have size : (filled h a).size = h.size-1 := rfl
  have others : ∀ c, 0 < c → c < h.size-1 → c ≠ h.index a → parent d c ≠ h.index a →
      key ((filled h a).cell (parent d c)) ≤ key ((filled h a).cell c) := by
    intro c cpos cbound apart off
    rw [filled_cell h a apart,filled_cell h a off]
    exact valid.ordered c cpos (by omega)
  have grand : 0 < h.index a → ∀ c, 0 < c → c < h.size-1 → parent d c = h.index a →
      key ((filled h a).cell (parent d (h.index a))) ≤ key ((filled h a).cell c) := by
    intro positive c cpos cbound child
    have up := parent_lt d positive
    have down := parent_lt d cpos
    rw [filled_cell h a up.ne,filled_cell h a (by omega)]
    exact (valid.ordered _ positive (by omega)).trans (child ▸ valid.ordered c cpos (by omega))
  have same := siftUp_same d key (h.index a) (filled h a) (h.index a) inner
  by_cases earlier : 0 < h.index a ∧
      key ((filled h a).cell (h.index a)) < key ((filled h a).cell (parent d (h.index a)))
  · have up : UpOrder d key (filled h a) (h.index a) := by
      refine ⟨?_,grand⟩
      intro c cpos cbound apart
      by_cases child : parent d c = h.index a
      · rw [child]
        exact earlier.2.le.trans (grand earlier.1 c cpos cbound child)
      · exact others c cpos cbound apart child
    have ordered := siftUp_ordered d key (h.index a) (filled h a) (h.index a) le_rfl inner up
    exact siftDown_ordered d key arity _ _ _ (by rw [same.size,size]; omega)
      (by rw [same.size]; exact inner) (ordered.downOrder _ (by rw [same.size]; exact inner))
  have stop : 0 < h.index a → key ((filled h a).cell (parent d (h.index a))) ≤ key ((filled h a).cell (h.index a)) :=
    fun positive => not_lt.mp (fun lt => earlier ⟨positive,lt⟩)
  rw [siftUp_stay d key _ _ _ stop]
  refine siftDown_ordered d key arity _ _ _ (by rw [size]; omega) inner ⟨?_,grand⟩
  intro c cpos cbound off
  by_cases own : c = h.index a
  · rw [own] at cpos ⊢
    exact stop cpos
  · exact others c cpos cbound own off

private lemma remove_inner (d : Nat) (key : α → K)
    (inner : h.index a < h.size-1) : h.remove d key a = siftDown d key (h.size-1)
      (siftUp d key (h.index a) (filled h a) (h.index a)) (h.index a) := if_pos inner

private lemma remove_outer (d : Nat) (key : α → K) (outer : ¬ h.index a < h.size-1) : h.remove d key a =
      {h with size := h.size-1, index := update h.index a absent} := if_neg outer

private lemma remove_same (d : Nat) (key : α → K) (arity : 0 < d)
    (inner : h.index a < h.size-1) : SameMembers (filled h a) (h.remove d key a) := by
  have up := siftUp_same d key (h.index a) (filled h a) (h.index a) inner
  rw [remove_inner d key inner]
  exact up.trans (siftDown_same d key arity _ _ _ (by rw [up.size]; exact inner))

lemma remove_size (d : Nat) (key : α → K) (arity : 0 < d) : (h.remove d key a).size = h.size-1 := by
  by_cases inner : h.index a < h.size-1
  · exact (remove_same d key arity inner).size
  · rw [remove_outer d key inner]

lemma Valid.remove (valid : Valid d key h) (arity : 0 < d) (member : h.Mem a) :
    Valid d key (h.remove d key a) ∧ ∀ b, (h.remove d key a).Mem b ↔ h.Mem b ∧ b ≠ a := by
  by_cases inner : h.index a < h.size-1
  · have same := remove_same d key arity inner
    refine ⟨⟨?_,same.indexed (filled_indexed valid.indexed member)⟩,fun b => ?_⟩
    · rw [remove_inner d key inner]
      exact filled_ordered valid arity inner
    · exact (same.mem b).trans (filled_mem valid.indexed member inner b)
  rw [remove_outer d key inner]
  refine ⟨⟨fun c cpos cbound => valid.ordered c cpos (lt_of_lt_pred cbound),?_⟩,shrunk_mem valid.indexed member inner⟩
  intro i bound
  change i < h.size-1 at bound
  have apart : h.cell i ≠ a := fun equal => ((shrunk_mem valid.indexed member inner a).mp ⟨i,bound,equal⟩).2 rfl
  change update h.index a absent (h.cell i) = i
  rw [update_of_ne apart]
  exact valid.indexed i (by omega)

lemma Valid.congr {other : α → K} (valid : Valid d key h)
    (agree : ∀ a, h.Mem a → other a = key a) : Valid d other h := by
  refine ⟨fun c cpos cbound => ?_,valid.indexed⟩
  rw [agree _ ⟨c,cbound,rfl⟩,agree _ ⟨_,(parent_lt d cpos).trans cbound,rfl⟩]
  exact valid.ordered c cpos cbound

lemma Valid.forget (valid : Valid d key h)
    (outside : ¬ h.Mem a) (i : Nat) : Valid d key {h with index := update h.index a i} := by
  refine ⟨valid.ordered,?_⟩
  intro j bound
  have apart : h.cell j ≠ a := fun same => outside ⟨j,bound,same⟩
  exact (update_of_ne apart _ _).trans (valid.indexed j bound)
end IndexedHeap
end AffiniX
