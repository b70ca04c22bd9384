import Mathlib

/-! Flat memory as a function of the address: reading and storing ranges, and how the two meet. -/
namespace AffiniX.ByteMemory
open List
variable {α : Type*}
variable (m : Nat → α)

def slice (off n : Nat) : List α := (range' off n).map m

def store (off : Nat) (bs : List α) : Nat → α := fun i => if off ≤ i then (bs[i-off]?).getD (m i) else m i

@[simp] lemma slice_length (off n : Nat) : (slice m off n).length = n := by simp [slice]

lemma slice_congr {m m' : Nat → α} {off n : Nat}
    (same : ∀ i, off ≤ i → i < off+n → m i = m' i) : slice m off n = slice m' off n := by
  apply map_congr_left
  intro i within
  obtain ⟨low,high⟩ := mem_range'_1.1 within
  exact same i low high

lemma slice_add (off a b : Nat) : slice m off (a+b) = slice m off a++slice m (off+a) b := by
  have ranges : range' off (a+b) = range' off a++range' (off+a) b := by simp
  rw [slice,ranges,map_append]
  rfl

lemma slice_drop (off n k : Nat) (within : k ≤ n) : (slice m off n).drop k = slice m (off+k) (n-k) := by
  obtain ⟨_,rfl⟩ := Nat.exists_eq_add_of_le within
  rw [slice_add,Nat.add_sub_cancel_left]
  exact drop_left' (slice_length m off k)

lemma slice_store (off : Nat) (bs : List α) : slice (store m off bs) off bs.length = bs := by
  apply ext_getElem
  · exact slice_length _ _ _
  intro i _ within
  simp [slice,store,within]

lemma slice_store_of_disjoint (off : Nat) (bs : List α) (base n : Nat) (apart : base+n ≤ off ∨ off+bs.length ≤ base) :
    slice (store m off bs) base n = slice m base n := by
  apply slice_congr
  intro i _ _
  unfold store
  split
  · have beyond : bs.length ≤ i-off := by omega
    rw [getElem?_eq_none beyond,Option.getD_none]
  · rfl
end AffiniX.ByteMemory
