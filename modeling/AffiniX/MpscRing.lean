import Mathlib

/-! The bounded ring under a mailbox, by its atomic steps. -/
namespace AffiniX
open Function

abbrev Size := BitVec 64

abbrev word (k : Nat) : Size := BitVec.ofNat 64 k

lemma word_add (k m : Nat) : word k+word m = word (k+m) := (BitVec.ofNat_add k m).symm

lemma word_sub {k m : Nat} (order : k ≤ m) : word m-word k = word (m-k) := by
  rw [BitVec.sub_eq_iff_eq_add,word_add,Nat.sub_add_cancel order]

lemma word_toNat {k : Nat} (small : k < 2^64) : (word k).toNat = k := by
  rw [BitVec.toNat_ofNat,Nat.mod_eq_of_lt small]

structure MpscRing (α : Type*) where
  cap : Size
  seq : Size → Size
  data : Size → α
  enqPos : Size
  deqPos : Size

namespace MpscRing
variable {α : Type*}

def create (cap : Size) (blank : α) : MpscRing α := ⟨cap,fun i => i,fun _ => blank,0,0⟩

variable (r : MpscRing α)

def mask : Size := r.cap - 1

def index (pos : Size) : Size := pos &&& r.mask

/-- The difference of two `std::intptr_t`, of 64 bits. -/
def dif (seq pos : Size) : Int := (seq-pos).toInt

def empty : Bool := dif (r.seq (r.index r.deqPos)) (r.deqPos+1) != 0

inductive Push (α : Type*)
  | loadPos (v : α)
  | loadSeq (v : α) (pos : Size)
  | claim (v : α) (pos : Size)
  | write (v : α) (pos : Size)
  | publish (pos : Size)
  | pushed
  | full (v : α)
deriving DecidableEq

/-- One atomic step of `push_impl`. The weak swap may fail on an unchanged position, and a failed one leaves the current
one in `pos`. -/
def pushStep (spurious : Bool) : Push α → MpscRing α × Push α
  | .loadPos v => (r,.loadSeq v r.enqPos)
  | .loadSeq v pos =>
    let d := dif (r.seq (r.index pos)) pos
    if d = 0 then (r,.claim v pos)
    else if d < 0 then (r,.full v)
    else (r,.loadPos v)
  | .claim v pos =>
    if r.enqPos = pos ∧ spurious = false then ({r with enqPos := pos+1},.write v pos)
    else (r,.loadSeq v r.enqPos)
  | .write v pos => ({r with data := update r.data (r.index pos) v},.publish pos)
  | .publish pos => ({r with seq := update r.seq (r.index pos) (pos+1)},.pushed)
  | .pushed => (r,.pushed)
  | .full v => (r,.full v)

inductive Pop (α : Type*)
  | loadSeq
  | storePos (pos : Size)
  | take (pos : Size)
  | release (pos : Size) (v : α)
  | popped (v : α)
  | none
deriving DecidableEq

def popStep : Pop α → MpscRing α × Pop α
  | .loadSeq => if dif (r.seq (r.index r.deqPos)) (r.deqPos+1) ≠ 0 then (r,.none) else (r,.storePos r.deqPos)
  | .storePos pos => ({r with deqPos := pos+1},.take pos)
  | .take pos => (r,.release pos (r.data (r.index pos)))
  | .release pos v => ({r with seq := update r.seq (r.index pos) (pos+r.cap)},.popped v)
  | .popped v => (r,.popped v)
  | .none => (r,.none)

lemma pushStep_empty (spurious : Bool) (p : Push α) (before : r.empty = true)
    (after : (r.pushStep spurious p).1.empty = false) : (r.pushStep spurious p).2 = .pushed := by
  cases p with
  | publish => rfl
  | loadSeq v pos =>
    have same : (r.pushStep spurious (.loadSeq v pos)).1 = r := by
      unfold pushStep
      dsimp only
      split
      · rfl
      · split <;> rfl
    rw [same,before] at after
    contradiction
  | claim v pos =>
    have same : (r.pushStep spurious (.claim v pos)).1.empty = r.empty := by
      unfold pushStep
      dsimp only
      split <;> rfl
    rw [same,before] at after
    contradiction
  | _ =>
    change r.empty = false at after
    rw [before] at after
    contradiction
end MpscRing
end AffiniX
