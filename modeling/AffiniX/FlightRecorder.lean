import Mathlib

/-! The flight recorder: a ring of the last records. -/
namespace AffiniX
open List

structure FlightRecorder (R : Type) where
  ring : Nat → R
  head : Nat

namespace FlightRecorder
variable {R : Type}

def record (f : FlightRecorder R) (r : R) : FlightRecorder R where
  ring := Function.update f.ring (f.head % 4096) r
  head := (f.head+1) % 2^64

/-- `dump` writes the same records, without a `cap`. -/
def snapshot (f : FlightRecorder R) (cap : Nat) : List R := let n := min (min f.head 4096) cap
  (range n).map fun i => f.ring ((f.head-n+i) % 4096)

lemma record_cells (ring : Nat → R) (rs : List R) : (rs.foldl record ⟨ring,0⟩).head = rs.length % 2^64 ∧
    ∀ k (inside : k < rs.length), rs.length ≤ k+4096 → (rs.foldl record ⟨ring,0⟩).ring (k % 4096) = rs[k] := by
  induction rs using reverseRecOn with
  | nil => simp
  | append_singleton rs r ih =>
    obtain ⟨head,cells⟩ := ih
    rw [foldl_append,foldl_cons,foldl_nil,record,head]
    refine ⟨by simp,fun k inside near => ?_⟩
    rw [length_append,length_singleton] at inside near
    dsimp only
    obtain old | rfl := Nat.lt_succ_iff_lt_or_eq.1 inside
    · rw [getElem_append_left old,Function.update_of_ne (by omega)]
      exact cells k old (by omega)
    · rw [getElem_concat_length rfl,show rs.length % 2^64 % 4096 = rs.length % 4096 by omega,Function.update_self]

/-- The last records in the order in which they were written, as many as are kept, asked for and counted. -/
theorem snapshot_last (ring : Nat → R) (rs : List R) (cap : Nat) : (rs.foldl record ⟨ring,0⟩).snapshot cap =
    rs.drop (rs.length-min (min (rs.length % 2^64) 4096) cap) := by
  obtain ⟨head,cells⟩ := record_cells ring rs
  rw [snapshot,head]
  apply ext_getElem
  · simp only [length_map,length_range,length_drop]
    omega
  intro i inside _
  simp only [length_map,length_range] at inside
  rw [getElem_map,getElem_range,getElem_drop,← cells _ (by omega) (by omega)]
  congr 1
  omega

end FlightRecorder
end AffiniX
