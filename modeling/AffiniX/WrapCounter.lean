import Mathlib

/-! Counters stored in machine words: known modulo the word, with low bits that choose a slot. -/
namespace AffiniX.WrapCounter
open BitVec Nat
variable {w n : Nat}

def slot (n : Nat) (x : BitVec w) : BitVec w := x &&& (BitVec.ofNat w (2^n)-1)

lemma slot_toNat (small : n < w) (x : BitVec w) : (slot n x).toNat = x.toNat%2^n := by
  have below : 2^n < 2^w := Nat.pow_lt_pow_right (by omega) small
  have positive : 0 < 2^n := Nat.two_pow_pos n
  have one : (1 : BitVec w).toNat = 1 := by
    change (BitVec.ofNat w 1).toNat = 1
    rw [toNat_ofNat,Nat.mod_eq_of_lt (by omega)]
  have mask : (BitVec.ofNat w (2^n)-1).toNat = 2^n-1 := by
    rw [toNat_sub,one,toNat_ofNat,Nat.mod_eq_of_lt below]
    have sum : 2^w-1+2^n = 2^n-1+2^w := by omega
    rw [sum,Nat.add_mod_right,Nat.mod_eq_of_lt (by omega)]
  rw [slot,toNat_and,mask,Nat.and_two_pow_sub_one_eq_mod]

lemma slot_eq_iff (small : n < w) (k j : Nat) :
    slot n (BitVec.ofNat w k) = slot n (BitVec.ofNat w j) ↔ k%2^n = j%2^n := by
  have divides : 2^n ∣ 2^w := pow_dvd_pow 2 (le_of_lt small)
  rw [← toNat_inj,slot_toNat small,slot_toNat small,toNat_ofNat,toNat_ofNat,
    mod_mod_of_dvd _ divides,mod_mod_of_dvd _ divides]

lemma ofNat_inj {k j : Nat} (after : k ≤ j) (near : j < k+2^w)
    (same : BitVec.ofNat w k = BitVec.ofNat w j) : k = j := by
  have words := congrArg BitVec.toNat same
  rw [toNat_ofNat,toNat_ofNat] at words
  have divides : 2^w ∣ j-k := (modEq_iff_dvd' after).1 words
  have gap := eq_zero_of_dvd_of_lt divides (by omega)
  omega

lemma eq_of_mod_eq {low m k j : Nat} (k_ge : low ≤ k) (k_lt : k < low+m) (j_ge : low ≤ j)
    (j_lt : j < low+m) (same : k%m = j%m) : k = j := by
  rcases le_total k j with order | order
  · have gap := eq_zero_of_dvd_of_lt ((modEq_iff_dvd' order).1 same) (by omega)
    omega
  have gap := eq_zero_of_dvd_of_lt ((modEq_iff_dvd' order).1 same.symm) (by omega)
  omega

lemma slot_inj {low k j : Nat} (small : n < w) (k_ge : low ≤ k) (k_lt : k < low+2^n) (j_ge : low ≤ j)
    (j_lt : j < low+2^n) (same : slot n (BitVec.ofNat w k) = slot n (BitVec.ofNat w j)) : k = j :=
  eq_of_mod_eq k_ge k_lt j_ge j_lt ((slot_eq_iff small k j).1 same)

lemma exists_slot {low m : Nat} (positive : 0 < m) (k : Nat) : ∃ j, low ≤ j ∧ j < low+m ∧ j%m = k%m := by
  have bound := Nat.mod_lt k positive
  have base := Nat.mod_lt low positive
  have split := Nat.div_add_mod low m
  by_cases order : low%m ≤ k%m
  · refine ⟨m*(low/m)+k%m,by omega,by omega,?_⟩
    rw [Nat.mul_add_mod,Nat.mod_eq_of_lt bound]
  refine ⟨m*(low/m+1)+k%m,?_,?_,?_⟩
  · rw [Nat.mul_add,Nat.mul_one]
    omega
  · rw [Nat.mul_add,Nat.mul_one]
    omega
  · rw [Nat.mul_add_mod,Nat.mod_eq_of_lt bound]

lemma slot_add {i : Nat} (small : n < w) (x : BitVec w) (room : (slot n x).toNat+i < 2^n) :
    slot n x+BitVec.ofNat w i = slot n (x+BitVec.ofNat w i) := by
  have fits : 2^n < 2^w := Nat.pow_lt_pow_right Nat.one_lt_two small
  have divides : 2^n ∣ 2^w := Nat.pow_dvd_pow 2 small.le
  rw [slot_toNat small] at room
  apply eq_of_toNat_eq
  rw [slot_toNat small,toNat_add,toNat_add,slot_toNat small,toNat_ofNat,
    Nat.mod_eq_of_lt (by omega : i < 2^w),Nat.mod_mod_of_dvd _ divides,Nat.add_mod x.toNat,
    Nat.mod_eq_of_lt (by omega : i < 2^n),Nat.mod_eq_of_lt room,Nat.mod_eq_of_lt (by omega)]
end AffiniX.WrapCounter
