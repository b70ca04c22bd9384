import Mathlib

/-! The log2 histogram of the metrics, and the lines that `histo_prom` writes for it. -/
namespace AffiniX
open List

/-- The counters have 64 bits. -/
structure Histogram where
  buckets : Nat → Nat
  count : Nat

namespace Histogram
inductive Source
  | empty
  | record (h : Source) (v : UInt64)
  | merge (h o : Source)

def bucket (v : UInt64) : Nat := (v.toNat ||| 1).log2

def record (h : Histogram) (v : UInt64) : Histogram where
  buckets b := if b = bucket v then (h.buckets b+1) % 2^64 else h.buckets b
  count := (h.count+1) % 2^64

def merge (h o : Histogram) : Histogram where
  buckets b := (h.buckets b+o.buckets b) % 2^64
  count := (h.count+o.count) % 2^64

def Source.histogram : Source → Histogram
  | .empty => ⟨fun _ => 0,0⟩
  | .record h v => h.histogram.record v
  | .merge h o => h.histogram.merge o.histogram

def Source.samples : Source → List UInt64
  | .empty => []
  | .record h v => v::h.samples
  | .merge h o => h.samples++o.samples

/-- The loop of `histo_prom`: bounds and values of the lines from the buckets that are left. -/
def lines (h : Histogram) : Nat → List Nat → List (Nat × Nat)
  | _, [] => []
  | cum, b::rest =>
    let cum := (cum+h.buckets b) % 2^64
    if h.buckets b = 0 then h.lines cum rest else ((2 <<< b) % 2^64,cum)::h.lines cum rest

def histoProm (h : Histogram) : List (Nat × Nat) := h.lines 0 (range 64)

def below (samples : List UInt64) (b : Nat) : Nat := samples.countP (bucket · < b)

lemma bucket_lt {b : Nat} (v : UInt64) (positive : b ≠ 0) : bucket v < b ↔ v.toNat < 2^b := by
  have one : 1 < 2^b := Nat.one_lt_two_pow positive
  unfold bucket
  rw [Nat.log2_lt (Nat.ne_of_gt (Nat.lt_of_lt_of_le Nat.one_pos Nat.right_le_or))]
  exact ⟨Nat.lt_of_le_of_lt Nat.left_le_or,fun small => Nat.or_lt_two_pow small one⟩

lemma bucket_le (v : UInt64) : bucket v < 64 := (bucket_lt v (by decide)).2 v.toNat_lt

lemma below_succ (samples : List UInt64) (b : Nat) :
    below samples (b+1) = below samples b+samples.countP (bucket · = b) := by
  induction samples with
  | nil => rfl
  | cons v rest ih =>
    unfold below at *
    simp only [countP_cons,decide_eq_true_eq]
    split <;> split <;> split <;> omega

lemma Source.histogram_eq (h : Source) : h.histogram.count = h.samples.length % 2^64 ∧
    ∀ b, h.histogram.buckets b = h.samples.countP (bucket · = b) % 2^64 := by
  induction h with
  | empty => exact ⟨rfl,fun _ => rfl⟩
  | record h v ih =>
    refine ⟨by simp [histogram,Histogram.record,samples,ih.1],fun b => ?_⟩
    by_cases own : b = bucket v
    · simp [histogram,Histogram.record,samples,ih.2,own]
    · simp [histogram,Histogram.record,samples,ih.2,own,Ne.symm own]
  | merge h o ihh iho =>
    refine ⟨?_,fun b => ?_⟩
    · simp [histogram,Histogram.merge,samples,ihh.1,iho.1]
    · simp [histogram,Histogram.merge,samples,ihh.2,iho.2]

section
variable {h : Source} (few : h.samples.length < 2^64)
include few

lemma lines_eq (n k : Nat) : h.histogram.lines (below h.samples k) (range' k n) =
    ((range' k n).filter (h.histogram.buckets · ≠ 0)).map
    fun b => ((2 <<< b) % 2^64,below h.samples (b+1)) := by
  induction n generalizing k with
  | zero => rfl
  | succ n ih =>
    have exact' {p : UInt64 → Bool} : h.samples.countP p % 2^64 = h.samples.countP p :=
      Nat.mod_eq_of_lt (Nat.lt_of_le_of_lt countP_le_length few)
    have next : (below h.samples k+h.histogram.buckets k) % 2^64 = below h.samples (k+1) := by
      rw [h.histogram_eq.2,exact',← below_succ]
      exact exact'
    rw [range'_succ,lines,next,ih]
    by_cases none' : h.histogram.buckets k = 0 <;> simp [none']

lemma histoProm_eq : h.histogram.histoProm = ((range 64).filter (h.histogram.buckets · ≠ 0)).map
    fun b => ((2 <<< b) % 2^64,below h.samples (b+1)) := by
  have start : below h.samples 0 = 0 := countP_eq_zero.2 fun _ _ => by simp
  have all := lines_eq few 64 0
  rw [start,← range_eq_range'] at all
  exact all

lemma listed_iff {b : Nat} : b ∈ (range 64).filter (h.histogram.buckets · ≠ 0) ↔ ∃ v ∈ h.samples, bucket v = b := by
  rw [mem_filter,mem_range,decide_eq_true_eq,h.histogram_eq.2,
    Nat.mod_eq_of_lt (Nat.lt_of_le_of_lt countP_le_length few),Nat.ne_zero_iff_zero_lt,countP_pos_iff]
  simp only [decide_eq_true_eq]
  refine ⟨And.right,?_⟩
  rintro ⟨v,member,rfl⟩
  exact ⟨bucket_le v,v,member,rfl⟩
end

lemma bucket_lt_last (v : UInt64) : bucket v < 63 ↔ v.toNat < 2^63 := bucket_lt v (by decide)

lemma bound_eq {b : Nat} (low : b < 63) : (2 <<< b) % 2^64 = 2^(b+1) := by
  rw [Nat.shiftLeft_eq,Nat.mul_comm,← Nat.pow_succ,Nat.mod_eq_of_lt (Nat.pow_lt_pow_right (by decide) (by omega))]

/-- What a line says is short of the samples that are equal to its bound. -/
lemma below_eq_iff (samples : List UInt64) (b : Nat) :
    below samples (b+1) = samples.countP (·.toNat ≤ 2^(b+1)) ↔ 2^(b+1) ∉ samples.map (·.toNat) := by
  have split : samples.countP (·.toNat ≤ 2^(b+1)) = below samples (b+1)+samples.countP (·.toNat = 2^(b+1)) := by
    induction samples with
    | nil => rfl
    | cons v rest ih =>
      unfold below at *
      simp only [countP_cons,ih,decide_eq_true_eq,bucket_lt v (Nat.succ_ne_zero b)]
      split <;> split <;> split <;> omega
  rw [split,left_eq_add,countP_eq_zero]
  simp

/-- The bounds increase and lines count the samples up to their bounds, exactly when no sample is in the last bucket or
equal to the bound of a sample's bucket. -/
theorem prom_cumulative (h : Source) (few : h.samples.length < 2^64) :
    (h.histogram.histoProm.Pairwise (fun a b => a.1 < b.1) ∧
      ∀ line ∈ h.histogram.histoProm, line.2 = h.samples.countP (·.toNat ≤ line.1)) ↔
      ∀ v ∈ h.samples, v.toNat < 2^63 ∧ 2^(bucket v+1) ∉ h.samples.map (·.toNat) := by
  rw [histoProm_eq few,pairwise_map]
  refine ⟨fun right v member => ?_,fun clear => ⟨?_,fun line written => ?_⟩⟩
  · have line := right.2 _ (mem_map_of_mem ((listed_iff few).2 ⟨v,member,rfl⟩))
    by_cases low : bucket v < 63
    · rw [bound_eq low,below_eq_iff] at line
      exact ⟨(bucket_lt_last v).1 low,line⟩
    -- The bound of the last bucket is 0, and every sample is counted.
    exfalso
    have last : bucket v = 63 := by
      have top := bucket_le v
      omega
    have all : below h.samples 64 = h.samples.length := countP_eq_length.2 fun u _ => decide_eq_true (bucket_le u)
    have wraps : (2 <<< 63) % 2^64 = 0 := by decide +kernel
    dsimp only at line
    rw [last,wraps,all] at line
    have zero : v.toNat ≤ 0 := of_decide_eq_true (countP_eq_length.1 line.symm v member)
    have first : bucket v < 1 := (bucket_lt v Nat.one_ne_zero).2 (Nat.lt_of_le_of_lt zero (by decide))
    omega
  · refine (pairwise_lt_range.filter _).imp_of_mem fun first second less => ?_
    obtain ⟨v,member,rfl⟩ := (listed_iff few).1 first
    obtain ⟨w,member',rfl⟩ := (listed_iff few).1 second
    rw [bound_eq ((bucket_lt_last v).2 (clear v member).1),bound_eq ((bucket_lt_last w).2 (clear w member').1)]
    exact Nat.pow_lt_pow_right (by decide) (by omega)
  · obtain ⟨b,listed,rfl⟩ := mem_map.1 written
    obtain ⟨v,member,rfl⟩ := (listed_iff few).1 listed
    rw [bound_eq ((bucket_lt_last v).2 (clear v member).1)]
    exact (below_eq_iff h.samples _).2 (clear v member).2

def odd : Source := .merge (.record .empty 1) (.record (.record .empty 3) 0)

theorem odd_cumulative : odd.histogram.histoProm = [(2,2),(4,3)] ∧
    ∀ line ∈ odd.histogram.histoProm, line.2 = odd.samples.countP (·.toNat ≤ line.1) := by
  have few : odd.samples.length < 2^64 := by decide +kernel
  have clear : odd.samples.all fun v => v.toNat < 2^63 ∧ 2^(bucket v+1) ∉ odd.samples.map (·.toNat) := by
    decide +kernel
  exact ⟨by decide +kernel,((prom_cumulative odd few).2 fun v member =>
    of_decide_eq_true (all_eq_true.1 clear v member)).2⟩

/-- A sample of 2 is not counted in the line of bound 2, and one in the last bucket gets a bound of 0. -/
theorem bound_not_counted : (Source.record (.record .empty 1) 2).histogram.histoProm = [(2,1),(4,2)] ∧
    (Source.record .empty 0x8000000000000000).histogram.histoProm = [(0,1)] := by
  decide +kernel

end Histogram
end AffiniX
