import Mathlib

/-! Draining a table: due entries are taken one by one and replaced by what they turn into. -/
namespace AffiniX
open Function List Prod Option
variable {κ δ : Type*} [DecidableEq κ]

inductive Drain (due : δ → Prop) (turn : δ → Option δ) (table : κ → Option δ) : List (κ × δ) → (κ → Option δ) → Prop
  | nil : Drain due turn table [] table
  | snoc (log now k d) (before : Drain due turn table log now) (entry : now k = some d)
      (ripe : due d) : Drain due turn table (log ++ [(k,d)]) (update now k (turn d))

namespace Drain
variable {due : δ → Prop} {turn : δ → Option δ} {table now : κ → Option δ} {log : List (κ × δ)}

lemma spec (spent : ∀ d d', due d → turn d = some d' → ¬ due d') (run : Drain due turn table log now) :
    (log.map fst).Nodup ∧ (∀ p ∈ log, table p.1 = some p.2 ∧ due p.2) ∧
    ∀ k, now k = if k ∈ log.map fst then (table k).bind turn else table k := by
  induction run with
  | nil => exact ⟨nodup_nil,by simp,by simp⟩
  | snoc log _ k d _ entry ripe ih =>
    obtain ⟨nodup,were,current⟩ := ih
    have fresh : k ∉ log.map fst := by
      intro taken
      obtain ⟨⟨_,d'⟩,inside,rfl⟩ := mem_map.mp taken
      obtain ⟨start,ready⟩ := were _ inside
      rw [current,if_pos taken,start] at entry
      exact spent d' d ready entry ripe
    have start : table k = some d := by
      rw [← entry,current,if_neg fresh]
    refine ⟨?_,?_,?_⟩
    · rw [map_append,nodup_append]
      refine ⟨nodup,by simp,?_⟩
      intro a old b new same
      rw [map_singleton,mem_singleton] at new
      rw [same,new] at old
      exact fresh old
    · intro p inside
      rw [mem_append,mem_singleton] at inside
      rcases inside with old | rfl
      · exact were p old
      · exact ⟨start,ripe⟩
    intro j
    rw [update_apply]
    by_cases own : j = k
    · rw [if_pos own,if_pos (by simp [own]),own,start]
      rfl
    have keys : j ∈ (log ++ [(k,d)]).map fst ↔ j ∈ log.map fst := by
      rw [map_append,mem_append,map_singleton,mem_singleton]
      exact or_iff_left own
    rw [if_neg own,current]
    by_cases old : j ∈ log.map fst
    · rw [if_pos old,if_pos (keys.mpr old)]
    · rw [if_neg old,if_neg (fun inside => old (keys.mp inside))]

lemma invariant (P : δ → Prop) (kept : ∀ d d', P d → due d → turn d = some d' → P d')
    (start : ∀ k d, table k = some d → P d) (run : Drain due turn table log now) : ∀ k d, now k = some d → P d := by
  induction run with
  | nil => exact start
  | snoc log now k d _ entry ripe ih =>
    intro j d' found
    rw [update_apply] at found
    split at found
    · exact kept d d' (ih k d entry) ripe found
    · exact ih j d' found

lemma exact_of_idle [DecidablePred due] (spent : ∀ d d', due d → turn d = some d' → ¬ due d')
    (run : Drain due turn table log now) (idle : ∀ k d, now k = some d → ¬ due d) :
    (log.map fst).Nodup ∧ (∀ k d, (k,d) ∈ log ↔ table k = some d ∧ due d) ∧
    ∀ k, now k = (table k).bind (fun d => if due d then turn d else some d) := by
  obtain ⟨nodup,were,current⟩ := run.spec spent
  have taken : ∀ k d, table k = some d → due d → k ∈ log.map fst := by
    intro k d entry ripe
    by_contra missed
    have still := current k
    rw [if_neg missed,entry] at still
    exact idle k d still ripe
  refine ⟨nodup,?_,?_⟩
  · intro k d
    constructor
    · exact fun inside => were _ inside
    rintro ⟨entry,ripe⟩
    obtain ⟨⟨_,_⟩,inside,rfl⟩ := mem_map.mp (taken k d entry ripe)
    have same := (were _ inside).1
    rw [entry] at same
    rwa [some.inj same]
  intro k
  rw [current]
  cases entry : table k with
  | none => simp
  | some d =>
    by_cases ripe : due d
    · rw [if_pos (taken k d entry ripe),bind_some,bind_some,if_pos ripe]
    have untouched : k ∉ log.map fst := by
      intro inside
      obtain ⟨⟨_,_⟩,member,rfl⟩ := mem_map.mp inside
      obtain ⟨same,ready⟩ := were _ member
      rw [entry] at same
      rw [some.inj same] at ripe
      exact ripe ready
    rw [if_neg untouched,bind_some,if_neg ripe]
end Drain
end AffiniX
