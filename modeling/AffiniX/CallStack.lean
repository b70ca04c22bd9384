import Mathlib

/-! Call stacks of code that runs coroutines. -/
namespace AffiniX.CallStack
open List
variable {φ ι : Type*} {runs : φ → Option ι} {stack rest : List φ} {running running' : ι → Prop}
  {f : φ} {c : ι}

structure Distinct (runs : φ → Option ι) (stack : List φ) (running : ι → Prop) : Prop where
  each : ∀ f ∈ stack, ∀ c, runs f = some c → running c
  once : (stack.filterMap runs).Nodup

namespace Distinct
lemma nil : Distinct runs [] running := ⟨nofun,nodup_nil⟩

lemma mono (distinct : Distinct runs stack running)
    (still : ∀ f ∈ stack, ∀ c, runs f = some c → running c → running' c) : Distinct runs stack running' :=
  ⟨fun f member c runs => still f member c runs (distinct.each f member c runs),distinct.once⟩

lemma pop (distinct : Distinct runs (f::rest) running) : Distinct runs rest running where
  each g member := distinct.each g (mem_cons_of_mem _ member)
  once := distinct.once.sublist ((sublist_cons_self f rest).filterMap _)

lemma not_below (distinct : Distinct runs (f::rest) running) (top : runs f = some c) : ∀ g ∈ rest, runs g ≠ some c := by
  intro g member same
  have once := distinct.once
  rw [filterMap_cons_some top] at once
  exact (nodup_cons.1 once).1 (mem_filterMap.2 ⟨g,member,same⟩)

lemma push (distinct : Distinct runs rest running) (top : runs f = some c) (now : running c)
    (new : ∀ g ∈ rest, runs g ≠ some c) : Distinct runs (f::rest) running where
  each g member d same := by
    rcases mem_cons.1 member with rfl | old
    · exact Option.some.inj (top.symm.trans same) ▸ now
    · exact distinct.each g old d same
  once := by
    rw [filterMap_cons_some top]
    refine nodup_cons.2 ⟨fun there => ?_,distinct.once⟩
    obtain ⟨g,member,same⟩ := mem_filterMap.1 there
    exact new g member same

lemma pushOther (distinct : Distinct runs rest running) (top : runs f = none) : Distinct runs (f::rest) running where
  each g member d same := by
    rcases mem_cons.1 member with rfl | old
    · cases top.symm.trans same
    · exact distinct.each g old d same
  once := by
    rw [filterMap_cons_none top]
    exact distinct.once
end Distinct
end AffiniX.CallStack
