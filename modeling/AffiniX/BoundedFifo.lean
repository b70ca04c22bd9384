import AffiniX.Transition

/-! A bounded first-in first-out queue, as a transition system over its own history: what
was pushed and what was popped, oldest first. The items between are in the queue. -/
namespace AffiniX
open Transition List

structure BoundedFifo (α : Type*) where
  pushed : List α
  popped : List α

namespace BoundedFifo
variable {α : Type*} {cap : Nat} {q q' : BoundedFifo α}

inductive Op (α : Type*)
  | push (v : α)
  | pop (v : α)

inductive Step (cap : Nat) : BoundedFifo α → Op α → BoundedFifo α → Prop
  | push (q v) (room : q.pushed.length < q.popped.length+cap) : Step cap q (.push v) ⟨q.pushed++[v],q.popped⟩
  | pop (q v) (front : q.pushed[q.popped.length]? = some v) : Step cap q (.pop v) ⟨q.pushed,q.popped++[v]⟩

structure Legal (cap : Nat) (q : BoundedFifo α) : Prop where
  order : q.popped <+: q.pushed
  bound : q.pushed.length ≤ q.popped.length+cap

lemma Step.legal {op : Op α} (taken : Step cap q op q') (legal : q.Legal cap) : q'.Legal cap := by
  cases taken with
  | push v room =>
    refine ⟨legal.order.trans (prefix_append _ _),?_⟩
    rw [length_append,length_singleton]
    exact room
  | pop v front =>
    obtain ⟨rest,whole⟩ := legal.order
    constructor
    · cases rest with
      | nil =>
        rw [← whole] at front
        simp at front
      | cons w rest =>
        obtain rfl : w = v := by
          rw [← whole] at front
          simpa using front
        exact ⟨rest,by rw [← whole,append_assoc,singleton_append]⟩
    simp only [length_append,length_singleton]
    have := legal.bound
    omega

lemma push_all (q : BoundedFifo α) (vs : List α) (room : q.pushed.length+vs.length ≤ q.popped.length+cap) :
    Exec (Step cap) q (vs.map .push) ⟨q.pushed++vs,q.popped⟩ := by
  induction vs generalizing q with
  | nil =>
    rw [append_nil]
    exact .nil q
  | cons v _ ih =>
    rw [length_cons] at room
    have rest := ih ⟨q.pushed++[v],q.popped⟩ (by
      rw [length_append,length_singleton]
      change _ ≤ q.popped.length+cap
      omega)
    rw [append_assoc,singleton_append] at rest
    exact .cons _ _ _ _ _ (.push q v (by omega)) rest

lemma run_legal {ops : List (Op α)} (run : Exec (Step cap) ⟨[],[]⟩ ops q) : q.Legal cap :=
  run.invariant (Legal cap) (fun _ _ _ taken => taken.legal) ⟨prefix_rfl,Nat.zero_le _⟩
end BoundedFifo
end AffiniX
