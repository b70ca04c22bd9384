import Mathlib

/-! Finite executions of labelled transition systems, and the rules that carry a
property along them. Nothing here depends on what the states are. -/
namespace AffiniX.Transition
open Function Option
variable {σ ι : Type*}

inductive Exec (step : σ → ι → σ → Prop) : σ → List ι → σ → Prop
  | nil (s) : Exec step s [] s
  | cons (s a t as u) (head : step s a t) (tail : Exec step t as u) : Exec step s (a::as) u

def Guarded (step : σ → ι → σ → Prop) (ok : σ → ι → Prop) : σ → ι → σ → Prop := fun s a t => ok s a ∧ step s a t

/-- The steps that a partial step function takes. -/
abbrev Via (step : σ → ι → Option σ) : σ → ι → σ → Prop := fun s a t => step s a = some t

variable {step : σ → ι → σ → Prop} {s u : σ} {as : List ι}

lemma Exec.append {t : σ} {bs : List ι}
    (first : Exec step s as t) (second : Exec step t bs u) : Exec step s (as++bs) u := by
  induction first with
  | nil => exact second
  | cons s a t _ _ head _ ih => exact .cons s a t _ u head (ih second)

lemma Exec.invariant (inv : σ → Prop) (preserved : ∀ s a t, step s a t → inv s → inv t) (run : Exec step s as u) (start : inv s) : inv u := by
  induction run with
  | nil => exact start
  | cons s a t _ _ head _ ih => exact ih (preserved s a t head start)

/-- Where every step is matched by a run of a specification from states that an invariant
holds of, so is every run. -/
lemma Exec.refines {τ κ : Type*} {spec : τ → κ → τ → Prop} (abs : σ → τ)
    (inv : σ → Prop) (preserved : ∀ s a t, step s a t → inv s → inv t)
    (matched : ∀ s a t, step s a t → inv s → ∃ bs, Exec spec (abs s) bs (abs t)) (run : Exec step s as u) (start : inv s) :
    ∃ bs, Exec spec (abs s) bs (abs u) := by
  induction run with
  | nil => exact ⟨[],.nil _⟩
  | cons s a t _ _ head _ ih =>
    obtain ⟨first,there⟩ := matched s a t head start
    obtain ⟨rest,onwards⟩ := ih (preserved s a t head start)
    exact ⟨first++rest,there.append onwards⟩

lemma Exec.of_guarded {ok : σ → ι → Prop} (run : Exec (Guarded step ok) s as u) : Exec step s as u := by
  induction run with
  | nil s => exact .nil s
  | cons s a t as u head _ ih => exact .cons s a t as u head.2 ih

lemma Exec.foldl (f : σ → ι → σ) (s : σ) (as : List ι) : Exec (fun s a t => f s a = t) s as (as.foldl f s) := by
  induction as generalizing s with
  | nil => exact .nil s
  | cons a as ih => exact .cons s a (f s a) as _ rfl (ih (f s a))

lemma enabled {p : Prop} [Decidable p] {t : σ} (taken : (if p then some s else none) = some t) : p ∧ s = t := by
  obtain ⟨met,same⟩ := ite_none_right_eq_some.1 taken
  exact ⟨met,some.inj same⟩

/-- Runs a partial step function through a list of labels, as long as each step is possible
and meets the condition. -/
def drive (step : σ → ι → Option σ) (ok : σ → ι → Prop) [∀ s a, Decidable (ok s a)] : σ → List ι → Option σ
  | s, [] => some s
  | s, a::as => if ok s a then (step s a).bind fun t => drive step ok t as else none

section
variable {step : σ → ι → Option σ} {ok : σ → ι → Prop} [∀ s a, Decidable (ok s a)] {s u : σ} {as : List ι}
  {P Q : σ → Prop} [DecidablePred P]

lemma Exec.of_drive (driven : drive step ok s as = some u) :
    Exec (Guarded (Via step) ok) s as u := by
  induction as generalizing s with
  | nil =>
    cases driven
    exact .nil _
  | cons a as ih =>
    rw [drive] at driven
    split at driven
    case isTrue met =>
      obtain ⟨t,taken,rest⟩ := bind_eq_some_iff.1 driven
      exact .cons s a t as u ⟨met,taken⟩ (ih rest)
    case isFalse => cases driven

section
variable (driven : ((drive step ok s as).map fun t => decide (P t)) = some true)
include driven

lemma Exec.shown_of_drive (follows : ∀ t, Exec (Guarded (Via step) ok) s as t → P t → Q t) :
    ∃ t, Exec (Guarded (Via step) ok) s as t ∧ Q t := by
  obtain ⟨t,driven,decided⟩ := map_eq_some_iff.1 driven
  have run := Exec.of_drive driven
  exact ⟨t,run,follows t run (of_decide_eq_true decided)⟩

lemma Exec.end_of_drive : ∃ t, Exec (Guarded (Via step) ok) s as t ∧ P t :=
  Exec.shown_of_drive driven fun _ _ => id

lemma Exec.seen_of_drive (follows : ∀ t, Exec (Guarded (Via step) ok) s as t → P t → Q t) :
    ∃ t, Exec (Guarded (Via step) ok) s as t ∧ P t ∧ Q t :=
  Exec.shown_of_drive driven fun t run seen => ⟨seen,follows t run seen⟩
end

lemma Exec.run_of_drive (driven : ((drive step (fun _ _ => True) s as).map fun t => decide (P t)) = some true)
    (follows : ∀ t, Exec (Via step) s as t → P t → Q t) :
    ∃ t, Exec (Via step) s as t ∧ Q t := by
  obtain ⟨t,run,seen⟩ := Exec.end_of_drive driven
  exact ⟨t,run.of_guarded,follows t run.of_guarded seen⟩

lemma Exec.stepped_of_drive {P Q : σ → σ → Prop} [∀ s t, Decidable (P s t)] {a : ι}
    (driven : ((drive step ok s as).bind fun t => (step t a).map fun u => decide (P t u)) = some true)
    (follows : ∀ t u, Exec (Guarded (Via step) ok) s as t → step t a = some u → P t u → Q t u) :
    ∃ t u, Exec (Guarded (Via step) ok) s as t ∧ step t a = some u ∧ Q t u := by
  obtain ⟨t,driven,last⟩ := bind_eq_some_iff.1 driven
  obtain ⟨u,taken,decided⟩ := map_eq_some_iff.1 last
  have run := Exec.of_drive driven
  exact ⟨t,u,run,taken,follows t u run taken (of_decide_eq_true decided)⟩

lemma Exec.step_of_drive {P : σ → σ → Prop} [∀ s t, Decidable (P s t)] {a : ι}
    (driven : ((drive step ok s as).bind fun t => (step t a).map fun u => decide (P t u)) = some true) :
    ∃ t u, Exec (Guarded (Via step) ok) s as t ∧ step t a = some u ∧ P t u :=
  Exec.stepped_of_drive driven fun _ _ _ _ => id
end

lemma lookup {κ α : Type*} [DecidableEq κ] {f : κ → Option α} {a b : κ} {x y : α}
    (there : update f a (some x) b = some y) : b = a ∧ y = x ∨ b ≠ a ∧ f b = some y := by
  by_cases same : b = a
  · rw [same,update_self] at there
    exact .inl ⟨same,(some.inj there).symm⟩
  rw [update_of_ne same] at there
  exact .inr ⟨same,there⟩
end AffiniX.Transition
