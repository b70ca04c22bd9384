import Mathlib

/-! The context that a work item carries with it, and the scopes that install one as the
ambient context of a thread. -/
namespace AffiniX
open Function

structure Context.Deadline where
  point : Option Int
deriving DecidableEq

def Context.Deadline.expired (d : Context.Deadline) (now : Int) : Bool := match d.point with
  | none => false
  | some t => decide (t ≤ now)

structure Context.TraceId where
  hi : BitVec 64
  lo : BitVec 64
  span : BitVec 64
deriving DecidableEq

structure Context where
  deadline : Context.Deadline
  trace : Context.TraceId
  stop : Option Nat
  priority : BitVec 32
deriving DecidableEq

def Context.empty : Context := ⟨⟨none⟩,⟨0,0,0⟩,none,0⟩

structure Contexts (ε : Type*) where
  slots : ε → Context
  tls : Option ε

namespace Contexts
variable {ε : Type*}

def ambient (s : Contexts ε) : Context := match s.tls with
  | some e => s.slots e
  | none => .empty

/-- A `ContextScope`. The constructor that moves one does not set `slot_`. -/
structure Scope (ε : Type*) where
  slot : Option ε
  prev : Context
  tlsPrev : Option ε

def Scope.moved (scope : Scope ε) : Scope ε := { scope with slot := none }

variable [DecidableEq ε]
variable (s : Contexts ε)

def withContext (e : ε) (c : Context) : Contexts ε × Scope ε := (⟨update s.slots e c,some e⟩,⟨some e,s.slots e,s.tls⟩)

/-- A write through an indeterminate `slot_` reaches no context. -/
def restore (scope : Scope ε) : Contexts ε where
  slots := match scope.slot with
    | some e => update s.slots e scope.prev
    | none => s.slots
  tls := scope.tlsPrev

def unwind (scopes : List (Scope ε)) : Contexts ε := scopes.foldl restore s

lemma restore_withContext (e : ε) (c : Context) : (s.withContext e c).1.restore (s.withContext e c).2 = s := by
  unfold withContext restore
  simp only [update_idem,update_eq_self]

lemma unwind_withContext (e : ε) (c : Context) (scopes : List (Scope ε)) :
    (s.withContext e c).1.unwind ((s.withContext e c).2::scopes) = s.unwind scopes := by
  unfold unwind
  rw [List.foldl_cons,restore_withContext]

lemma withContext_slots (e : ε) (c : Context) : (s.withContext e c).1.slots e = c := update_self _ _ _

lemma withContext_ambient (e : ε) (c : Context) : (s.withContext e c).1.ambient = c := withContext_slots s e c
end Contexts
end AffiniX
