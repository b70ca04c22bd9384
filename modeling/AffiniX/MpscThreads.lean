import AffiniX.BoundedFifo
import AffiniX.MpscRing
import AffiniX.WrapCounter

/-! Any number of producers and one consumer on an `MpscRing`, with its history: the values in the order of their
claims, and what was popped. -/
namespace AffiniX.MpscRing
open Transition WrapCounter Function
variable {ι α : Type*}

/-- `read i` is the position producer `i` last read, `accepted i` the values of its calls that returned true. -/
structure History (ι α : Type*) where
  claimed : List (ι × α)
  published : Nat → Bool
  accepted : ι → List α
  popped : List α
  released : Nat
  read : ι → Nat

structure Threads (ι α : Type*) where
  ring : MpscRing α
  producers : ι → Option (Push α)
  consumer : Option (Pop α)
  past : History ι α

inductive Move (ι α : Type*)
  | push (i : ι) (v : α)
  | producer (i : ι) (spurious : Bool)
  | pop
  | consumer

def Push.holds : Push α → Bool
  | .write _ _ | .publish _ => true
  | _ => false

namespace History
def claimedBy [DecidableEq ι] (h : History ι α) (i : ι) : List α := (h.claimed.filter (·.1 = i)).map Prod.snd

def pushed [DecidableEq ι] (h : History ι α) (i : ι) : Push α → Push α → History ι α
  | .loadPos _, _ | .claim _ _, .loadSeq _ _ => { h with read := update h.read i h.claimed.length }
  | .claim v _, .write _ _ => { h with claimed := h.claimed++[(i,v)] }
  | .publish _, _ =>
    { h with
      published := update h.published (h.read i) true
      accepted := update h.accepted i (h.accepted i++(h.claimed[h.read i]?.map Prod.snd).toList) }
  | _, _ => h

def took (h : History ι α) : Pop α → Pop α → History ι α
  | .take _, .release _ v => { h with popped := h.popped++[v] }
  | .release _ _, _ => { h with released := h.released+1 }
  | _, _ => h
end History
namespace Threads
variable [DecidableEq ι]

def create (n : Nat) (blank : α) : Threads ι α where
  ring := .create (BitVec.ofNat 64 (2^n)) blank
  producers := fun _ => none
  consumer := none
  past := ⟨[],fun _ => false,fun _ => [],[],0,fun _ => 0⟩

variable (s : Threads ι α)

def values : List α := s.past.claimed.map Prod.snd

def setProducer (i : ι) (p : Option (Push α)) : Threads ι α := { s with producers := update s.producers i p }

def step : Move ι α → Option (Threads ι α)
  | .push i v =>
    match s.producers i with
    | none => some (s.setProducer i (some (.loadPos v)))
    | some _ => none
  | .producer i spurious =>
    match s.producers i with
    | none => none
    | some .pushed | some (.full _) => some (s.setProducer i none)
    | some p =>
      let next := s.ring.pushStep spurious p
      some ({ s with ring := next.1, past := s.past.pushed i p next.2 }.setProducer i (some next.2))
  | .pop =>
    match s.consumer with
    | none => some { s with consumer := some .loadSeq }
    | some _ => none
  | .consumer =>
    match s.consumer with
    | none => none
    | some .none | some (.popped _) => some { s with consumer := none }
    | some p =>
      let next := s.ring.popStep p
      some { s with ring := next.1, past := s.past.took p next.2, consumer := some next.2 }

def Step (move : Move ι α) (s' : Threads ι α) : Prop := s.step move = some s'

/-- The counts that a push compares are told apart: the ring has not moved on by half a word where a cell looks behind,
nor by a word where the swap succeeds. -/
def Timely : Move ι α → Prop
  | .producer i _ =>
    match s.producers i with
    | some (.loadSeq _ pos) =>
      dif (s.ring.seq (s.ring.index pos)) pos < 0 → s.past.released+s.ring.cap.toNat ≤ s.past.read i+2^63
    | some (.claim _ pos) => s.ring.enqPos = pos → s.past.claimed.length < s.past.read i+2^64
    | _ => True
  | _ => True

instance (s : Threads ι α) (move : Move ι α) : Decidable (s.Timely move) := by
  unfold Timely
  cases move with
  | producer =>
    dsimp only
    split <;> infer_instance
  | _ => exact inferInstance

inductive Turn (s : Threads ι α) : Move ι α → Threads ι α → Prop
  | call (i : ι) (v : α) (idle : s.producers i = none) : Turn s (.push i v) (s.setProducer i (some (.loadPos v)))
  | loadPos (i : ι) (spurious : Bool) (v : α) (here : s.producers i = some (.loadPos v)) :
      Turn s (.producer i spurious) ({ s with past := { s.past with
        read := update s.past.read i s.past.claimed.length } }.setProducer i (some (.loadSeq v s.ring.enqPos)))
  | free (i : ι) (spurious : Bool) (v : α) (pos : Size) (here : s.producers i = some (.loadSeq v pos))
      (equal : s.ring.seq (s.ring.index pos) = pos) :
      Turn s (.producer i spurious) (s.setProducer i (some (.claim v pos)))
  | full (i : ι) (spurious : Bool) (v : α) (pos : Size) (here : s.producers i = some (.loadSeq v pos))
      (behind : dif (s.ring.seq (s.ring.index pos)) pos < 0) :
      Turn s (.producer i spurious) (s.setProducer i (some (.full v)))
  | again (i : ι) (spurious : Bool) (v : α) (pos : Size) (here : s.producers i = some (.loadSeq v pos)) :
      Turn s (.producer i spurious) (s.setProducer i (some (.loadPos v)))
  | claim (i : ι) (spurious : Bool) (v : α) (pos : Size) (here : s.producers i = some (.claim v pos))
      (same : s.ring.enqPos = pos) :
      Turn s (.producer i spurious) ({ s with
        ring := { s.ring with enqPos := pos+1 }
        past := { s.past with claimed := s.past.claimed++[(i,v)] } }.setProducer i (some (.write v pos)))
  | missed (i : ι) (spurious : Bool) (v : α) (pos : Size) (here : s.producers i = some (.claim v pos)) :
      Turn s (.producer i spurious) ({ s with past := { s.past with
        read := update s.past.read i s.past.claimed.length } }.setProducer i (some (.loadSeq v s.ring.enqPos)))
  | write (i : ι) (spurious : Bool) (v : α) (pos : Size) (here : s.producers i = some (.write v pos)) :
      Turn s (.producer i spurious) ({ s with ring := { s.ring with
        data := update s.ring.data (s.ring.index pos) v } }.setProducer i (some (.publish pos)))
  | publish (i : ι) (spurious : Bool) (pos : Size) (here : s.producers i = some (.publish pos)) :
      Turn s (.producer i spurious) ({ s with
        ring := { s.ring with seq := update s.ring.seq (s.ring.index pos) (pos+1) }
        past := { s.past with
          published := update s.past.published (s.past.read i) true
          accepted := update s.past.accepted i (s.past.accepted i++
            (s.past.claimed[s.past.read i]?.map Prod.snd).toList) } }.setProducer i (some .pushed))
  | finish (i : ι) (spurious : Bool) (p : Push α) (here : s.producers i = some p)
      (done : p.holds = false) : Turn s (.producer i spurious) (s.setProducer i none)
  | ask (idle : s.consumer = none) : Turn s .pop { s with consumer := some .loadSeq }
  | empty (here : s.consumer = some .loadSeq) (unready : s.ring.seq (s.ring.index s.ring.deqPos) ≠ s.ring.deqPos+1) :
      Turn s .consumer { s with consumer := some .none }
  | ready (here : s.consumer = some .loadSeq) (equal : s.ring.seq (s.ring.index s.ring.deqPos) = s.ring.deqPos+1) :
      Turn s .consumer { s with consumer := some (.storePos s.ring.deqPos) }
  | storePos (pos : Size) (here : s.consumer = some (.storePos pos)) :
      Turn s .consumer { s with
        ring := { s.ring with deqPos := pos+1 }, consumer := some (.take pos) }
  | take (pos : Size) (here : s.consumer = some (.take pos)) :
      Turn s .consumer { s with
        past := { s.past with popped := s.past.popped++[s.ring.data (s.ring.index pos)] }
        consumer := some (.release pos (s.ring.data (s.ring.index pos))) }
  | release (pos : Size) (v : α) (here : s.consumer = some (.release pos v)) :
      Turn s .consumer { s with
        ring := { s.ring with
          seq := update s.ring.seq (s.ring.index pos) (pos+s.ring.cap) }
        past := { s.past with released := s.past.released+1 }
        consumer := some (.popped v) }
  | leave (p : Pop α) (here : s.consumer = some p) (done : p = .none ∨ ∃ v, p = .popped v) :
      Turn s .consumer { s with consumer := none }

lemma dif_eq_zero {seq pos : Size} : dif seq pos = 0 ↔ seq = pos := by
  rw [dif,← BitVec.toInt_zero,BitVec.toInt_inj]
  exact sub_eq_zero

lemma step_turn {s s' : Threads ι α} {move : Move ι α} (taken : Step s move s') : Turn s move s' := by
  unfold Step at taken
  cases move with
  | push i v =>
    simp only [step] at taken
    split at taken
    · cases taken
      exact .call i v ‹_›
    · cases taken
  | producer i spurious =>
    simp only [step] at taken
    cases here : s.producers i with
    | none => simp [here] at taken
    | some p =>
      rw [here] at taken
      cases p with
      | pushed | full =>
        cases taken
        exact .finish i spurious _ here rfl
      | loadPos v =>
        cases taken
        exact .loadPos i spurious v here
      | loadSeq v pos =>
        simp only [pushStep] at taken
        split at taken
        next zero =>
          cases taken
          exact .free i spurious v pos here (dif_eq_zero.1 zero)
        · split at taken
          next behind =>
            cases taken
            exact .full i spurious v pos here behind
          · cases taken
            exact .again i spurious v pos here
      | claim v pos =>
        simp only [pushStep] at taken
        split at taken
        next same =>
          cases taken
          exact .claim i spurious v pos here same.1
        · cases taken
          exact .missed i spurious v pos here
      | write v pos =>
        cases taken
        exact .write i spurious v pos here
      | publish pos =>
        cases taken
        exact .publish i spurious pos here
  | pop =>
    simp only [step] at taken
    split at taken
    · cases taken
      exact .ask ‹_›
    · cases taken
  | consumer =>
    simp only [step] at taken
    cases here : s.consumer with
    | none => simp [here] at taken
    | some p =>
      rw [here] at taken
      cases p with
      | none =>
        cases taken
        exact .leave _ here (.inl rfl)
      | popped v =>
        cases taken
        exact .leave _ here (.inr ⟨v,rfl⟩)
      | loadSeq =>
        simp only [popStep] at taken
        split at taken
        next unready =>
          cases taken
          exact .empty here (unready ∘ dif_eq_zero.2)
        next zero =>
        cases taken
        exact .ready here (dif_eq_zero.1 (not_not.1 zero))
      | storePos pos =>
        cases taken
        exact .storePos pos here
      | take pos =>
        cases taken
        exact .take pos here
      | release pos v =>
        cases taken
        exact .release pos v here
end Threads
end AffiniX.MpscRing
