import AffiniX.CallStack
import AffiniX.Coroutine

/-! `when_all` and `when_any`: one awaiter over any number of children. -/
namespace AffiniX
open Transition

inductive GroupKind
  | all
  | any
deriving DecidableEq

inductive CoStatus
  | fresh
  | running
  | parked
  | finished
deriving DecidableEq

structure GroupChild where
  status : CoStatus := .fresh
  promise : Promise Unit := {}
deriving DecidableEq

namespace GroupAwait
/-- The call stack. `suspend i`: `await_suspend` starts the child `i`; `others k i`, `cancel i` and `dtor i`: a loop of
`done_thunk`, `cancel_thunk` or the destructor is in `request_stop` on it. -/
inductive Frame
  | suspend (i : Nat)
  | child (i : Nat)
  | others (k i : Nat)
  | cancel (i : Nat)
  | dtor (i : Nat)
  | parent
deriving DecidableEq
end GroupAwait

/-- The awaiter, its children and the promise of the coroutine. `alive`: the frames are there; `recorded`: the winners;
`fault`: something was used after its end. -/
structure GroupAwait where
  kind : GroupKind
  n : Nat
  children : Nat → GroupChild
  parent : Promise Unit
  awaited : Bool
  remaining : Nat
  won : Bool
  winner : Nat
  parentSuspended : Bool
  wake : Bool
  dead : Bool
  alive : Bool
  stack : List GroupAwait.Frame
  resumes : Nat
  recorded : List Nat
  fault : Bool

namespace GroupAwait
def create (kind : GroupKind) (n : Nat) (stopped : Bool) : GroupAwait where
  kind := kind
  n := n
  children := fun _ => {}
  parent := { stopped := stopped }
  awaited := false
  remaining := n
  won := false
  winner := n
  parentSuspended := false
  wake := false
  dead := false
  alive := true
  stack := [.parent]
  resumes := 0
  recorded := []
  fault := false

variable (s : GroupAwait)

def setChild (i : Nat) (k : GroupChild) : GroupAwait := { s with children := Function.update s.children i k }

/-- `resume_under_ctx` on the coroutine that awaits, up to the end of `await_resume`. -/
def resumeParent (rest : List Frame) : GroupAwait :=
  { s with resumes := s.resumes+1, parent := s.parent.clearCancel, stack := .parent::rest }

/-- `start_one<i>`, or what `await_suspend` does after the last child. -/
def startFrom (i : Nat) (rest : List Frame) : GroupAwait :=
  if i < s.n then
    { s.setChild i { s.children i with
          status := .running
          promise := { (s.children i).promise with
            stopped := (s.children i).promise.stopped || s.parent.stopped } } with
      stack := .child i::.suspend i::rest }
  else if s.wake then s.resumeParent rest
  else { s with parentSuspended := true, stack := rest }

/-- `request_stop` on the child `i`, with `stack` the call stack of the loop that makes it. -/
def stopChild (i : Nat) (stack : List Frame) : GroupAwait := match (s.children i).promise.cancel with
  | none => { s.setChild i { s.children i with promise := (s.children i).promise.requestStop } with
      stack := stack }
  | some _ => { s.setChild i { status := .running, promise := (s.children i).promise.requestStop } with
      stack := .child i::stack }

def use (rest : List Frame) (then' : GroupAwait) : GroupAwait :=
  if s.alive then then' else { s with fault := true, stack := rest }

def wakeParent (rest : List Frame) : GroupAwait :=
  if s.parentSuspended then s.resumeParent rest else { s with wake := true, stack := rest }

/-- `cancel_others` from the index `i` on, and the end of `done_thunk` after it. -/
def othersFrom (k i : Nat) (rest : List Frame) : GroupAwait := let j := if i = k then i+1 else i
  if j < s.n then s.stopChild j (.others k j::rest) else s.wakeParent rest

def doneThunk (k : Nat) (rest : List Frame) : GroupAwait := if s.dead then { s with stack := rest }
  else match s.kind with
    | .all =>
      let s := { s with remaining := s.remaining-1 }
      if s.remaining = 0 then s.wakeParent rest else { s with stack := rest }
    | .any =>
      if s.won then { s with stack := rest }
      else othersFrom { s with won := true, winner := k, recorded := s.recorded++[k] } k 0 rest

/-- `cancel_children` from the index `i` on, called by `cancel_thunk`. -/
def cancelFrom (i : Nat) (rest : List Frame) : GroupAwait :=
  if i < s.n then s.use rest (s.stopChild i (.cancel i::rest)) else { s with stack := rest }

/-- `cancel_children` from the index `i` on, called by the destructor, and its end. -/
def dtorFrom (i : Nat) (rest : List Frame) : GroupAwait :=
  if i < s.n then s.stopChild i (.dtor i::rest) else { s with alive := false, stack := rest }

/-- What a running child does next, calls of the application, the end of the `co_await` or of the frame, and returns to
the awaiter. -/
inductive Move
  | await
  | park (cancellable : Bool)
  | finish
  | wake (i : Nat)
  | stopParent
  | destroy
  | leave
  | resume

def appRuns : Bool := match s.stack with
  | [] | .child _::_ | .parent::_ => true
  | .suspend _::_ | .others _ _::_ | .cancel _::_ | .dtor _::_ => false

def step : Move → Option GroupAwait
  | .await =>
    if s.awaited ∨ s.stack ≠ [.parent] then none
    else if s.kind = .all ∧ s.n = 0 then some { s with awaited := true }
    else some (startFrom { s with awaited := true, parent := s.parent.setCancel () } 0 [])
  | .park cancellable =>
    match s.stack with
    | .child i::rest => some (s.use rest { s.setChild i { s.children i with
          status := .parked
          promise := if cancellable then (s.children i).promise.setCancel ()
            else (s.children i).promise.clearCancel } with
        stack := rest })
    | _ => none
  | .finish =>
    match s.stack with
    | .child i::rest => some (s.use rest ((s.setChild i { s.children i with status := .finished }).doneThunk i rest))
    | _ => none
  | .wake i =>
    if s.appRuns ∧ s.alive ∧ (s.children i).status = .parked then
      some { s.setChild i { status := .running, promise := (s.children i).promise.clearCancel } with
        stack := .child i::s.stack }
    else none
  | .stopParent =>
    if s.appRuns ∧ (s.alive ∨ s.resumes ≠ 0) then
      match s.parent.cancel with
      | none => some { s with parent := s.parent.requestStop }
      | some _ => some (cancelFrom { s with parent := s.parent.requestStop } 0 s.stack)
    else none
  | .destroy =>
    if s.awaited ∧ s.alive ∧ s.dead = false ∧ (s.stack = [] ∨ s.stack.head? = some .parent) then
      some (dtorFrom { s with dead := true } 0 s.stack)
    else none
  | .leave =>
    match s.stack with
    | .parent::rest => if s.awaited then some { s with stack := rest } else none
    | _ => none
  | .resume =>
    match s.stack with
    | .suspend i::rest => some (s.use rest (s.startFrom (i+1) rest))
    | .others k i::rest => some (s.use rest (s.othersFrom k (i+1) rest))
    | .cancel i::rest => some (s.cancelFrom (i+1) rest)
    | .dtor i::rest => some (s.use rest (s.dtorFrom (i+1) rest))
    | _ => none
end GroupAwait
end AffiniX
