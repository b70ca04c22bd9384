import AffiniX.Context
import AffiniX.Transition

/-! The contexts of tasks and of the code that runs them. -/
namespace AffiniX
open Transition Function Contexts
namespace Context
def Deadline.earliestOf (d o : Deadline) : Deadline := match d.point,o.point with
  | none,_ => o
  | some _,none => d
  | some t,some u => ⟨some (min t u)⟩

def Deadline.Within (d o : Deadline) : Prop := ∀ t ∈ o.point, ∃ u ∈ d.point, u ≤ t

def TraceId.valid (t : TraceId) : Bool := t.hi ≠ 0 ∨ t.lo ≠ 0

/-- The merge of `em.spawn` and `TaskScope::spawn`; `given` is the context argument. -/
def spawned (ambient given : Context) : Context where
  deadline := ambient.deadline.earliestOf given.deadline
  trace := if given.trace.valid then given.trace else ambient.trace
  stop := if given.stop.isSome then given.stop else ambient.stop
  priority := given.priority

/-- The merge of `co_await` and of the combinators; `given` is what the promise of the child has. -/
def awaited (parent given : Context) : Context where
  deadline := parent.deadline.earliestOf given.deadline
  trace := parent.trace
  stop := if parent.stop.isSome then parent.stop else given.stop
  priority := given.priority

structure Inherits (parent c : Context) : Prop where
  trace : c.trace = parent.trace
  stop : parent.stop.isSome → c.stop = parent.stop
  priority : c.priority = parent.priority
  deadline : c.deadline.Within parent.deadline

/-- The context that plays the parent of a spawn: the ambient one, with what the argument sets
explicitly in its place. -/
def overridden (ambient given : Context) : Context where
  deadline := ambient.deadline
  trace := if given.trace.valid then given.trace else ambient.trace
  stop := if given.stop.isSome then given.stop else ambient.stop
  priority := if given.priority = 0 then ambient.priority else given.priority

lemma Deadline.earliestOf_within (d o : Deadline) : (d.earliestOf o).Within d := by
  obtain ⟨d⟩ := d
  obtain ⟨o⟩ := o
  intro t there
  cases there
  cases o with
  | none => exact ⟨t,rfl,Int.le_refl t⟩
  | some u => exact ⟨min t u,rfl,Int.min_le_left t u⟩

lemma spawned_inherits {ambient given : Context} (set : given.priority ≠ 0 ∨ ambient.priority = 0) :
    Inherits (overridden ambient given) (spawned ambient given) where
  trace := rfl
  stop _ := rfl
  priority := by
    simp only [spawned,overridden]
    split
    next unset =>
      rw [unset]
      exact (set.resolve_left (not_not.2 unset)).symm
    · rfl
  deadline := Deadline.earliestOf_within _ _

lemma awaited_inherits {parent given : Context} (same : given.priority = parent.priority) :
    Inherits parent (awaited parent given) where
  trace := rfl
  stop has := if_pos has
  priority := same
  deadline := Deadline.earliestOf_within _ _
end Context
namespace TaskContexts
inductive Hook
  | root
  | cont (parent : Nat)
  | group (op : Nat)
  | scope (k : Nat)
deriving DecidableEq

inductive Origin
  | spawn (ambient given : Context)
  | child (parent : Nat) (given : Context)
deriving DecidableEq

structure Frame (ε : Type) where
  engine : ε
  ctx : Context
  hook : Hook
  origin : Origin
deriving DecidableEq

inductive Wait
  | running
  | parked
  | waiting
  | finished
deriving DecidableEq

inductive GroupKind
  | all
  | any
  | timeout
deriving DecidableEq

/-- The awaiters of `combine.hpp`. For a timeout, `won` is `resumed_` and `wake` is `child_done_`. -/
structure Group where
  kind : GroupKind
  parent : Nat
  remaining : Nat
  won : Bool := false
  timedOut : Bool := false
  wake : Bool := false
  suspended : Bool := false
deriving DecidableEq

namespace Group
def childDone (g : Group) : Group × Bool := match g.kind with
  | .all => ({ g with remaining := g.remaining-1 },g.remaining-1 == 0)
  | .any => if g.won then (g,false) else ({ g with won := true },true)
  | .timeout => ({ g with wake := true },!g.timedOut)

def wakeParent (g : Group) : Group × Bool := match g.kind with
  | .all | .any => if g.suspended then (g,true) else ({ g with wake := true },false)
  | .timeout => if g.won then (g,false) else ({ g with won := true },g.suspended)
end Group

/-- A `TaskScope`: its event manager, its live children, and the task parked in `join`. -/
structure Nursery (ε : Type) where
  engine : ε
  live : Nat
  joiner : Option Nat
deriving DecidableEq

inductive Next
  | group (op : Nat)
  | joiner (t : Nat)
deriving DecidableEq

/-- `starting`: a combinator has children yet to start; `thunk`: a hook; `native`: code of no task. -/
inductive Pc
  | code
  | starting (op : Nat) (rest : List Context)
  | thunk (next : Option Next)
  | native
deriving DecidableEq

structure Activation (ε : Type) where
  task : Option Nat
  pc : Pc
  save : Option (Scope ε)
end TaskContexts

open TaskContexts

structure TaskContexts (ε : Type) where
  contexts : Contexts ε
  tasks : List (Frame ε)
  wait : Nat → Wait
  groups : List Group
  scopes : List (Nursery ε)
  stack : List (Activation ε)

namespace TaskContexts
variable {ε : Type}

def create (contexts : Contexts ε) : TaskContexts ε := ⟨contexts,[],fun _ => .finished,[],[],[]⟩

def current (s : TaskContexts ε) : Option Nat := match s.stack with
  | ⟨t,.code,_⟩::_ => t
  | _ => none

def calls (s : TaskContexts ε) : Bool := match s.stack with
  | [] => true
  | a::_ => a.pc = .code ∨ a.pc = .native

def reaches (s : TaskContexts ε) : Bool := match s.stack with
  | [] => true
  | ⟨_,.starting _ _,_⟩::_ => false
  | _::_ => true

variable [DecidableEq ε]
variable (s : TaskContexts ε)

def resumeUnderCtx (t : Nat) : Option (TaskContexts ε) := match s.tasks[t]? with
  | none => none
  | some f =>
    let (contexts,save) := s.contexts.withContext f.engine f.ctx
    some { s with
      contexts := contexts
      wait := update s.wait t .running
      stack := ⟨some t,.code,some save⟩::s.stack }

def leave : TaskContexts ε := match s.stack with
  | [] => s
  | a::rest => { s with
      contexts := a.save.elim s.contexts s.contexts.restore
      stack := rest }

def setTop (a : Activation ε) (rest : List (Activation ε)) : TaskContexts ε := { s with stack := a::rest }

def add (f : Frame ε) : TaskContexts ε := { s with tasks := s.tasks++[f] }

def setGroup (op : Nat) (g : Group) : TaskContexts ε := { s with groups := s.groups.set op g }

def setScope (k : Nat) (n : Nursery ε) : TaskContexts ε := { s with scopes := s.scopes.set k n }

def setWait (t : Nat) (w : Wait) : TaskContexts ε := { s with wait := update s.wait t w }

def spawn (s : TaskContexts ε) (e : ε) (given : Context) (hook : Hook) : Option (TaskContexts ε) :=
  let ambient := s.contexts.ambient
  (s.add ⟨e,.spawned ambient given,hook,.spawn ambient given⟩).resumeUnderCtx s.tasks.length

def childOf (t : Nat) (f : Frame ε) (given : Context) (hook : Hook) : Frame ε :=
  ⟨f.engine,.awaited f.ctx given,hook,.child t given⟩

def combine (kind : GroupKind) (t : Nat) (given : List Context)
    (save : Option (Scope ε)) (rest : List (Activation ε)) : TaskContexts ε :=
  { s with
    groups := s.groups++[{ kind := kind, parent := t, remaining := given.length : Group }]
    stack := ⟨some t,.starting s.groups.length given,save⟩::rest }

def startNext (t op : Nat) (given : List Context)
    (save : Option (Scope ε)) (rest : List (Activation ε)) : Option (TaskContexts ε) :=
  match given with
  | c::given =>
    match s.tasks[t]? with
    | none => none
    | some f =>
      ((s.add (childOf t f c (.group op))).setTop ⟨some t,.starting op given,save⟩ rest).resumeUnderCtx s.tasks.length
  | [] =>
    match s.groups[op]? with
    | none => none
    | some g =>
      if g.wake then some (s.setTop ⟨some t,.code,save⟩ rest)
      else some ((s.setGroup op { g with suspended := true }).setWait t .waiting).leave

def runHook (next : Option Next) (save : Option (Scope ε)) (rest : List (Activation ε)) : Option (TaskContexts ε) :=
  match next with
  | none => some s.leave
  | some (.joiner t) => (s.setTop ⟨none,.thunk none,save⟩ rest).resumeUnderCtx t
  | some (.group op) =>
    match s.groups[op]? with
    | none => none
    | some g =>
      let (g',resumes) := g.wakeParent
      let s := (s.setGroup op g').setTop ⟨none,.thunk none,save⟩ rest
      if resumes then s.resumeUnderCtx g.parent else some s

def finalSuspend (t : Nat) (save : Option (Scope ε)) (rest : List (Activation ε)) : Option (TaskContexts ε) :=
  match s.tasks[t]? with
  | none => none
  | some f =>
    let s := s.setWait t .finished
    match f.hook with
    | .root => some s.leave
    | .cont p => some ((s.setWait p .running).setTop ⟨some p,.code,save⟩ rest)
    | .group op =>
      match s.groups[op]? with
      | none => none
      | some g =>
        let (g',wakes) := g.childDone
        some ((s.setGroup op g').setTop ⟨none,.thunk (if wakes then some (.group op) else none),save⟩ rest)
    | .scope k =>
      match s.scopes[k]? with
      | none => none
      | some n =>
        let last := n.live-1 == 0
        some ((s.setScope k ⟨n.engine,n.live-1,if last then none else n.joiner⟩).setTop
          ⟨none,.thunk (if last then n.joiner.map .joiner else none),save⟩ rest)

/-- What code may do. `dispatch` runs an item under its context, `resume` and `stopTimeout` end what is awaited, and
`proceed` lets a native call go on. -/
inductive Move (ε : Type)
  | dispatch (e : ε) (c : Context)
  | openScope (e : ε)
  | spawn (e : ε) (given : Context)
  | scopeSpawn (k : Nat) (given : Context)
  | coAwait (given : Context)
  | whenAll (given : List Context)
  | whenAny (given : List Context)
  | withTimeout (stopped : Bool) (given : Context)
  | join (k : Nat)
  | park
  | resume (t : Nat)
  | stopTimeout (op : Nat) (expired : Bool)
  | proceed
  | finish

def step : Move ε → Option (TaskContexts ε)
  | .dispatch e c =>
    match s.stack with
    | [] =>
      let (contexts,save) := s.contexts.withContext e c
      some { s with contexts := contexts, stack := [⟨none,.native,some save⟩] }
    | _::_ => none
  | .openScope e => if s.calls then some { s with scopes := s.scopes++[⟨e,0,none⟩] } else none
  | .spawn e given => if s.calls then s.spawn e given .root else none
  | .scopeSpawn k given =>
    match s.scopes[k]? with
    | none => none
    | some n =>
      if s.calls then
        (s.setScope k { n with live := n.live+1 }).spawn n.engine given (.scope k)
      else none
  | .coAwait given =>
    match s.stack with
    | ⟨some t,.code,save⟩::rest =>
      match s.tasks[t]? with
      | none => none
      | some f =>
        some (((s.add (childOf t f given (.cont t))).setWait t .waiting).setTop ⟨some s.tasks.length,.code,save⟩ rest)
    | _ => none
  | .whenAll given =>
    match s.stack with
    | ⟨some t,.code,save⟩::rest => if given.isEmpty then some s else some (s.combine .all t given save rest)
    | _ => none
  | .whenAny given =>
    match s.stack with
    | ⟨some t,.code,save⟩::rest => some (s.combine .any t given save rest)
    | _ => none
  | .withTimeout stopped given =>
    match s.stack with
    | ⟨some t,.code,save⟩::rest => if stopped then some s else some (s.combine .timeout t [given] save rest)
    | _ => none
  | .join k =>
    match s.stack,s.scopes[k]? with
    | ⟨some t,.code,_⟩::_,some n =>
      if n.live = 0 then some s
      else some ((s.setScope k { n with joiner := some t }).setWait t .waiting).leave
    | _,_ => none
  | .park =>
    match s.stack with
    | ⟨some t,.code,_⟩::_ => some (s.setWait t .parked).leave
    | _ => none
  | .resume t => if s.reaches ∧ s.wait t = .parked then s.resumeUnderCtx t else none
  | .stopTimeout op expired =>
    match s.groups[op]? with
    | none => none
    | some g =>
      if s.reaches ∧ g.kind = .timeout then
        some ((s.setGroup op { g with timedOut := g.timedOut || expired }).setTop
          ⟨none,.thunk (some (.group op)),none⟩ s.stack)
      else none
  | .proceed =>
    match s.stack with
    | ⟨some t,.starting op given,save⟩::rest => s.startNext t op given save rest
    | ⟨_,.thunk next,save⟩::rest => s.runHook next save rest
    | ⟨_,.native,_⟩::_ => some s.leave
    | _ => none
  | .finish =>
    match s.stack with
    | ⟨some t,.code,save⟩::rest => s.finalSuspend t save rest
    | _ => none
end TaskContexts
end AffiniX
