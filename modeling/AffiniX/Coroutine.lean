import AffiniX.Transition

/-! Tasks and their promises. `co_await` of a task links two frames but installs no hook. -/
namespace AffiniX
open Transition List

/-- `PromiseBase`, as far as stop requests go. `κ` is what a hook can be called on. -/
structure Promise (κ : Type) where
  stopped : Bool := false
  cancel : Option κ := none
deriving DecidableEq

namespace Promise
variable {κ : Type}

def requestStop (_ : Promise κ) : Promise κ := ⟨true,none⟩

def setCancel (p : Promise κ) (hook : κ) : Promise κ := { p with cancel := some hook }

def clearCancel (p : Promise κ) : Promise κ := { p with cancel := none }
end Promise

/-- The awaiters of `ops.hpp` and `conn.hpp` that a stop request interrupts. -/
inductive AwaitOp
  | sleep
  | recv
  | send
deriving DecidableEq

inductive AwaitResult
  | value
  | cancelled
  | closed
deriving DecidableEq

/-- What an awaiter resolves to when it is stopped: `SendOp` has no error to return. -/
def AwaitOp.stopResult : AwaitOp → AwaitResult
  | .sleep | .recv => .cancelled
  | .send => .closed

inductive CoWait
  | running
  | task
  | op (o : AwaitOp)
deriving DecidableEq

/-- A frame of a coroutine. `token` is the stop token of its context. -/
structure CoTask where
  promise : Promise AwaitOp
  token : Option Nat
  wait : CoWait
deriving DecidableEq

/-- Tasks linked by `co_await`, the innermost first. `tokens`: sources asked to stop; `results`: what awaiters resolved
to, the last first. -/
structure TaskChain where
  tokens : Nat → Bool
  tasks : List CoTask
  results : List (AwaitOp × AwaitResult)

namespace TaskChain
def create : TaskChain := ⟨fun _ => false,[],[]⟩

def stopRequested (s : TaskChain) (t : CoTask) : Bool := t.promise.stopped || t.token.any s.tokens

def awaitTask (parent child : CoTask) : CoTask :=
  { child with
    token := parent.token <|> child.token
    promise := { child.promise with stopped := child.promise.stopped || parent.promise.stopped } }

/-- The task goes on with what its awaiter resolved to; `await_resume` clears the hook. -/
def resumeWith (t : CoTask) : CoTask := { t with wait := .running, promise := t.promise.clearCancel }

/-- `request_stop` on the promise of a task: the hook, if there is one, resumes that task. -/
def stopTask (t : CoTask) : CoTask × Option AwaitOp := match t.promise.cancel with
  | none => ({ t with promise := t.promise.requestStop },none)
  | some o => (resumeWith { t with promise := t.promise.requestStop },some o)

/-- A stop request on the `i`-th task of the chain, counted from the innermost. -/
def requestStop (s : TaskChain) (i : Nat) : TaskChain := match s.tasks[i]? with
  | none => s
  | some t => { s with
      tasks := s.tasks.set i (stopTask t).1
      results := (stopTask t).2.elim s.results fun o => (o,o.stopResult)::s.results }

/-- `await` has what `await_ready` finds; `complete` is what the innermost task waits for, or the end of its connection.
-/
inductive Move
  | spawn (stopped : Bool) (token : Option Nat)
  | coAwait (stopped : Bool) (token : Option Nat)
  | await (o : AwaitOp) (ready : Option AwaitResult)
  | complete (r : AwaitResult)
  | finish
  | stopToken (n : Nat)
  | requestStop (i : Nat)

def step (s : TaskChain) : Move → Option TaskChain
  | .spawn stopped token =>
    match s.tasks with
    | [] => some { s with tasks := [⟨{ stopped := stopped },token,.running⟩] }
    | _::_ => none
  | .coAwait stopped token =>
    match s.tasks with
    | ⟨p,tk,.running⟩::outer => some { s with
        tasks := awaitTask ⟨p,tk,.running⟩ ⟨{ stopped := stopped },token,.running⟩::⟨p,tk,.task⟩::outer }
    | _ => none
  | .await o ready =>
    match s.tasks with
    | ⟨p,tk,.running⟩::outer =>
      match o,ready with
      | .sleep,some _ => none
      | _,some r => some { s with results := (o,r)::s.results }
      | _,none =>
        if s.stopRequested ⟨p,tk,.running⟩ then some { s with results := (o,o.stopResult)::s.results }
        else some { s with tasks := ⟨p.setCancel o,tk,.op o⟩::outer }
    | _ => none
  | .complete r =>
    match s.tasks with
    | ⟨p,tk,.op o⟩::outer => some { s with tasks := resumeWith ⟨p,tk,.op o⟩::outer, results := (o,r)::s.results }
    | _ => none
  | .finish =>
    match s.tasks with
    | ⟨_,_,.running⟩::⟨p,tk,_⟩::outer => some { s with tasks := ⟨p,tk,.running⟩::outer }
    | [⟨_,_,.running⟩] => some { s with tasks := [] }
    | _ => none
  | .stopToken n => some { s with tokens := Function.update s.tokens n true }
  | .requestStop i => some (s.requestStop i)

structure Hooked (tasks : List CoTask) : Prop where
  outer : ∀ t ∈ tasks.tail, t.wait = .task ∧ t.promise.cancel = none
  inner : ∀ t ∈ tasks.head?, t.wait = .running ∧ t.promise.cancel = none ∨
    ∃ o, t.wait = .op o ∧ t.promise.cancel = some o

lemma stopTask_of_unhooked {t : CoTask} (unhooked : t.promise.cancel = none) :
    stopTask t = ({ t with promise := t.promise.requestStop },none) := by
  unfold stopTask
  rw [unhooked]

lemma stopTask_of_hooked {t : CoTask} {o : AwaitOp} (hooked : t.promise.cancel = some o) :
    stopTask t = (resumeWith { t with promise := t.promise.requestStop },some o) := by
  unfold stopTask
  rw [hooked]

lemma Hooked.requestStop {s : TaskChain} (hooked : Hooked s.tasks) (i : Nat) : Hooked (s.requestStop i).tasks := by
  unfold TaskChain.requestStop
  split
  · exact hooked
  next t there =>
  cases tasks : s.tasks with
  | nil =>
    rw [tasks] at there
    cases there
  | cons =>
    rw [tasks] at hooked there
    cases i with
    | zero =>
      cases there
      refine ⟨hooked.outer,?_⟩
      rintro u ⟨⟩
      rcases hooked.inner t rfl with ⟨running,unhooked⟩ | ⟨o,_,hook⟩
      · rw [stopTask_of_unhooked unhooked]
        exact .inl ⟨running,rfl⟩
      rw [stopTask_of_hooked hook]
      exact .inl ⟨rfl,rfl⟩
    | succ =>
      refine ⟨?_,hooked.inner⟩
      intro u member
      rcases mem_or_eq_of_mem_set member with old | rfl
      · exact hooked.outer u old
      have before := hooked.outer t (mem_of_getElem? there)
      rw [stopTask_of_unhooked before.2]
      exact ⟨before.1,rfl⟩

lemma step_hooked {s t : TaskChain} {m : Move} (hooked : Hooked s.tasks) (taken : s.step m = some t) :
    Hooked t.tasks := by
  cases m with
  | spawn =>
    rw [step] at taken
    split at taken
    · cases taken
      refine ⟨nofun,?_⟩
      rintro u ⟨⟩
      exact .inl ⟨rfl,rfl⟩
    · cases taken
  | coAwait =>
    rw [step] at taken
    split at taken
    next tasks =>
      cases taken
      rw [tasks] at hooked
      constructor
      · intro u member
        rcases mem_cons.1 member with rfl | old
        · rcases hooked.inner _ rfl with ⟨_,unhooked⟩ | ⟨o,parked,_⟩
          · exact ⟨rfl,unhooked⟩
          · cases parked
        · exact hooked.outer u old
      rintro u ⟨⟩
      exact .inl ⟨rfl,rfl⟩
    · cases taken
  | await o =>
    rw [step] at taken
    split at taken
    next tasks =>
      split at taken
      · cases taken
      · cases taken
        exact hooked
      split at taken
      · cases taken
        exact hooked
      cases taken
      rw [tasks] at hooked
      refine ⟨hooked.outer,?_⟩
      rintro u ⟨⟩
      exact .inr ⟨o,rfl,rfl⟩
    · cases taken
  | complete =>
    rw [step] at taken
    split at taken
    next tasks =>
      cases taken
      rw [tasks] at hooked
      refine ⟨hooked.outer,?_⟩
      rintro u ⟨⟩
      exact .inl ⟨rfl,rfl⟩
    · cases taken
  | finish =>
    rw [step] at taken
    split at taken
    next tasks =>
      cases taken
      rw [tasks] at hooked
      refine ⟨fun u member => hooked.outer u (mem_cons_of_mem _ member),?_⟩
      rintro u ⟨⟩
      exact .inl ⟨rfl,(hooked.outer _ mem_cons_self).2⟩
    · cases taken
      exact ⟨nofun,nofun⟩
    · cases taken
  | stopToken =>
    cases taken
    exact hooked
  | requestStop i =>
    cases taken
    exact hooked.requestStop i

section
variable {s : TaskChain} {moves : List Move} {inner : CoTask} {outer : List CoTask} {o : AwaitOp}

lemma reached_hooked (run : Exec (Via step) create moves s) : Hooked s.tasks :=
  run.invariant (fun s => Hooked s.tasks) (fun _ _ _ taken hooked => step_hooked hooked taken) ⟨nofun,nofun⟩

lemma requestStop_outer (hooked : Hooked s.tasks) (tasks : s.tasks = inner::outer) (i : Nat) :
    ∃ outer', s.requestStop (i+1) = { s with tasks := inner::outer' } := by
  unfold requestStop
  split
  · exact ⟨outer,by rw [← tasks]⟩
  next t there =>
  rw [tasks] at hooked there ⊢
  have unhooked := (hooked.outer t (mem_of_getElem? there)).2
  rw [stopTask_of_unhooked unhooked]
  exact ⟨_,rfl⟩

lemma requestStop_inner (hooked : Hooked s.tasks) (tasks : s.tasks = inner::outer) (parked : inner.wait = .op o) :
    (s.requestStop 0).tasks = resumeWith { inner with promise := inner.promise.requestStop }::outer ∧
      (s.requestStop 0).results = (o,o.stopResult)::s.results := by
  have hook : inner.promise.cancel = some o := by
    rw [tasks] at hooked
    rcases hooked.inner inner rfl with ⟨running,_⟩ | ⟨o',parked',hook⟩
    · cases running.symm.trans parked
    · rw [hook,← CoWait.op.inj (parked'.symm.trans parked)]
  have after : s.requestStop 0 = { s with
      tasks := (stopTask inner).1::outer
      results := (stopTask inner).2.elim s.results fun o => (o,o.stopResult)::s.results } := by
    unfold requestStop
    rw [tasks]
    rfl
  rw [after,stopTask_of_hooked hook]
  exact ⟨rfl,rfl⟩

def ResumedBy (s t : TaskChain) (o : AwaitOp) : Prop :=
  t.results = (o,o.stopResult)::s.results ∧ ∀ u ∈ t.tasks.head?, u.wait = .running

lemma resumedBy_iff (run : Exec (Via step) create moves s) (tasks : s.tasks = inner::outer)
    (parked : inner.wait = .op o) (i : Nat) : ResumedBy s (s.requestStop i) o ↔ i = 0 := by
  have hooked := reached_hooked run
  cases i with
  | zero =>
    obtain ⟨after,results⟩ := requestStop_inner hooked tasks parked
    refine iff_of_true ⟨results,?_⟩ rfl
    rw [after]
    rintro u ⟨⟩
    rfl
  | succ i =>
    obtain ⟨_,after⟩ := requestStop_outer hooked tasks i
    rw [after]
    refine iff_of_false (fun resumed => ?_) nofun
    cases parked.symm.trans (resumed.2 inner rfl)

/-- A stop request on the outermost task of a chain resumes the awaiter that its innermost task is parked in, as
cancelled or closed, exactly when the chain is of one task. -/
theorem stop_reaches_innermost (run : Exec (Via step) create moves s)
    (tasks : s.tasks = inner::outer) (parked : inner.wait = .op o) :
    (ResumedBy s (s.requestStop (s.tasks.length-1)) o ↔ s.tasks.length = 1) ∧
      (o.stopResult = .cancelled ∨ o.stopResult = .closed) := by
  constructor
  · rw [resumedBy_iff run tasks parked,tasks]
    simp
  cases o with
  | sleep | recv => exact .inl rfl
  | send => exact .inr rfl

end

theorem sleeper_stopped : ∃ s, Exec (Via step) create
    [.spawn false none,.await .sleep none] s ∧ s.results = [] ∧
      ResumedBy s (s.requestStop (s.tasks.length-1)) .sleep :=
  Exec.run_of_drive (P := fun s => s.results = [] ∧ s.tasks = [⟨{ cancel := some .sleep },none,.op .sleep⟩])
    (by decide +kernel) fun _ run ⟨fresh,tasks⟩ =>
      ⟨fresh,(stop_reaches_innermost run tasks rfl).1.2 (by rw [tasks]; rfl)⟩

/-- A root that awaits a task that sleeps is not: its flag is set, and the sleep goes on. -/
theorem nested_sleeper_missed : ∃ s, Exec (Via step) create
    [.spawn false none,.coAwait false none,.await .sleep none] s ∧ s.tasks.length = 2 ∧
      (s.requestStop 1).results = [] ∧ (s.requestStop 1).tasks.map (fun t => (t.promise.stopped,t.wait)) =
        [(false,.op .sleep),(true,.task)] :=
  Exec.run_of_drive (by decide +kernel) fun _ _ => id

end TaskChain
end AffiniX
