import AffiniX.GroupAwait

/-! `with_timeout` resumes the coroutine once. -/
namespace AffiniX
open Transition
namespace TimeoutAwait
/-- The call stack. `suspend`: `await_suspend` starts the child; `timer`, `cancel`, `dtor`: `timer_thunk`,
`cancel_thunk` or the destructor is in `request_stop`. -/
inductive Frame
  | suspend
  | child
  | timer
  | cancel
  | dtor
  | parent
deriving DecidableEq
end TimeoutAwait

/-- The awaiter, its child and the promise of the coroutine. `timer`: it is in the wheel; the others are as in
`GroupAwait`. -/
structure TimeoutAwait where
  child : GroupChild
  parent : Promise Unit
  awaited : Bool
  armed : Bool
  timer : Bool
  timedOut : Bool
  childDone : Bool
  suspended : Bool
  resumed : Bool
  dead : Bool
  alive : Bool
  stack : List TimeoutAwait.Frame
  resumes : Nat
  fault : Bool

namespace TimeoutAwait
def create (stopped : Bool) : TimeoutAwait where
  child := {}
  parent := { stopped := stopped }
  awaited := false
  armed := false
  timer := false
  timedOut := false
  childDone := false
  suspended := false
  resumed := false
  dead := false
  alive := true
  stack := [.parent]
  resumes := 0
  fault := false

section
variable (s : TimeoutAwait)
section
variable (rest : List Frame)

def goOn : TimeoutAwait := { s with resumes := s.resumes+1, parent := s.parent.clearCancel, stack := .parent::rest }

def resumeParent : TimeoutAwait := if s.resumed ∨ s.dead then { s with stack := rest }
  else if s.suspended then goOn { s with resumed := true } rest
  else { s with resumed := true, stack := rest }

def stopChild (stack : List Frame) : TimeoutAwait := match s.child.promise.cancel with
  | none => { s with child := { s.child with promise := s.child.promise.requestStop }, stack := stack }
  | some _ => { s with
      child := { status := .running, promise := s.child.promise.requestStop }
      stack := .child::stack }

def disarm : TimeoutAwait := if s.armed then { s with armed := false, timer := false } else s

def childThunk : TimeoutAwait := let s := { s with childDone := true }
  if s.timedOut then { s with stack := rest } else s.disarm.resumeParent rest

def timerThunk : TimeoutAwait := stopChild { s with armed := false, timer := false, timedOut := true } (.timer::rest)

def cancelThunk : TimeoutAwait := s.disarm.stopChild (.cancel::rest)

/-- The destructor cancels the timer and leaves `armed_` as it is. -/
def destroy : TimeoutAwait := let s := { s with dead := true, timer := if s.armed then false else s.timer }
  if s.childDone then { s with alive := false, stack := rest } else s.stopChild (.dtor::rest)

def use (then' : TimeoutAwait) : TimeoutAwait := if s.alive then then' else { s with fault := true, stack := rest }
end

/-- The events. `token` says that the stop token of the coroutine's context is stopped. -/
inductive Move
  | await (token : Bool)
  | park (cancellable : Bool)
  | finish
  | wake
  | expire
  | stopParent
  | destroy
  | leave
  | resume

def appRuns : Bool := match s.stack with
  | [] | .child::_ | .parent::_ => true
  | .suspend::_ | .timer::_ | .cancel::_ | .dtor::_ => false

def step : Move → Option TimeoutAwait
  | .await token =>
    if s.awaited ∨ s.stack ≠ [.parent] then none
    else if s.parent.stopped || token then some (goOn { s with awaited := true } [])
    else some { s with
      awaited := true
      parent := s.parent.setCancel ()
      armed := true
      timer := true
      child := { s.child with status := .running }
      stack := [.child,.suspend] }
  | .park cancellable =>
    match s.stack with
    | .child::rest => some (s.use rest { s with
        child := {
          status := .parked
          promise := if cancellable then s.child.promise.setCancel () else s.child.promise.clearCancel }
        stack := rest })
    | _ => none
  | .finish =>
    match s.stack with
    | .child::rest => some (s.use rest (childThunk { s with child := { s.child with status := .finished } } rest))
    | _ => none
  | .wake =>
    if s.appRuns ∧ s.alive ∧ s.child.status = .parked then
      some { s with
        child := { status := .running, promise := s.child.promise.clearCancel }
        stack := .child::s.stack }
    else none
  | .expire => if s.timer ∧ s.stack = [] then some (s.use [] (s.timerThunk [])) else none
  | .stopParent =>
    if s.appRuns ∧ (s.alive ∨ s.resumes ≠ 0) then
      match s.parent.cancel with
      | none => some { s with parent := s.parent.requestStop }
      | some _ => some (s.use s.stack (cancelThunk { s with parent := s.parent.requestStop } s.stack))
    else none
  | .destroy =>
    if s.awaited ∧ s.alive ∧ s.dead = false ∧ (s.stack = [] ∨ s.stack.head? = some .parent) then
      some (s.destroy s.stack)
    else none
  | .leave =>
    match s.stack with
    | .parent::rest => if s.awaited then some { s with stack := rest } else none
    | _ => none
  | .resume =>
    match s.stack with
    | .suspend::rest =>
      some (s.use rest (if s.childDone then s.goOn rest else { s with suspended := true, stack := rest }))
    | .timer::rest => some (s.use rest (s.resumeParent rest))
    | .cancel::rest => some (s.use rest (s.resumeParent rest))
    | .dtor::rest => some (s.use rest { s with alive := false, stack := rest })
    | _ => none
end

open CallStack List
section
def Frame.runs : Frame → Option Unit
  | .child => some ()
  | .suspend | .timer | .cancel | .dtor | .parent => none

def waiting (s : TimeoutAwait) : Bool := s.suspended && !s.resumed && !s.dead

def Over (waiting : Bool) (f : Frame) (rest : List Frame) : Prop := match f with
  | .parent | .timer | .suspend => rest = []
  | .dtor => ∀ g ∈ rest, g = .parent
  | .cancel => (waiting → rest = []) ∧ (.suspend ∈ rest → .child ∈ rest)
  | .child => True

def Settled (waiting : Bool) : List Frame → Prop
  | [] => True
  | f::rest => Over waiting f rest ∧ Settled waiting rest

def Fact (s : TimeoutAwait) (f : Frame) : Prop := match f with
  | .suspend => s.suspended = false ∧ s.resumes = 0 ∧ s.dead = false ∧ s.timedOut = false ∧
    (s.child.status = .running ∨ s.childDone ∨ s.resumed = false)
  | .timer => s.timedOut
  | .cancel => s.armed = false
  | .dtor => s.dead
  | .parent => s.awaited = false ∨ s.resumes = 1
  | .child => True
end

structure Core (s : TimeoutAwait) : Prop where
  hooked : s.child.promise.cancel ≠ none → s.child.status = .parked
  ended : s.childDone ↔ s.child.status = .finished
  running : Distinct Frame.runs s.stack fun _ => s.child.status = .running
  ran : s.child.status = .running → .child ∈ s.stack
  settled : Settled s.waiting s.stack
  facts : ∀ f ∈ s.stack, s.Fact f
  gone : s.alive = false → s.dead ∧ ∀ f ∈ s.stack, f = .parent
  idle : s.awaited = false → s = create s.parent.stopped
  armed : s.armed → s.dead = false → s.timer ∧ s.resumed = false ∧ s.resumes = 0 ∧ s.timedOut = false ∧
    s.childDone = false ∧ s.parent.cancel ≠ none ∧ s.parent.stopped = false
  timed : s.timer → s.armed ∧ s.dead = false
  hook : s.parent.cancel ≠ none → s.resumes = 0
  once : s.resumes ≤ 1 ∧ (s.waiting → s.resumes = 0)
  sound : s.fault = false

structure Told (s : TimeoutAwait) : Prop where
  parks : .suspend ∈ s.stack ∨ s.waiting
  goes : s.armed ∨ .timer ∈ s.stack ∨ .cancel ∈ s.stack ∨ .suspend ∈ s.stack ∧ (s.childDone ∨ s.resumed)

structure Inv (s : TimeoutAwait) : Prop extends Core s where
  pending : s.awaited → s.dead = false → s.resumes = 0 → Told s

variable {s t : TimeoutAwait} {f : Frame} {rest stack : List Frame} {w w' : Bool} {k : GroupChild}
section
lemma waiting_iff : s.waiting ↔ s.suspended ∧ s.resumed = false ∧ s.dead = false := by simp [waiting,and_assoc]

lemma Settled.mono (settled : Settled w stack) (less : w' → w) : Settled w' stack := by
  induction stack with
  | nil => trivial
  | cons f _ ih =>
    refine ⟨?_,ih settled.2⟩
    cases f with
    | cancel => exact ⟨fun waits => settled.1.1 (less waits),settled.1.2⟩
    | suspend | child | timer | dtor | parent => exact settled.1

section
variable (core : Core s)
include core

lemma Core.awaited (other : s.stack ≠ [.parent]) : s.awaited := by
  by_contra unawaited
  have fresh := core.idle (Bool.eq_false_iff.2 unawaited)
  exact other (congrArg TimeoutAwait.stack fresh)

lemma Core.alive (member : f ∈ s.stack) (other : f ≠ .parent) : s.alive := by
  by_contra dead
  exact other ((core.gone (Bool.eq_false_iff.2 dead)).2 f member)

lemma Core.restack (awaited : s.awaited) (running : Distinct Frame.runs stack fun _ => s.child.status = .running)
    (ran : s.child.status = .running → .child ∈ stack) (settled : Settled s.waiting stack)
    (facts : ∀ f ∈ stack, s.Fact f) (gone : s.alive = false → ∀ f ∈ stack, f = .parent) :
    Core { s with stack := stack } :=
  { core with
    running := running
    ran := ran
    settled := settled
    facts := facts
    gone dead := ⟨(core.gone dead).1,gone dead⟩
    idle unawaited := absurd (awaited.symm.trans unawaited) nofun }

lemma Core.pop (awaited : s.awaited) (top : s.stack = f::rest) (other : f ≠ .child) :
    Core { s with stack := rest } := by
  have below {g : Frame} (member : g ∈ rest) : g ∈ s.stack := top ▸ mem_cons_of_mem _ member
  refine core.restack awaited (top ▸ core.running).pop (fun running => ?_) (top ▸ core.settled).2
    (fun g member => core.facts g (below member)) fun dead g member => (core.gone dead).2 g (below member)
  have member := core.ran running
  rw [top] at member
  exact (mem_cons.1 member).resolve_left other.symm

lemma Core.push (awaited : s.awaited) (alive : s.alive) (other : f.runs = none)
    (above : Over s.waiting f s.stack) (fact : s.Fact f) : Core { s with stack := f::s.stack } := by
  refine core.restack awaited (core.running.pushOther other)
    (fun running => mem_cons_of_mem _ (core.ran running)) ⟨above,core.settled⟩ ?_
    fun dead => nomatch alive.symm.trans dead
  intro g member
  rcases mem_cons.1 member with rfl | old
  · exact fact
  · exact core.facts g old
end

lemma Told.push (told : Told { s with stack := rest }) : Told { s with stack := f::rest } where
  parks := told.parks.imp_left (mem_cons_of_mem _)
  goes := by
    rcases told.goes with armed | timer | cancel | ⟨starts,done⟩
    · exact .inl armed
    · exact .inr (.inl (mem_cons_of_mem _ timer))
    · exact .inr (.inr (.inl (mem_cons_of_mem _ cancel)))
    · exact .inr (.inr (.inr ⟨mem_cons_of_mem _ starts,done⟩))

lemma mem_below (member : f ∈ .child::rest) (other : f ≠ .child) : f ∈ rest := (mem_cons.1 member).resolve_left other

lemma Told.pop (told : Told { s with stack := .child::rest }) : Told { s with stack := rest } where
  parks := told.parks.imp_left fun member => mem_below member nofun
  goes := by
    rcases told.goes with armed | timer | cancel | ⟨starts,done⟩
    · exact .inl armed
    · exact .inr (.inl (mem_below timer nofun))
    · exact .inr (.inr (.inl (mem_below cancel nofun)))
    · exact .inr (.inr (.inr ⟨mem_below starts nofun,done⟩))
end
section
lemma Core.setChild (core : Core { s with stack := rest }) (awaited : s.awaited) (alive : s.alive)
    (hooked : k.promise.cancel ≠ none → k.status = .parked)
    (ended : k.status = .finished ↔ s.child.status = .finished)
    (running : Distinct Frame.runs stack fun _ => k.status = .running)
    (ran : k.status = .running → .child ∈ stack) (settled : Settled s.waiting stack)
    (facts : ∀ f ∈ stack, { s with child := k }.Fact f) : Core { s with child := k, stack := stack } :=
  { core with
    hooked := hooked
    ended := core.ended.trans ended.symm
    running := running
    ran := ran
    settled := settled
    facts := facts
    gone dead := nomatch alive.symm.trans dead
    idle unawaited := absurd (awaited.symm.trans unawaited) nofun }

lemma facts_of_child (facts : ∀ f ∈ stack, s.Fact f)
    (starts : .suspend ∈ stack → k.status = .running ∨ s.childDone ∨ s.resumed = false) :
    ∀ f ∈ stack, { s with child := k }.Fact f := by
  intro f member
  have fact := facts f member
  cases f with
  | suspend => exact ⟨fact.1,fact.2.1,fact.2.2.1,fact.2.2.2.1,starts member⟩
  | child | timer | cancel | dtor | parent => exact fact

lemma Core.runChild (core : Core { s with stack := stack }) (awaited : s.awaited) (alive : s.alive)
    (parked : s.child.status = .parked) (running : k.status = .running) (unhooked : k.promise.cancel = none) :
    Core { s with child := k, stack := .child::stack } := by
  have new : ∀ f ∈ stack, f.runs ≠ some () := fun f member runs =>
    nomatch parked.symm.trans (core.running.each f member () runs)
  refine core.setChild awaited alive (fun some' => absurd unhooked some') ?_ ?_
    (fun _ => mem_cons_self) ⟨trivial,core.settled⟩ fun f member => ?_
  · rw [running,parked]
    exact ⟨nofun,nofun⟩
  · exact (core.running.mono fun f member c runs _ => absurd runs (new f member)).push rfl running new
  rcases mem_cons.1 member with rfl | old
  · trivial
  · exact facts_of_child core.facts (fun _ => .inl running) f old

lemma stopChild_inv (core : Core { s with stack := stack }) (awaited : s.awaited) (alive : s.alive)
    (pending : s.dead = false → s.resumes = 0 → Told { s with stack := stack }) :
    Inv (s.stopChild stack) := by
  unfold stopChild
  cases hook : s.child.promise.cancel with
  | none =>
    have stopped : Core { s with
        child := { s.child with promise := s.child.promise.requestStop }, stack := stack } :=
      core.setChild awaited alive (fun some' => absurd rfl some') Iff.rfl core.running core.ran core.settled core.facts
    exact ⟨stopped,fun _ undead zero => ⟨(pending undead zero).1,(pending undead zero).2⟩⟩
  | some =>
    have parked := core.hooked (by rw [hook]; nofun)
    refine ⟨core.runChild awaited alive parked rfl rfl,fun _ undead zero => ?_⟩
    have told : Told { s with stack := .child::stack } := (pending undead zero).push
    exact ⟨told.1,told.2⟩
end
section
lemma goOn_inv (core : Core { s with stack := rest }) (awaited : s.awaited) (zero : s.resumes = 0)
    (idle : s.child.status ≠ .running) (busy : s.waiting = false) (unarmed : s.armed → s.dead) :
    Inv (s.goOn []) :=
  { core with
    running := Distinct.nil.pushOther rfl
    ran running := absurd running idle
    settled := ⟨rfl,trivial⟩
    facts f member := by
      cases mem_singleton.1 member
      exact .inr (congrArg (·+1) zero)
    gone dead := ⟨(core.gone dead).1,fun f member => mem_singleton.1 member⟩
    idle unawaited := nomatch awaited.symm.trans unawaited
    armed armed undead := nomatch undead.symm.trans (unarmed armed)
    hook some' := absurd rfl some'
    once := ⟨Nat.le_of_eq (congrArg (·+1) zero),fun waits => nomatch busy.symm.trans waits⟩
    pending _ _ none' := absurd none' (Nat.succ_ne_zero _) }

lemma Core.setResumed (core : Core s) (awaited : s.awaited) (unarmed : s.armed → s.dead)
    (starts : .suspend ∈ s.stack → s.child.status = .running ∨ s.childDone) : Core { s with resumed := true } :=
  { core with
    settled := core.settled.mono fun waits => absurd (waiting_iff.1 waits).2.1 nofun
    facts f member := by
      have fact := core.facts f member
      cases f with
      | suspend => exact ⟨fact.1,fact.2.1,fact.2.2.1,fact.2.2.2.1,(starts member).imp_right .inl⟩
      | child | timer | cancel | dtor | parent => exact fact
    idle unawaited := nomatch awaited.symm.trans unawaited
    armed armed undead := nomatch undead.symm.trans (unarmed armed)
    once := ⟨core.once.1,fun waits => absurd (waiting_iff.1 waits).2.1 nofun⟩ }

lemma resumeParent_inv (core : Core { s with stack := rest }) (awaited : s.awaited)
    (unarmed : s.armed → s.dead) (starts : .suspend ∈ rest → s.child.status = .running ∨ s.childDone)
    (last : s.waiting → rest = [])
    (parks : s.dead = false → s.resumes = 0 → .suspend ∈ rest ∨ s.waiting) : Inv (s.resumeParent rest) := by
  unfold resumeParent
  split
  next ended =>
    refine ⟨core,fun _ undead zero => ?_⟩
    have undead : s.dead = false := undead
    have resumed : s.resumed := ended.resolve_right (Bool.eq_false_iff.1 undead)
    have starting : .suspend ∈ rest := by
      refine (parks undead zero).resolve_right fun waits => ?_
      cases resumed.symm.trans (waiting_iff.1 waits).2.1
    exact ⟨.inl starting,.inr (.inr (.inr ⟨starting,.inr resumed⟩))⟩
  rename_i first
  have done := core.setResumed awaited unarmed starts
  split
  next suspended =>
    have waits : s.waiting := waiting_iff.2 ⟨suspended,Bool.eq_false_iff.2 fun resumed => first (.inl resumed),
      Bool.eq_false_iff.2 fun dead => first (.inr dead)⟩
    have empty := last waits
    subst empty
    refine goOn_inv done awaited (core.once.2 waits) (fun running => ?_) ?_ unarmed
    · exact nomatch core.ran running
    · simp [waiting]
  next unsuspended =>
  refine ⟨done,fun _ undead zero => ?_⟩
  have starting : .suspend ∈ rest :=
    (parks undead zero).resolve_right fun waits => unsuspended (waiting_iff.1 waits).1
  exact ⟨.inl starting,.inr (.inr (.inr ⟨starting,.inr rfl⟩))⟩
end

/-- What the child may not do: end inside `cancel_thunk`, park after the coroutine was stopped while it started, or stop
the coroutine. -/
def Spared (s : TimeoutAwait) (m : Move) : Prop := match m with
  | .finish => s.waiting → s.timedOut = false → .cancel ∉ s.stack
  | .park _ => .suspend ∈ s.stack → s.resumed = false
  | .stopParent => s.waiting → s.parent.cancel ≠ none → .child ∉ s.stack
  | .await _ | .wake | .expire | .destroy | .leave | .resume => True

lemma create_inv (stopped : Bool) : Inv (create stopped) where
  hooked := nofun
  ended := ⟨nofun,nofun⟩
  running := Distinct.nil.pushOther rfl
  ran := nofun
  settled := ⟨rfl,trivial⟩
  facts f member := by
    cases mem_singleton.1 member
    exact .inl rfl
  gone := nofun
  idle _ := rfl
  armed := nofun
  timed := nofun
  hook := nofun
  once := ⟨Nat.zero_le 1,nofun⟩
  sound := rfl
  pending := nofun

lemma park_inv (cancellable : Bool) (inv : Inv s) (top : s.stack = .child::rest)
    (unstopped : .suspend ∈ s.stack → s.resumed = false) :
    Inv { s with
      child := {
        status := .parked
        promise := if cancellable then s.child.promise.setCancel () else s.child.promise.clearCancel }
      stack := rest } := by
  have awaited := inv.awaited (by rw [top]; nofun)
  have alive : s.alive := inv.alive (f := .child) (top ▸ mem_cons_self) nofun
  have running := inv.running
  rw [top] at running
  have ran : s.child.status = .running := running.each .child mem_cons_self () rfl
  have out := running.not_below rfl
  have below {g : Frame} (member : g ∈ rest) : g ∈ s.stack := top ▸ mem_cons_of_mem _ member
  refine ⟨inv.toCore.setChild awaited alive (fun _ => rfl) ?_ ?_ nofun (top ▸ inv.settled).2 ?_,
    fun _ undead zero => ?_⟩
  · rw [ran]
    exact ⟨nofun,nofun⟩
  · exact running.pop.mono fun f member c runs _ => absurd runs (out f member)
  · exact facts_of_child (fun f member => inv.facts f (below member))
      fun starts => .inr (.inr (unstopped (below starts)))
  have told : Told { s with stack := .child::rest } := top ▸ inv.pending awaited undead zero
  exact ⟨told.pop.1,told.pop.2⟩

lemma disarm_eq : s.disarm = { s with armed := false, timer := s.timer && !s.armed } := by
  unfold disarm
  cases s
  split <;> simp_all

lemma Core.disarm (core : Core s) (awaited : s.awaited) :
    Core { s with armed := false, timer := s.timer && !s.armed } :=
  { core with
    facts f member := by
      have fact := core.facts f member
      cases f with
      | cancel => rfl
      | suspend | child | timer | dtor | parent => exact fact
    idle unawaited := nomatch awaited.symm.trans unawaited
    armed := nofun
    timed left := by
      obtain ⟨timer,unarmed⟩ := Bool.and_eq_true_iff.1 left
      rw [(core.timed timer).1] at unarmed
      cases unarmed }

lemma Core.finish (core : Core s) (awaited : s.awaited) (top : s.stack = .child::rest)
    (unarmed : s.armed → s.dead) :
    Core { s with child := { s.child with status := .finished }, childDone := true, stack := rest } := by
  have alive : s.alive := core.alive (f := .child) (top ▸ mem_cons_self) nofun
  have running := core.running
  rw [top] at running
  have ran : s.child.status = .running := running.each .child mem_cons_self () rfl
  have out := running.not_below rfl
  exact {
    hooked := fun some' => nomatch ran.symm.trans (core.hooked some')
    ended := iff_of_true rfl rfl
    running := running.pop.mono fun f member c runs _ => absurd runs (out f member)
    ran := nofun
    settled := (top ▸ core.settled).2
    facts := fun f member => by
      have fact := core.facts f (top ▸ mem_cons_of_mem _ member)
      cases f with
      | suspend => exact ⟨fact.1,fact.2.1,fact.2.2.1,fact.2.2.2.1,.inr (.inl rfl)⟩
      | child | timer | cancel | dtor | parent => exact fact
    gone := fun dead => nomatch alive.symm.trans dead
    idle := fun unawaited => nomatch awaited.symm.trans unawaited
    armed := fun armed undead => nomatch undead.symm.trans (unarmed armed)
    timed := core.timed
    hook := core.hook
    once := core.once
    sound := core.sound }

section
variable (inv : Inv s)
include inv

lemma below_of_waiting (top : s.stack = .child::rest) (waits : s.waiting)
    (intime : s.timedOut = false) (spared : .cancel ∉ s.stack) : rest = [] := by
  have awaited := inv.awaited (by rw [top]; nofun)
  have running := inv.running
  rw [top] at running
  obtain ⟨suspended,_,undead⟩ := waiting_iff.1 waits
  refine eq_nil_iff_forall_not_mem.2 fun f member => ?_
  have here : f ∈ s.stack := top ▸ mem_cons_of_mem _ member
  have fact := inv.facts f here
  cases f with
  | suspend => cases fact.1.symm.trans suspended
  | child => exact running.not_below rfl _ member rfl
  | timer => cases intime.symm.trans fact
  | cancel => exact spared here
  | dtor => cases undead.symm.trans fact
  | parent =>
    rcases fact with unawaited | one
    · cases awaited.symm.trans unawaited
    · cases (inv.once.2 waits).symm.trans one

lemma finish_inv (top : s.stack = .child::rest) (spared : s.waiting → s.timedOut = false → .cancel ∉ s.stack) :
    Inv (childThunk { s with child := { s.child with status := .finished } } rest) := by
  have awaited := inv.awaited (by rw [top]; nofun)
  unfold childThunk
  dsimp only
  split
  · -- `timer_thunk` made the child end, and tells the coroutine itself
    rename_i late
    have unarmed : s.armed → s.dead := fun armed => by
      by_contra undead
      cases late.symm.trans (inv.armed armed (Bool.eq_false_iff.2 undead)).2.2.2.1
    refine ⟨inv.toCore.finish awaited top unarmed,fun _ undead zero => ?_⟩
    have told : Told { s with stack := .child::rest } := top ▸ inv.pending awaited undead zero
    refine ⟨told.pop.1,told.pop.2.imp_right (Or.imp_right (Or.imp_right ?_))⟩
    exact fun starts => ⟨starts.1,.inl rfl⟩
  next intime =>
  have intime : s.timedOut = false := Bool.eq_false_iff.2 intime
  rw [disarm_eq]
  refine resumeParent_inv ((inv.toCore.disarm awaited).finish awaited top nofun) awaited nofun
    (fun _ => .inr rfl) (fun waits => below_of_waiting inv top waits intime (spared waits intime))
    fun undead zero => ?_
  have told : Told { s with stack := .child::rest } := top ▸ inv.pending awaited undead zero
  exact told.pop.1

lemma ready_inv (unawaited : s.awaited = false) : Inv (goOn { s with awaited := true } []) := by
  rw [inv.idle unawaited]
  have core : Core { create s.parent.stopped with awaited := true, stack := [] } :=
    ⟨nofun,⟨nofun,nofun⟩,.nil,nofun,trivial,nofun,nofun,nofun,nofun,nofun,nofun,⟨Nat.zero_le 1,nofun⟩,rfl⟩
  exact goOn_inv core rfl rfl nofun rfl nofun

lemma await_inv (unawaited : s.awaited = false) (unstopped : s.parent.stopped = false) :
    Inv { s with
      awaited := true
      parent := s.parent.setCancel ()
      armed := true
      timer := true
      child := { s.child with status := .running }
      stack := [.child,.suspend] } := by
  rw [inv.idle unawaited,unstopped]
  exact {
    hooked := nofun
    ended := ⟨nofun,nofun⟩
    running := (Distinct.nil.pushOther rfl).push rfl rfl fun f member => by
      cases mem_singleton.1 member
      nofun
    ran := fun _ => mem_cons_self
    settled := ⟨trivial,rfl,trivial⟩
    facts := fun f member => by
      rcases mem_cons.1 member with rfl | below
      · trivial
      cases mem_singleton.1 below
      exact ⟨rfl,rfl,rfl,rfl,.inl rfl⟩
    gone := nofun
    idle := nofun
    armed := fun _ _ => ⟨rfl,rfl,rfl,rfl,rfl,nofun,rfl⟩
    timed := fun _ => ⟨rfl,rfl⟩
    hook := fun _ => rfl
    once := ⟨Nat.zero_le 1,fun _ => rfl⟩
    sound := rfl
    pending := fun _ _ _ => ⟨.inl (mem_cons_of_mem _ mem_cons_self),.inl rfl⟩ }

lemma wake_inv (alive : s.alive) (parked : s.child.status = .parked) :
    Inv { s with
      child := { status := .running, promise := s.child.promise.clearCancel }
      stack := .child::s.stack } := by
  have awaited : s.awaited := by
    by_contra unawaited
    have fresh := inv.idle (Bool.eq_false_iff.2 unawaited)
    rw [fresh] at parked
    cases parked
  refine ⟨inv.toCore.runChild awaited alive parked rfl rfl,fun _ undead zero => ?_⟩
  have told : Told { s with stack := .child::s.stack } := (inv.pending awaited undead zero).push
  exact ⟨told.1,told.2⟩

lemma timerThunk_inv (timer : s.timer) (empty : s.stack = []) : Inv (s.timerThunk []) := by
  obtain ⟨armed,undead⟩ := inv.timed timer
  have awaited := inv.awaited (by rw [empty]; nofun)
  have alive : s.alive := by
    by_contra dead
    cases undead.symm.trans (inv.gone (Bool.eq_false_iff.2 dead)).1
  have fired : Core { s with armed := false, timer := false, timedOut := true, stack := [.timer] } := {
    hooked := inv.hooked
    ended := inv.ended
    running := Distinct.nil.pushOther rfl
    ran := fun running => by
      have member := inv.ran running
      rw [empty] at member
      cases member
    settled := ⟨rfl,trivial⟩
    facts := fun f member => by
      cases mem_singleton.1 member
      rfl
    gone := fun dead => nomatch alive.symm.trans dead
    idle := fun unawaited => nomatch awaited.symm.trans unawaited
    armed := nofun
    timed := nofun
    hook := inv.hook
    once := inv.once
    sound := inv.sound }
  refine stopChild_inv fired awaited alive fun _ zero => ⟨.inr ?_,.inr (.inl mem_cons_self)⟩
  refine (inv.pending awaited undead zero).parks.resolve_left fun member => ?_
  rw [empty] at member
  cases member
end

lemma Core.setParent {p : Promise Unit} (core : Core s) (unhooked : p.cancel = none)
    (unarmed : s.armed → s.dead) : Core { s with parent := p } :=
  { core with
    idle unawaited := by
      have fresh := core.idle unawaited
      obtain ⟨_,_⟩ := p
      cases unhooked
      rw [fresh]
      rfl
    armed armed undead := nomatch undead.symm.trans (unarmed armed)
    hook some' := absurd unhooked some' }

lemma stopParent_unhooked (inv : Inv s) (unhooked : s.parent.cancel = none) :
    Inv { s with parent := s.parent.requestStop } := by
  refine ⟨inv.toCore.setParent rfl fun armed => ?_,fun awaited undead zero => ?_⟩
  · by_contra undead
    exact (inv.armed armed (Bool.eq_false_iff.2 undead)).2.2.2.2.2.1 unhooked
  have told := inv.pending awaited undead zero
  exact ⟨told.1,told.2⟩

lemma appRuns_cases (runs : s.appRuns) :
    s.stack = [] ∨ (∃ rest, s.stack = .child::rest) ∨ ∃ rest, s.stack = .parent::rest := by
  unfold appRuns at runs
  split at runs
  next empty => exact .inl empty
  next rest top => exact .inr (.inl ⟨rest,top⟩)
  next rest top => exact .inr (.inr ⟨rest,top⟩)
  all_goals cases runs

lemma cancelThunk_inv (inv : Inv s) (runs : s.appRuns) (alive : s.alive) (hook : s.parent.cancel ≠ none)
    (spared : s.waiting → .child ∉ s.stack) :
    Inv (cancelThunk { s with parent := s.parent.requestStop } s.stack) := by
  have zero := inv.hook hook
  have awaited : s.awaited := by
    by_contra unawaited
    have fresh := inv.idle (Bool.eq_false_iff.2 unawaited)
    rw [fresh] at hook
    exact hook rfl
  have above : Over s.waiting .cancel s.stack := by
    rcases appRuns_cases runs with empty | ⟨rest,top⟩ | ⟨rest,top⟩
    · rw [empty]
      exact ⟨fun _ => rfl,nofun⟩
    · have first : .child ∈ s.stack := top ▸ mem_cons_self
      exact ⟨fun waits => absurd first (spared waits),fun _ => first⟩
    rcases inv.facts .parent (top ▸ mem_cons_self) with unawaited | one
    · cases awaited.symm.trans unawaited
    · cases zero.symm.trans one
  unfold cancelThunk
  rw [disarm_eq]
  have off := (inv.toCore.disarm awaited).setParent (p := s.parent.requestStop) rfl nofun
  refine stopChild_inv (off.push (f := .cancel) awaited alive rfl above rfl) awaited alive fun undead zero => ?_
  exact ⟨(inv.pending awaited undead zero).parks.imp_left (mem_cons_of_mem _), .inr (.inr (.inl mem_cons_self))⟩

lemma Core.free (core : Core s) (awaited : s.awaited) (dead : s.dead)
    (below : ∀ f ∈ s.stack, f = .parent) : Core { s with alive := false } :=
  { core with
    gone _ := ⟨dead,below⟩
    idle unawaited := absurd (awaited.symm.trans unawaited) nofun }

lemma Core.die (core : Core s) (awaited : s.awaited) (below : ∀ f ∈ s.stack, f = .parent) :
    Core { s with dead := true, timer := if s.armed then false else s.timer } :=
  { core with
    settled := core.settled.mono fun waits => absurd (waiting_iff.1 waits).2.2 nofun
    facts f member := by
      cases below f member
      exact core.facts _ member
    gone _ := ⟨rfl,below⟩
    idle unawaited := nomatch awaited.symm.trans unawaited
    armed _ undead := absurd undead nofun
    timed left := by
      split at left
      · cases left
      next unarmed => exact absurd (core.timed left).1 unarmed
    once := ⟨core.once.1,fun waits => absurd (waiting_iff.1 waits).2.2 nofun⟩ }

section
variable (inv : Inv s)
include inv

lemma destroy_inv (awaited : s.awaited) (alive : s.alive)
    (where' : s.stack = [] ∨ s.stack.head? = some .parent) : Inv (s.destroy s.stack) := by
  have below : ∀ f ∈ s.stack, f = .parent := by
    rcases where' with empty | first
    · rw [empty]
      nofun
    obtain ⟨rest,top⟩ := List.head?_eq_some_iff.1 first
    have nothing : rest = [] := (top ▸ inv.settled).1
    rw [top,nothing]
    exact fun f member => mem_singleton.1 member
  have dying := inv.toCore.die awaited below
  unfold destroy
  dsimp only
  split
  · exact ⟨dying.free awaited rfl below,fun _ undead => absurd undead nofun⟩
  exact stopChild_inv (dying.push awaited alive rfl below rfl) awaited alive fun undead => absurd undead nofun

lemma suspend_inv (top : s.stack = .suspend::rest) :
    Inv (if s.childDone then s.goOn rest else { s with suspended := true, stack := rest }) := by
  have awaited := inv.awaited (by rw [top]; nofun)
  have empty : rest = [] := (top ▸ inv.settled).1
  subst empty
  have idle : s.child.status ≠ .running := fun running => by
    have member := inv.ran running
    rw [top] at member
    exact nomatch mem_singleton.1 member
  obtain ⟨unsuspended,zero,undead,_,starts⟩ := inv.facts .suspend (top ▸ mem_cons_self)
  have asleep : s.waiting = false := Bool.eq_false_iff.2 fun waits =>
    nomatch unsuspended.symm.trans (waiting_iff.1 waits).1
  have popped := inv.toCore.pop awaited top nofun
  split
  next done =>
    refine goOn_inv popped awaited zero idle asleep fun armed => ?_
    by_contra undead
    cases done.symm.trans (inv.armed armed (Bool.eq_false_iff.2 undead)).2.2.2.2.1
  next undone =>
  have fresh : s.resumed = false := (starts.resolve_left idle).resolve_left undone
  have waits : waiting { s with suspended := true, stack := [] } := waiting_iff.2 ⟨rfl,fresh,undead⟩
  have armed : s.armed := by
    rcases (inv.pending awaited undead zero).goes with armed | timer | cancel | ⟨_,done | resumed⟩
    · exact armed
    · rw [top] at timer
      exact nomatch mem_singleton.1 timer
    · rw [top] at cancel
      exact nomatch mem_singleton.1 cancel
    · exact absurd done undone
    · cases fresh.symm.trans resumed
  exact {
    hooked := inv.hooked
    ended := inv.ended
    running := .nil
    ran := fun running => absurd running idle
    settled := trivial
    facts := nofun
    gone := popped.gone
    idle := fun unawaited => nomatch awaited.symm.trans unawaited
    armed := inv.armed
    timed := inv.timed
    hook := inv.hook
    once := ⟨inv.once.1,fun _ => zero⟩
    sound := inv.sound
    pending := fun _ _ _ => ⟨.inr waits,.inl armed⟩ }

lemma timer_inv (top : s.stack = .timer::rest) : Inv (s.resumeParent rest) := by
  have awaited := inv.awaited (by rw [top]; nofun)
  have empty : rest = [] := (top ▸ inv.settled).1
  subst empty
  have late : s.timedOut := inv.facts .timer (top ▸ mem_cons_self)
  refine resumeParent_inv (inv.toCore.pop awaited top nofun) awaited (fun armed => ?_) nofun
    (fun _ => rfl) fun undead zero => .inr ?_
  · by_contra undead
    cases late.symm.trans (inv.armed armed (Bool.eq_false_iff.2 undead)).2.2.2.1
  refine (inv.pending awaited undead zero).parks.resolve_left fun member => ?_
  rw [top] at member
  exact nomatch mem_singleton.1 member

lemma cancel_inv (top : s.stack = .cancel::rest) : Inv (s.resumeParent rest) := by
  have awaited := inv.awaited (by rw [top]; nofun)
  have above : Over s.waiting .cancel rest := (top ▸ inv.settled).1
  have unarmed : s.armed = false := inv.facts .cancel (top ▸ mem_cons_self)
  refine resumeParent_inv (inv.toCore.pop awaited top nofun) awaited
    (fun armed => nomatch unarmed.symm.trans armed) (fun starts => .inl ?_) above.1
    fun undead zero => ?_
  · exact inv.running.each .child (top ▸ mem_cons_of_mem _ (above.2 starts)) () rfl
  refine (inv.pending awaited undead zero).parks.imp_left fun member => ?_
  rw [top] at member
  exact (mem_cons.1 member).resolve_left nofun

lemma dtor_inv (top : s.stack = .dtor::rest) : Inv { s with alive := false, stack := rest } := by
  have awaited := inv.awaited (by rw [top]; nofun)
  have dead : s.dead := inv.facts .dtor (top ▸ mem_cons_self)
  refine ⟨(inv.toCore.pop awaited top nofun).free awaited dead (top ▸ inv.settled).1,fun _ undead => ?_⟩
  cases dead.symm.trans undead

lemma use_inv {then' : TimeoutAwait} (top : s.stack = f::rest) (other : f ≠ .parent)
    (next : Inv then') : Inv (s.use rest then') := by
  unfold use
  rw [if_pos (inv.alive (top ▸ mem_cons_self) other)]
  exact next

lemma step_inv {m : Move} (spared : s.Spared m) (taken : s.step m = some t) : Inv t := by
  cases m with
  | await =>
    rw [step] at taken
    split at taken
    · cases taken
    rename_i ready
    have unawaited : s.awaited = false := Bool.eq_false_iff.2 fun awaited => ready (.inl awaited)
    split at taken
    · cases taken
      exact ready_inv inv unawaited
    next unstopped =>
      cases taken
      exact await_inv inv unawaited (Bool.or_eq_false_iff.1 (Bool.eq_false_iff.2 unstopped)).1
  | park cancellable =>
    rw [step] at taken
    split at taken
    next top =>
      cases taken
      exact use_inv inv top nofun (park_inv cancellable inv top spared)
    · cases taken
  | finish =>
    rw [step] at taken
    split at taken
    next top =>
      cases taken
      exact use_inv inv top nofun (finish_inv inv top spared)
    · cases taken
  | wake =>
    obtain ⟨⟨_,alive,parked⟩,rfl⟩ := enabled taken
    exact wake_inv inv alive parked
  | expire =>
    obtain ⟨⟨timer,empty⟩,rfl⟩ := enabled taken
    have alive : s.alive := by
      by_contra dead
      have dying := (inv.gone (Bool.eq_false_iff.2 dead)).1
      cases (inv.timed timer).2.symm.trans dying
    unfold use
    rw [if_pos alive]
    exact timerThunk_inv inv timer empty
  | stopParent =>
    obtain ⟨⟨runs,there⟩,called⟩ := Option.ite_none_right_eq_some.1 taken
    cases hook : s.parent.cancel with
    | none =>
      rw [hook] at called
      cases called
      exact stopParent_unhooked inv hook
    | some =>
      have some' : s.parent.cancel ≠ none := by rw [hook]; nofun
      have alive : s.alive := there.resolve_right fun nonzero => nonzero (inv.hook some')
      rw [hook] at called
      cases called
      unfold use
      rw [if_pos alive]
      exact cancelThunk_inv inv runs alive some' fun waits => spared waits some'
  | destroy =>
    obtain ⟨⟨awaited,alive,_,where'⟩,rfl⟩ := enabled taken
    exact destroy_inv inv awaited alive where'
  | leave =>
    rw [step] at taken
    split at taken
    next top =>
      obtain ⟨awaited,rfl⟩ := enabled taken
      refine ⟨inv.toCore.pop awaited top nofun,fun _ _ zero => ?_⟩
      rcases inv.facts .parent (top ▸ mem_cons_self) with unawaited | one
      · cases awaited.symm.trans unawaited
      · cases one.symm.trans zero
    · cases taken
  | resume =>
    rw [step] at taken
    split at taken
    next top =>
      cases taken
      exact use_inv inv top nofun (suspend_inv inv top)
    next top =>
      cases taken
      exact use_inv inv top nofun (timer_inv inv top)
    next top =>
      cases taken
      exact use_inv inv top nofun (cancel_inv inv top)
    next top =>
      cases taken
      exact use_inv inv top nofun (dtor_inv inv top)
    · cases taken

end

/-- Nothing was used after its end, and the coroutine was resumed at most once; at rest, one that was not has its timer
and its child, and no stop request. -/
structure Resumed (s : TimeoutAwait) : Prop where
  fault : s.fault = false
  once : s.resumes ≤ 1
  rest : s.stack = [] → s.awaited → s.dead = false →
    s.resumes = 1 ∨ s.timer ∧ s.child.status ≠ .finished ∧ s.parent.stopped = false

lemma Inv.summary (inv : Inv s) : Resumed s where
  fault := inv.sound
  once := inv.once.1
  rest empty awaited undead := by
    have once := inv.once.1
    by_cases zero : s.resumes = 0
    · have told := (inv.pending awaited undead zero).goes
      rw [empty] at told
      have armed : s.armed := by simpa using told
      obtain ⟨timer,_,_,_,undone,_,unstopped⟩ := inv.armed armed undead
      refine .inr ⟨timer,fun finished => ?_,unstopped⟩
      cases undone.symm.trans (inv.ended.2 finished)
    · exact .inl (by omega)

lemma resumed_of_run {stopped : Bool} {moves : List Move}
    (run : Exec (Guarded (Via step) Spared) (create stopped) moves s) : Resumed s := by
  have inv : Inv s := run.invariant Inv (fun _ _ _ taken inv => step_inv inv taken.1 taken.2) (create_inv stopped)
  exact inv.summary
end TimeoutAwait
end AffiniX
