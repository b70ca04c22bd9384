import AffiniX.TaskContexts

/-! Tasks run under contexts that follow those of the tasks they were made by. -/
namespace AffiniX.TaskContexts
open Transition Context Option Contexts List
variable {ε : Type}

def Frame.Inherits (tasks : List (Frame ε)) (f : Frame ε) : Prop := match f.origin with
  | .spawn ambient given => (overridden ambient given).Inherits f.ctx
  | .child p _ => ∃ g, tasks[p]? = some g ∧ g.ctx.Inherits f.ctx

def Frame.Shares (tasks : List (Frame ε)) (f : Frame ε) : Prop :=
  ∀ p, f.hook = .cont p → ∃ g, tasks[p]? = some g ∧ g.engine = f.engine ∧ g.ctx = f.ctx

def Pc.Bound (priority : BitVec 32) : Pc → Prop
  | .starting _ given => ∀ c ∈ given, c.priority = priority
  | _ => True

def Shows (tasks : List (Frame ε)) (c : Contexts ε) (a : Activation ε) : Prop :=
  ∀ t, a.task = some t → ∃ f, tasks[t]? = some f ∧ c.slots f.engine = f.ctx ∧
    c.tls = some f.engine ∧ a.pc.Bound f.ctx.priority

variable [DecidableEq ε]

def Views (tasks : List (Frame ε)) : Contexts ε → List (Activation ε) → Prop
  | _, [] => True
  | c, a::rest => Shows tasks c a ∧ Views tasks (a.save.elim c c.restore) rest

structure Inv (s : TaskContexts ε) : Prop where
  views : Views s.tasks s.contexts s.stack
  inherits : ∀ f ∈ s.tasks, f.Inherits s.tasks
  shares : ∀ f ∈ s.tasks, f.Shares s.tasks

section
variable {tasks : List (Frame ε)} {f g : Frame ε} {t : Nat}

omit [DecidableEq ε] in
lemma getElem?_snoc (there : tasks[t]? = some f) : (tasks++[g])[t]? = some f := by
  have within := (List.getElem?_eq_some_iff.1 there).1
  rw [List.getElem?_append_left within]
  exact there

omit [DecidableEq ε] in
lemma Frame.Inherits.snoc (inherits : f.Inherits tasks) : f.Inherits (tasks++[g]) := by
  unfold Frame.Inherits at *
  split at inherits
  · exact inherits
  obtain ⟨p,there,follows⟩ := inherits
  exact ⟨p,getElem?_snoc there,follows⟩

omit [DecidableEq ε] in
lemma Frame.Shares.snoc (shares : f.Shares tasks) : f.Shares (tasks++[g]) := by
  intro p hook
  obtain ⟨parent,there,same⟩ := shares p hook
  exact ⟨parent,getElem?_snoc there,same⟩

lemma Views.snoc {c : Contexts ε} {stack : List (Activation ε)} (views : Views tasks c stack) :
    Views (tasks++[g]) c stack := by
  induction stack generalizing c with
  | nil => trivial
  | cons _ _ ih =>
    refine ⟨?_,ih views.2⟩
    intro t task
    obtain ⟨f,there,shown⟩ := views.1 t task
    exact ⟨f,getElem?_snoc there,shown⟩
end
namespace Inv
variable {s s' : TaskContexts ε} {a : Activation ε} {rest : List (Activation ε)} {t : Nat}
section
variable (inv : Inv s)
include inv

lemma congr (tasks : s'.tasks = s.tasks) (contexts : s'.contexts = s.contexts)
    (stack : s'.stack = s.stack) : Inv s' := by
  obtain ⟨views,inherits,shares⟩ := inv
  rw [← tasks] at views inherits shares
  rw [← contexts,← stack] at views
  exact ⟨views,inherits,shares⟩

lemma add {f : Frame ε} (inherits : f.Inherits (s.tasks++[f])) (shares : f.Shares (s.tasks++[f])) : Inv (s.add f) where
  views := inv.views.snoc
  inherits g member := by
    rcases mem_append.1 member with old | new
    · exact (inv.inherits g old).snoc
    cases mem_singleton.1 new
    exact inherits
  shares g member := by
    rcases mem_append.1 member with old | new
    · exact (inv.shares g old).snoc
    cases mem_singleton.1 new
    exact shares

lemma resumeUnderCtx (resumed : s.resumeUnderCtx t = some s') : Inv s' := by
  unfold TaskContexts.resumeUnderCtx at resumed
  split at resumed
  · cases resumed
  next f there =>
  cases resumed
  refine ⟨⟨?_,?_⟩,inv.inherits,inv.shares⟩
  · rintro _ ⟨⟩
    exact ⟨f,there,withContext_slots _ _ _,rfl,trivial⟩
  change Views s.tasks ((s.contexts.withContext f.engine f.ctx).1.restore
    (s.contexts.withContext f.engine f.ctx).2) s.stack
  rw [restore_withContext]
  exact inv.views

lemma leave : Inv s.leave := by
  unfold TaskContexts.leave
  split
  · exact inv
  next stack =>
  have views := inv.views
  rw [stack] at views
  exact ⟨views.2,inv.inherits,inv.shares⟩

lemma shows (stack : s.stack = a::rest) : Shows s.tasks s.contexts a := by
  have views := inv.views
  rw [stack] at views
  exact views.1

lemma setTop (stack : s.stack = a::rest) (a' : Activation ε)
    (shows : Shows s.tasks s.contexts a') (save : a'.save = a.save) : Inv (s.setTop a' rest) := by
  have views := inv.views
  rw [stack] at views
  refine ⟨⟨shows,?_⟩,inv.inherits,inv.shares⟩
  rw [save]
  exact views.2

lemma spawn {e : ε} {given : Context} {hook : Hook} (plain : ∀ p, hook ≠ .cont p)
    (set : given.priority ≠ 0 ∨ s.contexts.ambient.priority = 0)
    (spawned : s.spawn e given hook = some s') : Inv s' := by
  refine (inv.add ?_ ?_).resumeUnderCtx spawned
  · exact spawned_inherits set
  intro p cont
  exact absurd cont (plain p)
end

omit [DecidableEq ε] in
lemma childOf_inherits {tasks : List (Frame ε)} {f : Frame ε} (there : tasks[t]? = some f)
    {given : Context} (same : given.priority = f.ctx.priority) (hook : Hook) :
    (childOf t f given hook).Inherits (tasks++[childOf t f given hook]) :=
  ⟨f,getElem?_snoc there,awaited_inherits same⟩

variable {save : Option (Scope ε)}

omit [DecidableEq ε] in
lemma shows_none {tasks : List (Frame ε)} {c : Contexts ε} {pc : Pc} : Shows tasks c ⟨none,pc,save⟩ := nofun

lemma combine (inv : Inv s) (stack : s.stack = ⟨some t,.code,save⟩::rest) (kind : GroupKind) {given : List Context}
    (bound : ∀ f, s.tasks[t]? = some f → ∀ c ∈ given, c.priority = f.ctx.priority) :
    Inv (s.combine kind t given save rest) := by
  obtain ⟨f,there,slot,tls,_⟩ := inv.shows stack t rfl
  have shown : Shows s.tasks s.contexts ⟨some t,.starting s.groups.length given,save⟩ := by
    rintro _ ⟨⟩
    exact ⟨f,there,slot,tls,bound f there⟩
  exact (inv.setTop stack _ shown rfl).congr rfl rfl rfl

lemma startNext (inv : Inv s) {op : Nat} {given : List Context}
    (stack : s.stack = ⟨some t,.starting op given,save⟩::rest)
    (started : s.startNext t op given save rest = some s') : Inv s' := by
  obtain ⟨f,there,slot,tls,bound⟩ := inv.shows stack t rfl
  unfold TaskContexts.startNext at started
  split at started
  next c given =>
    simp only [there] at started
    have same := bound c mem_cons_self
    have added := inv.add (childOf_inherits there same (.group op)) nofun
    have shown : Shows (s.tasks++[childOf t f c (.group op)]) s.contexts ⟨some t,.starting op given,save⟩ := by
      rintro _ ⟨⟩
      exact ⟨f,getElem?_snoc there,slot,tls,fun d member => bound d (mem_cons_of_mem _ member)⟩
    exact (added.setTop stack _ shown rfl).resumeUnderCtx started
  · split at started
    · cases started
    split at started
    · cases started
      refine inv.setTop stack ⟨some t,.code,save⟩ ?_ rfl
      rintro _ ⟨⟩
      exact ⟨f,there,slot,tls,trivial⟩
    cases started
    exact Inv.leave (inv.congr rfl rfl rfl)

lemma runHook (inv : Inv s) {u : Option Nat} {pc : Pc} {next : Option Next} (stack : s.stack = ⟨u,pc,save⟩::rest)
    (ran : s.runHook next save rest = some s') : Inv s' := by
  have ended := inv.setTop stack ⟨none,.thunk none,save⟩ shows_none rfl
  unfold TaskContexts.runHook at ran
  split at ran
  · cases ran
    exact inv.leave
  · exact ended.resumeUnderCtx ran
  split at ran
  · cases ran
  simp only at ran
  split at ran
  · refine Inv.resumeUnderCtx ?_ ran
    exact ended.congr rfl rfl rfl
  cases ran
  exact ended.congr rfl rfl rfl

lemma finalSuspend (inv : Inv s) (stack : s.stack = ⟨some t,.code,save⟩::rest)
    (ended : s.finalSuspend t save rest = some s') : Inv s' := by
  obtain ⟨f,there,slot,tls,_⟩ := inv.shows stack t rfl
  have hooked (next : Option Next) := inv.setTop stack ⟨none,.thunk next,save⟩ shows_none rfl
  unfold TaskContexts.finalSuspend at ended
  rw [there] at ended
  simp only at ended
  split at ended
  · cases ended
    exact Inv.leave (inv.congr rfl rfl rfl)
  next p hook =>
    -- The awaiting task goes on under the context that the awaited one had.
    cases ended
    obtain ⟨g,parent,engine,ctx⟩ := inv.shares f (mem_of_getElem? there) p hook
    have shown : Shows s.tasks s.contexts ⟨some p,.code,save⟩ := by
      rintro _ ⟨⟩
      refine ⟨g,parent,?_,?_,trivial⟩
      · rw [engine,ctx]
        exact slot
      rw [engine]
      exact tls
    exact (inv.setTop stack _ shown rfl).congr rfl rfl rfl
  · split at ended
    · cases ended
    cases ended
    exact (hooked _).congr rfl rfl rfl
  split at ended
  · cases ended
  cases ended
  exact (hooked _).congr rfl rfl rfl
end Inv

/-- Spawns name a priority that is to be inherited, children of combinators have that of their parent, and what is
awaited has nothing of its own. -/
def Follows (s : TaskContexts ε) : Move ε → Prop
  | .spawn _ given | .scopeSpawn _ given => given.priority ≠ 0 ∨ s.contexts.ambient.priority = 0
  | .coAwait given => ∀ t ∈ s.current, ∀ f ∈ s.tasks[t]?, awaited f.ctx given = f.ctx
  | .whenAll given | .whenAny given => ∀ t ∈ s.current, ∀ f ∈ s.tasks[t]?, ∀ c ∈ given, c.priority = f.ctx.priority
  | .withTimeout _ given => ∀ t ∈ s.current, ∀ f ∈ s.tasks[t]?, given.priority = f.ctx.priority
  | _ => True

instance (s : TaskContexts ε) (m : Move ε) : Decidable (Follows s m) := match m with
  | .spawn _ _ | .scopeSpawn _ _ => instDecidableOr
  | .coAwait _ | .withTimeout _ _ => inferInstanceAs (Decidable (∀ t ∈ s.current, ∀ f ∈ s.tasks[t]?, _ = _))
  | .whenAll _ | .whenAny _ => inferInstanceAs (Decidable (∀ t ∈ s.current, ∀ f ∈ s.tasks[t]?, ∀ c ∈ _, _ = _))
  | .dispatch _ _ | .openScope _ | .join _ | .park | .resume _ | .stopTimeout _ _ | .proceed
  | .finish => isTrue trivial

lemma Inv.coAwait {s s' : TaskContexts ε} (inv : Inv s) {given : Context}
    (bare : Follows s (.coAwait given)) (taken : s.step (.coAwait given) = some s') : Inv s' := by
  simp only [step] at taken
  split at taken
  next t save _ stack =>
    obtain ⟨f,there,slot,tls,_⟩ := inv.shows stack t rfl
    simp only [there] at taken
    cases taken
    have nothing : awaited f.ctx given = f.ctx := bare t (by simp [current,stack]) f there
    have same : given.priority = f.ctx.priority := by
      change (awaited f.ctx given).priority = f.ctx.priority
      rw [nothing]
    have added : Inv (s.add (childOf t f given (.cont t))) := by
      refine inv.add (childOf_inherits there same _) ?_
      rintro p ⟨⟩
      exact ⟨f,getElem?_snoc there,rfl,nothing.symm⟩
    have shown : Shows (s.tasks++[childOf t f given (.cont t)]) s.contexts ⟨some s.tasks.length,.code,save⟩ := by
      rintro _ ⟨⟩
      refine ⟨childOf t f given (.cont t),by simp,?_,tls,trivial⟩
      exact slot.trans nothing.symm
    exact (added.setTop stack _ shown rfl).congr rfl rfl rfl
  · cases taken

lemma Inv.step {s s' : TaskContexts ε} {m : Move ε} (inv : Inv s) (follows : Follows s m)
    (taken : s.step m = some s') : Inv s' := by
  have bound {t : Nat} {save : Option (Scope ε)} {rest : List (Activation ε)}
      (stack : s.stack = ⟨some t,.code,save⟩::rest) : t ∈ s.current := by simp [current,stack]
  cases m with
  | coAwait => exact inv.coAwait follows taken
  | dispatch =>
    simp only [TaskContexts.step] at taken
    split at taken
    · cases taken
      exact ⟨⟨shows_none,trivial⟩,inv.inherits,inv.shares⟩
    · cases taken
  | openScope =>
    obtain ⟨_,rfl⟩ := enabled taken
    exact inv.congr rfl rfl rfl
  | spawn =>
    obtain ⟨_,spawned⟩ := ite_none_right_eq_some.1 taken
    exact inv.spawn (fun _ => Hook.noConfusion) follows spawned
  | scopeSpawn k =>
    simp only [TaskContexts.step] at taken
    split at taken
    · cases taken
    next n _ =>
    obtain ⟨_,spawned⟩ := ite_none_right_eq_some.1 taken
    have counted : Inv (s.setScope k { n with live := n.live+1 }) := inv.congr rfl rfl rfl
    exact counted.spawn (fun _ => Hook.noConfusion) follows spawned
  | whenAll =>
    simp only [TaskContexts.step] at taken
    split at taken
    next stack =>
      split at taken
      · cases taken
        exact inv
      cases taken
      exact inv.combine stack .all fun f there => follows _ (bound stack) f there
    · cases taken
  | whenAny =>
    simp only [TaskContexts.step] at taken
    split at taken
    next stack =>
      cases taken
      exact inv.combine stack .any fun f there => follows _ (bound stack) f there
    · cases taken
  | withTimeout =>
    simp only [TaskContexts.step] at taken
    split at taken
    next stack =>
      split at taken
      · cases taken
        exact inv
      cases taken
      refine inv.combine stack .timeout fun f there c member => ?_
      cases mem_singleton.1 member
      exact follows _ (bound stack) f there
    · cases taken
  | join =>
    simp only [TaskContexts.step] at taken
    split at taken
    · split at taken
      · cases taken
        exact inv
      cases taken
      exact Inv.leave (inv.congr rfl rfl rfl)
    · cases taken
  | park =>
    simp only [TaskContexts.step] at taken
    split at taken
    · cases taken
      exact Inv.leave (inv.congr rfl rfl rfl)
    · cases taken
  | resume =>
    obtain ⟨_,resumed⟩ := ite_none_right_eq_some.1 taken
    exact inv.resumeUnderCtx resumed
  | stopTimeout =>
    simp only [TaskContexts.step] at taken
    split at taken
    · cases taken
    obtain ⟨_,rfl⟩ := enabled taken
    exact ⟨⟨shows_none,inv.views⟩,inv.inherits,inv.shares⟩
  | proceed =>
    simp only [TaskContexts.step] at taken
    split at taken
    · exact inv.startNext ‹_› taken
    · exact inv.runHook ‹_› taken
    · cases taken
      exact inv.leave
    · cases taken
  | finish =>
    simp only [TaskContexts.step] at taken
    split at taken
    · exact inv.finalSuspend ‹_› taken
    · cases taken

lemma create_inv (contexts : Contexts ε) : Inv (create contexts) where
  views := trivial
  inherits := by simp [create]
  shares := by simp [create]

/-- The contexts of tasks follow those of their parents, and wherever code of a task runs the context is its own. -/
theorem context_follows_task {contexts : Contexts ε} {moves : List (Move ε)} {s : TaskContexts ε}
    (run : Exec (Guarded (Via step) Follows) (create contexts) moves s) :
    (∀ f ∈ s.tasks, f.Inherits s.tasks) ∧
      ∀ t ∈ s.current, ∃ f, s.tasks[t]? = some f ∧ s.contexts.slots f.engine = f.ctx ∧
        s.contexts.ambient = f.ctx := by
  have inv : Inv s := run.invariant Inv (fun _ _ _ taken inv => inv.step taken.1 taken.2) (create_inv contexts)
  refine ⟨inv.inherits,?_⟩
  intro t now
  unfold current at now
  split at now
  next stack =>
    obtain ⟨f,there,slot,tls,_⟩ := inv.shows stack t now
    refine ⟨f,there,slot,?_⟩
    rw [ambient,tls]
    exact slot
  · cases now

def request : Context := ⟨⟨some 100⟩,⟨1,2,3⟩,some 7,5⟩

def quiet : Contexts Unit := ⟨fun _ => .empty,none⟩

def treeOfTasks : List (Move Unit) :=
  [.openScope (),.spawn () request,.coAwait { empty with priority := 5 },.park,.resume 1,
    .finish,.scopeSpawn 0 { empty with priority := 5 },.park,
    .whenAll [{ request with deadline := ⟨some 50⟩ },{ empty with priority := 5 }],
    .proceed,.finish,.proceed,.proceed,.park,.proceed,.resume 4]

theorem tree_of_tasks_follows : ∃ s, Exec (Guarded (Via step) Follows)
      (create quiet) treeOfTasks s ∧
    s.tasks.map (fun f => (f.ctx.deadline.point,f.ctx.priority)) =
      [(some 100,5),(some 100,5),(some 100,5),(some 50,5),(some 100,5)] ∧ s.current = some 4 ∧
    (∀ f ∈ s.tasks, f.Inherits s.tasks) ∧
      ∀ t ∈ s.current, ∃ f, s.tasks[t]? = some f ∧ s.contexts.slots f.engine = f.ctx ∧ s.contexts.ambient = f.ctx :=
  Exec.shown_of_drive (P := fun s => s.tasks.map (fun f => (f.ctx.deadline.point,f.ctx.priority)) =
      [(some 100,5),(some 100,5),(some 100,5),(some 50,5),(some 100,5)] ∧ s.current = some 4)
    (by decide +kernel) fun _ run ⟨tasks,now⟩ => ⟨tasks,now,context_follows_task run⟩

def awaitChild : List (Move Unit) := [.spawn () request,.coAwait .empty]

def childReturns : List (Move Unit) := [.spawn () request,.coAwait .empty,.park,.resume 1,.finish]

def spawnSibling : List (Move Unit) := [.spawn () request,.spawn () .empty]

/-- Neither `co_await` nor a spawn hands the priority on, and after the sleep of an awaited task the awaiter runs under
its context. -/
theorem context_strays :
    (∃ s, Exec (Guarded (Via step) (fun _ _ => True)) (create quiet)
        spawnSibling s ∧ ¬ ∀ f ∈ s.tasks, f.Inherits s.tasks) ∧
    (∃ s f, Exec (Guarded (Via step) (fun _ _ => True)) (create quiet)
        awaitChild s ∧ s.current = some 1 ∧ s.tasks[1]? = some f ∧ s.contexts.slots f.engine ≠ f.ctx) ∧
    ∃ s f, Exec (Guarded (Via step) (fun _ _ => True)) (create quiet)
        childReturns s ∧ s.current = some 0 ∧ s.tasks[0]? = some f ∧ s.contexts.slots f.engine ≠ f.ctx := by
  have spawned : (Transition.drive TaskContexts.step (fun _ _ => True) (create quiet)
      spawnSibling).map (fun s => s.tasks[1]?.map (fun f => (f.ctx.priority,f.origin))) =
      some (some (0,.spawn request .empty)) := by decide +kernel
  have awaits : (Transition.drive TaskContexts.step (fun _ _ => True) (create quiet)
      awaitChild).map (fun s => (s.current,s.tasks[1]?.map (fun f => f.ctx.priority),
        (s.contexts.slots ()).priority)) = some (some 1,some 0,5) := by decide +kernel
  have returns : (Transition.drive TaskContexts.step (fun _ _ => True) (create quiet)
      childReturns).map (fun s => (s.current,s.tasks[0]?.map (fun f => f.ctx.priority),
        (s.contexts.slots ()).priority)) = some (some 0,some 5,0) := by decide +kernel
  refine ⟨?_,?_,?_⟩
  · obtain ⟨s,driven,values⟩ := map_eq_some_iff.1 spawned
    obtain ⟨f,there,values⟩ := map_eq_some_iff.1 values
    rw [Prod.mk.injEq] at values
    refine ⟨s,Exec.of_drive driven,fun all => ?_⟩
    have inherits := all f (mem_of_getElem? there)
    unfold Frame.Inherits at inherits
    rw [values.2] at inherits
    have same := inherits.priority
    rw [values.1] at same
    revert same
    decide
  · obtain ⟨s,driven,values⟩ := map_eq_some_iff.1 awaits
    simp only [Prod.mk.injEq] at values
    obtain ⟨now,task,priority⟩ := values
    obtain ⟨f,there,none⟩ := map_eq_some_iff.1 task
    refine ⟨s,f,Exec.of_drive driven,now,there,fun same => ?_⟩
    rw [← same,priority] at none
    revert none
    decide
  obtain ⟨s,driven,values⟩ := map_eq_some_iff.1 returns
  simp only [Prod.mk.injEq] at values
  obtain ⟨now,task,priority⟩ := values
  obtain ⟨f,there,five⟩ := map_eq_some_iff.1 task
  refine ⟨s,f,Exec.of_drive driven,now,there,fun same => ?_⟩
  rw [← same,priority] at five
  revert five
  decide

end AffiniX.TaskContexts
