import AffiniX.Transition

/-! Deferred tasks. A batch that is cut off puts its remainder behind the tasks that it has deferred. -/
namespace AffiniX
open Transition List

/-- Tasks are numbered in the order in which they were deferred. -/
structure Deferred where
  deferNext : List Nat := []
  made : Nat := 0
  ran : List Nat := []

namespace Deferred
inductive Move
  | defer
  | run
deriving DecidableEq

variable (maxBatch : Nat) (defers : Nat → Nat) (s : Deferred)

def defer (n : Nat) : Deferred := { s with deferNext := s.deferNext++range' s.made n, made := s.made+n }

def runTask (task : Nat) : Deferred := { s with ran := s.ran++[task] }.defer (defers task)

def runDeferred : Deferred := let r := (s.deferNext.take maxBatch).foldl (runTask defers) { s with deferNext := [] }
  { r with deferNext := r.deferNext++s.deferNext.drop maxBatch }

def step : Move → Option Deferred
  | .defer => some (s.defer 1)
  | .run => some (s.runDeferred maxBatch defers)

def Modest : Move → Prop
  | .run => s.deferNext.length ≤ maxBatch ∨ ∀ task ∈ s.deferNext.take maxBatch, defers task = 0
  | .defer => True

instance : DecidablePred (s.Modest maxBatch defers)
  | .run => instDecidableOr
  | .defer => .isTrue trivial

def Runs : Deferred → List Move → Deferred → Prop :=
  Exec (Guarded (Via (step maxBatch defers)) (Modest maxBatch defers))

lemma foldl_runTask (tasks : List Nat) : ∃ n, tasks.foldl (runTask defers) s =
    { s with ran := s.ran++tasks }.defer n ∧ ((∀ task ∈ tasks, defers task = 0) → n = 0) := by
  induction tasks generalizing s with
  | nil => exact ⟨0,by simp [defer],fun _ => rfl⟩
  | cons task _ ih =>
    obtain ⟨n,folded,none'⟩ := ih (s.runTask defers task)
    refine ⟨defers task+n,?_,fun quiet => ?_⟩
    · rw [foldl_cons,folded]
      simp [runTask,defer,← range'_append_1,Nat.add_assoc]
    · simp [quiet,none' fun other inside => quiet other (mem_cons_of_mem task inside)]

lemma runDeferred_eq : ∃ n, s.runDeferred maxBatch defers =
    ⟨range' s.made n++s.deferNext.drop maxBatch,s.made+n,s.ran++s.deferNext.take maxBatch⟩ ∧
    ((∀ task ∈ s.deferNext.take maxBatch, defers task = 0) → n = 0) := by
  obtain ⟨n,folded,none'⟩ := foldl_runTask defers { s with deferNext := [] } (s.deferNext.take maxBatch)
  exact ⟨n,by simp [runDeferred,folded,defer],none'⟩

variable {maxBatch defers s} {t : Deferred} {m : Move}

lemma step_perm (taken : s.step maxBatch defers m = some t)
    (once : (s.ran++s.deferNext).Perm (range s.made)) : (t.ran++t.deferNext).Perm (range t.made) := by
  have grown (n : Nat) : (s.ran++s.deferNext++range' s.made n).Perm (range (s.made+n)) := by
    have split : range (s.made+n) = range s.made++range' s.made n := by
      simpa [range_eq_range'] using (range'_append_1 (s := 0) (m := s.made) (n := n)).symm
    exact split ▸ once.append_right _
  cases m with
  | defer =>
    cases taken
    simpa [defer] using grown 1
  | run =>
    cases taken
    obtain ⟨n,after,_⟩ := runDeferred_eq maxBatch defers s
    rw [after]
    refine .trans ?_ (grown n)
    simp only [append_assoc]
    apply Perm.append_left
    calc s.deferNext.take maxBatch++(range' s.made n++s.deferNext.drop maxBatch)
      _ ~ s.deferNext.take maxBatch++(s.deferNext.drop maxBatch++range' s.made n) := perm_append_comm.append_left _
      _ = s.deferNext++range' s.made n := by rw [← append_assoc,take_append_drop]

lemma step_ran (taken : s.step maxBatch defers m = some t) {task : Nat} (ran : task ∈ s.ran) : task ∈ t.ran := by
  cases m with
  | defer =>
    cases taken
    exact ran
  | run =>
    cases taken
    obtain ⟨n,after,_⟩ := runDeferred_eq maxBatch defers s
    simp [after,ran]

/-- Every task is queued or has run, once; with `ahead` before it in the queue it runs within
`ahead.length / max_defer_batch + 1` batches. -/
theorem deferred_in_time (positive : 0 < maxBatch) {moves more : List Move}
    (run : Runs maxBatch defers {} moves s) (later : Runs maxBatch defers s more t)
    {ahead behind : List Nat} {task : Nat} (queued : s.deferNext = ahead++task::behind) :
    (t.ran++t.deferNext).Perm (range t.made) ∧ (ahead.length/maxBatch < more.count .run → task ∈ t.ran) := by
  refine ⟨(run.append later).invariant (fun s => (s.ran++s.deferNext).Perm (range s.made))
    (fun _ _ _ moved => step_perm moved.2) (.refl _),?_⟩
  clear run
  induction later generalizing ahead behind with
  | nil s => simp
  | cons s m t _ _ head tail ih =>
    intro enough
    obtain ⟨modest,taken⟩ := head
    cases m with
    | defer =>
      cases taken
      have queue : (s.defer 1).deferNext = ahead++task::(behind++[s.made]) := by simp [defer,queued]
      exact ih queue (by simpa using enough)
    | run =>
      cases taken
      obtain ⟨n,after,none'⟩ := runDeferred_eq maxBatch defers s
      by_cases first : ahead.length < maxBatch
      · apply tail.invariant (fun s => task ∈ s.ran) fun _ _ _ moved => step_ran moved.2
        have room : maxBatch-ahead.length = maxBatch-ahead.length-1+1 := by omega
        rw [after,queued,take_append,room]
        simp
      -- the batch was cut off, so it has deferred nothing
      have quiet := none' (modest.resolve_left (by simp [queued]; omega))
      have queue : (s.runDeferred maxBatch defers).deferNext = ahead.drop maxBatch++task::behind := by
        simp [after,quiet,queued,drop_append_of_le_length (Nat.le_of_not_lt first)]
      apply ih queue
      rw [Nat.div_eq_sub_div positive (Nat.le_of_not_lt first)] at enough
      simpa using enough

theorem fifth_in_time : ∃ s, Runs 2 (fun _ => 0) {} [.defer,.defer,.defer,.defer,.defer] s ∧
    s.deferNext = [0,1,2,3]++4::[] ∧ ∀ more t, Runs 2 (fun _ => 0) s more t →
      (t.ran++t.deferNext).Perm (range t.made) ∧ (2 < more.count .run → 4 ∈ t.ran) :=
  Exec.seen_of_drive (by decide) fun _ run queued _ _ later => deferred_in_time (by decide) run later queued

/-- Tasks that defer their successors keep task 1, which has one task before it, from running. -/
theorem task_starved : ∃ s, Exec (Via (step 1 fun _ => 1)) {}
      [.defer,.defer,.run,.run,.run,.run] s ∧ 1 ∉ s.ran ∧ s.deferNext = [5,1] :=
  Exec.run_of_drive (by decide) fun _ _ => id

/-- Whatever the tasks defer, each is queued or has run, once, and the next batch runs as many as it may and finds. -/
theorem deferred_accounted {moves : List Move}
    (run : Exec (Via (step maxBatch defers)) {} moves s) :
    (s.ran++s.deferNext).Perm (range s.made) ∧ ∀ t, s.step maxBatch defers .run = some t →
      t.ran.length = s.ran.length+min maxBatch s.deferNext.length := by
  refine ⟨run.invariant (fun s => (s.ran++s.deferNext).Perm (range s.made)) (fun _ _ _ => step_perm) (.refl _),?_⟩
  rintro _ ⟨⟩
  obtain ⟨_,after,_⟩ := runDeferred_eq maxBatch defers s
  rw [after,length_append,length_take]

theorem starved_accounted : ∃ s, Exec (Via (step 1 fun _ => 1)) {} [.defer,.defer,.run] s ∧
    (s.runDeferred 1 fun _ => 1).ran.length = 2 :=
  Exec.run_of_drive (P := fun s => s.ran.length = 1 ∧ s.deferNext.length = 2) (by decide) fun _ run ⟨ran,queued⟩ => by
    simpa [ran,queued] using (deferred_accounted run).2 _ rfl
end Deferred
end AffiniX
