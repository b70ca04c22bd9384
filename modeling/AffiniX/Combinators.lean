import AffiniX.GroupRun
import AffiniX.TimeoutRun

/-! The awaiters of `combine.hpp`, and what happens when a child ends at the wrong place. -/
namespace AffiniX.Combinators
open Transition GroupAwait TimeoutAwait Exec

def GroupRuns (ok : GroupAwait → GroupAwait.Move → Prop) : GroupAwait → List GroupAwait.Move → GroupAwait → Prop :=
  Exec (Guarded (Via step) ok)

def TimeoutRuns (ok : TimeoutAwait → TimeoutAwait.Move → Prop) :
    TimeoutAwait → List TimeoutAwait.Move → TimeoutAwait → Prop :=
  Exec (Guarded (Via step) ok)

/-- Over any number of children, and whatever they, the timer and stop requests do in the order they
like, as long as they are spared. -/
theorem resumes_once (kind : GroupKind) (n : Nat) (stopped : Bool) :
    (∀ moves s, GroupRuns Spared (.create kind n stopped) moves s → s.Resumed) ∧
      ∀ moves s, TimeoutRuns Spared (.create stopped) moves s → s.Resumed :=
  ⟨fun _ _ run => resumed_of_run run,fun _ _ run => resumed_of_run run⟩

instance (s : GroupAwait) : Decidable s.Completes := match kind : s.kind with
  | .all => decidable_of_iff (s.dead = false ∧ s.parentSuspended ∧ s.remaining = 1) (by unfold Completes; rw [kind])
  | .any => decidable_of_iff (s.dead = false ∧ s.parentSuspended ∧ s.won = false) (by unfold Completes; rw [kind])

instance (s : GroupAwait) (m : GroupAwait.Move) : Decidable (s.Spared m) := match m with
  | .finish => inferInstanceAs
      (Decidable (s.Completes → ∀ f ∈ s.stack.tail, f.runs = none ∧ f.loopOver s.n = true))
  | .await | .park _ | .wake _ | .stopParent | .destroy | .leave | .resume => .isTrue trivial

instance (s : TimeoutAwait) (m : TimeoutAwait.Move) : Decidable (s.Spared m) := match m with
  | .finish | .stopParent => inferInstanceAs (Decidable (_ → _ → _ ∉ _))
  | .park _ => inferInstanceAs (Decidable (_ ∈ _ → _ = _))
  | .await _ | .wake | .expire | .destroy | .leave | .resume => .isTrue trivial

def twoParked : List GroupAwait.Move := [.await,.park true,.resume,.park true,.resume]

def oneParked : List TimeoutAwait.Move := [.await false,.park true,.resume]

theorem resumes_once_each :
    (∃ s, GroupRuns Spared (.create .all 2 false)
      (twoParked++[.wake 1,.finish,.wake 0,.finish,.destroy,.resume,.resume,.leave]) s ∧
        (s.stack = [] ∧ s.alive = false ∧ s.resumes = 1) ∧ s.Resumed) ∧
    (∃ s, GroupRuns Spared (.create .any 2 false)
      (twoParked++[.wake 1,.finish,.finish,.resume,.destroy,.resume,.resume,.leave]) s ∧
        (s.stack = [] ∧ s.alive = false ∧ s.resumes = 1 ∧ s.recorded = [1]) ∧ s.Resumed) ∧
    ∃ s, TimeoutRuns Spared (.create false)
      (oneParked++[.expire,.finish,.resume,.destroy,.leave]) s ∧
        (s.stack = [] ∧ s.alive = false ∧ s.resumes = 1) ∧ s.Resumed := by
  refine ⟨?_,?_,?_⟩
  · exact seen_of_drive (by decide +kernel) fun _ run _ => (resumes_once .all 2 false).1 _ _ run
  · exact seen_of_drive (by decide +kernel) fun _ run _ => (resumes_once .any 2 false).1 _ _ run
  · exact seen_of_drive (by decide +kernel) fun _ run _ => (resumes_once .all 2 false).2 _ _ run

/-- A stopped child makes the coroutine go on inside the loop or the thunk, which then uses the awaiter. -/
theorem awaiter_used_again :
    (∃ s, GroupRuns (fun _ _ => True) (.create .all 2 false)
      [.await,.park true,.resume,.finish,.resume,.stopParent,.finish,.destroy,.resume,.resume,.leave,.resume]
        s ∧ s.resumes = 1 ∧ s.fault) ∧
    (∃ s, GroupRuns (fun _ _ => True) (.create .any 2 false)
      (twoParked++[.stopParent,.finish,.finish,.resume,.destroy,.resume,.resume,.leave,.resume]) s ∧
        s.resumes = 1 ∧ s.fault) ∧
    (∃ s, TimeoutRuns (fun _ _ => True) (.create false)
      (oneParked++[.stopParent,.finish,.destroy,.leave,.resume]) s ∧ s.resumes = 1 ∧ s.fault) ∧
    (∃ s, TimeoutRuns (fun _ _ => True) (.create false)
      (oneParked++[.wake,.stopParent,.resume,.destroy,.resume,.leave,.finish]) s ∧ s.resumes = 1 ∧ s.fault) ∧
    ∃ s, TimeoutRuns (fun _ _ => True) (.create false)
      [.await false,.stopParent,.resume,.park true,.resume,.wake,.finish] s ∧
        s.stack = [] ∧ s.awaited ∧ s.alive ∧ s.child.status = .finished ∧ s.timer = false ∧ s.resumes = 0 :=
  ⟨end_of_drive (by decide +kernel),end_of_drive (by decide +kernel),
    end_of_drive (by decide +kernel),end_of_drive (by decide +kernel),
    end_of_drive (by decide +kernel)⟩

end AffiniX.Combinators
