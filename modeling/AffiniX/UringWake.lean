import AffiniX.Transition

/-! `UringBackend::wait` and the poll on its wake eventfd, among steps of the kernel and of threads that call `wake`. -/
namespace AffiniX
open Transition
namespace UringWake
/-- A completion: of the wake poll, a wake by MSG_RING, one that `drain_cq` keeps, or one that it reports. -/
inductive Entry
  | wake (more : Bool)
  | msgRing
  | internal
  | user
deriving DecidableEq

/-- `checked` is after the last look at the mailbox. A drain has `left` entries before its tail; `first`: it is at the
start of `wait`. -/
inductive Point
  | idle
  | checked
  | drain (first : Bool) (left : Nat)
  | commit
  | enter
  | asleep
deriving DecidableEq
end UringWake

/-- `staged`, `committed` and `outstanding` say where wake polls are; `notified`: the kernel has yet to look at the
eventfd; `fresh`: one is among the entries of this call; `consumed`: by the drain at the start; `signalled`: since the
mailbox was checked. -/
structure UringWake where
  sqpoll : Bool
  parked : Bool := false
  count : Nat := 0
  staged : Bool := true
  committed : Bool := false
  fresh : Bool := false
  outstanding : Bool := false
  notified : Bool := false
  cq : List UringWake.Entry := []
  wakeArmed : Bool := true
  sawWake : Bool := false
  size : Nat := 0
  timed : Bool := false
  n : Nat := 0
  point : UringWake.Point := .idle
  consumed : List UringWake.Entry := []
  signalled : Bool := false

namespace UringWake
inductive Move
  | check
  | flush (took : Bool)
  | wait (size : Nat) (timed : Bool)
  | consume
  | drained
  | commit
  | enter (took : Bool)
  | resume
  | wake
  | take
  | park
  | post (more : Bool)
  | fail
  | complete (e : Entry)

variable (s : UringWake)

def commitSqes : UringWake := { s with staged := false, committed := s.committed || s.staged }

def submit : UringWake :=
  { s with
    committed := false
    outstanding := s.outstanding || s.committed
    notified := s.notified || s.committed && decide (0 < s.count) }

def armWakePoll : UringWake := { s with staged := true, wakeArmed := true }

def drainEntry (e : Entry) : UringWake := match e with
  | .wake more => { s with count := 0, wakeArmed := s.wakeArmed && more, sawWake := true }
  | .msgRing => { s with sawWake := true }
  | .internal => s
  | .user => { s with n := s.n+1 }

def canWait : Bool := s.n = 0 && !s.sawWake && s.timed

def step : Move → Option UringWake
  | .check => if s.point = .idle then some { s with point := .checked, signalled := false } else none
  | .flush took =>
    if s.point = .idle ∨ s.point = .checked then
      some (if s.sqpoll ∨ took = false then s.commitSqes else s.commitSqes.submit)
    else none
  | .wait size timed =>
    if s.point = .checked ∧ 0 < size then
      some { s with size := size, timed := timed, n := 0, sawWake := false, consumed := [],
                    point := .drain true s.cq.length }
    else none
  | .consume =>
    match s.point, s.cq with
    | .drain first (left+1), e::rest =>
      if s.n < s.size then
        some { s.drainEntry e with
          cq := rest, point := .drain first left, consumed := if first then e::s.consumed else s.consumed }
      else none
    | _, _ => none
  | .drained =>
    match s.point with
    | .drain first left =>
      if left = 0 ∨ s.n = s.size then
        some { if s.wakeArmed then s else s.armWakePoll with point := if first then .commit else .idle }
      else none
    | _ => none
  | .commit => if s.point = .commit then some { s.commitSqes with fresh := s.staged, point := .enter } else none
  | .enter took =>
    if s.point = .enter then
      -- NEED_WAKEUP is set while the kernel thread is parked; an enter that does not take what it submits returns
      some { if took = false then s else if s.sqpoll then { s with parked := false } else s.submit with
        point := if s.canWait ∧ (s.sqpoll ∨ took ∨ ¬ s.fresh) then .asleep
          else if s.n < s.size then .drain false s.cq.length else .idle }
    else none
  | .resume => if s.point = .asleep then some { s with point := .drain false s.cq.length } else none
  | .wake => some { s with count := s.count+1, notified := s.notified || s.outstanding, signalled := true }
  | .take => if s.sqpoll ∧ ¬ s.parked ∧ s.committed then some s.submit else none
  | .park => if s.sqpoll ∧ ¬ s.committed then some { s with parked := true } else none
  | .post more =>
    if s.outstanding ∧ s.notified then
      some (if 0 < s.count then { s with cq := s.cq++[.wake more], outstanding := more, notified := false }
        else { s with notified := false })
    else none
  | .fail =>
    if s.outstanding then some { s with cq := s.cq++[.wake false], outstanding := false, notified := false }
    else none
  | .complete e => if e = .wake true ∨ e = .wake false then none else some { s with cq := s.cq++[e] }

/-- No `uring_enter` leaves the wake poll behind, and the one that is to wake the kernel thread does. -/
def Takes : Move → Prop
  | .flush took => s.sqpoll = false → s.staged ∨ s.committed → took
  | .enter took => s.committed → (s.sqpoll → s.parked) → took
  | .check | .wait _ _ | .consume | .drained | .commit | .resume | .wake | .take | .park | .post _ | .fail
  | .complete _ => True

instance (s : UringWake) : (m : Move) → Decidable (s.Takes m)
  | .flush _ => inferInstanceAs (Decidable (_ → _ → _))
  | .enter _ => inferInstanceAs (Decidable (_ → _ → _))
  | .check | .wait _ _ | .consume | .drained | .commit | .resume | .wake | .take | .park | .post _ | .fail
  | .complete _ => .isTrue trivial

def Armed : Prop := s.outstanding ∨ s.committed ∧ s.sqpoll ∧ ¬ s.parked

def Due : Prop := 0 < s.count ∧ (s.outstanding ∧ s.notified ∨ s.committed ∧ s.sqpoll ∧ ¬ s.parked)

instance : Decidable s.Armed := inferInstanceAs (Decidable (_ ∨ _))

instance : Decidable s.Due := inferInstanceAs (Decidable (_ ∧ _))

def Pending : Prop :=
  (∃ more, .wake more ∈ s.cq) ∨ 0 < s.count ∧ (s.outstanding ∧ s.notified ∨ s.staged ∨ s.committed)

def Kept : Prop := match s.point with
  | .idle | .drain false _ => True
  | .checked => s.Pending
  | .drain true _ | .commit | .enter | .asleep => s.sawWake ∨ s.Pending

structure Inv (s : UringWake) : Prop where
  armed : s.wakeArmed → s.staged ∨ s.committed ∨ s.outstanding ∨ .wake false ∈ s.cq
  unarmed : s.wakeArmed = false → s.sawWake ∧ ∃ first left, s.point = .drain first left
  silent : s.n = 0 → s.sawWake = false → ∀ e ∈ s.consumed, e = .internal
  submitted : s.point = .enter ∨ s.point = .asleep → s.staged = false
  asleep : s.point = .asleep → s.n = 0 ∧ s.sawWake = false ∧ (s.committed → s.sqpoll ∧ s.parked = false)
  kept : s.signalled → s.Kept

variable {s t : UringWake}

lemma Inv.wake (inv : s.Inv) (armed : s.wakeArmed) :
    Pending { s with count := s.count+1, notified := s.notified || s.outstanding, signalled := true } := by
  rcases inv.armed armed with staged | committed | outstanding | ended
  · exact .inr ⟨Nat.succ_pos _,.inr (.inl staged)⟩
  · exact .inr ⟨Nat.succ_pos _,.inr (.inr committed)⟩
  · exact .inr ⟨Nat.succ_pos _,.inl ⟨outstanding,by simp [outstanding]⟩⟩
  · exact .inl ⟨false,ended⟩

/-- Whatever ends the poll or clears the counter is noted in `sawWake`. -/
lemma consume_inv {e : Entry} {rest : List Entry} {first : Bool} {left : Nat} (inv : s.Inv)
    (here : s.point = .drain first (left+1)) (queue : s.cq = e::rest) :
    Inv { s.drainEntry e with
      cq := rest, point := .drain first left, consumed := if first then e::s.consumed else s.consumed } := by
  obtain ⟨armed,unarmed,silent,_,_,kept⟩ := inv
  rw [Kept,here] at kept
  rw [queue] at armed
  cases e with
  | wake | msgRing =>
    exact ⟨by grind [drainEntry],fun _ => ⟨rfl,first,left,rfl⟩,nofun,nofun,nofun,by grind [Kept,drainEntry]⟩
  | internal =>
    exact ⟨by grind [drainEntry],by grind [drainEntry],by grind [drainEntry],nofun,nofun,
      by grind [Kept,Pending,drainEntry]⟩
  | user =>
    exact ⟨by grind [drainEntry],by grind [drainEntry],nofun,nofun,nofun,by grind [Kept,Pending,drainEntry]⟩

lemma step_inv {m : Move} (inv : s.Inv) (takes : s.Takes m) (taken : s.step m = some t) : t.Inv := by
  have woken := inv.wake
  obtain ⟨armed,unarmed,silent,submitted,asleep,kept⟩ := inv
  cases m with
  | wake =>
    cases taken
    exact ⟨armed,unarmed,silent,submitted,asleep,by grind [Kept]⟩
  | check =>
    obtain ⟨_,rfl⟩ := enabled taken
    exact ⟨armed,by grind,silent,nofun,nofun,nofun⟩
  | park =>
    obtain ⟨_,rfl⟩ := enabled taken
    exact ⟨armed,unarmed,silent,submitted,by grind,kept⟩
  | fail =>
    obtain ⟨_,rfl⟩ := enabled taken
    exact ⟨by simp,unarmed,silent,submitted,asleep,by grind [Kept,Pending]⟩
  | resume =>
    obtain ⟨_,rfl⟩ := enabled taken
    exact ⟨armed,by grind,silent,nofun,nofun,fun _ => trivial⟩
  | wait _ _ =>
    obtain ⟨_,rfl⟩ := enabled taken
    exact ⟨armed,by grind,by simp,nofun,nofun,by grind [Kept,Pending]⟩
  | post _ =>
    obtain ⟨_,rfl⟩ := enabled taken
    split
    · exact ⟨by grind,unarmed,silent,submitted,asleep,by grind [Kept,Pending]⟩
    · exact ⟨armed,unarmed,silent,submitted,asleep,by grind [Kept,Pending]⟩
  | commit =>
    obtain ⟨_,rfl⟩ := enabled taken
    exact ⟨by grind [commitSqes],by grind [commitSqes],silent,fun _ => rfl,nofun,by grind [Kept,Pending,commitSqes]⟩
  | take =>
    obtain ⟨_,rfl⟩ := enabled taken
    exact ⟨by grind [submit],unarmed,silent,submitted,by grind [submit],by grind [Kept,Pending,submit]⟩
  | flush took =>
    obtain ⟨_,rfl⟩ := enabled taken
    split <;> exact ⟨by grind [commitSqes,submit],unarmed,silent,by grind [commitSqes,submit],
      by grind [commitSqes,submit],by grind [Kept,Pending,commitSqes,submit]⟩
  | enter took =>
    obtain ⟨_,rfl⟩ := enabled taken
    rw [Takes] at takes
    constructor <;> grind -ring -linarith [Kept,Pending,submit,canWait]
  | consume =>
    rw [step] at taken
    split at taken
    next here queue =>
      obtain ⟨_,rfl⟩ := enabled taken
      exact consume_inv ⟨armed,unarmed,silent,submitted,asleep,kept⟩ here queue
    · cases taken
  | drained =>
    rw [step] at taken
    split at taken
    · obtain ⟨_,rfl⟩ := enabled taken
      constructor <;> grind -ring -linarith [Kept,Pending,armWakePoll]
    · cases taken
  | complete =>
    rw [step] at taken
    split at taken
    · cases taken
    cases taken
    exact ⟨by grind,unarmed,silent,submitted,asleep,by grind [Kept,Pending]⟩

lemma create_inv (sqpoll : Bool) : Inv { sqpoll := sqpoll } := ⟨fun _ => .inl rfl,nofun,nofun,nofun,nofun,nofun⟩

/-- A wait that sleeps has consumed no wake, holds no completion, left a wake poll with the kernel, and does not sleep
through a later `wake`, if the kernel takes the wake poll when it is submitted. -/
theorem wait_keeps_wakes {sqpoll : Bool} {moves : List Move}
    (run : Exec (Guarded (Via step) Takes) { sqpoll := sqpoll } moves s)
    (sleeps : s.point = .asleep) : (∀ e ∈ s.consumed, e = .internal) ∧ (s.cq = [] → s.Armed) ∧ (s.signalled → s.cq ≠ [] ∨ s.Due) := by
  have inv := run.invariant Inv (fun _ _ _ ⟨takes,taken⟩ inv => step_inv inv takes taken) (create_inv sqpoll)
  obtain ⟨none',unseen,given⟩ := inv.asleep sleeps
  have unstaged := inv.submitted (.inr sleeps)
  refine ⟨inv.silent none' unseen,fun empty => ?_,fun signalled => ?_⟩
  · have placed := inv.armed (by_contra fun off => by
      obtain ⟨seen,_⟩ := inv.unarmed (Bool.eq_false_iff.2 off)
      exact nomatch unseen.symm.trans seen)
    rcases placed with staged | committed | outstanding | ended
    · cases unstaged.symm.trans staged
    · exact .inr ⟨committed,(given committed).1,by simp [(given committed).2]⟩
    · exact .inl outstanding
    · exact absurd ended (by simp [empty])
  have kept := inv.kept signalled
  rw [Kept,sleeps] at kept
  rcases kept.resolve_left (by simp [unseen]) with ⟨more,queued⟩ | ⟨counted,on | staged | committed⟩
  · exact .inl (List.ne_nil_of_mem queued)
  · exact .inr ⟨counted,.inl on⟩
  · cases unstaged.symm.trans staged
  · exact .inr ⟨counted,.inr ⟨committed,(given committed).1,by simp [(given committed).2]⟩⟩

theorem rearmed_keeps_wake : ∃ s, Exec (Guarded (Via step) Takes) { sqpoll := false }
      [.flush true,.fail,.check,.wait 1 true,.consume,.drained,.commit,.enter true,.drained,.check,.wake,
        .wait 1 true,.drained,.commit,.enter true] s ∧
    (s.point = .asleep ∧ s.signalled) ∧ (s.cq ≠ [] ∨ s.Due) :=
  Exec.seen_of_drive (by decide) fun _ run seen => (wait_keeps_wakes run seen.1).2.2 seen.2

/-- The enter of the first wait fails, so the next one submits nothing and sleeps without a wake poll. With SQPOLL it is
the enter that should wake the kernel thread. -/
theorem refused_poll_sleeps : (∃ s, Exec (Via step) { sqpoll := false }
      [.check,.wait 1 true,.drained,.commit,.enter false,.drained,.check,.wait 1 true,.drained,.commit,.enter false,
        .wake] s ∧ s.point = .asleep ∧ s.cq = [] ∧ s.signalled ∧ ¬ s.Armed ∧ ¬ s.Due) ∧
    ∃ s, Exec (Via step) { sqpoll := true }
      [.park,.check,.wait 1 true,.drained,.commit,.enter false,.wake] s ∧
      s.point = .asleep ∧ s.cq = [] ∧ s.signalled ∧ ¬ s.Armed ∧ ¬ s.Due :=
  ⟨Exec.run_of_drive (by decide) fun _ _ => id,Exec.run_of_drive (by decide) fun _ _ => id⟩

end UringWake
end AffiniX
