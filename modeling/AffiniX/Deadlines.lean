import AffiniX.Transition
import AffiniX.Drain
import AffiniX.Timers

/-! What the timers are for: a table of deadlines, each with the instant from which a poll may run it. -/
namespace AffiniX
open Function Option

inductive Home
  | heap
  | wheel (tick : Int)
deriving DecidableEq

structure Deadline where
  expiry : Int
  period : Int
  mode : RepeatMode
  precise : Bool
  group : Option Handle
  home : Home
deriving DecidableEq

structure Deadlines where
  tick : Int
  now : Int
  wheelTick : Int
  polled : Bool
  armed : Handle → Option Deadline
  groups : Handle → Bool

/-- A call with what it returned, or a poll with what it ran. Clock readings are
nonnegative 64-bit nanosecond counts. -/
inductive TimerTrace
  | call (c : TimerCall) (reply : TimerReply)
  | poll (reading : Fin (2^63)) (fired : List TimerCtx)

def ceilTick (tick t : Int) : Int := -(-t / tick)

/-- The home of a deadline inserted at `wheelTick`. The wheel takes no precise one, none beyond its horizon, none with a
negative tick. -/
def homeOf (tick wheelTick expiry : Int) (precise : Bool) : Home :=
  if precise = true ∨ expiry ≤ 1 - 2*tick ∨ wheelTick + 256^4 ≤ ceilTick tick expiry then .heap
  else .wheel (max (ceilTick tick expiry) (wheelTick+1))

namespace Deadline
def instant (tick : Int) (d : Deadline) : Int := match d.home with
  | .heap => d.expiry
  | .wheel e => tick*e

def Due (tick reading : Int) (d : Deadline) : Prop := d.instant tick ≤ reading

instance (tick reading : Int) : DecidablePred (Due tick reading) :=
  fun d => inferInstanceAs (Decidable (d.instant tick ≤ reading))

def missed (reading : Int) (d : Deadline) : Int := (reading - d.expiry) / d.period

def next (reading : Int) (d : Deadline) : Int := match d.mode with
  | .fixedRate => d.expiry + (d.missed reading + 1) * d.period
  | .fixedDelay => reading + d.period

def insertionTick (tick reading : Int) (d : Deadline) : Int := match d.home with
  | .heap => reading / tick
  | .wheel e => e

def rearm (tick reading : Int) (d : Deadline) : Option Deadline :=
  if d.period > 0 then
    some {d with
      expiry := d.next reading
      home := homeOf tick (d.insertionTick tick reading) (d.next reading) d.precise}
  else none

def context (reading : Int) (id : Handle) (d : Deadline) : TimerCtx :=
  ⟨id,d.expiry,reading, if d.period > 0 ∧ d.mode = .fixedRate then (d.missed reading).toNat % 2^32 else 0⟩
end Deadline
namespace Deadlines
def create (tick now : Int) : Deadlines := ⟨tick,now,0,false,fun _ => none,fun _ => false⟩

variable (m : Deadlines)

def deadline (expiry period : Int) (mode : RepeatMode) (g : Handle) (precise : Bool) : Deadline :=
  ⟨expiry,period,mode,precise,if m.groups g then some g else none, homeOf m.tick m.wheelTick expiry precise⟩

def Arm (d : Deadline) (reply : TimerReply) (m' : Deadlines) : Prop :=
  ∃ id, reply = .id id ∧ m.armed id = none ∧ m' = {m with armed := update m.armed id (some d)}

def Call (c : TimerCall) (reply : TimerReply) (m' : Deadlines) : Prop := match c with
  | .after d g => m.Arm (m.deadline (m.now + d.toInt) 0 .fixedRate g false) reply m'
  | .atTime t g => m.Arm (m.deadline t.toInt 0 .fixedRate g true) reply m'
  | .every p d mode g => m.Arm (m.deadline (m.now + (if d ≠ 0 then d else p).toInt) p.toInt mode g false) reply m'
  | .cancel id => reply = .bool (m.armed id).isSome ∧ m' = {m with armed := update m.armed id none}
  | .reschedule id d => reply = .bool (m.armed id).isSome ∧
      m' = {m with armed := update m.armed id ((m.armed id).map fun e => {e with
        expiry := m.now + d.toInt
        home := homeOf m.tick m.wheelTick (m.now + d.toInt) e.precise})}
  | .makeTimerGroup => ∃ g, reply = .id g ∧ m.groups g = false ∧ m' = {m with groups := update m.groups g true}
  | .cancelGroup g => ∃ ids : List Handle, ids.Nodup ∧
      (∀ id, id ∈ ids ↔ ∃ d, m.armed id = some d ∧ d.group = some g) ∧
      reply = .count ids.length ∧
      m' = {m with armed := fun id => if id ∈ ids then none else m.armed id}

def rebase (reading : Int) (id : Handle) : Option Deadline := if m.polled then m.armed id
  else (m.armed id).map fun d =>
    match d.home with
    | .heap => d
    | .wheel e => {d with home := .wheel (max e (max 1 (reading / m.tick)))}

structure Poll (reading : Int) (fired : List TimerCtx) (m' : Deadlines) : Prop where
  tick : m'.tick = m.tick
  now : m'.now = reading
  wheelTick : m'.wheelTick = reading / m.tick
  polled : m'.polled = true
  groups : m'.groups = m.groups
  once : (fired.map TimerCtx.id).Nodup
  exactly : ∀ c, c ∈ fired ↔ ∃ d, m.rebase reading c.id = some d ∧ d.Due m.tick reading ∧ c = d.context reading c.id
  after : ∀ id, m'.armed id = (m.rebase reading id).bind fun d =>
    if d.Due m.tick reading then d.rearm m.tick reading else some d

def Step : TimerTrace → Deadlines → Prop
  | .call c reply, m' => m.Call c reply m'
  | .poll reading fired, m' => m.Poll reading.val fired m'
end Deadlines

lemma le_ceilTick {tick : Int} (positive : 0 < tick) (t : Int) : t ≤ tick * ceilTick tick t := by
  unfold ceilTick
  have := Int.mul_ediv_self_le (x := -t) (k := tick) (by omega)
  linarith

lemma homeOf_after {tick : Int} (positive : 0 < tick) (wheelTick expiry : Int) (precise : Bool)
    (d : Deadline) : expiry ≤ {d with expiry := expiry, home := homeOf tick wheelTick expiry precise}.instant tick := by
  unfold Deadline.instant homeOf
  by_cases out : precise = true ∨ expiry ≤ 1 - 2*tick ∨ wheelTick + 256^4 ≤ ceilTick tick expiry
  · simp only [if_pos out]
    exact le_refl _
  simp only [if_neg out]
  have least : ceilTick tick expiry ≤ max (ceilTick tick expiry) (wheelTick+1) := le_max_left _ _
  calc expiry ≤ tick * ceilTick tick expiry := le_ceilTick positive expiry
    _ ≤ _ := Int.mul_le_mul_of_nonneg_left least (by omega)

lemma Deadline.lt_next (d : Deadline) (repeats : d.period > 0) (reading : Int) : reading < d.next reading := by
  unfold Deadline.next Deadline.missed
  cases d.mode with
  | fixedRate =>
    have := Int.lt_mul_ediv_self_add (x := reading - d.expiry) (k := d.period) repeats
    linarith
  | fixedDelay =>
    dsimp only
    omega

lemma Deadline.rearm_not_due {tick reading : Int} (positive : 0 < tick) (d d' : Deadline)
    (again : d.rearm tick reading = some d') : ¬ d'.Due tick reading := by
  unfold Deadline.rearm at again
  split at again
  · next repeats =>
    have later := d.lt_next repeats reading
    have onTime := homeOf_after positive (d.insertionTick tick reading) (d.next reading) d.precise d
    rw [← some.inj again]
    unfold Deadline.Due
    omega
  · contradiction

namespace Deadlines
def OnTime (m : Deadlines) : Prop := 0 < m.tick ∧ ∀ id d, m.armed id = some d → d.expiry ≤ d.instant m.tick

variable {m m' : Deadlines} {e : TimerTrace} {id : Handle}
section
variable (onTime : m.OnTime)
include onTime

lemma OnTime.update (id : Handle) (entry : Option Deadline) (new : ∀ d, entry = some d → d.expiry ≤ d.instant m.tick) :
    ({m with armed := update m.armed id entry} : Deadlines).OnTime := by
  refine ⟨onTime.1,?_⟩
  intro j d found
  change Function.update m.armed id entry j = some d at found
  rw [update_apply] at found
  split at found
  · exact new d found
  · exact onTime.2 j d found

lemma OnTime.arm {expiry period : Int} {mode : RepeatMode} {g : Handle} {precise : Bool} {reply : TimerReply}
    (armed : m.Arm (m.deadline expiry period mode g precise) reply m') : m'.OnTime := by
  obtain ⟨id,_,_,rfl⟩ := armed
  refine onTime.update id _ ?_
  intro d same
  rw [← some.inj same]
  exact homeOf_after onTime.1 m.wheelTick expiry precise (m.deadline expiry period mode g precise)

lemma OnTime.call {c : TimerCall} {reply : TimerReply} (step : m.Call c reply m') : m'.OnTime := by
  cases c with
  | after | atTime | every => exact onTime.arm step
  | cancel id =>
    rw [step.2]
    exact onTime.update id none (by simp)
  | reschedule id d =>
    rw [step.2]
    refine onTime.update id _ ?_
    intro d' same
    obtain ⟨e,_,rfl⟩ := map_eq_some_iff.mp same
    exact homeOf_after onTime.1 _ _ _ e
  | makeTimerGroup =>
    obtain ⟨g,_,_,rfl⟩ := step
    exact onTime
  | cancelGroup g =>
    obtain ⟨ids,_,_,_,rfl⟩ := step
    refine ⟨onTime.1,?_⟩
    intro id d found
    dsimp only at found
    split at found
    · contradiction
    · exact onTime.2 id d found

lemma OnTime.rebase (reading : Int) (id : Handle)
    (d : Deadline) (found : m.rebase reading id = some d) : d.expiry ≤ d.instant m.tick := by
  unfold Deadlines.rebase at found
  split at found
  · exact onTime.2 id d found
  obtain ⟨e,armed,rfl⟩ := map_eq_some_iff.mp found
  have early := onTime.2 id e armed
  unfold Deadline.instant at early ⊢
  cases home : e.home with
  | heap =>
    rw [home] at early
    simpa only [home] using early
  | wheel k =>
    rw [home] at early
    calc e.expiry ≤ m.tick * k := early
      _ ≤ _ := Int.mul_le_mul_of_nonneg_left (le_max_left _ _) (by have := onTime.1; omega)

lemma OnTime.poll {reading : Int} {fired : List TimerCtx} (step : m.Poll reading fired m') : m'.OnTime := by
  refine ⟨step.tick ▸ onTime.1,?_⟩
  intro id d found
  rw [step.after] at found
  rw [step.tick]
  obtain ⟨e,rebased,turned⟩ := bind_eq_some_iff.mp found
  split at turned
  · unfold Deadline.rearm at turned
    split at turned
    · rw [← some.inj turned]
      exact homeOf_after onTime.1 _ _ _ e
    · contradiction
  rw [← some.inj turned]
  exact onTime.rebase reading id e rebased

lemma OnTime.step (step : m.Step e m') : m'.OnTime := by
  cases e with
  | call => exact onTime.call step
  | poll => exact onTime.poll step

lemma OnTime.fired {reading : Int} {fired : List TimerCtx}
    (step : m.Poll reading fired m') (c : TimerCtx) (ran : c ∈ fired) : c.scheduled ≤ c.now := by
  obtain ⟨d,rebased,due,same⟩ := (step.exactly c).mp ran
  rw [same]
  exact (onTime.rebase reading c.id d rebased).trans due
end

def Arms (id : Handle) : TimerTrace → Prop
  | .call c reply => reply = .id id ∧ c ≠ .makeTimerGroup
  | .poll _ _ => False

def Fires (id : Handle) : TimerTrace → Prop
  | .call _ _ => False
  | .poll _ fired => ∃ c ∈ fired, c.id = id

def Cancels (m : Deadlines) (id : Handle) : TimerTrace → Prop
  | .call (.cancel id') _ => id' = id
  | .call (.cancelGroup g) _ => ∃ d, m.armed id = some d ∧ d.group = some g
  | _ => False

lemma cancels_disarms (step : m.Step e m') (cancels : m.Cancels id e) : m'.armed id = none := by
  cases e with
  | poll => exact cancels.elim
  | call c =>
    cases c with
    | cancel id' =>
      have same : id' = id := cancels
      obtain ⟨_,rfl⟩ := step
      rw [same]
      exact update_self _ _ _
    | cancelGroup =>
      obtain ⟨_,_,members,_,rfl⟩ := step
      exact if_pos ((members id).mpr cancels)
    | _ => exact cancels.elim

lemma step_silent (step : m.Step e m')
    (gone : m.armed id = none) (fresh : ¬ Arms id e) : ¬ Fires id e ∧ m'.armed id = none := by
  have arms : ∀ d reply c, m.Arm d reply m' → ¬ Arms id (.call c reply) → c ≠ .makeTimerGroup → m'.armed id = none := by
    rintro d reply c ⟨new,rfl,_,rfl⟩ other kind
    have apart : id ≠ new := by
      rintro rfl
      exact other ⟨rfl,kind⟩
    exact (update_of_ne apart _ _).trans gone
  cases e with
  | poll reading =>
    have rebased : m.rebase reading.val id = none := by
      unfold Deadlines.rebase
      split <;> simp [gone]
    constructor
    · rintro ⟨c,ran,rfl⟩
      obtain ⟨d,found,_⟩ := (step.exactly c).mp ran
      rw [rebased] at found
      contradiction
    rw [step.after,rebased]
    rfl
  | call c =>
    refine ⟨fun impossible => impossible,?_⟩
    cases c with
    | after | atTime | every => exact arms _ _ _ step fresh (by simp)
    | cancel =>
      rw [step.2]
      exact (update_apply _ _ _ _).trans (by split <;> simp [gone])
    | reschedule =>
      rw [step.2]
      refine (update_apply _ _ _ _).trans ?_
      split
      · next own => rw [← own,gone]; rfl
      · exact gone
    | makeTimerGroup =>
      obtain ⟨g,_,_,rfl⟩ := step
      exact gone
    | cancelGroup =>
      obtain ⟨_,_,_,_,rfl⟩ := step
      dsimp only
      split
      · rfl
      · exact gone

lemma run_silent {events : List TimerTrace} (run : Transition.Exec Step m events m') (gone : m.armed id = none)
    (fresh : ∀ e ∈ events, ¬ Arms id e) : ∀ e ∈ events, ¬ Fires id e := by
  induction run with
  | nil => simp
  | cons _ e _ _ _ head _ ih =>
    obtain ⟨quiet,still⟩ := step_silent head gone (fresh e List.mem_cons_self)
    intro a inside
    rcases List.mem_cons.mp inside with rfl | later
    · exact quiet
    · exact ih still (fun b member => fresh b (List.mem_cons_of_mem _ member)) a later
end Deadlines
end AffiniX
