import AffiniX.WheelQueue

/-! What an advance fires. -/
namespace AffiniX
open Function

inductive WheelCall
  | insert (n : NodeRef) (expiryTick : Nat)
  | unlink (n : NodeRef)
deriving DecidableEq

/-- What happens to nodes. An insertion and a firing are kept with the tick that the wheel stood at,
the first advance with its target. -/
inductive WheelEvent
  | insert (n : NodeRef) (expiryTick nowTick : Nat)
  | unlink (n : NodeRef)
  | prime (target : Nat)
  | fire (n : NodeRef) (nowTick : Nat)
deriving DecidableEq

namespace WheelEvent
def apply (queue : NodeRef → Option Nat) : WheelEvent → NodeRef → Option Nat
  | .insert n expiryTick nowTick => update queue n (some (max expiryTick (nowTick+1)))
  | .unlink n => update queue n none
  | .prime target => fun n => (queue n).map fun tick => max tick (max target 1)
  | .fire n _ => update queue n none

def firedAt : WheelEvent → Option Nat
  | .fire _ tick => some tick
  | .insert _ _ _ | .unlink _ | .prime _ => none
end WheelEvent

abbrev Moment := WheelEvent × TimerWheel

def pending (history : List Moment) : NodeRef → Option Nat :=
  history.foldl (fun queue m => m.1.apply queue) fun _ => none

def firings (history : List Moment) : List Nat := history.filterMap fun m => m.1.firedAt

lemma pending_snoc (history : List Moment) (m : Moment) : pending (history++[m]) = m.1.apply (pending history) := by
  simp [pending]

@[simp] lemma firings_append (history later : List Moment) :
    firings (history++later) = firings history++firings later :=
  List.filterMap_append

structure WheelOwner where
  wheel : TimerWheel
  expiryTick : NodeRef → Nat
  fired : Nat
  history : List Moment

/-- What can be done with a wheel from outside. The `k`th firing of an advance makes the calls
`callbacks k`, counted from the first firing ever. -/
inductive WheelMove
  | call (c : WheelCall)
  | advance (target : Nat) (callbacks : Nat → List WheelCall)
  | setMaxTicksPerCall (n : Nat)

namespace WheelOwner
def create (tick : Int) : WheelOwner := ⟨.create tick,fun _ => 0,0,[]⟩

variable (s : WheelOwner)

def note (e : WheelEvent) : WheelOwner := {s with history := s.history++[(e,s.wheel)]}

def insert (s : WheelOwner) (n : NodeRef) (tick : Nat) : WheelOwner :=
  if s.wheel.link n = none ∧ TimerWheel.fits tick s.wheel.nowTick then
    let expiryTick := update s.expiryTick n tick
    WheelOwner.note {s with expiryTick := expiryTick, wheel := s.wheel.insert expiryTick n}
      (.insert n tick s.wheel.nowTick)
  else s

def unlink (s : WheelOwner) (n : NodeRef) : WheelOwner :=
  WheelOwner.note {s with wheel := s.wheel.unlink n} (.unlink n)

def call : WheelCall → WheelOwner
  | .insert n tick => s.insert n tick
  | .unlink n => s.unlink n

def calls (cs : List WheelCall) : WheelOwner := cs.foldl call s

def fire (callbacks : Nat → List WheelCall) (s : WheelOwner) (n : NodeRef) : WheelOwner :=
  calls {s.note (.fire n s.wheel.nowTick) with fired := s.fired+1} (callbacks s.fired)

def host : TimerWheel.Host WheelOwner where
  wheel := WheelOwner.wheel
  setWheel := fun s w => {s with wheel := w}
  expiryTick := WheelOwner.expiryTick

def begun (target : Nat) : WheelOwner := if s.wheel.primed then s else s.note (.prime target)

def advance (callbacks : Nat → List WheelCall) (target : Nat) (s : WheelOwner) : WheelOwner :=
  TimerWheel.advance host (fire callbacks) target (s.begun target)

def advanceStrict (callbacks : Nat → List WheelCall) (target : Nat) (s : WheelOwner) : Option WheelOwner :=
  TimerWheel.advanceStrict host (fire callbacks) target (s.begun target)

def move : WheelMove → WheelOwner
  | .call c => s.call c
  | .advance target callbacks => s.advance callbacks target
  | .setMaxTicksPerCall n => {s with wheel := {s.wheel with maxTicksPerCall := n}}

def run (moves : List WheelMove) : WheelOwner := moves.foldl move s
end WheelOwner
end AffiniX
namespace AffiniX.WheelOwner
open List TimerWheel Option
open TimerWheel (slots target SameClock)

def Sourced (callbacks : Nat → List WheelCall) (first last : Nat) : WheelEvent → Prop
  | .insert n tick nowTick => nowTick ≤ last ∧ ∃ i, .insert n tick ∈ callbacks i
  | .prime target => first = target-1
  | .unlink _ | .fire _ _ => True

/-- A node fires at the tick it is queued for, ticks do not go back, what is inserted comes from a callback, and every
wheel a callback sees is well formed. -/
structure Exact (callbacks : Nat → List WheelCall) (before moments : List Moment) (first last : Nat) : Prop where
  due : ∀ earlier n tick w later, moments = earlier++(.fire n tick,w)::later →
    pending (before++earlier) n = some tick ∧ w.nowTick = tick ∧ first < tick ∧ tick ≤ last
  ordered : (firings moments).Pairwise (· ≤ ·)
  sourced : ∀ m ∈ moments, Sourced callbacks first last m.1
  seen : ∀ m ∈ moments, m.2.Wf

namespace Exact
variable {callbacks : Nat → List WheelCall} {before moments : List Moment} {first last : Nat}
variable (exact : Exact callbacks before moments first last)
include exact

lemma later {next : Nat} (le : last ≤ next) : Exact callbacks before moments first next where
  due := fun earlier n tick w later split =>
    have ⟨queued,same,above,below⟩ := exact.due earlier n tick w later split
    ⟨queued,same,above,below.trans le⟩
  ordered := exact.ordered
  sourced := by
    intro m inside
    have sourced := exact.sourced m inside
    match m with
    | (.insert _ _ _,_) => exact ⟨sourced.1.trans le,sourced.2⟩
    | (.prime _,_) => exact sourced
    | (.unlink _,_) | (.fire _ _,_) => trivial
  seen := exact.seen

lemma past : ∀ tick ∈ firings moments, tick ≤ last := by
  intro tick inside
  obtain ⟨⟨e,w⟩,inside,fired⟩ := mem_filterMap.mp inside
  obtain ⟨earlier,later,split⟩ := append_of_mem inside
  cases e with
  | fire n at' =>
    cases fired
    exact (exact.due earlier n tick w later split).2.2.2
  | insert | unlink | prime => cases fired

lemma snoc {e : WheelEvent} {w : TimerWheel} (wf : w.Wf)
    (sourced : Sourced callbacks first last e) (due : ∀ n tick, e = .fire n tick → pending (before++moments) n = some tick ∧ tick = last ∧
    w.nowTick = last ∧ first < last) : Exact callbacks before (moments++[(e,w)]) first last where
  due := by
    intro earlier n tick w' rest split
    rcases eq_nil_or_concat rest with rfl | ⟨rest,m,rfl⟩
    · obtain ⟨rfl,same⟩ := append_inj' split rfl
      cases same
      obtain ⟨queued,rfl,same,above⟩ := due n tick rfl
      exact ⟨queued,same,above,le_rfl⟩
    rw [concat_eq_append,← cons_append,← append_assoc] at split
    exact exact.due earlier n tick w' rest (append_inj' split rfl).1
  ordered := by
    rw [firings_append,pairwise_append]
    refine ⟨exact.ordered,?_,?_⟩
    · cases e <;> simp [firings,WheelEvent.firedAt]
    intro tick inside next added
    cases e with
    | fire n at' =>
      cases mem_singleton.mp added
      exact (exact.past tick inside).trans_eq (due n _ rfl).2.1.symm
    | insert | unlink | prime => cases added
  sourced := by
    intro m inside
    rcases mem_append.mp inside with inside | inside
    · exact exact.sourced m inside
    cases mem_singleton.mp inside
    exact sourced
  seen := by
    intro m inside
    rcases mem_append.mp inside with inside | inside
    · exact exact.seen m inside
    cases mem_singleton.mp inside
    exact wf
end Exact

/-- An advance that began at the tick `first` after the history `before`, where the wheel has the clock
of `w`. -/
structure Sweep (callbacks : Nat → List WheelCall) (before : List Moment) (first : Nat) (w : TimerWheel)
    (s : WheelOwner) : Prop where
  holds : s.wheel.Holds s.expiryTick (pending s.history)
  clock : SameClock w s.wheel
  told : ∃ moments, s.history = before++moments ∧ Exact callbacks before moments first w.nowTick

section
variable {callbacks : Nat → List WheelCall} {before : List Moment} {first : Nat} {w : TimerWheel} {s : WheelOwner}
variable (sweep : s.Sweep callbacks before first w)
include sweep

lemma Sweep.note {wheel : TimerWheel} {expiryTick : NodeRef → Nat}
    {e : WheelEvent} (holds : wheel.Holds expiryTick (e.apply (pending s.history)))
    (clock : SameClock s.wheel wheel) (sourced : Sourced callbacks first w.nowTick e)
    (due : ∀ n tick, e = .fire n tick → pending s.history n = some tick ∧ tick = w.nowTick ∧ first < w.nowTick) :
    (WheelOwner.note {s with wheel := wheel, expiryTick := expiryTick} e).Sweep callbacks before first w := by
  obtain ⟨moments,grown,exact⟩ := sweep.told
  have clock := sweep.clock.trans clock
  refine ⟨?_,clock,moments++[(e,wheel)],?_,exact.snoc holds.wf sourced fun n tick fired => ?_⟩
  · change wheel.Holds expiryTick (pending (s.history++[(e,wheel)]))
    rw [pending_snoc]
    exact holds
  · change s.history++_ = _
    rw [grown,append_assoc]
  obtain ⟨queued,now,above⟩ := due n tick fired
  exact ⟨grown ▸ queued,now,clock.nowTick,above⟩

lemma Sweep.call {c : WheelCall} {i : Nat} (from' : c ∈ callbacks i) :
    (s.call c).Sweep callbacks before first w ∧ (s.call c).wheel.due.length ≤ s.wheel.due.length := by
  cases c with
  | insert n tick =>
    change (s.insert n tick).Sweep callbacks before first w ∧ (s.insert n tick).wheel.due.length ≤ _
    unfold WheelOwner.insert
    split
    · next may =>
      obtain ⟨holds,due⟩ := sweep.holds.insert may.1 may.2
      exact ⟨sweep.note holds ⟨rfl,rfl,rfl,rfl⟩
        ⟨sweep.clock.nowTick.le,i,from'⟩ nofun,le_of_eq (congrArg List.length due)⟩
    · exact ⟨sweep,le_rfl⟩
  | unlink n => exact ⟨sweep.note (sweep.holds.unlink n) (unlink_clock ..) trivial nofun, unlink_due s.wheel n⟩

lemma Sweep.calls {cs : List WheelCall} {i : Nat} (from' : cs ⊆ callbacks i) :
    (s.calls cs).Sweep callbacks before first w ∧ (s.calls cs).wheel.due.length ≤ s.wheel.due.length := by
  induction cs generalizing s with
  | nil => exact ⟨sweep,le_rfl⟩
  | cons _ _ ih =>
    obtain ⟨next,fewer⟩ := sweep.call (from' mem_cons_self)
    obtain ⟨last,rest⟩ := ih next (subset_of_cons_subset from')
    exact ⟨last,rest.trans fewer⟩

lemma Sweep.fire (above : first < w.nowTick) {n : NodeRef} {rest : List NodeRef} (front : s.wheel.due = n::rest) :
    s.expiryTick n ≤ (s.wheel.pull n).nowTick ∧
    (WheelOwner.fire callbacks {s with wheel := s.wheel.pull n} n).Sweep callbacks before first w ∧
      (WheelOwner.fire callbacks {s with wheel := s.wheel.pull n} n).wheel.due.length ≤ rest.length := by
  obtain ⟨linked,left⟩ := pull_due sweep.holds.wf front
  obtain ⟨due,queued⟩ := sweep.holds.due linked
  have clock := pull_clock s.wheel n
  have noted := sweep.note (e := .fire n (s.wheel.pull n).nowTick) (sweep.holds.pull linked) clock
    trivial fun m tick fired => by
      cases fired
      exact ⟨clock.nowTick ▸ queued,clock.nowTick.trans sweep.clock.nowTick,above⟩
  obtain ⟨after,fewer⟩ := Sweep.calls (s := {WheelOwner.note {s with wheel := s.wheel.pull n}
    (.fire n (s.wheel.pull n).nowTick) with fired := s.fired+1})
    ⟨noted.holds,noted.clock,noted.told⟩ (List.Subset.refl (callbacks s.fired))
  exact ⟨clock.nowTick ▸ due,after,fewer.trans_eq (congrArg List.length left)⟩

lemma Sweep.step (drained : s.wheel.Drained) (primed : w.primed = true) (above : first ≤ w.nowTick) :
    let s' := TimerWheel.advanceStep host (WheelOwner.fire callbacks) s
    s'.Sweep callbacks before first {w with nowTick := w.nowTick+1} ∧ s'.wheel.Drained ∧
      TimerWheel.advanceStepStrict host (WheelOwner.fire callbacks) s = some s' := by
  intro _
  obtain ⟨moments,grown,exact⟩ := sweep.told
  have clock := (step_spec sweep.holds.wf s.expiryTick fun n b linked => (sweep.holds.placed drained linked).1).2.2.1
  have now : (s.wheel.step s.expiryTick).nowTick = w.nowTick+1 := by
    rw [clock.nowTick]
    exact congrArg (·+1) sweep.clock.nowTick
  have start : Sweep callbacks before first {w with nowTick := w.nowTick+1}
      {s with wheel := s.wheel.step s.expiryTick} :=
    ⟨sweep.holds.step drained (sweep.clock.primed.trans primed),
      ⟨clock.tick.trans sweep.clock.tick,now,clock.primed.trans sweep.clock.primed,
        clock.maxTicks.trans sweep.clock.maxTicks⟩,
      moments,grown,exact.later (Nat.le_succ _)⟩
  -- the slot being drained is the current one of every state in the loop
  have same : ∀ t : WheelOwner, t.Sweep callbacks before first {w with nowTick := w.nowTick+1} →
      t.wheel.buckets (0,(s.wheel.step s.expiryTick).nowTick % slots) = t.wheel.due := by
    intro t sweep
    rw [now,TimerWheel.due,sweep.clock.nowTick]
  obtain ⟨after,empty,strict⟩ := expireSlot_rule host (WheelOwner.fire callbacks)
    (fun t n rest sweep front => by
      obtain ⟨due,next,fewer⟩ := sweep.fire (Nat.lt_succ_of_le above) ((same t sweep).symm.trans front)
      exact ⟨due,next,(congrArg List.length (same _ next)).trans_le fewer⟩) _ _ start le_rfl
  exact ⟨after,drained_of_due after.holds.wf ((same _ after).symm.trans empty),strict⟩

lemma Sweep.loop (drained : s.wheel.Drained) (primed : w.primed = true) (above : first ≤ w.nowTick) (goal fuel : Nat) :
    let s' := TimerWheel.advanceLoop host (WheelOwner.fire callbacks) goal fuel s
    s'.Sweep callbacks before first {w with nowTick := max w.nowTick (min goal (w.nowTick+fuel))} ∧ s'.wheel.Drained ∧
      TimerWheel.advanceLoopStrict host (WheelOwner.fire callbacks) goal fuel s = some s' := by
  induction fuel generalizing s w with
  | zero =>
    rw [show max w.nowTick (min goal (w.nowTick+0)) = w.nowTick by omega]
    exact ⟨sweep,drained,rfl⟩
  | succ fuel ih =>
    unfold TimerWheel.advanceLoop TimerWheel.advanceLoopStrict
    have now : (host.wheel s).nowTick = w.nowTick := sweep.clock.nowTick
    rw [now]
    by_cases more : w.nowTick < goal
    · rw [if_pos more,if_pos more]
      obtain ⟨next,drained,strict⟩ := sweep.step drained primed above
      rw [strict,bind_some,show max w.nowTick (min goal (w.nowTick+(fuel+1))) =
        max (w.nowTick+1) (min goal (w.nowTick+1+fuel)) by omega]
      exact ih next drained primed (above.trans (Nat.le_succ _))
    rw [if_neg more,if_neg more,show max w.nowTick (min goal (w.nowTick+(fuel+1))) = w.nowTick by omega]
    exact ⟨sweep,drained,rfl⟩
end
section
variable (s : WheelOwner)

structure Rest : Prop where
  holds : s.wheel.Holds s.expiryTick (pending s.history)
  drained : s.wheel.Drained

def startTick (goal : Nat) : Nat := if s.wheel.primed then s.wheel.nowTick else goal-1

def endTick (goal : Nat) : Nat :=
  max (s.startTick goal) (if s.wheel.count = 0 then goal
    else min goal (s.startTick goal+s.wheel.maxTicksPerCall))

def anchored (goal : Nat) : WheelOwner := if s.wheel.primed then s
  else {s.note (.prime goal) with wheel := s.wheel.prime s.expiryTick goal}

lemma advance_eq (callbacks : Nat → List WheelCall) (goal : Nat) : s.advance callbacks goal = (let s := s.anchored goal
    if s.wheel.count = 0 then
    if goal > s.wheel.nowTick then {s with wheel := {s.wheel with nowTick := goal}} else s
      else TimerWheel.advanceLoop host (fire callbacks) goal s.wheel.maxTicksPerCall s) := by
  unfold advance begun anchored TimerWheel.advance
  cases primed : s.wheel.primed <;> simp [host,note,primed]

lemma advanceStrict_eq (callbacks : Nat → List WheelCall) (goal : Nat) :
    s.advanceStrict callbacks goal = (let s := s.anchored goal
      if s.wheel.count = 0 then
        some (if goal > s.wheel.nowTick then {s with wheel := {s.wheel with nowTick := goal}} else s)
      else TimerWheel.advanceLoopStrict host (fire callbacks) goal s.wheel.maxTicksPerCall s) := by
  unfold advanceStrict begun anchored TimerWheel.advanceStrict
  cases primed : s.wheel.primed <;> simp [host,note,primed]

end
namespace Rest
variable {s : WheelOwner}

lemma sweep (rest : s.Rest) (callbacks : Nat → List WheelCall) (first : Nat) :
    s.Sweep callbacks s.history first s.wheel :=
  ⟨rest.holds,.refl _,[],(append_nil _).symm, fun earlier n tick w later split => (by simp at split),.nil,nofun,nofun⟩

lemma anchored (rest : s.Rest) (callbacks : Nat → List WheelCall) (goal : Nat) :
    (s.anchored goal).Sweep callbacks s.history (s.startTick goal)
    {s.wheel with primed := true, nowTick := s.startTick goal} ∧ (s.anchored goal).wheel.Drained ∧
      ((s.anchored goal).wheel.count = 0 ↔ s.wheel.count = 0) := by
  unfold WheelOwner.anchored startTick
  cases primed : s.wheel.primed with
  | true =>
    have sweep := rest.sweep callbacks s.wheel.nowTick
    exact ⟨⟨sweep.holds,⟨rfl,rfl,primed,rfl⟩,sweep.told⟩,rest.drained,Iff.rfl⟩
  | false =>
    obtain ⟨holds,clock,drained⟩ := rest.holds.prime rest.drained primed goal
    refine ⟨⟨?_,⟨clock.tick,clock.nowTick,clock.primed,clock.maxTicks⟩,[(.prime goal,s.wheel)],rfl,
      ?_,.nil,?_,?_⟩,drained,?_⟩
    · change (s.wheel.prime s.expiryTick goal).Holds s.expiryTick (pending (s.history++[(.prime goal,s.wheel)]))
      rw [pending_snoc]
      exact holds
    · intro earlier n tick w later split
      cases earlier with
      | nil => cases split
      | cons m earlier => cases earlier <;> cases split
    · intro m inside
      cases mem_singleton.mp inside
      rfl
    · intro m inside
      cases mem_singleton.mp inside
      exact rest.holds.wf
    have same : ∀ n, (s.wheel.prime s.expiryTick goal).link n = none ↔ s.wheel.link n = none := by
      intro n
      rw [← isNone_iff_eq_none,← isNone_iff_eq_none,← not_isSome,
        ← not_isSome,holds.link_isSome,rest.holds.link_isSome,isSome_map]
    change (s.wheel.prime s.expiryTick goal).count = 0 ↔ _
    rw [holds.wf.count_eq_zero,rest.holds.wf.count_eq_zero]
    exact forall_congr' same

lemma advance (rest : s.Rest) (callbacks : Nat → List WheelCall) (goal : Nat) :
    (s.advance callbacks goal).Sweep callbacks s.history (s.startTick goal)
    {s.wheel with primed := true, nowTick := s.endTick goal} ∧ (s.advance callbacks goal).Rest ∧
      s.advanceStrict callbacks goal = some (s.advance callbacks goal) := by
  obtain ⟨sweep,drained,empty⟩ := rest.anchored callbacks goal
  have now : (s.anchored goal).wheel.nowTick = s.startTick goal := sweep.clock.nowTick
  rw [advance_eq,advanceStrict_eq]
  by_cases none : (s.anchored goal).wheel.count = 0
  · rw [if_pos none,if_pos none,endTick,if_pos (empty.mp none),now]
    by_cases ahead : s.startTick goal < goal
    · rw [if_pos ahead,max_eq_right ahead.le]
      obtain ⟨holds,drained⟩ := sweep.holds.snap sweep.clock.primed none goal
      obtain ⟨moments,grown,exact⟩ := sweep.told
      exact ⟨⟨holds,⟨sweep.clock.tick,rfl,sweep.clock.primed,sweep.clock.maxTicks⟩,moments,grown,
        exact.later ahead.le⟩,⟨holds,drained⟩,rfl⟩
    rw [if_neg ahead,max_eq_left (Nat.not_lt.mp ahead)]
    exact ⟨sweep,⟨sweep.holds,drained⟩,rfl⟩
  rw [if_neg none,if_neg none,endTick,if_neg (mt empty.mpr none),
    show (s.anchored goal).wheel.maxTicksPerCall = s.wheel.maxTicksPerCall from sweep.clock.maxTicks]
  obtain ⟨after,drained,strict⟩ := sweep.loop drained rfl le_rfl goal s.wheel.maxTicksPerCall
  exact ⟨after,⟨after.holds,drained⟩,strict⟩

lemma move (rest : s.Rest) (m : WheelMove) : (s.move m).Rest := by
  cases m with
  | call c =>
    obtain ⟨after,fewer⟩ := (rest.sweep (fun _ => [c]) 0).call (i := 0) mem_cons_self
    refine ⟨after.holds,drained_of_due after.holds.wf (eq_nil_of_length_eq_zero (Nat.le_zero.mp (fewer.trans_eq ?_)))⟩
    rw [length_eq_zero_iff,eq_nil_iff_forall_not_mem]
    exact fun n inside => rest.drained n ((rest.holds.wf.mem _ n).mp inside)
  | advance goal callbacks => exact (rest.advance callbacks goal).2.1
  | setMaxTicksPerCall =>
    obtain ⟨⟨wf,epoch,waits,free⟩,drained⟩ := rest
    exact ⟨⟨⟨wf.mem,wf.nodup,wf.range,wf.count⟩,epoch,waits,free⟩,drained⟩
end Rest

lemma run_rest (tick : Int) (moves : List WheelMove) : ((create tick).run moves).Rest := by
  have start : (create tick).Rest := ⟨.create tick,nofun⟩
  unfold run
  induction moves using List.reverseRecOn with
  | nil => exact start
  | append_singleton _ m ih =>
    rw [foldl_concat]
    exact ih.move m

/-- An advance fires exactly what is due at its ticks, whatever callbacks do, and never puts back a node of the current
slot. -/
theorem advance_exact (tick : Int) (moves : List WheelMove) (callbacks : Nat → List WheelCall) (goal : Nat) :
    let s := (create tick).run moves
    let s' := s.advance callbacks goal
    (∃ moments, s'.history = s.history++moments ∧
      Exact callbacks s.history moments (s.startTick goal) s'.wheel.nowTick) ∧
    s'.wheel.nowTick = s.endTick goal ∧
    (∀ n effective, pending s'.history n = some effective → s'.wheel.nowTick < effective) ∧
    (∀ n, (s.wheel.link n).isSome = (pending s.history n).isSome) ∧ s.wheel.Wf ∧ s'.wheel.Wf ∧
    s.advanceStrict callbacks goal = some s' := by
  intro s s'
  have rest : s.Rest := run_rest tick moves
  obtain ⟨sweep,after,strict⟩ := rest.advance callbacks goal
  have now : s'.wheel.nowTick = s.endTick goal := sweep.clock.nowTick
  exact ⟨now.symm ▸ sweep.told,now,fun n effective queued => after.holds.later after.drained queued,
    rest.holds.link_isSome,rest.holds.wf,after.holds.wf,strict⟩

end AffiniX.WheelOwner
