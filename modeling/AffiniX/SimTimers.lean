import AffiniX.WheelJumps
import AffiniX.Transition

/-! One-shot timers under the simulated runtime. Times are nanoseconds; timers are armed at whole ticks. -/
namespace AffiniX
open Transition Function List WheelEvent TimerWheel Nat WheelOwner
namespace WheelEvent
def arm (queue : NodeRef → Option Nat) : WheelEvent → NodeRef → Option Nat
  | .insert n expiryTick _ => update queue n (some expiryTick)
  | .unlink n | .fire n _ => update queue n none
  | .prime _ => queue
end WheelEvent

def armedFor (history : List Moment) : NodeRef → Option Nat :=
  history.foldl (fun queue m => m.1.arm queue) fun _ => none

lemma armedFor_snoc (history : List Moment) (m : Moment) : armedFor (history++[m]) = m.1.arm (armedFor history) := by
  simp [armedFor]

/-- The callbacks among these events: what each was armed for, and the `now` of its context. -/
def callbacksAt (now : Nat) (before : List Moment) : List Moment → List (Option Nat × Nat)
  | [] => []
  | (.fire n tick,w)::later => (armedFor before n,now)::callbacksAt now (before++[(.fire n tick,w)]) later
  | m::later => callbacksAt now (before++[m]) later

lemma mem_callbacksAt {now : Nat} {before moments : List Moment} {r : Option Nat × Nat}
    (inside : r ∈ callbacksAt now before moments) : ∃ earlier n tick w later,
    moments = earlier++(.fire n tick,w)::later ∧ r = (armedFor (before++earlier) n,now) := by
  induction moments generalizing before with
  | nil => cases inside
  | cons m later ih =>
    have rest (inside : r ∈ callbacksAt now (before++[m]) later) : ∃ earlier n tick w later',
        m::later = earlier++(.fire n tick,w)::later' ∧ r = (armedFor (before++earlier) n,now) := by
      obtain ⟨earlier,n,tick,w,later',split,same⟩ := ih inside
      refine ⟨m::earlier,n,tick,w,later',congrArg (m::·) split,?_⟩
      rwa [append_assoc] at same
    obtain ⟨e,w⟩ := m
    cases e with
    | fire n tick =>
      rcases mem_cons.mp inside with same | inside
      · exact ⟨[],n,tick,w,later,rfl,by rwa [append_nil]⟩
      · exact rest inside
    | insert | unlink | prime => exact rest inside

structure SimShard where
  owner : WheelOwner
  now : Nat
  idle : Bool
  ran : List (Option Nat × Nat)

structure SimTimers (k : Nat) where
  tick : Nat
  now : Nat
  shard : Fin k → SimShard

namespace SimTimers
variable {k : Nat}

def create (k tick : Nat) : SimTimers k := ⟨tick,0,fun _ => ⟨.create tick,0,false,[]⟩⟩

variable (s : SimTimers k)

def setShard (i : Fin k) (p : SimShard) : SimTimers k := {s with shard := update s.shard i p}

def expiryTick (now more : Nat) : Nat := now / s.tick+(more+1)

/-- `poll_once` of shard `i`, whose `j`th callback arms timers. -/
def pollOnce (i : Fin k) (arms : Nat → List (NodeRef × Nat)) : SimShard := let before := (s.shard i).owner
  let calls := fun j => if s.tick ∣ s.now then
    (arms j).map fun a => WheelCall.insert a.1 (s.expiryTick s.now a.2) else []
  let owner := before.advance calls (s.now / s.tick)
  let ran := callbacksAt s.now before.history (owner.history.drop before.history.length)
  ⟨owner,s.now,ran.isEmpty,(s.shard i).ran++ran⟩

def nextWakeup (i : Fin k) : Option Nat := (s.shard i).owner.wheel.nextDueTick.map (·*s.tick)

def next (s : SimTimers k) (target : Nat) : Nat := let next := ((finRange k).filterMap s.nextWakeup).foldl min target
  if next ≤ s.now then s.now+1 else next

inductive Move (k : Nat)
  | arm (i : Fin k) (n : NodeRef) (more : Nat)
  | poll (i : Fin k) (arms : Nat → List (NodeRef × Nat))
  | jump (target : Nat)

/-- A timer armed outside of callbacks; a poll; and the end of a round, where the event managers read the time and then
the clocks are set. -/
def step : Move k → Option (SimTimers k)
  | .arm i n more =>
    let p := s.shard i
    if s.tick ∣ p.now ∧ p.owner.wheel.link n = none ∧ fits (s.expiryTick p.now more) p.owner.wheel.nowTick then
      some (s.setShard i {p with owner := p.owner.insert n (s.expiryTick p.now more), idle := false})
    else none
  | .poll i arms => some (s.setShard i (s.pollOnce i arms))
  | .jump target =>
    if s.now < target ∧ ∀ i, (s.shard i).idle then
      some {s with
        now := s.next target
        shard := fun i => {s.shard i with now := s.now, idle := false} }
    else none

/-- A timer is armed when the time has been read, and time does not get to an expiry further ahead of its wheel than one
`advance` goes. -/
def Followed : Move k → Prop
  | .arm i _ _ => (s.shard i).now = s.now
  | .poll _ _ => True
  | .jump target => ∀ i, ∀ n ∈ (s.shard i).owner.wheel.bucketNodes, let w := (s.shard i).owner.wheel
      let e := TimerWheel.target ((s.shard i).owner.expiryTick n) w.nowTick
      e*s.tick = s.next target → e ≤ w.nowTick+w.maxTicksPerCall

instance (s : SimTimers k) : DecidablePred s.Followed
  | .arm i _ _ => inferInstanceAs (Decidable ((s.shard i).now = s.now))
  | .poll _ _ => .isTrue trivial
  | .jump _ => inferInstanceAs (Decidable (∀ i, ∀ n ∈ (s.shard i).owner.wheel.bucketNodes, _ → _ ≤ _))

structure Sound (tick now : Nat) (p : SimShard) : Prop where
  rest : p.owner.Rest
  cap : p.owner.wheel.maxTicksPerCall = 4096
  exact : pending p.owner.history = armedFor p.owner.history
  ahead : ∀ n e, pending p.owner.history n = some e → now ≤ e*tick
  reach : ∀ n e, pending p.owner.history n = some e → e*tick = now → e ≤ p.owner.wheel.nowTick+4096
  behind : p.owner.wheel.nowTick ≤ now / tick
  idle : p.idle → ∀ n e, pending p.owner.history n = some e → now < e*tick
  ran : ∀ r ∈ p.ran, ∃ e, r = (some e,e*tick)

section
variable {tick now : Nat}

lemma lt_of_div_lt (positive : 0 < tick) {e : Nat} (later : now / tick < e) : now < e*tick :=
  (div_lt_iff_lt_mul positive).mp later

lemma pending_bound {before moments : List Moment} {calls : Nat → List WheelCall} {first last : Nat} {Q : Nat → Prop}
    (start : ∀ n e, pending before n = some e → Q e ∧ first < e) (exact : pending before = armedFor before)
    (calls' : ∀ i n e, .insert n e ∈ calls i → Q e ∧ first < e ∧ last < e)
    (sourced : ∀ m ∈ moments, Sourced calls first last m.1) :
    (∀ n e, pending (before++moments) n = some e → Q e ∧ first < e) ∧ pending (before++moments)
    = armedFor (before++moments) := by
  induction moments using reverseRecOn with
  | nil =>
    rw [append_nil]
    exact ⟨start,exact⟩
  | append_singleton moments m ih =>
    obtain ⟨bound,same⟩ := ih fun m inside => sourced m (mem_append_left _ inside)
    have source := sourced m (mem_append_right _ mem_cons_self)
    rw [← append_assoc,pending_snoc,armedFor_snoc,← same]
    have removed (n : NodeRef) : ∀ m e, update (pending (before++moments)) n none m = some e → Q e ∧ first < e := by
      intro m e queued
      by_cases own : m = n
      · rw [own,update_self] at queued
        cases queued
      rw [update_of_ne own] at queued
      exact bound m e queued
    obtain ⟨e,w⟩ := m
    cases e with
    | insert n e at' =>
      obtain ⟨early,i,inside⟩ := source
      have later := calls' i n e inside
      have own : max e (at'+1) = e := max_eq_left (by omega)
      refine ⟨fun m e' queued => ?_,by simp only [apply,WheelEvent.arm,own]⟩
      simp only [apply,own] at queued
      obtain ⟨rfl,rfl⟩ | ⟨_,queued⟩ := lookup queued
      · exact ⟨later.1,later.2.1⟩
      · exact bound m e' queued
    | unlink n | fire n => exact ⟨removed n,rfl⟩
    | prime target =>
      have first' : first = target-1 := source
      have own : apply (pending (before++moments)) (.prime target) = pending (before++moments) := by
        funext n
        cases queued : pending (before++moments) n with
        | none => simp [apply,queued]
        | some e =>
          have := (bound n e queued).2
          have : max e (max target 1) = e := by omega
          simp [apply,queued,this]
      rw [own]
      exact ⟨bound,rfl⟩
end

variable {s t : SimTimers k}

lemma pollOnce_sound (positive : 0 < s.tick) {i : Fin k} (sound : Sound s.tick s.now (s.shard i))
    (arms : Nat → List (NodeRef × Nat)) : Sound s.tick s.now (s.pollOnce i arms) := by
  obtain ⟨rest,cap,exact,ahead,reach,behind,_,ran⟩ := sound
  unfold pollOnce
  extract_lets before calls owner new
  obtain ⟨sweep,after,_⟩ := rest.advance calls (s.now / s.tick)
  change owner.Rest at after
  obtain ⟨moments,grown,told⟩ := sweep.told
  have now : owner.wheel.nowTick = before.endTick (s.now / s.tick) := sweep.clock.nowTick
  have upTo : before.endTick (s.now / s.tick) ≤ s.now / s.tick := by
    change before.wheel.nowTick ≤ s.now / s.tick at behind
    unfold WheelOwner.endTick WheelOwner.startTick
    split <;> split <;> omega
  have first : before.startTick (s.now / s.tick) ≤ s.now / s.tick := by
    unfold WheelOwner.startTick
    split <;> omega
  have above : ∀ n e, pending before.history n = some e → before.startTick (s.now / s.tick) < e := by
    intro n e queued
    have later := rest.holds.later rest.drained queued
    have reached := Nat.div_le_of_le_mul (Nat.mul_comm e s.tick ▸ ahead n e queued)
    unfold WheelOwner.startTick
    split <;> omega
  have called : ∀ j n e, .insert n e ∈ calls j → s.now / s.tick < e := by
    intro j n e inside
    dsimp only [calls] at inside
    split at inside
    · obtain ⟨a,_,same⟩ := mem_map.mp inside
      cases same
      unfold expiryTick
      omega
    · cases inside
  have bound (Q : Nat → Prop) (start : ∀ n e, pending before.history n = some e → Q e)
      (later : ∀ e, s.now / s.tick < e → Q e) (earlier later' : List Moment)
      (split : moments = earlier++later') :=
    pending_bound (fun n e queued => ⟨start n e queued,above n e queued⟩) exact
      (fun j n e inside => ⟨later e (called j n e inside),first.trans_lt (called j n e inside),
        upTo.trans_lt (called j n e inside)⟩)
      fun m inside => told.sourced m (split ▸ mem_append_left later' inside)
  have kept := bound (s.now ≤ ·*s.tick) ahead (fun e later => (lt_of_div_lt positive later).le)
  -- a timer that is due now is within reach of this advance, and so does not wait any longer
  have passed : ∀ n e, pending owner.history n = some e → s.now < e*s.tick := by
    by_cases due : ∃ n e, pending before.history n = some e ∧ e*s.tick = s.now
    · obtain ⟨m,d,queued,same⟩ := due
      have goal : s.now / s.tick = d := by rw [← same,Nat.mul_div_cancel _ positive]
      have near : d ≤ before.wheel.nowTick+4096 := reach m d queued same
      have cap : before.wheel.maxTicksPerCall = 4096 := cap
      have busy : before.wheel.count ≠ 0 := fun empty => by
        have linked := rest.holds.link_isSome m
        rw [queued,rest.holds.wf.count_eq_zero.mp empty] at linked
        cases linked
      have reached : s.now / s.tick ≤ owner.wheel.nowTick := by
        rw [now,WheelOwner.endTick,if_neg busy,WheelOwner.startTick]
        split <;> omega
      exact fun n e queued => lt_of_div_lt positive (reached.trans_lt (after.holds.later after.drained queued))
    rw [grown]
    intro n e queued
    exact ((bound (s.now < ·*s.tick) (fun n e queued => lt_of_le_of_ne (ahead n e queued)
      fun same => due ⟨n,e,queued,same.symm⟩) (fun e later => lt_of_div_lt positive later)
      moments [] (append_nil _).symm).1 n e queued).1
  refine ⟨after,sweep.clock.maxTicks.trans cap,?_,fun n e queued => (passed n e queued).le,
    fun n e queued same => absurd same (passed n e queued).ne',now.trans_le upTo,fun _ => passed,?_⟩
  · change pending owner.history = armedFor owner.history
    rw [grown]
    exact (kept moments [] (append_nil _).symm).2
  intro r inside
  rcases mem_append.mp inside with inside | inside
  · exact ran r inside
  dsimp only [new] at inside
  rw [grown,drop_left] at inside
  obtain ⟨earlier,n,tick,w,later,split,same⟩ := mem_callbacksAt inside
  obtain ⟨queued,_,_,last⟩ := told.due earlier n tick w later split
  obtain ⟨low,armed⟩ := kept earlier _ split
  have instant : s.now = tick*s.tick := by
    refine le_antisymm (low n tick queued).1 ?_
    exact (Nat.mul_le_mul_right _ (last.trans upTo)).trans (Nat.div_mul_le_self _ _)
  refine ⟨tick,same.trans ?_⟩
  rw [← armed,queued,← instant]

lemma arm_sound (positive : 0 < s.tick) {p : SimShard} {n : NodeRef} (more : Nat)
    (sound : Sound s.tick s.now p) (free : p.owner.wheel.link n = none)
    (fits : TimerWheel.fits (s.expiryTick s.now more) p.owner.wheel.nowTick = true) :
    Sound s.tick s.now {p with owner := p.owner.insert n (s.expiryTick s.now more), idle := false} := by
  have rest := sound.rest.move (.call (.insert n (s.expiryTick s.now more)))
  change (p.owner.insert n (s.expiryTick s.now more)).Rest at rest
  have behind := sound.behind
  have later : s.now / s.tick < s.expiryTick s.now more := by unfold expiryTick; omega
  have own : max (s.expiryTick s.now more) (p.owner.wheel.nowTick+1) = s.expiryTick s.now more :=
    max_eq_left (by omega)
  have queue : ∀ w, pending (p.owner.history++[(.insert n (s.expiryTick s.now more) p.owner.wheel.nowTick,w)]) =
      update (pending p.owner.history) n (some (s.expiryTick s.now more)) := by
    intro w
    rw [pending_snoc,apply,own]
  unfold WheelOwner.insert at rest ⊢
  rw [if_pos ⟨free,fits⟩] at rest ⊢
  have either : ∀ m e, update (pending p.owner.history) n (some (s.expiryTick s.now more)) m = some e →
      pending p.owner.history m = some e ∨ s.now < e*s.tick := by
    intro m e queued
    obtain ⟨rfl,rfl⟩ | ⟨_,queued⟩ := lookup queued
    · exact .inr (lt_of_div_lt positive later)
    · exact .inl queued
  refine ⟨rest,sound.cap,?_,?_,?_,sound.behind,nofun,sound.ran⟩
  · change pending (p.owner.history++[_]) = armedFor (p.owner.history++[_])
    rw [queue,armedFor_snoc,WheelEvent.arm,sound.exact]
  · intro m e queued
    change pending (p.owner.history++[_]) m = some e at queued
    rw [queue] at queued
    exact (either m e queued).elim (sound.ahead m e) le_of_lt
  intro m e queued same
  change pending (p.owner.history++[_]) m = some e at queued
  rw [queue] at queued
  exact (either m e queued).elim (fun old => sound.reach m e old same) fun after => absurd same after.ne'

lemma foldl_min_le (times : List Nat) (target : Nat) :
    times.foldl min target ≤ target ∧ ∀ time ∈ times, times.foldl min target ≤ time := by
  induction times generalizing target with
  | nil => exact ⟨le_rfl,nofun⟩
  | cons time _ ih =>
    obtain ⟨below,each⟩ := ih (min target time)
    refine ⟨below.trans (min_le_left _ _),fun other inside => ?_⟩
    rcases mem_cons.mp inside with rfl | inside
    · exact below.trans (min_le_right _ _)
    · exact each other inside

lemma next_le {i : Fin k} {target n e : Nat} (rest : (s.shard i).owner.Rest)
    (queued : pending (s.shard i).owner.history n = some e) (ahead : s.now < e*s.tick) :
    s.next target ≤ e*s.tick := by
  obtain ⟨due,same,early⟩ := rest.nextDueTick_le queued
  have wakeup : s.nextWakeup i = some (due*s.tick) := by rw [nextWakeup,same,Option.map_some]
  have bound := (foldl_min_le ((finRange k).filterMap s.nextWakeup) target).2 _
    (mem_filterMap.mpr ⟨i,mem_finRange i,wakeup⟩)
  have := mul_le_mul_right s.tick early
  unfold next
  dsimp only
  split <;> omega

lemma step_sound (positive : 0 < s.tick) {m : Move k} (sound : ∀ i, Sound s.tick s.now (s.shard i))
    (followed : s.Followed m) (taken : s.step m = some t) :
    t.tick = s.tick ∧ ∀ i, Sound t.tick t.now (t.shard i) := by
  have set (i : Fin k) (p : SimShard) (there : Sound s.tick s.now p) :
      ∀ j, Sound s.tick s.now ((s.setShard i p).shard j) := by
    intro j
    unfold setShard
    dsimp only
    rw [update_apply]
    split
    · exact there
    · exact sound j
  cases m with
  | arm i n more =>
    obtain ⟨⟨_,free,fits⟩,rfl⟩ := enabled taken
    have read : s.expiryTick (s.shard i).now more = s.expiryTick s.now more := congrArg (s.expiryTick · more) followed
    rw [read] at fits ⊢
    exact ⟨rfl,set i _ (arm_sound positive more (sound i) free fits)⟩
  | poll i arms =>
    cases taken
    exact ⟨rfl,set i _ (pollOnce_sound positive (sound i) arms)⟩
  | jump target =>
    obtain ⟨⟨_,idle⟩,rfl⟩ := enabled taken
    refine ⟨rfl,fun i => ?_⟩
    have here := sound i
    have later : s.now ≤ s.next target := by
      unfold next
      dsimp only
      split <;> omega
    refine ⟨here.rest,here.cap,here.exact,fun n e queued =>
      next_le here.rest queued (here.idle (idle i) n e queued),fun n e queued same => ?_,
      here.behind.trans (Nat.div_le_div_right later),nofun,here.ran⟩
    have linked := (here.rest.holds.link_isSome n).trans (congrArg Option.isSome queued)
    obtain ⟨b,at'⟩ := Option.isSome_iff_exists.mp linked
    cases queued.symm.trans (here.rest.holds.placed here.rest.drained at').2
    exact here.cap ▸ followed i n ((here.rest.holds.wf.mem_bucketNodes n).mpr linked) same

/-- Every callback runs at the instant it was armed for, on any number of shards, and no timer stays
armed past that instant. -/
theorem timers_exact {tick : Nat} (positive : 0 < tick) {moves : List (Move k)}
    (run : Exec (Guarded (Via step) Followed) (create k tick) moves s) (i : Fin k) :
    (∀ r ∈ (s.shard i).ran, ∃ e, r = (some e,e*tick)) ∧
      ∀ n e, armedFor (s.shard i).owner.history n = some e → s.now ≤ e*tick := by
  have start : ∀ i, Sound tick 0 ((create k tick).shard i) := fun i =>
    ⟨run_rest tick [],rfl,rfl,nofun,nofun,zero_le _,nofun,nofun⟩
  obtain ⟨same,sound⟩ := run.invariant (fun s => s.tick = tick ∧ ∀ i, Sound s.tick s.now (s.shard i))
    (fun s m t head inv => by
      obtain ⟨same,sound⟩ := step_sound (inv.1 ▸ positive) inv.2 head.1 head.2
      exact ⟨same.trans inv.1,sound⟩) ⟨rfl,start⟩
  rw [same] at sound
  exact ⟨(sound i).ran,(sound i).exact ▸ (sound i).ahead⟩

theorem timer_at_fifty : ∃ s : SimTimers 1, Exec (Guarded (Via step) Followed)
      (create 1 10) [.arm 0 0 4,.poll 0 fun _ => [],.jump 1000,.poll 0 fun _ => []] s ∧
    (s.shard 0).ran = [(some 5,50)] ∧ ∀ r ∈ (s.shard 0).ran, ∃ e, r = (some e,e*10) :=
  Exec.seen_of_drive (by decide +kernel) fun _ run _ => (timers_exact (by decide) run 0).1

def farTimer : WheelOwner := (WheelOwner.create 1000).run [.call (.insert 0 5120),.advance 0 fun _ => []]

def atExpiry : SimTimers 1 := ⟨1000,5120000,fun _ => ⟨farTimer,0,false,[]⟩⟩

lemma atExpiry_pollOnce : atExpiry.pollOnce 0 (fun _ => []) = ⟨farTimer.shifted 4096,5120000,true,[]⟩ := by
  have rest : farTimer.Rest := WheelOwner.run_rest _ _
  have due : farTimer.wheel.nextDueTick = some 5120 := by decide +kernel
  have clock : farTimer.wheel.nowTick = 0 ∧ farTimer.wheel.maxTicksPerCall = 4096 ∧
    farTimer.wheel.count ≠ 0 ∧ farTimer.endTick 5120 = 4096 := by decide +kernel
  have quiet (callbacks : Nat → List WheelCall) : farTimer.advance callbacks 5120 = farTimer.shifted 4096 := by
    rw [rest.advance_quiet (by decide +kernel) clock.2.2.1 callbacks,clock.2.2.2]
    intro tick later _ n b linked serviced
    obtain ⟨_,same,_,below⟩ := TimerWheel.nextDueTick_spec rest.holds.wf clock.2.2.1
    cases due.symm.trans same
    have := (TimerWheel.candidate_spec farTimer.wheel.nowTick (rest.holds.wf.range n b linked).2).2.2
      tick later serviced
    have := below n b linked
    omega
  unfold pollOnce
  simp [atExpiry,quiet,WheelOwner.shifted,callbacksAt]

/-- Time has gone to 100 unread: a timer armed for 50 runs at 100. A poll at the expiry of one of 5120 ticks does
nothing. -/
theorem timer_late : (∃ s : SimTimers 1, Exec (Guarded (Via step) fun _ _ => True)
      (create 1 10) [.poll 0 fun _ => [],.jump 100,.arm 0 0 4,.poll 0 fun _ => []] s ∧
      (s.shard 0).ran = [(some 5,100)]) ∧
    (atExpiry.pollOnce 0 fun _ => []).ran = [] ∧
    (atExpiry.setShard 0 (atExpiry.pollOnce 0 fun _ => [])).next (10^7) = 5120*1000+1 := by
  refine ⟨Exec.end_of_drive (by decide +kernel),?_⟩
  rw [atExpiry_pollOnce]
  decide +kernel

end SimTimers
end AffiniX
