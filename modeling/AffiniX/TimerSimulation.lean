import AffiniX.TimerPolls

/-! The timers refine the table of deadlines: every run of calls and polls that keeps the
wheel's pace is a run of the table, and every poll in it returns. -/
namespace AffiniX
open Int List

lemma Deadline.next_le (d : Deadline) (repeats : d.period > 0) (reading : Int) :
    d.next reading ≤ reading + d.period := by
  unfold next missed
  cases d.mode with
  | fixedRate =>
    have := Int.ediv_mul_le (reading - d.expiry) (by omega : d.period ≠ 0)
    linarith
  | fixedDelay => exact le_refl _

namespace Timers
open Transition Deadline Option Timers TimerWheel
open TimerWheel (slots target SameClock)
variable {s t : Timers} {tick : Int} {reading : Fin (2^63)}

lemma armed_moveWheel {w : TimerWheel} (f : Int → Int) (domain : ∀ n, w.link n = none ↔ s.wheel.link n = none)
    (moved : ∀ n b, w.link n = some b →
    (({s with wheel := w} : Timers).effectiveTick n : Int) = f (s.effectiveTick n)) (h : Handle) :
    ({s with wheel := w} : Timers).armed h = (s.armed h).map fun d =>
      match d.home with
      | .heap => d
      | .wheel e => {d with home := .wheel (f e)} := by
  have linked : (w.link h.idx).isSome = (s.wheel.link h.idx).isSome := by
    rw [Bool.eq_iff_iff,← not_iff_not]
    simpa using domain h.idx
  have queued : ({s with wheel := w} : Timers).queued h.idx = s.queued h.idx :=
    congrArg (· || (s.node h.idx).inHeap) linked
  unfold armed
  rw [queued]
  change (if s.timers.holds h && s.queued h.idx then _ else _) = _
  split
  · next found =>
    rw [Bool.and_eq_true,queued_iff] at found
    rw [map_some]
    congr 1
    unfold deadlineOf
    change (⟨(s.node h.idx).expiry,_,_,_,_,if (s.node h.idx).inHeap then _ else _⟩ : Deadline) = _
    cases flag : (s.node h.idx).inHeap with
    | true => rfl
    | false =>
      obtain ⟨b,link⟩ := isSome_iff_exists.mp (linked.trans (found.2.resolve_right (by simp [flag])))
      simp only [Bool.false_eq_true,if_false,moved h.idx b link]
      rfl
  · rfl

lemma armed_keepWheel {w : TimerWheel} (domain : ∀ n, w.link n = none ↔ s.wheel.link n = none)
    (same : ∀ n b, w.link n = some b → ({s with wheel := w} : Timers).effectiveTick n = s.effectiveTick n) :
    ({s with wheel := w} : Timers).armed = s.armed := by
  funext h
  rw [armed_moveWheel id domain (fun n b linked => by rw [same n b linked]; rfl)]
  refine (congrArg (fun f => (s.armed h).map f) (funext fun d => ?_)).trans map_id'
  cases home : d.home with
  | heap => rfl
  | wheel e =>
    change ({d with home := .wheel e} : Deadline) = d
    rw [← home]

structure Polling (table : Handle → Option Deadline) (groups : Handle → Bool) (tick reading : Int)
    (s : Timers) : Prop where
  sound : s.Sound
  quiet : s.firing = none
  proper : s.misused = false
  primed : s.wheel.primed = true
  maxTicks : s.wheel.maxTicksPerCall = 4096
  width : s.wheel.tick = tick
  now : s.now = reading
  reached : s.wheel.nowTick * tick ≤ reading
  waiting : ∀ h, s.timers.holds h = true → (s.node h.idx).cancelled = false → s.Scheduled h.idx ∨ h ∈ s.dead
  periods : ∀ h, s.timers.holds h = true → (s.node h.idx).period < 2^63
  grouped : ∀ g, s.groups.holds g = groups g
  drain : ∃ log, Drain (Due tick reading) (rearm tick reading) table log s.armed ∧
    s.fired = log.map fun entry => entry.2.context reading entry.1

section
variable {table : Handle → Option Deadline} {groups : Handle → Bool} {tick reading : Int}
  (positive : 0 < tick) (low : 0 ≤ reading) (high : reading < 2^63)
  (onTime : ∀ id d, table id = some d → d.expiry ≤ d.instant tick)
variable {s : Timers}

include positive onTime in
lemma Polling.entry_onTime (polling : Polling table groups tick reading s) (id : Handle)
    (d : Deadline) (found : s.armed id = some d) : d.expiry ≤ d.instant tick := by
  obtain ⟨_,drain,_⟩ := polling.drain
  refine drain.invariant (fun d => d.expiry ≤ d.instant tick) ?_ onTime id d found
  intro d _ _ _ again
  unfold rearm at again
  split at again
  · rw [← some.inj again]
    exact homeOf_after positive _ _ _ d
  · contradiction

include positive low high onTime in
lemma Polling.fired (polling : Polling table groups tick reading s) {id : Handle} (held : s.timers.holds id = true)
    (queued : s.Scheduled id.idx) (due : (s.deadlineOf id.idx).Due tick reading)
    (stands : (s.deadlineOf id.idx).insertionTick tick reading = s.wheel.nowTick) : Fired s (pop silent s id.idx)
    id := by
  have entry : s.armed id = some (s.deadlineOf id.idx) := (armed_eq_some _ _ _).mpr ⟨held,queued,rfl⟩
  have late : (s.deadlineOf id.idx).expiry ≤ reading := (polling.entry_onTime positive onTime id _ entry).trans due
  have range : (s.node id.idx).period > 0 → s.InRange ((s.deadlineOf id.idx).next reading) := by
    intro repeats
    have later := (s.deadlineOf id.idx).lt_next repeats reading
    have bound := (s.deadlineOf id.idx).next_le repeats reading
    have short : (s.deadlineOf id.idx).period < 2^63 := polling.periods id held
    refine ⟨?_,by omega⟩
    rw [polling.now]
    omega
  have standing : s.Standing := ⟨polling.width ▸ positive,by
    rw [polling.width,polling.now]
    exact polling.reached⟩
  exact pop_silent polling.sound polling.quiet standing held queued
    (by rw [polling.now]; exact late) (by rw [polling.width,polling.now]; exact stands)
    (by rw [polling.now]; exact range)

include positive low high onTime in
lemma Polling.fire (polling : Polling table groups tick reading s) {id : Handle} (held : s.timers.holds id = true)
    (queued : s.Scheduled id.idx) (due : (s.deadlineOf id.idx).Due tick reading)
    (stands : (s.deadlineOf id.idx).insertionTick tick reading = s.wheel.nowTick) :
    Polling table groups tick reading (pop silent s id.idx) ∧ Stays (s.unlinkTimer id.idx) (pop silent s id.idx) := by
  have entry : s.armed id = some (s.deadlineOf id.idx) := (armed_eq_some _ _ _).mpr ⟨held,queued,rfl⟩
  have fired := polling.fired positive low high onTime held queued due stands
  have proper : (pop silent s id.idx).misused = false := fired.misused.trans polling.proper
  obtain ⟨sound,stays,quiet⟩ := pop_sound silent polling.sound polling.quiet queued proper
  have clock := (unlinkTimer_stays polling.sound.filing id.idx).trans stays
  have alone := polling.sound.life.alone held
  refine ⟨⟨sound,quiet,proper,clock.clock.primed.trans polling.primed,
    clock.clock.maxTicks.trans polling.maxTicks,clock.clock.tick.trans polling.width,
    clock.now.trans polling.now,by rw [clock.clock.nowTick]; exact polling.reached,?_,?_,
    fun g => (fired.groupTable.holds g).trans (polling.grouped g),?_⟩,stays⟩
  · intro h heldToo active
    rw [fired.table.holds] at heldToo
    by_cases own : h = id
    · rw [own]
      exact fired.retired
    obtain ⟨node,link⟩ := fired.others h.idx (alone h own heldToo)
    rw [node] at active
    refine (polling.waiting h heldToo active).imp ?_ (fired.dead h)
    unfold Scheduled
    rw [node,link]
    exact fun before => before
  · intro h heldToo
    rw [fired.table.holds] at heldToo
    by_cases own : h = id
    · rw [own,fired.period]
      exact polling.periods id held
    rw [(fired.others h.idx (alone h own heldToo)).1]
    exact polling.periods h heldToo
  obtain ⟨log,drain,record⟩ := polling.drain
  refine ⟨log ++ [(id,s.deadlineOf id.idx)],?_,?_⟩
  · have armed : (pop silent s id.idx).armed = Function.update s.armed id
        ((s.deadlineOf id.idx).rearm tick reading) := by
      refine armed_update ?_ (fun h _ => fired.table.holds h) alone fired.others
        clock.clock.nowTick fired.groupTable.gen
      rw [fired.entry,polling.width,polling.now]
    rw [armed]
    exact .snoc log _ id _ drain entry due
  rw [fired.fired,record,map_append,polling.now]
  rfl

lemma armed_tick (filing : s.Filing) (drained : ∀ n, s.wheel.link n ≠ some (0,s.wheel.nowTick % slots)) :
    ({s with wheel := s.wheel.step s.expiryTick} : Timers).armed = s.armed := by
  obtain ⟨_,now,_,domain,settled⟩ := step_spec filing.wheel s.expiryTick (filing.placed drained)
  refine armed_keepWheel domain ?_
  intro n b linked
  have here := settled n b linked
  unfold effectiveTick
  rw [if_neg (drained n)]
  change (if (s.wheel.step s.expiryTick).link n = some (0,(s.wheel.step s.expiryTick).nowTick % slots)
    then (s.wheel.step s.expiryTick).nowTick
    else target (s.expiryTick n) (s.wheel.step s.expiryTick).nowTick) = _
  rw [now,linked]
  split
  · next current =>
    rw [some.inj current] at here
    have due := here.due
    unfold target
    omega
  next elsewhere =>
  have later := (here.placed (fun current => elsewhere (congrArg some current))).1
  unfold target
  omega

lemma Polling.step (polling : Polling table groups tick reading s)
    (drained : ∀ n, s.wheel.link n ≠ some (0,s.wheel.nowTick % slots))
    (early : (s.wheel.nowTick + 1) * tick ≤ reading) :
    Polling table groups tick reading {s with wheel := s.wheel.step s.expiryTick} := by
  have filing := polling.sound.filing
  obtain ⟨_,now,clock,domain,_⟩ := step_spec filing.wheel s.expiryTick (filing.placed drained)
  have scheduled : ∀ n, s.Scheduled n → ({s with wheel := s.wheel.step s.expiryTick} : Timers).Scheduled n := by
    intro n queued
    refine queued.imp_left (fun linked => ?_)
    rw [isSome_iff_ne_none] at linked ⊢
    exact fun gone => linked ((domain n).mp gone)
  refine ⟨polling.sound.tick polling.primed drained,polling.quiet,polling.proper,
    clock.primed.trans polling.primed,clock.maxTicks.trans polling.maxTicks,
    clock.tick.trans polling.width,polling.now,?_,?_,polling.periods,polling.grouped,?_⟩
  · change ((s.wheel.step s.expiryTick).nowTick : Int) * tick ≤ reading
    rw [now]
    push_cast
    exact early
  · intro h held active
    exact (polling.waiting h held active).imp_left (scheduled _)
  rw [armed_tick filing drained]
  exact polling.drain

include positive low high onTime in
lemma polling_ticks (goal : Nat) (reached : goal * tick ≤ reading) :
    TickCarried silent goal (Polling table groups tick reading) (fun _ => False) := by
  refine ⟨fun s polling => ⟨polling.sound,polling.quiet⟩,?_,?_,fun _ _ bad => bad, fun _ _ bad => bad⟩
  · intro s n polling linked
    have queued : s.Scheduled n := .inl (by simp [linked])
    have live := (polling.sound.life.scheduled n queued).1
    obtain ⟨id,held,rfl⟩ : ∃ id : Handle, s.timers.holds id = true ∧ id.idx = n :=
      ⟨_,polling.sound.life.holds_id live,by rw [polling.sound.life.ids n live]⟩
    have home : (s.deadlineOf id.idx).home = .wheel s.wheel.nowTick := by
      unfold deadlineOf effectiveTick
      rw [polling.sound.filing.apart _ _ linked,if_pos linked]
      rfl
    refine .inl (polling.fire positive low high onTime held queued ?_ ?_)
    · unfold Due instant
      rw [home]
      have := polling.reached
      linarith
    unfold insertionTick
    rw [home]
  · intro s polling drained _
    refine polling.step drained (le_trans ?_ reached)
    exact mul_le_mul_of_nonneg_right (by omega) (by omega)

lemma Polling.dueInHeap (polling : Polling table groups tick reading s)
    (stands : (s.wheel.nowTick : Int) = reading / tick) {n : NodeRef} (flag : (s.node n).inHeap = true)
    (due : s.expiryKey n ≤ s.now) : ∃ id : Handle, id.idx = n ∧ s.timers.holds id = true ∧ s.Scheduled id.idx ∧
    (s.deadlineOf id.idx).Due tick reading ∧ (s.deadlineOf id.idx).insertionTick tick reading = s.wheel.nowTick := by
  have queued : s.Scheduled n := .inr flag
  have live := (polling.sound.life.scheduled n queued).1
  have own : (s.node n).id.idx = n := by rw [polling.sound.life.ids n live]
  have home : (s.deadlineOf n).home = .heap := by exact if_pos flag
  refine ⟨(s.node n).id,own,polling.sound.life.holds_id live,?_⟩
  rw [own]
  refine ⟨queued,?_,?_⟩
  · unfold Due instant
    rw [home,← polling.now]
    exact due
  unfold insertionTick
  rw [home]
  exact stands.symm

include positive low high onTime in
lemma polling_heap : HeapCarried silent
    (fun s => Polling table groups tick reading s ∧ (s.wheel.nowTick : Int) = reading / tick)
    (fun _ => False) := by
  refine ⟨fun s inv => ⟨inv.1.sound,inv.1.quiet⟩,?_,fun _ _ bad => bad,fun _ _ bad => bad⟩
  rintro s n ⟨polling,stands⟩ flag due
  obtain ⟨id,rfl,held,queued,ripe,tick⟩ := polling.dueInHeap stands flag due
  obtain ⟨next,stays⟩ := polling.fire positive low high onTime held queued ripe tick
  have clock := (unlinkTimer_stays polling.sound.filing id.idx).trans stays
  exact .inl ⟨⟨next,by rw [clock.clock.nowTick]; exact stands⟩,stays⟩

def heapDue (s : Timers) : List NodeRef := s.heap.members.filter fun n => decide (s.expiryKey n ≤ s.now)

lemma mem_heapDue (filing : s.Filing) (n : NodeRef) :
    n ∈ s.heapDue ↔ (s.node n).inHeap = true ∧ s.expiryKey n ≤ s.now := by
  unfold heapDue
  rw [mem_filter,IndexedHeap.mem_members,← filing.inHeap,decide_eq_true_iff]

include positive low high onTime in
lemma heapDue_falls (s : Timers) (n : NodeRef)
    (inv : Polling table groups tick reading s ∧ (s.wheel.nowTick : Int) = reading / tick)
    (flag : (s.node n).inHeap = true) (due : s.expiryKey n ≤ s.now) :
    (pop silent s n).heapDue.length < s.heapDue.length := by
  obtain ⟨polling,stands⟩ := inv
  obtain ⟨id,rfl,held,queued,ripe,tick⟩ := polling.dueInHeap stands flag due
  have fired := polling.fired positive low high onTime held queued ripe tick
  obtain ⟨next,_⟩ := polling.fire positive low high onTime held queued ripe tick
  have member := (mem_heapDue polling.sound.filing id.idx).mpr ⟨flag,due⟩
  have fewer : (pop silent s id.idx).heapDue ⊆ s.heapDue.erase id.idx := by
    intro m inside
    obtain ⟨flagged,ready⟩ := (mem_heapDue next.sound.filing m).mp inside
    have other : m ≠ id.idx := by
      rintro rfl
      have entry : (pop silent s id.idx).armed id = some ((pop silent s id.idx).deadlineOf id.idx) :=
        (armed_eq_some _ _ _).mpr ⟨(fired.table.holds id).trans held,.inr flagged,rfl⟩
      rw [fired.entry,polling.width,polling.now] at entry
      refine (s.deadlineOf id.idx).rearm_not_due positive _ entry ?_
      unfold Due instant deadlineOf
      rw [if_pos flagged,← next.now]
      exact ready
    rw [mem_erase_of_ne other,mem_heapDue polling.sound.filing]
    have same := (fired.others m other).1
    unfold expiryKey at ready ⊢
    rw [same,next.now] at ready
    rw [same] at flagged
    exact ⟨flagged,by rw [polling.now]; exact ready⟩
  have nodup : (pop silent s id.idx).heapDue.Nodup := (next.sound.filing.heap.indexed.nodup_members).filter _
  have bound := (subperm_of_subset nodup fewer).length_le
  have positive := length_pos_of_mem member
  rw [length_erase_of_mem member] at bound
  omega
end

def begin (s : Timers) (reading : Int) : Timers := {s with now := reading, fired := []}

lemma armed_primed (ready : s.Ready) (reading : Fin (2^63)) :
    ((s.begin reading.val).primed (s.wheel.floorTick reading.val)).armed = s.deadlines.rebase reading.val := by
  have goal := s.wheel.floorTick_eq ready.positive (t := reading.val) (by omega) (by have := reading.isLt; omega)
  have rest : (s.begin reading.val).Rest := ready.rest.begin _
  funext h
  unfold primed Deadlines.rebase
  change (if s.wheel.primed then _ else _ : Timers).armed h = if s.wheel.primed then _ else _
  cases fresh : s.wheel.primed with
  | true => rfl
  | false =>
    obtain ⟨_,clock,domain,placed⟩ := prime_spec rest.sound.filing.wheel
      (s.begin reading.val).expiryTick (s.wheel.floorTick reading.val)
      (rest.sound.filing.early fresh)
    refine armed_moveWheel (fun e => max e (max 1 (reading.val / s.wheel.tick))) domain ?_ h
    intro n b linked
    let w := s.wheel.prime s.expiryTick (s.wheel.floorTick reading.val)
    let u : Timers := {s.begin reading.val with wheel := w}
    have now : w.nowTick = s.wheel.floorTick reading.val - 1 := clock.nowTick
    have away := (placed n b linked).not_current
    have zero : s.wheel.nowTick = 0 := rest.sound.filing.epoch fresh
    have before : (s.begin reading.val).effectiveTick n = target (s.expiryTick n) 0 := by
      unfold effectiveTick
      rw [if_neg (rest.drained n)]
      exact congrArg (target _) zero
    have after : u.effectiveTick n = target (s.expiryTick n) (s.wheel.floorTick reading.val - 1) := by
      change (if w.link n = some (0,w.nowTick % slots) then w.nowTick
        else target (s.expiryTick n) w.nowTick) = _
      rw [now,if_neg]
      intro current
      rw [← now] at away
      exact away (some.inj (linked.symm.trans (now ▸ current)))
    change ((u.effectiveTick n : Nat) : Int) = _
    rw [before,after,← goal]
    unfold target
    omega

/-- The clock does not go back, and while the wheel is not empty it moves at most 4096 ticks, except at the first poll.
-/
def Paced (s : Timers) : TimerTrace → Prop
  | .call _ _ => True
  | .poll reading _ => s.now ≤ reading.val ∧
      (s.wheel.primed = true → s.wheel.count ≠ 0 → reading.val / s.wheel.tick ≤ s.now / s.wheel.tick + 4096)

lemma Ready.floorTick (ready : s.Ready) (reading : Fin (2^63)) :
    (s.wheel.floorTick reading.val : Int) = reading.val / s.wheel.tick :=
  s.wheel.floorTick_eq ready.positive (by omega) (by have := reading.isLt; omega)

lemma primed_spec (rest : s.Rest) (goal : Nat) : (s.primed goal).wheel.tick = s.wheel.tick ∧
    (s.primed goal).wheel.maxTicksPerCall = s.wheel.maxTicksPerCall ∧
    (s.primed goal).wheel.nowTick = (if s.wheel.primed then s.wheel.nowTick else goal-1) ∧
    (∀ n, (s.primed goal).Scheduled n ↔ s.Scheduled n) ∧ s.primed goal = {s with wheel := (s.primed goal).wheel} := by
  unfold primed
  cases fresh : s.wheel.primed with
  | true => exact ⟨rfl,rfl,rfl,fun _ => Iff.rfl,rfl⟩
  | false =>
    obtain ⟨_,clock,domain,_⟩ := prime_spec rest.sound.filing.wheel s.expiryTick goal (rest.sound.filing.early fresh)
    refine ⟨clock.tick,clock.maxTicks,clock.nowTick,?_,rfl⟩
    intro n
    have linked : ((s.wheel.prime s.expiryTick goal).link n).isSome = true ↔ (s.wheel.link n).isSome = true := by
      rw [← not_iff_not]
      simpa using domain n
    exact or_congr_left linked

lemma Ready.polling (ready : s.Ready) (reading : Fin (2^63)) (later : s.now ≤ reading.val) :
    Polling (s.deadlines.rebase reading.val) s.groups.holds s.wheel.tick reading.val
    ((s.begin reading.val).primed (s.wheel.floorTick reading.val)) ∧
    ((s.begin reading.val).primed (s.wheel.floorTick reading.val)).wheel.nowTick ≤ s.wheel.floorTick reading.val := by
  let goal := s.wheel.floorTick reading.val
  let p := (s.begin reading.val).primed goal
  have begun : (s.begin reading.val).Rest := ready.rest.begin reading.val
  obtain ⟨rest,primed⟩ := begun.primed goal
  obtain ⟨tick,maxTicks,position,scheduled,same⟩ := primed_spec begun goal
  have floor : (goal : Int) = reading.val / s.wheel.tick := ready.floorTick reading
  have low : p.wheel.nowTick ≤ goal := by
    rw [position]
    change (if s.wheel.primed then s.wheel.nowTick else goal-1) ≤ goal
    split
    · next started =>
      have stands := ready.caughtUp started
      have monotone := Int.ediv_le_ediv ready.positive later
      omega
    · exact Nat.sub_le _ _
  have record : p.fired = [] := congrArg Timers.fired same
  have reached : (p.wheel.nowTick : Int) * s.wheel.tick ≤ reading.val := by
    calc (p.wheel.nowTick : Int) * s.wheel.tick ≤ goal * s.wheel.tick :=
          Int.mul_le_mul_of_nonneg_right (by omega) (by have := ready.positive; omega)
      _ ≤ reading.val := by
          rw [floor]
          exact Int.ediv_mul_le _ (by have := ready.positive; omega)
  have timers : p.timers = s.timers := (congrArg timers same).trans rfl
  have groups : p.groups = s.groups := (congrArg groups same).trans rfl
  have nodes : ∀ n, p.node n = s.node n := fun n => by unfold node; rw [timers]
  refine ⟨⟨rest.sound,rest.quiet,(congrArg misused same).trans ready.proper,primed,
    maxTicks.trans ready.maxTicks,tick,congrArg now same,reached,?_,?_,
    fun g => congrArg (·.holds g) groups,[],?_,record⟩,low⟩
  · intro h held active
    rw [timers] at held
    rw [nodes] at active
    exact .inl ((scheduled _).mpr (ready.waiting h held active))
  · intro h held
    rw [timers] at held
    rw [nodes]
    exact ready.periods h held
  rw [armed_primed ready reading]
  exact .nil

lemma Polling.snap {table : Handle → Option Deadline} {groups : Handle → Bool}
    {reading : Int} (polling : Polling table groups tick reading s) (rest : s.Rest)
    (empty : s.wheel.count = 0) (goal : Nat) (reached : goal * tick ≤ reading) :
    Polling table groups tick reading {s with wheel := {s.wheel with nowTick := goal}} := by
  have none := rest.sound.filing.wheel.count_eq_zero.mp empty
  refine ⟨(rest.snap polling.primed empty goal).sound,polling.quiet,polling.proper,polling.primed,
    polling.maxTicks,polling.width,polling.now,reached,polling.waiting,polling.periods,
    polling.grouped,?_⟩
  have armed : ({s with wheel := {s.wheel with nowTick := goal}} : Timers).armed = s.armed := by
    refine armed_keepWheel (fun _ => Iff.rfl) ?_
    intro n b linked
    rw [none] at linked
    contradiction
  rw [armed]
  exact polling.drain

lemma Ready.advance (ready : s.Ready) (onTime : s.deadlines.OnTime)
    (reading : Fin (2^63)) {fired : List TimerCtx} (paced : s.Paced (.poll reading fired)) :
    let a := TimerWheel.advance host (fireTimer silent) (s.wheel.floorTick reading.val) (s.begin reading.val)
    Polling (s.deadlines.rebase reading.val) s.groups.holds s.wheel.tick reading.val a ∧
      (∀ n, a.wheel.link n ≠ some (0,a.wheel.nowTick % slots)) ∧
      (a.wheel.nowTick : Int) = reading.val / s.wheel.tick := by
  let goal := s.wheel.floorTick reading.val
  let p := (s.begin reading.val).primed goal
  obtain ⟨later,pace⟩ := paced
  have begun : (s.begin reading.val).Rest := ready.rest.begin reading.val
  have floor : (goal : Int) = reading.val / s.wheel.tick := ready.floorTick reading
  obtain ⟨rest,primed⟩ := begun.primed goal
  obtain ⟨polling,low⟩ := ready.polling reading later
  have reached : (goal : Int) * s.wheel.tick ≤ reading.val := by
    rw [floor]
    exact Int.ediv_mul_le _ (by have := ready.positive; omega)
  rw [← floor,advance_eq]
  split
  · next empty =>
    split
    · exact ⟨polling.snap rest empty goal reached,(rest.snap primed empty goal).drained,rfl⟩
    next stop =>
    refine ⟨polling,rest.drained,?_⟩
    change ((p.wheel.nowTick : Nat) : Int) = goal
    change ¬ goal > p.wheel.nowTick at stop
    change p.wheel.nowTick ≤ goal at low
    omega
  next filled =>
  have near : goal ≤ p.wheel.nowTick + 4096 := by
    have position := (primed_spec begun goal).2.2.1
    change p.wheel.nowTick = if s.wheel.primed then s.wheel.nowTick else goal-1 at position
    change p.wheel.count ≠ 0 at filled
    cases started : s.wheel.primed with
    | false =>
      rw [started] at position
      change p.wheel.nowTick = goal-1 at position
      omega
    | true =>
      have same : p = s.begin reading.val := if_pos started
      rw [same] at filled
      have bound := pace started filled
      have stands := ready.caughtUp started
      rw [started] at position
      change p.wheel.nowTick = s.wheel.nowTick at position
      omega
  have high : (reading.val : Int) < 2^63 := by have := reading.isLt; omega
  have rule : TickCarried silent goal (Polling (s.deadlines.rebase reading.val) s.groups.holds
      s.wheel.tick reading.val) (fun _ => False) :=
    polling_ticks ready.positive (by omega) high (onTime.rebase reading.val) goal reached
  obtain ⟨after,_,drained,caught⟩ := (rule.advanceLoop _ p polling rest.drained).resolve_right
    (fun impossible => impossible)
  refine ⟨after,drained,?_⟩
  exact congrArg Nat.cast (caught low (by rw [polling.maxTicks]; exact near))

lemma bookkeeping_armed (life : s.Lifecycle) : s.bookkeeping.armed = s.armed := by
  obtain ⟨_,nodes,holds⟩ := bookkeeping_spec life
  have deadline : ∀ i, s.bookkeeping.deadlineOf i = s.deadlineOf i := by
    intro i
    unfold deadlineOf effectiveTick expiryTick
    rw [nodes]
    rfl
  have scheduled : ∀ i, s.bookkeeping.Scheduled i ↔ s.Scheduled i := by
    intro i
    unfold Scheduled
    rw [nodes]
    rfl
  funext h
  refine ext fun d => ?_
  rw [armed_eq_some,armed_eq_some,holds,scheduled,deadline]
  refine ⟨fun found => ⟨found.1.1,found.2⟩,fun found => ⟨⟨found.1,?_⟩,found.2⟩⟩
  exact fun inside => (life.dead h inside).2.1 found.2.1

structure Over (tick reading : Int) (s : Timers) : Prop where
  drained : ∀ n, s.wheel.link n ≠ some (0,s.wheel.nowTick % slots)
  stands : (s.wheel.nowTick : Int) = reading / tick
  heap : ∀ n, (s.node n).inHeap = true → reading < s.expiryKey n

lemma Over.idle {reading : Int} (finished : Over tick reading s) (positive : 0 < tick)
    (h : Handle) (d : Deadline) (found : s.armed h = some d) : ¬ d.Due tick reading := by
  obtain ⟨_,_,rfl⟩ := (armed_eq_some _ _ _).mp found
  unfold Due instant deadlineOf
  cases flag : (s.node h.idx).inHeap with
  | true => exact not_le.mpr (finished.heap h.idx flag)
  | false =>
    have ahead : s.wheel.nowTick + 1 ≤ s.effectiveTick h.idx := by
      unfold effectiveTick target
      rw [if_neg (finished.drained h.idx)]
      exact Nat.le_max_right _ _
    have after := lt_ediv_add_one_mul_self reading positive
    rw [← finished.stands] at after
    have far : ((s.wheel.nowTick : Int) + 1) * tick ≤ s.effectiveTick h.idx * tick :=
      mul_le_mul_of_nonneg_right (by omega) (by omega)
    simp only [Bool.false_eq_true,if_false]
    linarith

lemma Polling.finish {m : Deadlines} (onTime : m.OnTime)
    (polling : Polling (m.rebase reading.val) m.groups m.tick reading.val s) (finished : Over m.tick reading.val s) :
    s.bookkeeping.Ready ∧ m.Poll reading.val s.bookkeeping.fired s.bookkeeping.deadlines := by
  obtain ⟨_,drain,record⟩ := polling.drain
  have life := polling.sound.life
  obtain ⟨_,nodes,holds⟩ := bookkeeping_spec life
  have armed := bookkeeping_armed life
  obtain ⟨once,exactly,after⟩ := drain.exact_of_idle
    (fun d d' _ again => d.rearm_not_due onTime.1 d' again) (finished.idle onTime.1)
  have high : (reading.val : Int) < 2^63 := by have := reading.isLt; omega
  refine ⟨⟨bookkeeping_rest ⟨polling.sound,polling.quiet,finished.drained⟩,polling.proper,?_,?_,?_,
    polling.width ▸ onTime.1,?_,?_,?_,polling.maxTicks⟩,
    polling.width,polling.now,finished.stands,polling.primed,?_,?_,?_,?_⟩
  · intro h inside
    exact absurd inside List.not_mem_nil
  · intro h held active
    obtain ⟨before,kept⟩ := (holds h).mp held
    rw [nodes] at active
    have queued := (polling.waiting h before active).resolve_right kept
    unfold Scheduled at queued ⊢
    rw [nodes]
    exact queued
  · intro h held
    rw [nodes]
    exact polling.periods h ((holds h).mp held).1
  · change 0 ≤ s.now
    rw [polling.now]
    omega
  · change s.now < 2^63
    rw [polling.now]
    exact high
  · intro _
    change (s.wheel.nowTick : Int) = s.now / s.wheel.tick
    rw [polling.now,polling.width]
    exact finished.stands
  · exact funext polling.grouped
  · change (s.fired.map TimerCtx.id).Nodup
    rw [record,List.map_map]
    exact once
  · intro c
    change c ∈ s.fired ↔ _
    rw [record,List.mem_map]
    constructor
    · rintro ⟨⟨id,d⟩,inside,rfl⟩
      obtain ⟨found,due⟩ := (exactly id d).mp inside
      exact ⟨d,found,due,rfl⟩
    rintro ⟨d,found,due,same⟩
    exact ⟨(c.id,d),(exactly c.id d).mpr ⟨found,due⟩,same.symm⟩
  intro id
  change s.bookkeeping.armed id = _
  rw [armed]
  exact after id

lemma poll_rule (ready : s.Ready) (onTime : s.deadlines.OnTime) (reading : Fin (2^63)) :
    HeapCarried silent (fun s' => Polling (s.deadlines.rebase reading.val) s.groups.holds s.wheel.tick
    reading.val s' ∧ (s'.wheel.nowTick : Int) = reading.val / s.wheel.tick) (fun _ => False) :=
  polling_heap ready.positive (by omega) (by have := reading.isLt; omega) (onTime.rebase reading.val)

lemma poll_refines (ready : s.Ready) (onTime : s.deadlines.OnTime) {fired : List TimerCtx}
    (paced : s.Paced (.poll reading fired)) {fuel : Nat} (done : s.pollOnce fuel reading.val [] silent [] = some t) :
    t.Ready ∧ s.deadlines.Poll reading.val t.fired t.deadlines := by
  obtain ⟨polling,drained,stands⟩ := ready.advance onTime reading paced
  obtain ⟨last,stage,rfl⟩ := map_eq_some_iff.mp done
  have rule := poll_rule ready onTime reading
  obtain ⟨⟨final,reached⟩,stays,empty⟩ := (rule.heapExpire fuel _ last ⟨polling,stands⟩ stage).resolve_right
    (fun impossible => impossible)
  refine Polling.finish onTime final ⟨stays.drained drained,reached,?_⟩
  intro n flag
  rw [← final.now]
  exact empty n flag

lemma poll_returns (ready : s.Ready) (onTime : s.deadlines.OnTime) {fired : List TimerCtx}
    (paced : s.Paced (.poll reading fired)) : ∃ fuel t, s.pollOnce fuel reading.val [] silent [] = some t := by
  obtain ⟨polling,_,stands⟩ := ready.advance onTime reading paced
  have high : (reading.val : Int) < 2^63 := by have := reading.isLt; omega
  have rule := poll_rule ready onTime reading
  obtain ⟨fuel,t,done⟩ := rule.halts (fun s => s.heapDue.length)
    (heapDue_falls ready.positive (by omega) high (onTime.rebase reading.val)) _ ⟨polling,stands⟩
  exact ⟨fuel,t.bookkeeping,map_eq_some_iff.mpr ⟨t,done,rfl⟩⟩

def Traced (s : Timers) : TimerTrace → Timers → Prop
  | .call c reply, t => s.call c = (reply,t)
  | .poll reading fired, t => (∃ fuel, s.pollOnce fuel reading.val [] silent [] = some t) ∧ fired = t.fired

lemma step_refines {e : TimerTrace} (ready : s.Ready) (onTime : s.deadlines.OnTime)
    (step : Guarded Traced Paced s e t) : t.Ready ∧ s.deadlines.Step e t.deadlines := by
  obtain ⟨paced,traced⟩ := step
  cases e with
  | call c reply =>
    obtain ⟨next,refines⟩ := call_refines ready c
    rw [show s.call c = (reply,t) from traced] at next refines
    exact ⟨next,refines⟩
  | poll =>
    obtain ⟨⟨_,done⟩,rfl⟩ := traced
    exact poll_refines ready onTime paced done

lemma run_ready {events : List TimerTrace} (run : Exec (Guarded Traced Paced) s events t) (ready : s.Ready)
    (onTime : s.deadlines.OnTime) :
    t.Ready ∧ t.deadlines.OnTime ∧ Exec Deadlines.Step s.deadlines events t.deadlines := by
  induction run with
  | nil => exact ⟨ready,onTime,.nil _⟩
  | cons _ e _ _ _ head _ ih =>
    obtain ⟨next,step⟩ := step_refines ready onTime head
    obtain ⟨last,still,tail⟩ := ih next (onTime.step step)
    exact ⟨last,still,.cons _ e _ _ _ step tail⟩

lemma create_deadlines (tick : Int) (firstGen : Nat) (start : Int) :
    (create tick firstGen start).deadlines = Deadlines.create tick start := by
  have empty : (create tick firstGen start).armed = fun _ => none := by
    funext h
    refine armed_eq_none (fun held => ?_)
    simp [create,HandleTable.create,HandleTable.holds] at held
  have groups : (create tick firstGen start).groups.holds = fun _ => false := by
    funext h
    simp [create,HandleTable.create,HandleTable.holds]
  unfold deadlines
  rw [empty,groups]
  rfl

lemma create_onTime (positive : 0 < tick) (firstGen : Nat) (start : Int) :
    (create tick firstGen start).deadlines.OnTime := by
  rw [create_deadlines]
  exact ⟨positive,fun id d found => by simp [Deadlines.create] at found⟩

lemma onTime_run {m m' : Deadlines} {events : List TimerTrace} (run : Exec Deadlines.Step m events m')
    (onTime : m.OnTime) (reading : Fin (2^63)) (fired : List TimerCtx) (polled : .poll reading fired ∈ events)
    (c : TimerCtx) (ran : c ∈ fired) : c.scheduled ≤ c.now := by
  induction run with
  | nil => simp at polled
  | cons _ _ _ _ _ head _ ih =>
    rcases mem_cons.mp polled with rfl | later
    · exact onTime.fired head c ran
    · exact ih (onTime.step head) later

/-- The timers refine the table of deadlines: a poll runs exactly the due ones, each once, and no cancelled one. -/
theorem run_refines {tick : Int} (positive : 0 < tick) (firstGen : Nat) (start : Fin (2^63))
    (events : List TimerTrace) (s : Timers)
    (run : Exec (Guarded Traced Paced) (create tick firstGen start.val) events s) :
    Exec Deadlines.Step (Deadlines.create tick start.val) events s.deadlines ∧
      (∀ reading fired, s.Paced (.poll reading fired) → ∃ fuel t, s.pollOnce fuel reading.val [] silent [] = some t) ∧
      (∀ reading fired, .poll reading fired ∈ events → ∀ c ∈ fired, c.scheduled ≤ c.now) ∧
      ∀ before cancellation after m m' id, Exec (Guarded Traced Paced) (create tick firstGen start.val) before m →
        Guarded Traced Paced m cancellation m' →
        Exec (Guarded Traced Paced) m' after s →
        m.deadlines.Cancels id cancellation → (∀ e ∈ after, ¬ Deadlines.Arms id e) →
        ∀ e ∈ after, ¬ Deadlines.Fires id e := by
  have ready := create_ready positive firstGen start
  have onTime := create_onTime positive firstGen start.val
  obtain ⟨last,still,refines⟩ := run_ready run ready onTime
  rw [create_deadlines] at refines onTime
  refine ⟨refines,fun reading fired => poll_returns last still,onTime_run refines onTime,?_⟩
  intro _ _ _ m _ _ first step rest cancels fresh
  rw [← create_deadlines tick firstGen] at onTime
  obtain ⟨middle,stillThere,_⟩ := run_ready first ready onTime
  obtain ⟨next,cancelled⟩ := step_refines middle stillThere step
  obtain ⟨_,_,silence⟩ := run_ready rest next (stillThere.step cancelled)
  exact Deadlines.run_silent silence (Deadlines.cancels_disarms cancelled cancels) fresh

def cancelOne : List TimerTrace :=
  [.call (.after 1500000 Handle.none) (.id ⟨0,1⟩), .call (.every 1000000 0 .fixedRate Handle.none) (.id ⟨1,1⟩),
   .call (.cancel ⟨0,1⟩) (.bool true),
   .poll 2000000 [⟨⟨1,1⟩,1000000,2000000,1⟩]]

theorem cancelOne_refines : ∃ s,
    Exec (Guarded Traced Paced) (create 1000000 1 0) cancelOne s ∧
      Exec Deadlines.Step (Deadlines.create 1000000 0) cancelOne s.deadlines := by
  let first := ((create 1000000 1 0).call (.after 1500000 Handle.none)).2
  let second := (first.call (.every 1000000 0 .fixedRate Handle.none)).2
  let third := (second.call (.cancel ⟨0,1⟩)).2
  have evaluated : (third.pollOnce 4 2000000 [] silent []).map Timers.fired =
      some [⟨⟨1,1⟩,1000000,2000000,1⟩] := by decide +kernel
  obtain ⟨s,done,fired⟩ := map_eq_some_iff.mp evaluated
  have cancelled : second.call (.cancel ⟨0,1⟩) = (.bool true,third) := Prod.ext (by decide +kernel) rfl
  have run : Exec (Guarded Traced Paced) (create 1000000 1 0) cancelOne s :=
    .cons _ _ first _ _ ⟨trivial,rfl⟩ (.cons _ _ second _ _ ⟨trivial,rfl⟩
      (.cons _ _ third _ _ ⟨trivial,cancelled⟩ (.cons _ _ s _ _
        ⟨⟨by decide +kernel,fun primed => absurd primed (by decide +kernel)⟩,⟨4,done⟩,fired.symm⟩
        (.nil _))))
  exact ⟨s,run,(run_refines (by decide) 1 0 cancelOne s run).1⟩

end Timers
end AffiniX
