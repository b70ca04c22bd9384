import AffiniX.Deadlines
import AffiniX.TimerLinks

/-! The timers seen as a table of deadlines, and the calls that user code makes between
polls: each does to the table what the table's own call does. -/
namespace AffiniX
open Int
namespace TimerWheel
lemma ceilTick_eq {tick : Int} (positive : 0 < tick) (t : Int) : ceilTick tick t = (t + tick - 1) / tick := by
  have upper := le_ceilTick positive t
  have lower : tick * ceilTick tick t < t + tick := by
    have := lt_mul_ediv_self_add (x := -t) positive
    unfold ceilTick
    linarith
  refine ((ediv_eq_iff_of_pos positive).mpr ⟨?_,?_⟩).symm <;> linarith

lemma toU64_of_nonneg {z : Int} (low : 0 ≤ z) (high : z < 2^64) : (toU64 z : Int) = z := by
  unfold toU64
  rw [emod_eq_of_lt low high]
  omega

lemma toU64_of_neg {z : Int} (low : -2^64 ≤ z) (high : z < 0) : (toU64 z : Int) = 2^64 + z := by
  unfold toU64
  omega

lemma floorTick_eq (w : TimerWheel) (positive : 0 < w.tick) {t : Int} (low : 0 ≤ t)
    (high : t < 2^63) : (w.floorTick t : Int) = t / w.tick := by
  unfold floorTick
  rw [tdiv_eq_ediv_of_nonneg low]
  have := ediv_le_self w.tick low
  exact toU64_of_nonneg (ediv_nonneg low (by omega)) (by omega)

lemma tickOf_eq (w : TimerWheel) (positive : 0 < w.tick) {t : Int} (low : 1 - 2*w.tick < t)
    (high : t < 2^64) : (w.tickOf t : Int) = max 0 (ceilTick w.tick t) := by
  rw [ceilTick_eq positive]
  unfold tickOf
  by_cases later : 0 ≤ t + w.tick - 1
  · rw [Int.tdiv_eq_ediv_of_nonneg later]
    have nonneg := Int.ediv_nonneg later (by omega : 0 ≤ w.tick)
    have small : (t + w.tick - 1) / w.tick < 2^64 := by
      rw [Int.ediv_lt_iff_lt_mul positive]
      nlinarith
    rw [toU64_of_nonneg nonneg small]
    omega
  have zero : (t + w.tick - 1).tdiv w.tick = 0 := by
    have : (-(t + w.tick - 1)).tdiv w.tick = 0 := Int.tdiv_eq_zero_of_lt (by omega) (by omega)
    rw [Int.neg_tdiv] at this
    omega
  have negative : (t + w.tick - 1) / w.tick < 0 := Int.ediv_neg_of_neg_of_pos (by omega) positive
  rw [zero]
  simp [toU64]
  omega

lemma tickOf_far (w : TimerWheel) (positive : 0 < w.tick) {t now : Int} (low : t ≤ 1 - 2*w.tick)
    (recent : now - 2^63 ≤ t) (standing : w.nowTick * w.tick ≤ now) : w.nowTick + 256^4 ≤ w.tickOf t := by
  have turned : (t + w.tick - 1).tdiv w.tick = -((1 - w.tick - t) / w.tick) := by
    have : (-(t + w.tick - 1)).tdiv w.tick = (1 - w.tick - t) / w.tick := by
      rw [show -(t + w.tick - 1) = 1 - w.tick - t by ring]
      exact Int.tdiv_eq_ediv_of_nonneg (by omega)
    rw [Int.neg_tdiv] at this
    omega
  have below := Int.ediv_mul_le (1 - w.tick - t) (by omega : w.tick ≠ 0)
  have some : 1 ≤ (1 - w.tick - t) / w.tick := (Int.le_ediv_iff_mul_le positive).mpr (by omega)
  have together : (1 - w.tick - t) / w.tick + w.nowTick ≤ 2^63 := by nlinarith
  have wrapped := toU64_of_neg (z := -((1 - w.tick - t) / w.tick)) (by omega) (by omega)
  unfold tickOf
  rw [turned]
  omega
end TimerWheel
namespace Timers
open TimerWheel (target)

structure InRange (s : Timers) (expiry : Int) : Prop where
  recent : s.now - 2^63 ≤ expiry
  bound : expiry < 2^64

structure Standing (s : Timers) : Prop where
  positive : 0 < s.wheel.tick
  reached : s.wheel.nowTick * s.wheel.tick ≤ s.now

lemma parks_home {s : Timers} (standing : s.Standing) {expiry : Int} (precise : Bool)
    (range : precise = true ∨ s.InRange expiry) :
    (if s.parks precise expiry then Home.wheel (target (s.wheel.tickOf expiry) s.wheel.nowTick)
    else Home.heap) = homeOf s.wheel.tick s.wheel.nowTick expiry precise := by
  obtain ⟨positive,reached⟩ := standing
  unfold parks homeOf
  cases precise with
  | true => simp
  | false =>
    have inRange := range.resolve_left (by simp)
    rw [Bool.not_false,Bool.and_true]
    simp only [TimerWheel.fits_iff,Bool.false_eq_true,false_or]
    by_cases far : expiry ≤ 1 - 2*s.wheel.tick
    · have away := s.wheel.tickOf_far positive far inRange.recent reached
      rw [if_neg (by omega),if_pos (.inl far)]
    have near := s.wheel.tickOf_eq positive (by omega) inRange.bound
    have chosen : s.wheel.tickOf expiry - s.wheel.nowTick < 256^4 ↔
        ¬ (expiry ≤ 1 - 2*s.wheel.tick ∨ (s.wheel.nowTick : Int) + 256^4 ≤ ceilTick s.wheel.tick expiry) := by
      omega
    by_cases inside : s.wheel.tickOf expiry - s.wheel.nowTick < 256^4
    · rw [if_pos inside,if_neg (chosen.mp inside)]
      unfold target
      congr 1
      omega
    · rw [if_neg inside,if_pos (not_not.mp (fun out => inside (chosen.mpr out)))]
end Timers
end AffiniX
namespace AffiniX.Timers
open TimerWheel (slots target)
open Function Option
variable (s : Timers)

def effectiveTick (i : NodeRef) : Nat := if s.wheel.link i = some (0,s.wheel.nowTick % slots) then s.wheel.nowTick
  else target (s.expiryTick i) s.wheel.nowTick

def queued (i : NodeRef) : Bool := (s.wheel.link i).isSome || (s.node i).inHeap

def deadlineOf (i : NodeRef) : Deadline where
  expiry := (s.node i).expiry
  period := (s.node i).period
  mode := (s.node i).mode
  precise := (s.node i).precise
  group := (s.node i).groupLink.map fun g => ⟨g,(s.groups.slots g).gen⟩
  home := if (s.node i).inHeap then .heap else .wheel (s.effectiveTick i)

def armed (h : Handle) : Option Deadline :=
  if s.timers.holds h && s.queued h.idx then some (s.deadlineOf h.idx) else none

def deadlines : Deadlines where
  tick := s.wheel.tick
  now := s.now
  wheelTick := s.wheel.nowTick
  polled := s.wheel.primed
  armed := s.armed
  groups := s.groups.holds

lemma queued_iff (i : NodeRef) : s.queued i = true ↔ s.Scheduled i := by
  unfold queued Scheduled
  rw [Bool.or_eq_true]

lemma armed_eq_some (h : Handle) (d : Deadline) : s.armed h = some d ↔
    s.timers.holds h = true ∧ s.Scheduled h.idx ∧ s.deadlineOf h.idx = d := by
  unfold armed
  split
  · next found =>
    rw [Bool.and_eq_true,queued_iff] at found
    simp [found]
  next absent =>
  rw [Bool.and_eq_true,queued_iff] at absent
  simp only [reduceCtorEq,false_iff]
  exact fun found => absent ⟨found.1,found.2.1⟩

variable {s s' : Timers} {id : Handle}

lemma armed_eq_none {h : Handle} (absent : s.timers.holds h = true → ¬ s.Scheduled h.idx) : s.armed h = none := by
  cases entry : s.armed h with
  | none => rfl
  | some d =>
    obtain ⟨held,found,_⟩ := (armed_eq_some s h d).mp entry
    exact absurd found (absent held)

lemma armed_congr {h : Handle} (holds : s'.timers.holds h = s.timers.holds h)
    (same : s.timers.holds h = true → s'.node h.idx = s.node h.idx ∧ s'.wheel.link h.idx = s.wheel.link h.idx)
    (now : s'.wheel.nowTick = s.wheel.nowTick)
    (gens : ∀ g, (s.node h.idx).groupLink = some g →
    (s'.groups.slots g).gen = (s.groups.slots g).gen) : s'.armed h = s.armed h := by
  cases held : s.timers.holds h with
  | false =>
    have gone : s'.timers.holds h = false := holds.trans held
    simp [armed,held,gone]
  | true =>
    have kept : s'.timers.holds h = true := holds.trans held
    obtain ⟨node,link⟩ := same held
    have group : (s.node h.idx).groupLink.map (fun g => (⟨g,(s'.groups.slots g).gen⟩ : Handle)) =
        (s.node h.idx).groupLink.map (fun g => (⟨g,(s.groups.slots g).gen⟩ : Handle)) :=
      map_congr (fun g member => by rw [gens g member])
    simp only [armed,held,kept,queued,deadlineOf,effectiveTick,expiryTick,node,link,now,group]

lemma armed_update {entry : Option Deadline} (own : s'.armed id = entry)
    (holds : ∀ h, h ≠ id → s'.timers.holds h = s.timers.holds h)
    (alone : ∀ h, h ≠ id → s.timers.holds h = true → h.idx ≠ id.idx)
    (same : ∀ j, j ≠ id.idx → s'.node j = s.node j ∧ s'.wheel.link j = s.wheel.link j)
    (now : s'.wheel.nowTick = s.wheel.nowTick) (gens : ∀ g, (s'.groups.slots g).gen = (s.groups.slots g).gen) :
    s'.armed = update s.armed id entry := by
  funext h
  rw [update_apply]
  split
  · next here => rw [here,own]
  next other =>
  exact armed_congr (holds h other) (fun held => same h.idx (alone h other held)) now (fun g _ => gens g)

lemma Lifecycle.alone (life : s.Lifecycle) (held : s.timers.holds id = true) (h : Handle) (other : h ≠ id)
    (heldToo : s.timers.holds h = true) : h.idx ≠ id.idx := by
  intro same
  apply other
  rw [← life.id_of_holds heldToo,← life.id_of_holds held,same]

def newHome (s : Timers) (precise : Bool) (t : Int) : Home :=
  if s.parks precise t then .wheel (target (s.wheel.tickOf t) s.wheel.nowTick) else .heap

lemma Requeued.armed {t : Int} (queue : Requeued s s' id.idx t) (life : s.Lifecycle) (held : s.timers.holds id = true) :
    s'.armed = update s.armed id (some {s.deadlineOf id.idx with
    expiry := t, home := s.newHome (s.node id.idx).precise t}) := by
  refine armed_update ?_ (fun h _ => queue.table.holds h) (life.alone held)
    (fun j other => ⟨queue.others j other,(queue.link j).trans (if_neg other)⟩) queue.clock.nowTick
    (fun g => by rw [queue.groups])
  refine (armed_eq_some _ _ _).mpr ⟨(queue.table.holds id).trans held, (queue.scheduled _).mpr (.inl rfl),?_⟩
  have link := queue.link id.idx
  rw [if_pos rfl] at link
  have away := bucketOf_not_current s (s.node id.idx).precise t
  unfold deadlineOf effectiveTick expiryTick newHome
  rw [queue.self,queue.groups,queue.clock.nowTick,link,if_neg away]
  cases s.parks (s.node id.idx).precise t <;> rfl

lemma Dropped.armed (drop : Dropped s s' id.idx) (life : s.Lifecycle) (held : s.timers.holds id = true) :
    s'.armed = update s.armed id none := by
  refine armed_update ?_ (fun h _ => drop.table.holds h) (life.alone held)
    (fun j other => ⟨drop.others j other,(drop.link j).trans (if_neg other)⟩) drop.clock.nowTick
    drop.groupTable.gen
  exact armed_eq_none (fun _ found => ((drop.scheduled _).mp found).2 rfl)

lemma Armed.armed {expiry period : Int} {mode : RepeatMode} {g : Handle}
    {precise : Bool} (new : Armed s s' expiry period mode g precise) (life : s.Lifecycle) :
    s'.armed = update s.armed s.timers.nextHandle (some ⟨expiry,period,mode,precise,
    if s.groups.holds g then some g else none,s.newHome precise expiry⟩) := by
  have holds := new.holds_iff life
  refine armed_update ?_ ?_ (fun h _ held => life.held_ne_next held)
    (fun j other => ⟨new.others j other,(new.link j).trans (if_neg other)⟩) new.clock.nowTick
    new.groupTable.gen
  · refine (armed_eq_some _ _ _).mpr ⟨(holds _).mpr (.inl rfl),new.scheduled,?_⟩
    have link := new.link s.timers.nextIdx
    rw [if_pos rfl] at link
    have away := bucketOf_not_current s precise expiry
    have group : (if s.groups.holds g then some g.idx else none).map (fun k => (⟨k,(s'.groups.slots k).gen⟩ : Handle)) =
        if s.groups.holds g then some g else none := by
      cases held : s.groups.holds g with
      | false => rfl
      | true =>
        have gen := ((HandleTable.holds_iff _ _).mp held).2.2.2
        rw [if_pos rfl,if_pos rfl,map_some,new.groupTable.gen,gen]
    change s'.deadlineOf s.timers.nextIdx = _
    unfold deadlineOf effectiveTick expiryTick newHome
    rw [new.self,new.clock.nowTick,link,if_neg away,group]
    cases s.parks precise expiry <;> rfl
  · intro h other
    rw [Bool.eq_iff_iff,holds]
    exact or_iff_right other

/-- Between polls at the wheel's pace: every live timer is queued or cancelled, and the wheel stands at the last
reading. -/
structure Ready (s : Timers) : Prop where
  rest : s.Rest
  proper : s.misused = false
  retired : ∀ h ∈ s.dead, (s.node h.idx).cancelled = true
  waiting : ∀ h, s.timers.holds h = true → (s.node h.idx).cancelled = false → s.Scheduled h.idx
  periods : ∀ h, s.timers.holds h = true → (s.node h.idx).period < 2^63
  positive : 0 < s.wheel.tick
  low : 0 ≤ s.now
  high : s.now < 2^63
  caughtUp : s.wheel.primed = true → (s.wheel.nowTick : Int) = s.now / s.wheel.tick
  maxTicks : s.wheel.maxTicksPerCall = 4096

lemma create_ready {tick : Int} (positive : 0 < tick) (firstGen : Nat) (start : Fin (2^63)) :
    (create tick firstGen start.val).Ready := by
  have low : (0 : Int) ≤ start.val := by omega
  have high : (start.val : Int) < 2^63 := by have := start.isLt; omega
  have empty : ∀ h, (create tick firstGen start.val).timers.holds h = false := by
    intro h
    simp [create,HandleTable.create,HandleTable.holds]
  refine ⟨create_rest _ _ _,rfl,?_,?_,?_,positive,low,high,?_,rfl⟩
  · intro h inside
    simp [create] at inside
  · intro h held
    simp [empty] at held
  · intro h held
    simp [empty] at held
  intro primed
  simp [create,TimerWheel.create] at primed

lemma Ready.standing (ready : s.Ready) : s.Standing := by
  refine ⟨ready.positive,?_⟩
  cases primed : s.wheel.primed with
  | true =>
    rw [ready.caughtUp primed]
    exact Int.ediv_mul_le _ (by have := ready.positive; omega)
  | false =>
    rw [ready.rest.sound.filing.epoch primed]
    simpa using ready.low

lemma Ready.armed_isSome (ready : s.Ready) (id : Handle) : (s.armed id).isSome = true ↔
    s.timers.holds id = true ∧ (s.node id.idx).cancelled = false := by
  rw [isSome_iff_exists]
  constructor
  · rintro ⟨d,found⟩
    obtain ⟨held,queued,_⟩ := (armed_eq_some _ _ _).mp found
    exact ⟨held,(ready.rest.sound.life.scheduled _ queued).2⟩
  rintro ⟨held,active⟩
  exact ⟨_,(armed_eq_some _ _ _).mpr ⟨held,ready.waiting id held active,rfl⟩⟩

lemma Ready.inRange (ready : s.Ready) (d : Int64) : s.InRange (s.now + d.toInt) := by
  have lower := Int64.le_toInt d
  have upper := Int64.toInt_lt d
  have low := ready.low
  have high := ready.high
  exact ⟨by omega,by omega⟩

lemma Ready.next (ready : s.Ready) (keeps : Keeps s s') (sound : s'.Sound)
    (proper : s'.misused = false) (retired : ∀ h ∈ s'.dead, (s'.node h.idx).cancelled = true)
    (waiting : ∀ h, s'.timers.holds h = true → (s'.node h.idx).cancelled = false → s'.Scheduled h.idx)
    (periods : ∀ h, s'.timers.holds h = true → (s'.node h.idx).period < 2^63) : s'.Ready := by
  have clock := keeps.clock
  refine ⟨⟨sound,keeps.firing.trans ready.rest.quiet,keeps.toStays.drained ready.rest.drained⟩,
    proper,retired,waiting,periods,clock.tick ▸ ready.positive,keeps.now ▸ ready.low,
    keeps.now ▸ ready.high,?_,clock.maxTicks.trans ready.maxTicks⟩
  intro primed
  rw [clock.nowTick,keeps.now,clock.tick]
  exact ready.caughtUp (clock.primed ▸ primed)

lemma deadlines_eq (keeps : Keeps s s') (groups : ∀ g, s'.groups.holds g = s.groups.holds g) :
    s'.deadlines = {s.deadlines with armed := s'.armed} := by
  unfold deadlines
  rw [keeps.clock.tick,keeps.now,keeps.clock.nowTick,keeps.clock.primed,funext groups]

variable (ready : s.Ready)
include ready

lemma arm_refines (expiry : Int) {period : Int} (mode : RepeatMode) (g : Handle) (precise : Bool)
    (range : precise = true ∨ s.InRange expiry) (short : period < 2^63) :
    (s.arm expiry period mode g precise).2.Ready ∧ s.deadlines.Arm (s.deadlines.deadline expiry period mode g precise)
    (.id (s.arm expiry period mode g precise).1) (s.arm expiry period mode g precise).2.deadlines := by
  obtain ⟨sound,_,_⟩ := ready.rest
  obtain ⟨handle,new⟩ := arm_spec sound.filing sound.life expiry period mode g precise
  have keeps := new.keeps sound.life
  have holds := fun h => (new.holds_iff sound.life h).1
  have others := fun h held => new.others h.idx (sound.life.held_ne_next (h := h) held)
  refine ⟨ready.next keeps (new.sound sound) (new.misused.trans ready.proper) ?_ ?_ ?_,
    s.timers.nextHandle,by rw [handle],?_,?_⟩
  · intro h inside
    rw [new.dead] at inside
    rw [others h (sound.life.dead h inside).1]
    exact ready.retired h inside
  · intro h held active
    rcases holds h held with rfl | before
    · exact new.scheduled
    rw [others h before] at active
    have queued := ready.waiting h before active
    unfold Scheduled at queued ⊢
    rwa [new.link,if_neg (sound.life.held_ne_next before),others h before]
  · intro h held
    rcases holds h held with rfl | before
    · change (Timers.node _ s.timers.nextIdx).period < 2^63
      rw [new.self]
      exact short
    rw [others h before]
    exact ready.periods h before
  · exact armed_eq_none (fun _ => sound.life.next_idle)
  rw [deadlines_eq keeps (fun g => new.groupTable.holds g),new.armed sound.life]
  have home : s.newHome precise expiry =
      homeOf s.wheel.tick s.wheel.nowTick expiry precise := parks_home ready.standing precise range
  rw [home]
  rfl

lemma Ready.drop {i : NodeRef} (drop : Dropped s s' i) (filing : s'.Filing) (cancelled : (s'.node i).cancelled = true)
    (live : s.timers.alive i = true) : s'.Ready := by
  have life := ready.rest.sound.life
  refine ready.next drop.keeps (drop.sound filing cancelled ready.rest.sound live)
    (drop.misused.trans ready.proper) ?_ ?_ ?_
  · intro h inside
    by_cases own : h.idx = i
    · rw [own]
      exact cancelled
    rw [drop.others _ own]
    rw [drop.dead,List.mem_append,List.mem_singleton] at inside
    refine ready.retired h (inside.resolve_right (fun same => own ?_))
    rw [same,life.ids i live]
  · intro h held active
    have other : h.idx ≠ i := by
      intro same
      rw [same,cancelled] at active
      contradiction
    rw [drop.table.holds] at held
    rw [drop.others _ other] at active
    exact (drop.scheduled _).mpr ⟨ready.waiting h held active,other⟩
  intro h held
  rw [(drop.keeps.rate h ((drop.table.holds h).symm.trans held)).1]
  exact ready.periods h ((drop.table.holds h).symm.trans held)

lemma cancel_refines (id : Handle) : (s.cancel id).2.Ready ∧
    s.deadlines.Call (.cancel id) (.bool (s.cancel id).1) (s.cancel id).2.deadlines := by
  have sound := ready.rest.sound
  by_cases found : s.timers.holds id = true ∧ (s.node id.idx).cancelled = false
  · obtain ⟨reply,filing,drop,cancelled⟩ := cancel_spec sound.filing sound.life found.1 found.2
    have live := ((HandleTable.holds_iff _ _).mp found.1).2.2.1
    refine ⟨ready.drop drop filing cancelled live,?_,?_⟩
    · rw [reply]
      exact congrArg TimerReply.bool ((ready.armed_isSome id).mpr found).symm
    rw [deadlines_eq drop.keeps (fun g => drop.groupTable.holds g),drop.armed sound.life found.1]
    rfl
  have idle := ((s.found_or_stale id).resolve_left found).1
  have absent : s.armed id = none := by
    rw [← not_isSome_iff_eq_none,ready.armed_isSome]
    exact found
  rw [idle]
  refine ⟨ready,?_,?_⟩
  · change TimerReply.bool false = .bool (s.armed id).isSome
    rw [absent]
    rfl
  change s.deadlines = {s.deadlines with armed := update s.armed id none}
  rw [← absent,update_eq_self]
  rfl

lemma Ready.not_finishing (active : (s.node id.idx).cancelled = false) : s.finishing id (s.node id.idx) = false := by
  have kept : id ∉ s.dead := by
    intro inside
    rw [ready.retired id inside] at active
    contradiction
  simp [finishing,kept,ready.rest.quiet]

lemma Ready.requeue {t : Int} (queue : Requeued s s' id.idx t) (held : s.timers.holds id = true)
    (active : (s.node id.idx).cancelled = false) (proper : s'.misused = false) : s'.Ready := by
  have flags : ∀ j, (s'.node j).cancelled = (s.node j).cancelled := by
    intro j
    by_cases own : j = id.idx
    · rw [own,queue.self]
    · rw [queue.others j own]
  refine ready.next queue.keeps (queue.sound ready.rest.sound held active (ready.not_finishing active)) proper ?_ ?_ ?_
  · intro h inside
    rw [queue.dead] at inside
    rw [flags]
    exact ready.retired h inside
  · intro h heldToo activeToo
    rw [queue.table.holds] at heldToo
    rw [flags] at activeToo
    exact (queue.scheduled _).mpr (.inr (ready.waiting h heldToo activeToo))
  intro h heldToo
  rw [queue.table.holds] at heldToo
  rw [(queue.keeps.rate h heldToo).1]
  exact ready.periods h heldToo

lemma reschedule_refines (id : Handle) (d : Int64) : (s.reschedule id d).2.Ready ∧
    s.deadlines.Call (.reschedule id d) (.bool (s.reschedule id d).1) (s.reschedule id d).2.deadlines := by
  have sound := ready.rest.sound
  by_cases found : s.timers.holds id = true ∧ (s.node id.idx).cancelled = false
  · obtain ⟨held,active⟩ := found
    obtain ⟨reply,queue,misused⟩ := reschedule_spec sound.filing d held active
    rw [ready.proper,ready.not_finishing active] at misused
    have entry : s.armed id = some (s.deadlineOf id.idx) :=
      (armed_eq_some _ _ _).mpr ⟨held,ready.waiting id held active,rfl⟩
    have home : s.newHome (s.node id.idx).precise (s.now + d.toInt) =
        homeOf s.wheel.tick s.wheel.nowTick (s.now + d.toInt) (s.node id.idx).precise :=
      parks_home ready.standing _ (.inr (ready.inRange d))
    refine ⟨ready.requeue queue held active misused,?_,?_⟩
    · change TimerReply.bool _ = .bool (s.armed id).isSome
      rw [reply,entry]
      rfl
    rw [deadlines_eq queue.keeps (fun g => by rw [queue.groups]),queue.armed sound.life held,home]
    change _ = ({s.deadlines with armed := update s.armed id ((s.armed id).map _)} : Deadlines)
    rw [entry]
    rfl
  have idle := ((s.found_or_stale id).resolve_left found).2 d
  have absent : s.armed id = none := by
    rw [← not_isSome_iff_eq_none,ready.armed_isSome]
    exact found
  rw [idle]
  refine ⟨ready,?_,?_⟩
  · change TimerReply.bool false = .bool (s.armed id).isSome
    rw [absent]
    rfl
  change s.deadlines = ({s.deadlines with armed := update s.armed id ((s.armed id).map _)} : Deadlines)
  rw [absent,map_none,← absent,update_eq_self]
  rfl

lemma makeTimerGroup_refines : s.makeTimerGroup.2.Ready ∧
    s.deadlines.Call .makeTimerGroup (.id s.makeTimerGroup.1) s.makeTimerGroup.2.deadlines := by
  have life := ready.rest.sound.life
  have keeps : Keeps s s.makeTimerGroup.2 :=
    ⟨⟨rfl,.refl _,fun _ linked => linked⟩,rfl,rfl,fun _ held => held,fun _ _ => ⟨rfl,rfl⟩⟩
  have fresh : s.groups.holds s.groups.nextHandle = false := by
    rw [Bool.eq_false_iff]
    intro held
    have live := ((HandleTable.holds_iff _ _).mp held).2.2.1
    have unborn : s.groups.alive s.groups.nextHandle.idx = false := HandleTable.nextIdx_dead life.groups
    rw [unborn] at live
    contradiction
  refine ⟨ready.next keeps (makeTimerGroup_sound ready.rest.sound) ready.proper ready.retired
    ready.waiting ready.periods,s.groups.nextHandle,rfl,fresh,?_⟩
  have groups : s.makeTimerGroup.2.groups.holds = update s.groups.holds s.groups.nextHandle true := by
    funext h
    rw [update_apply,Bool.eq_iff_iff]
    refine (HandleTable.emplace_holds life.groups [] h).trans ?_
    split <;> simp [*]
  have armed : s.makeTimerGroup.2.armed = s.armed := by
    funext h
    refine armed_congr rfl (fun _ => ⟨rfl,rfl⟩) rfl ?_
    intro g member
    have live := (life.grouped h.idx g member).2.2
    have other : g ≠ s.groups.nextIdx := by
      rintro rfl
      rw [HandleTable.nextIdx_dead life.groups] at live
      contradiction
    change ((s.groups.emplace []).2.slots g).gen = _
    rw [HandleTable.emplace_slots,if_neg other]
  unfold deadlines
  rw [groups,armed]
  rfl

lemma cancelMembers_refines (g : Nat) (members : List NodeRef) (list : s.groups.node g = members) :
    (cancelMembers g members.length s).Ready ∧ Keeps s (cancelMembers g members.length s) ∧
    (∀ k, (cancelMembers g members.length s).groups.holds k = s.groups.holds k) ∧
    (cancelMembers g members.length s).armed =
    fun h => if h ∈ members.map (fun i => (s.node i).id) then none else s.armed h := by
  induction members generalizing s with
  | nil => exact ⟨ready,.refl s,fun _ => rfl,by simp [cancelMembers]⟩
  | cons i rest ih =>
    have sound := ready.rest.sound
    have member : i ∈ s.groups.node g := by simp [list]
    have live := (sound.life.grouped i g ((sound.life.members g i).mp member)).1
    have unique := sound.life.nodup g
    rw [list,List.nodup_cons] at unique
    obtain ⟨filing,drop,cancelled⟩ := cancelMember_spec sound.filing i (fun k => sound.life.members k i)
    have shorter : (s.cancelMember i).groups.node g = rest := by
      rw [drop.members,list,List.erase_cons_head]
    obtain ⟨after,keeps,groups,armed⟩ := ih (ready.drop drop filing cancelled live) shorter
    have ids : rest.map (fun j => ((s.cancelMember i).node j).id) = rest.map (fun j => (s.node j).id) := by
      refine List.map_congr_left (fun j inside => ?_)
      rw [drop.others j]
      rintro rfl
      exact unique.1 inside
    have own : (s.node i).id.idx = i := by rw [sound.life.ids i live]
    have dropped : Dropped s (s.cancelMember i) (s.node i).id.idx := own.symm ▸ drop
    have result : cancelMembers g (i::rest).length s = cancelMembers g rest.length (s.cancelMember i) := by
      simp only [List.length_cons,cancelMembers,list]
    rw [result]
    refine ⟨after,drop.keeps.trans keeps, fun k => (groups k).trans (drop.groupTable.holds k),?_⟩
    rw [armed,ids,dropped.armed sound.life (sound.life.holds_id live)]
    funext h
    by_cases here : h = (s.node i).id <;> simp [here]

lemma Ready.armed_in_group (id g : Handle) : (∃ d, s.armed id = some d ∧ d.group = some g) ↔
    s.groups.holds g = true ∧ s.timers.holds id = true ∧ id.idx ∈ s.groups.node g.idx := by
  have life := ready.rest.sound.life
  rw [life.members]
  constructor
  · rintro ⟨d,found,group⟩
    obtain ⟨held,_,rfl⟩ := (armed_eq_some _ _ _).mp found
    obtain ⟨k,member,rfl⟩ := map_eq_some_iff.mp group
    exact ⟨life.groups.holds_own (life.grouped _ k member).2.2,held,member⟩
  rintro ⟨current,held,member⟩
  have active := (life.grouped _ _ member).2.1
  refine ⟨_,(armed_eq_some _ _ _).mpr ⟨held,ready.waiting id held active,rfl⟩,?_⟩
  have gen := ((HandleTable.holds_iff _ _).mp current).2.2.2
  change (s.node id.idx).groupLink.map (fun k => (⟨k,(s.groups.slots k).gen⟩ : Handle)) = some g
  rw [member,map_some,gen]

lemma cancelGroup_refines (g : Handle) : (s.cancelGroup g).2.Ready ∧
    s.deadlines.Call (.cancelGroup g) (.count (s.cancelGroup g).1) (s.cancelGroup g).2.deadlines := by
  have life := ready.rest.sound.life
  cases held : s.groups.holds g with
  | false =>
    have result : s.cancelGroup g = (0,s) := by simp [cancelGroup,HandleTable.get,held]
    rw [result]
    refine ⟨ready,[],List.nodup_nil,?_,rfl,?_⟩
    · intro id
      refine ⟨fun inside => by simp at inside,fun member => ?_⟩
      have current := ((ready.armed_in_group id g).mp member).1
      rw [held] at current
      contradiction
    · simp only [List.not_mem_nil,if_false]
  | true =>
    let members := s.groups.node g.idx
    obtain ⟨after,keeps,groups,armed⟩ := cancelMembers_refines ready g.idx members rfl
    have found : s.groups.get g = some members := (HandleTable.get_eq_some _ _ _).mpr ⟨held,rfl⟩
    have idx : ∀ i ∈ members, (s.node i).id.idx = i := by
      intro i inside
      rw [life.ids i (life.grouped i _ ((life.members _ i).mp inside)).1]
    have result : s.cancelGroup g = (members.length,{cancelMembers g.idx members.length s with
        stats := (s.cancelGroup g).2.stats}) := by
      simp only [cancelGroup,found]
    rw [result]
    refine ⟨⟨⟨after.rest.sound.stats _,after.rest.quiet,after.rest.drained⟩,after.proper,
      after.retired,after.waiting,after.periods,after.positive,after.low,after.high,after.caughtUp,
      after.maxTicks⟩,members.map (fun i => (s.node i).id),?_,?_,by simp,?_⟩
    · refine List.Nodup.map_on ?_ (life.nodup g.idx)
      intro i first j second same
      rw [← idx i first,← idx j second,same]
    · intro id
      refine Iff.trans ?_ (ready.armed_in_group id g).symm
      rw [List.mem_map]
      constructor
      · rintro ⟨i,inside,rfl⟩
        have live := (life.grouped i _ ((life.members _ i).mp inside)).1
        exact ⟨held,life.holds_id live,by rw [idx i inside]; exact inside⟩
      rintro ⟨_,heldToo,inside⟩
      exact ⟨id.idx,inside,life.id_of_holds heldToo⟩
    · exact (deadlines_eq keeps groups).trans (by rw [armed]; rfl)

lemma call_refines (c : TimerCall) : (s.call c).2.Ready ∧ s.deadlines.Call c (s.call c).1 (s.call c).2.deadlines := by
  cases c with
  | after d g => exact arm_refines ready _ _ g false (.inr (ready.inRange d)) (by decide)
  | atTime t g => exact arm_refines ready _ _ g true (.inl rfl) (by decide)
  | every p d mode g => exact arm_refines ready _ mode g false (.inr (ready.inRange _)) (Int64.toInt_lt p)
  | cancel id => exact cancel_refines ready id
  | reschedule id d => exact reschedule_refines ready id d
  | makeTimerGroup => exact makeTimerGroup_refines ready
  | cancelGroup g => exact cancelGroup_refines ready g
end AffiniX.Timers
