import AffiniX.TimerCalls

/-! Firing: a node leaves its structure, its callback makes any calls, and the node is queued again or retired. -/
namespace AffiniX.Timers
open TimerWheel
open TimerWheel (slots SameClock)
variable {s : Timers} {i : NodeRef}

lemma Lifecycle.congr {s' : Timers} (life : s.Lifecycle) (timers : s'.timers = s.timers)
    (groups : s'.groups = s.groups) (wheel : s'.wheel = s.wheel) (dead : s'.dead = s.dead) : s'.Lifecycle := by
  have nodes : ∀ j, s'.node j = s.node j := fun j => by unfold node; rw [timers]
  refine life.transfer (timers ▸ .refl _) groups dead (fun j => by rw [nodes]; exact ⟨rfl,rfl,rfl⟩) ?_
  intro j queued
  unfold Scheduled at queued
  rw [wheel,nodes] at queued
  exact .inl queued

structure InHand (s : Timers) (i : NodeRef) : Prop where
  filing : s.Filing
  life : s.Lifecycle
  idle : ¬ s.Scheduled i
  live : s.timers.alive i = true
  active : (s.node i).cancelled = false
  kept : (s.node i).id ∉ s.dead
  quiet : s.firing = none

lemma unlinkTimer_inHand (sound : s.Sound) (quiet : s.firing = none)
    (queued : s.Scheduled i) : InHand (s.unlinkTimer i) i := by
  obtain ⟨filing,frame,_,_⟩ := unlinkTimer_spec sound.filing i
  obtain ⟨live,active⟩ := sound.life.scheduled i queued
  refine ⟨filing,?_,?_,?_,?_,?_,?_⟩
  · refine sound.life.transfer frame.table frame.groups frame.dead ?_ ?_
    · intro j
      rw [frame.node]
      exact ⟨rfl,rfl,rfl⟩
    intro j after
    exact .inl ((unlinkTimer_scheduled sound.filing i j).mp after).1
  · rw [unlinkTimer_scheduled sound.filing]
    simp
  · rw [frame.table.alive]
    exact live
  · rw [frame.node]
    exact active
  · rw [frame.node,frame.dead]
    intro inside
    have retired := (sound.life.dead (s.node i).id inside).2.1
    rw [sound.life.ids i live] at retired
    exact retired queued
  rw [frame.firing]
  exact quiet

lemma unlinkTimer_stays (filing : s.Filing) (i : NodeRef) : Stays s (s.unlinkTimer i) := by
  obtain ⟨_,frame,links,_⟩ := unlinkTimer_spec filing i
  refine ⟨frame.now,frame.clock,?_⟩
  intro n linked
  rw [links] at linked
  split at linked
  · contradiction
  · exact linked

lemma beforeCallback_sound (hand : InHand s i) : (s.beforeCallback i).Sound ∧ Stays s (s.beforeCallback i) ∧
    (s.beforeCallback i).firing = some (s.node i).id ∧ (s.beforeCallback i).misused = s.misused ∧
    ((s.beforeCallback i).node i).period = (s.node i).period := by
  have held := hand.life.holds_id hand.live
  have own : (s.node i).id.idx = i := by rw [hand.life.ids i hand.live]
  unfold beforeCallback
  dsimp only
  split
  · next rate =>
    let next := (nextExpiry (s.node i) s.now).1
    let t : Timers := {s with stats := {s.stats with
      coalesced := s.stats.coalesced + (nextExpiry (s.node i) s.now).2}}
    have filing : t.Filing := hand.filing.congr rfl rfl (fun _ => rfl) (fun _ _ => ⟨rfl,rfl⟩)
    obtain ⟨queue,misused⟩ := insertTimer_requeued filing hand.idle next
    have life := queue.lifecycle (hand.life.congr rfl rfl rfl rfl) hand.live hand.active hand.kept
    refine ⟨⟨queue.filing.congr rfl rfl (fun _ => rfl) (fun _ _ => ⟨rfl,rfl⟩),
      life.congr rfl rfl rfl rfl,?_⟩,⟨queue.now,queue.clock,queue.stays.current⟩,rfl,misused,?_⟩
    · intro h firing
      have same : (s.node i).id = h := Option.some.inj firing
      subst same
      refine ⟨(queue.table.holds _).trans held,.inl ?_,?_⟩
      · change FixedRate (((t.setExpiry i next).insertTimer i).node (s.node i).id.idx)
        rw [own,queue.self]
        exact rate
      intro inside
      exact absurd (queue.dead ▸ inside) hand.kept
    change (((t.setExpiry i next).insertTimer i).node i).period = _
    rw [queue.self]
    rfl
  refine ⟨⟨hand.filing.congr rfl rfl (fun _ => rfl) (fun _ _ => ⟨rfl,rfl⟩),
    hand.life.congr rfl rfl rfl rfl,?_⟩,⟨rfl,.refl _,fun _ linked => linked⟩,rfl,rfl,rfl⟩
  intro h firing
  have same : (s.node i).id = h := Option.some.inj firing
  subst same
  refine ⟨held,.inr ?_,fun inside => absurd inside hand.kept⟩
  rw [own]
  exact hand.idle

lemma retire_spec (filing : s.Filing) (life : s.Lifecycle)
    (idle : ¬ s.Scheduled i) : (s.retire i).Filing ∧ Dropped s (s.retire i) i := by
  have left := glistUnlink_spec i (fun g => life.members g i)
  obtain ⟨wheel,dead,now,fired,firing,misused⟩ := left.same
  obtain ⟨unlinked,flag⟩ := not_scheduled.mp idle
  have self := left.node i
  rw [if_pos rfl] at self
  refine ⟨(left.filing filing).congr rfl rfl (fun _ => rfl) (fun _ _ => ⟨rfl,rfl⟩),now,
    wheel ▸ .refl _,fired,firing,misused,left.table,left.groupTable,left.members,?_,?_,?_,?_,?_,?_,?_⟩
  · intro j
    change (s.glistUnlink i).wheel.link j = _
    rw [wheel]
    split
    · next own => rw [own,unlinked]
    · rfl
  · change ((s.glistUnlink i).node i).inHeap = false
    rw [self]
    exact flag
  · intro j other
    change (s.glistUnlink i).node j = _
    rw [left.node,if_neg other]
  · change ((s.glistUnlink i).node i).groupLink = none
    rw [self]
    rfl
  · change ((s.glistUnlink i).node i).id = _
    rw [self]
    rfl
  · change ((s.glistUnlink i).node i).period = _ ∧ ((s.glistUnlink i).node i).mode = _
    rw [self]
    exact ⟨rfl,rfl⟩
  change (s.glistUnlink i).dead ++ _ = _
  rw [dead]

lemma afterCallback_eq (s : Timers) (i : NodeRef) (repeats : Bool) : s.afterCallback i repeats =
    if (s.node i).cancelled then {s with firing := none}
    else if repeats then
      if (s.node i).mode = .fixedDelay then
        {(s.setExpiry i (s.now + (s.node i).period)).insertTimer i with firing := none}
      else {s with firing := none}
    else {s.retire i with firing := none} := by
  unfold afterCallback
  cases gone : (s.node i).cancelled <;> cases repeats <;> by_cases delay : (s.node i).mode = .fixedDelay <;>
    simp only [gone,delay,decide_true,decide_false,Bool.and_true,Bool.and_false,
      Bool.not_true,Bool.not_false,Bool.false_eq_true,if_true,if_false]

lemma afterCallback_sound (sound : s.Sound) {id : Handle} (firing : s.firing = some id) {repeats : Bool}
    (period : repeats = decide ((s.node id.idx).period > 0)) : (s.afterCallback id.idx repeats).Sound ∧
    Stays s (s.afterCallback id.idx repeats) ∧ (s.afterCallback id.idx repeats).firing = none ∧
    (s.afterCallback id.idx repeats).misused = s.misused := by
  obtain ⟨held,queued,retired⟩ := sound.firing id firing
  have live := ((HandleTable.holds_iff _ _).mp held).2.2.1
  have quiet : ∀ t : Timers, t.Filing → t.Lifecycle → ({t with firing := none} : Timers).Sound :=
    fun t filing life => ⟨filing.congr rfl rfl (fun _ => rfl) (fun _ _ => ⟨rfl,rfl⟩),
      life.congr rfl rfl rfl rfl,fun _ impossible => by contradiction⟩
  rw [afterCallback_eq]
  split
  · exact ⟨quiet s sound.filing sound.life,⟨rfl,.refl _,fun _ linked => linked⟩,rfl,rfl⟩
  next active =>
  rw [Bool.not_eq_true] at active
  have kept : (s.node id.idx).id ∉ s.dead := by
    rw [sound.life.id_of_holds held]
    intro inside
    rw [retired inside] at active
    contradiction
  split
  · split
    · next delay =>
      have idle : ¬ s.Scheduled id.idx := queued.resolve_left (fun rate => by
        have mode := rate.2
        rw [delay] at mode
        contradiction)
      obtain ⟨queue,misused⟩ := insertTimer_requeued sound.filing idle (s.now + (s.node id.idx).period)
      exact ⟨quiet _ queue.filing (queue.lifecycle sound.life live active kept),
        ⟨queue.now,queue.clock,queue.stays.current⟩,rfl,misused⟩
    · exact ⟨quiet s sound.filing sound.life,⟨rfl,.refl _,fun _ linked => linked⟩,rfl,rfl⟩
  next once =>
  have idle : ¬ s.Scheduled id.idx := queued.resolve_left (fun rate => once (by
    rw [period]
    exact decide_eq_true rate.1))
  obtain ⟨filing,drop⟩ := retire_spec sound.filing sound.life idle
  exact ⟨quiet _ filing (drop.lifecycle sound.life live), ⟨drop.now,drop.clock,drop.stays.current⟩,rfl,drop.misused⟩

lemma afterCallback_misused (s : Timers) (i : NodeRef) (repeats : Bool) :
    (s.afterCallback i repeats).misused = s.misused := by
  rw [afterCallback_eq]
  split_ifs
  · rfl
  · exact insertTimer_misused _ i
  · rfl
  · exact glistUnlink_misused s i

variable (callbacks : Nat → List TimerCall)

lemma fireTimer_sound (hand : InHand s i) (proper : (fireTimer callbacks s i).misused = false) :
    (fireTimer callbacks s i).Sound ∧ Stays s (fireTimer callbacks s i) ∧ (fireTimer callbacks s i).firing = none := by
  obtain ⟨sound,stays,firing,_,period⟩ := beforeCallback_sound hand
  have own : (s.node i).id.idx = i := by rw [hand.life.ids i hand.live]
  have fired : fireTimer callbacks s i =
      ((s.beforeCallback i).calls (callbacks s.fired.length)).afterCallback (s.node i).id.idx
        (decide ((s.node i).period > 0)) := by
    rw [fireTimer,hand.active,own]
    rfl
  rw [fired] at proper ⊢
  rw [afterCallback_misused] at proper
  obtain ⟨called,keeps⟩ := calls_sound sound _ proper
  have held := (sound.firing _ firing).1
  have same := (keeps.rate _ held).1
  rw [own,period] at same
  have repeats : decide ((s.node i).period > 0) = decide
      ((((s.beforeCallback i).calls (callbacks s.fired.length)).node (s.node i).id.idx).period > 0) := by
    rw [own,same]
  obtain ⟨done,rest,quiet,_⟩ := afterCallback_sound called (keeps.firing.trans firing) repeats
  exact ⟨done,(stays.trans keeps.toStays).trans rest,quiet⟩

lemma fireTimer_misused (s : Timers) (i : NodeRef)
    (already : s.misused = true) : (fireTimer callbacks s i).misused = true := by
  unfold fireTimer
  split
  · exact already
  rw [afterCallback_misused]
  apply calls_misused
  unfold beforeCallback
  dsimp only
  split
  · exact (insertTimer_misused _ i).trans already
  · exact already

/-- Between iterations and between the rounds of the loops: no callback is running, and
the slot of the current tick is empty. -/
structure Rest (s : Timers) : Prop where
  sound : s.Sound
  quiet : s.firing = none
  drained : ∀ n, s.wheel.link n ≠ some (0,s.wheel.nowTick % slots)

lemma Stays.drained {s' : Timers} (stays : Stays s s')
    (drained : ∀ n, s.wheel.link n ≠ some (0,s.wheel.nowTick % slots)) (n : NodeRef) :
    s'.wheel.link n ≠ some (0,s'.wheel.nowTick % slots) := by
  rw [stays.clock.nowTick]
  exact fun linked => drained n (stays.current n linked)

lemma slot_front (sound : s.Sound) {n : NodeRef} {rest : List NodeRef}
    (front : s.wheel.buckets (0,s.wheel.nowTick % slots) = n::rest) :
    host.setWheel s (s.wheel.pull n) = s.unlinkTimer n ∧ s.Scheduled n ∧ ¬ s.expiryTick n > s.wheel.nowTick := by
  have linked := (sound.filing.wheel.mem _ n).mp (front ▸ List.mem_cons_self)
  refine ⟨?_,.inl (by simp [linked]),?_⟩
  · simp [unlinkTimer,sound.filing.apart n _ linked,unlink,linked,host]
  cases sound.filing.filed n _ linked with
  | inl placed => exact absurd rfl placed.not_current
  | inr => omega

lemma expireSlot_succ (fuel : Nat) (sound : s.Sound) {n : NodeRef} {rest : List NodeRef}
    (front : s.wheel.buckets (0,s.wheel.nowTick % slots) = n::rest) : expireSlot host (fireTimer callbacks)
    (s.wheel.nowTick % slots) (fuel+1) s = expireSlot host (fireTimer callbacks) (s.wheel.nowTick % slots)
    fuel (fireTimer callbacks (s.unlinkTimer n) n) := by
  obtain ⟨popped,_,due⟩ := slot_front sound front
  have late : ¬ host.expiryTick s n > ((host.wheel s).pull n).nowTick := by
    rw [(pull_clock _ n).nowTick]
    exact due
  rw [expireSlot,show (host.wheel s).buckets (0,s.wheel.nowTick % slots) = n::rest from front]
  dsimp only
  rw [if_neg late]
  exact congrArg (fun t => expireSlot host (fireTimer callbacks)
    (s.wheel.nowTick % slots) fuel (fireTimer callbacks t n)) popped
end AffiniX.Timers
