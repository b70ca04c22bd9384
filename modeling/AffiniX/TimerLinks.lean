import AffiniX.Transition
import AffiniX.TimerLoops

/-! Link safety over whole runs: user code calls the timers between iterations, from
callbacks and from the other stages of an iteration. -/
namespace AffiniX.Timers
open Option Transition
open TimerWheel (slots SameClock)

inductive TimerEvent
  | call (c : TimerCall)
  | poll (fuel : Nat) (reading : Int) (early : List TimerCall)
      (callbacks : Nat → List TimerCall) (late : List TimerCall)

def Step (s : Timers) : TimerEvent → Timers → Prop
  | .call c, t => t = (s.call c).2
  | .poll fuel reading early callbacks late, t => s.pollOnce fuel reading early callbacks late = some t

/-- What a bucket, the heap or a group threads is alive, no node is queued twice, and the wheel's size is right. -/
structure Linked (s : Timers) : Prop where
  live : ∀ i, (i ∈ s.wheel.bucketNodes ∨ i ∈ s.heap.members ∨ ∃ g, i ∈ s.groups.node g) → s.timers.alive i = true
  once : (s.wheel.bucketNodes ++ s.heap.members).Nodup
  groupsOnce : ∀ g, (s.groups.node g).Nodup
  size : s.wheel.count = s.wheel.bucketNodes.length

variable {s : Timers}

lemma Sound.linked (sound : s.Sound) : s.Linked := by
  obtain ⟨filing,life,_⟩ := sound
  refine ⟨?_,?_,life.nodup,filing.wheel.count⟩
  · rintro i (inWheel | inHeap | ⟨g,member⟩)
    · exact (life.scheduled i (.inl ((filing.wheel.mem_bucketNodes i).mp inWheel))).1
    · rw [IndexedHeap.mem_members] at inHeap
      exact (life.scheduled i (.inr ((filing.inHeap i).mpr inHeap))).1
    · exact (life.grouped i g ((life.members g i).mp member)).1
  rw [List.nodup_append]
  refine ⟨filing.wheel.nodup_bucketNodes,filing.heap.indexed.nodup_members,?_⟩
  rintro i inWheel _ inHeap rfl
  obtain ⟨b,linked⟩ := isSome_iff_exists.mp ((filing.wheel.mem_bucketNodes i).mp inWheel)
  have flag := (filing.inHeap i).mpr ((IndexedHeap.mem_members _ _).mp inHeap)
  rw [filing.apart i b linked] at flag
  contradiction

lemma Sound.moveWheel (sound : s.Sound) {w : TimerWheel} (wf : w.Wf) (epoch : w.primed = false → w.nowTick = 0)
    (domain : ∀ n, w.link n = none ↔ s.wheel.link n = none)
    (filed : ∀ n b, w.link n = some b → TimerWheel.Filed w.nowTick (s.expiryTick n) b) :
    ({s with wheel := w} : Timers).Sound := by
  have linked : ∀ n, (w.link n).isSome = (s.wheel.link n).isSome := by
    intro n
    rw [Bool.eq_iff_iff,← not_iff_not]
    simpa using domain n
  have scheduled : ∀ n, ({s with wheel := w} : Timers).Scheduled n ↔ s.Scheduled n := by
    intro n
    unfold Scheduled
    rw [linked]
    rfl
  refine ⟨⟨wf,epoch,filed,sound.filing.heap,sound.filing.inHeap,?_⟩,?_,?_⟩
  · intro n b found
    change w.link n = some b at found
    obtain ⟨b',before⟩ := isSome_iff_exists.mp ((linked n).symm.trans (by simp [found]))
    exact sound.filing.apart n b' before
  · exact sound.life.transfer (.refl _) rfl rfl (fun _ => ⟨rfl,rfl,rfl⟩)
      (fun n queued => .inl ((scheduled n).mp queued))
  intro h firing
  obtain ⟨held,idle,retired⟩ := sound.firing h firing
  exact ⟨held,idle.imp_right (fun before queued => before ((scheduled _).mp queued)),retired⟩

lemma Sound.tick (sound : s.Sound) (primed : s.wheel.primed = true)
    (drained : ∀ n, s.wheel.link n ≠ some (0,s.wheel.nowTick % slots)) :
    ({s with wheel := s.wheel.step s.expiryTick} : Timers).Sound := by
  obtain ⟨wf,now,clock,domain,settled⟩ := TimerWheel.step_spec sound.filing.wheel s.expiryTick
    (sound.filing.placed drained)
  refine sound.moveWheel wf ?_ domain ?_
  · intro start
    rw [clock.primed] at start
    exact absurd start (by simp [primed])
  intro n b linked
  rw [now]
  exact (settled n b linked).filed

variable (callbacks : Nat → List TimerCall)

lemma pop_sound (sound : s.Sound) (quiet : s.firing = none) {n : NodeRef} (queued : s.Scheduled n)
    (proper : (pop callbacks s n).misused = false) :
    (pop callbacks s n).Sound ∧ Stays (s.unlinkTimer n) (pop callbacks s n) ∧ (pop callbacks s n).firing = none :=
  fireTimer_sound callbacks (unlinkTimer_inHand sound quiet queued) proper

lemma pop_carried {n : NodeRef} (inv : s.Sound ∧ s.firing = none ∧ s.wheel.primed = true) (queued : s.Scheduled n) :
    (((pop callbacks s n).Sound ∧ (pop callbacks s n).firing = none ∧
    (pop callbacks s n).wheel.primed = true) ∧ Stays (s.unlinkTimer n) (pop callbacks s n)) ∨
    (pop callbacks s n).misused = true := by
  obtain ⟨sound,quiet,primed⟩ := inv
  cases proper : (pop callbacks s n).misused with
  | true => exact .inr rfl
  | false =>
    obtain ⟨after,stays,silent⟩ := pop_sound callbacks sound quiet queued proper
    have clock := (unlinkTimer_stays sound.filing n).clock.trans stays.clock
    exact .inl ⟨⟨after,silent,clock.primed.trans primed⟩,stays⟩

lemma sound_ticks (target : Nat) : TickCarried callbacks target
    (fun s => s.Sound ∧ s.firing = none ∧ s.wheel.primed = true) (fun s => s.misused = true) := by
  refine ⟨fun s inv => ⟨inv.1,inv.2.1⟩,?_,?_,fun _ _ bad => bad, fun s n => fireTimer_misused callbacks s n⟩
  · intro s n inv linked
    exact pop_carried callbacks inv (.inl (by simp [linked]))
  rintro s ⟨sound,quiet,primed⟩ drained _
  have clock := (TimerWheel.step_spec sound.filing.wheel s.expiryTick (sound.filing.placed drained)).2.2.1
  exact ⟨sound.tick primed drained,quiet,clock.primed.trans primed⟩

lemma sound_heap : HeapCarried callbacks
    (fun s => s.Sound ∧ s.firing = none ∧ s.wheel.primed = true) (fun s => s.misused = true) := by
  refine ⟨fun s inv => ⟨inv.1,inv.2.1⟩,fun s n inv flag _ => pop_carried callbacks inv (.inr flag),
    ?_,fun s n => fireTimer_misused callbacks s n⟩
  intro s n bad
  unfold heapRemove
  split <;> exact bad

lemma Filing.early (filing : s.Filing) (start : s.wheel.primed = false)
    (n : NodeRef) (b : Bucket) (linked : s.wheel.link n = some b) : s.expiryTick n < 256^4 := by
  have zero := filing.epoch start
  cases filing.filed n b linked with
  | inl placed =>
    obtain ⟨level,_,_,near⟩ := placed
    have wide : 256^(b.1+1) ≤ 256^4 := Nat.pow_le_pow_right (by decide) (by unfold TimerWheel.levels at level; omega)
    unfold TimerWheel.target at near
    omega
  | inr => omega

def primed (s : Timers) (target : Nat) : Timers :=
  if s.wheel.primed then s else {s with wheel := s.wheel.prime s.expiryTick target}

lemma Rest.primed (rest : s.Rest) (target : Nat) : (s.primed target).Rest ∧ (s.primed target).wheel.primed = true := by
  unfold Timers.primed
  split
  · next already => exact ⟨rest,already⟩
  next fresh =>
  rw [Bool.not_eq_true] at fresh
  obtain ⟨wf,clock,domain,placed⟩ := TimerWheel.prime_spec rest.sound.filing.wheel s.expiryTick
    target (rest.sound.filing.early fresh)
  have now : (s.wheel.prime s.expiryTick target).nowTick = target-1 := clock.nowTick
  refine ⟨⟨rest.sound.moveWheel wf ?_ domain ?_,rest.quiet,?_⟩,clock.primed⟩
  · intro start
    rw [clock.primed] at start
    contradiction
  · intro n b linked
    rw [now]
    exact .inl (placed n b linked)
  intro n linked
  have away := (placed n _ linked).not_current
  rw [← now] at away
  exact away rfl

lemma Rest.snap (rest : s.Rest) (primed : s.wheel.primed = true) (empty : s.wheel.count = 0) (target : Nat) :
    ({s with wheel := {s.wheel with nowTick := target}} : Timers).Rest := by
  have none := rest.sound.filing.wheel.count_eq_zero.mp empty
  have wf := rest.sound.filing.wheel
  refine ⟨rest.sound.moveWheel ⟨wf.mem,wf.nodup,wf.range,wf.count⟩ ?_ (fun _ => Iff.rfl) ?_, rest.quiet,?_⟩
  · intro start
    exact absurd primed (by simpa using start)
  · intro n b linked
    rw [none] at linked
    contradiction
  intro n linked
  rw [none] at linked
  contradiction

lemma advance_eq (target : Nat) (s : Timers) : TimerWheel.advance host (fireTimer callbacks) target s =
    if (s.primed target).wheel.count = 0 then
    if target > (s.primed target).wheel.nowTick then
    {s.primed target with wheel := {(s.primed target).wheel with nowTick := target}}
        else s.primed target
      else TimerWheel.advanceLoop host (fireTimer callbacks) target
        (s.primed target).wheel.maxTicksPerCall (s.primed target) := rfl

lemma advance_misused (target : Nat) (s : Timers) (already : s.misused = true) :
    (TimerWheel.advance host (fireTimer callbacks) target s).misused = true := by
  have ready : (s.primed target).misused = true := by
    unfold Timers.primed
    split <;> exact already
  rw [advance_eq]
  split
  · split <;> exact ready
  · exact (sound_ticks callbacks target).advanceLoop_bad _ _ ready

lemma advance_sound (target : Nat) (rest : s.Rest) : let s' := TimerWheel.advance host (fireTimer callbacks) target s
    (s'.Rest ∧ s'.wheel.primed = true) ∨ s'.misused = true := by
  obtain ⟨ready,primed⟩ := rest.primed target
  rw [advance_eq]
  split
  · next empty =>
    split
    · exact .inl ⟨ready.snap primed empty target,primed⟩
    · exact .inl ⟨ready,primed⟩
  rcases (sound_ticks callbacks target).advanceLoop _ _ ⟨ready.sound,ready.quiet,primed⟩
    ready.drained with ⟨⟨sound,quiet,still⟩,_,drained,_⟩ | misused
  · exact .inl ⟨⟨sound,quiet,drained⟩,still⟩
  · exact .inr misused

lemma bookkeeping_spec (life : s.Lifecycle) : s.bookkeeping.timers.Wf ∧ (∀ i, s.bookkeeping.node i = s.node i) ∧
    ∀ g, s.bookkeeping.timers.holds g = true ↔ s.timers.holds g = true ∧ g ∉ s.dead := by
  obtain ⟨wf,nodes,holds⟩ := HandleTable.releaseAll_spec life.timers s.dead
  exact ⟨HandleTable.reclaim_wf wf,nodes,holds⟩

lemma bookkeeping_rest (rest : s.Rest) : s.bookkeeping.Rest := by
  obtain ⟨⟨filing,life,_⟩,quiet,drained⟩ := rest
  obtain ⟨wf,nodes,holds⟩ := bookkeeping_spec life
  have scheduled : ∀ i, s.bookkeeping.Scheduled i ↔ s.Scheduled i := by
    intro i
    unfold Scheduled
    rw [nodes]
    rfl
  -- a live node that is linked somewhere is not waiting for reclamation, and survives
  have survives : ∀ i, s.timers.alive i = true → s.Scheduled i ∨ (s.node i).groupLink ≠ none →
      s.bookkeeping.timers.alive i = true := by
    intro i live linked
    have kept : (s.node i).id ∉ s.dead := by
      intro inside
      have retired := (life.dead _ inside).2
      rw [life.ids i live] at retired
      exact linked.elim retired.1 (fun member => member retired.2)
    have held := (holds _).mpr ⟨life.holds_id live,kept⟩
    rw [life.ids i live] at held
    exact ((HandleTable.holds_iff _ _).mp held).2.2.1
  refine ⟨⟨filing.congr rfl rfl (fun i => by rw [nodes]) (fun i _ => by rw [nodes]; exact ⟨rfl,rfl⟩),
    ⟨wf,HandleTable.reclaim_wf life.groups,?_,?_,?_,life.nodup,?_,?_⟩,?_⟩,quiet,drained⟩
  · intro i live
    obtain ⟨_,_,before,gen⟩ := (HandleTable.holds_iff _ _).mp ((holds _).mp (wf.holds_own live)).1
    rw [nodes,life.ids i before]
    exact Handle.ext rfl gen
  · intro i queued
    rw [scheduled] at queued
    obtain ⟨live,active⟩ := life.scheduled i queued
    rw [nodes]
    exact ⟨survives i live (.inl queued),active⟩
  · intro g i
    rw [nodes]
    exact life.members g i
  · intro i g member
    rw [nodes] at member ⊢
    obtain ⟨live,active,group⟩ := life.grouped i g member
    exact ⟨survives i live (.inr (by simp [member])),active,group⟩
  · intro h _
    contradiction
  intro h firing
  change s.firing = some h at firing
  rw [quiet] at firing
  contradiction

lemma Rest.calls (rest : s.Rest) (cs : List TimerCall) : (s.calls cs).Rest ∨ (s.calls cs).misused = true := by
  cases proper : (s.calls cs).misused with
  | true => exact .inr rfl
  | false =>
    obtain ⟨sound,keeps⟩ := calls_sound rest.sound cs proper
    exact .inl ⟨sound,keeps.firing.trans rest.quiet,keeps.toStays.drained rest.drained⟩

lemma Rest.begin (rest : s.Rest) (reading : Int) : ({s with now := reading, fired := []} : Timers).Rest :=
  ⟨⟨rest.sound.filing.congr rfl rfl (fun _ => rfl) (fun _ _ => ⟨rfl,rfl⟩),
    rest.sound.life.congr rfl rfl rfl rfl,rest.sound.firing⟩,rest.quiet,rest.drained⟩

lemma pollOnce_rest {t : Timers} (inv : s.Rest ∨ s.misused = true) (fuel : Nat) (reading : Int)
    (early : List TimerCall) (callbacks : Nat → List TimerCall) (late : List TimerCall)
    (done : s.pollOnce fuel reading early callbacks late = some t) : t.Rest ∨ t.misused = true := by
  let start : Timers := {s with now := reading, fired := []}
  obtain ⟨fired,stage,rfl⟩ := map_eq_some_iff.mp done
  let target := (start.calls early).wheel.floorTick (start.calls early).now
  let advanced := TimerWheel.advance host (fireTimer callbacks) target (start.calls early)
  -- the mailbox stage, the wheel, the heap, and the later stages, in this order
  have mailbox : (start.calls early).Rest ∨ (start.calls early).misused = true := by
    rcases inv with rest | misused
    · exact (rest.begin reading).calls early
    · exact .inr (calls_misused start early misused)
  have wheel : (advanced.Rest ∧ advanced.wheel.primed = true) ∨ advanced.misused = true := by
    rcases mailbox with resting | misused
    · exact advance_sound callbacks target resting
    · exact .inr (advance_misused callbacks target _ misused)
  have heap : fired.Rest ∨ fired.misused = true := by
    rcases wheel with ⟨resting,primed⟩ | misused
    · rcases (sound_heap callbacks).heapExpire fuel advanced fired
        ⟨resting.sound,resting.quiet,primed⟩ stage with ⟨⟨sound,quiet,_⟩,stays,_⟩ | misused
      · exact .inl ⟨sound,quiet,stays.drained resting.drained⟩
      · exact .inr misused
    · exact .inr ((sound_heap callbacks).heapExpire_bad fuel _ _ misused stage)
  rcases heap with resting | misused
  · exact (resting.calls late).imp bookkeeping_rest id
  · exact .inr (calls_misused fired late misused)

lemma create_rest (tick : Int) (firstGen : Nat) (now : Int) : (create tick firstGen now).Rest :=
  ⟨create_sound tick firstGen now,rfl,fun n linked => by simp [create,TimerWheel.create] at linked⟩

lemma step_rest {t : Timers} {e : TimerEvent} (step : Step s e t)
    (inv : s.Rest ∨ s.misused = true) : t.Rest ∨ t.misused = true := by
  cases e with
  | poll fuel reading early callbacks late => exact pollOnce_rest inv fuel reading early callbacks late step
  | call c =>
    have only : t = s.calls [c] := step
    rw [only]
    rcases inv with rest | misused
    · exact rest.calls [c]
    · exact .inr (calls_misused s [c] misused)

/-- If no call reschedules a timer that its firing is about to finish with, whatever is linked is alive and linked once.
-/
theorem run_linked (tick : Int) (firstGen : Nat) (now : Int) (events : List TimerEvent) (s : Timers)
    (run : Exec Step (create tick firstGen now) events s) (proper : s.misused = false) :
    s.Linked := by
  have inv := run.invariant (fun s => s.Rest ∨ s.misused = true)
    (fun _ _ _ step inv => step_rest step inv) (.inl (create_rest tick firstGen now))
  rcases inv with rest | misused
  · exact rest.sound.linked
  rw [proper] at misused
  contradiction

def replaceSelf : List TimerEvent :=
  [.call (.after 1000000 Handle.none), .poll 4 1000000 [] (fun _ => [.cancel ⟨0,1⟩,.after 1000000 Handle.none]) []]

theorem replaceSelf_linked : ∃ s, Exec Step (create 1000000 1 0) replaceSelf s ∧ s.misused = false ∧ s.Linked := by
  let start := ((create 1000000 1 0).call (.after 1000000 Handle.none)).2
  have evaluated : (start.pollOnce 4 1000000 []
      (fun _ => [.cancel ⟨0,1⟩,.after 1000000 Handle.none]) []).map Timers.misused = some false := by
    decide +kernel
  obtain ⟨s,done,proper⟩ := map_eq_some_iff.mp evaluated
  have run : Exec Step (create 1000000 1 0) replaceSelf s := .cons _ _ start _ _ rfl (.cons _ _ _ _ _ done (.nil _))
  exact ⟨s,run,proper,run_linked 1000000 1 0 replaceSelf s run proper⟩

def selfReschedule : List TimerEvent :=
  [.call (.after 1000000 Handle.none), .poll 4 1000000 [] (fun _ => [.reschedule ⟨0,1⟩ 1000000]) []]

/-- A one-shot that reschedules itself in its callback: its node is released while it is
linked in a bucket. -/
theorem selfReschedule_links_dead : ∃ s, Exec Step (create 1000000 1 0) selfReschedule s ∧
    0 ∈ s.wheel.bucketNodes ∧ s.timers.alive 0 = false ∧ ¬ s.Linked := by
  let start := ((create 1000000 1 0).call (.after 1000000 Handle.none)).2
  have evaluated : (start.pollOnce 4 1000000 [] (fun _ => [.reschedule ⟨0,1⟩ 1000000]) []).map
      (fun s => (s.wheel.buckets (0,2),s.timers.alive 0)) = some ([0],false) := by decide +kernel
  obtain ⟨s,done,facts⟩ := map_eq_some_iff.mp evaluated
  rw [Prod.mk.injEq] at facts
  have queued : 0 ∈ s.wheel.bucketNodes := List.mem_flatMap.mpr ⟨(0,2),by decide +kernel,by simp [facts.1]⟩
  refine ⟨s,.cons _ _ start _ _ rfl (.cons _ _ _ _ _ done (.nil _)),queued,facts.2,?_⟩
  intro linked
  exact Bool.false_ne_true (facts.2.symm.trans (linked.live 0 (.inl queued)))

end AffiniX.Timers
