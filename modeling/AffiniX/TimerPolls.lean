import AffiniX.TimerRefinement

/-! A poll whose callbacks leave the timers alone drains the table of deadlines, and an entry that repeats comes back
later than the reading. -/
namespace AffiniX.Timers
open TimerWheel (slots target SameClock)
open Function

def silent : Nat → List TimerCall := fun _ => []

lemma catchUp_spec {period now : Int} (rounds fuel : Nat) (next : Int) (missed : Nat) (small : missed < 2^32)
    (enough : rounds ≤ fuel) (past : ∀ k < rounds, next + k*period ≤ now) (last : now < next + rounds*period) :
    catchUp period now fuel next missed = (next + rounds*period,(missed+rounds) % 2^32) := by
  induction fuel generalizing rounds next missed with
  | zero =>
    obtain rfl : rounds = 0 := by omega
    rw [Nat.add_zero,Nat.mod_eq_of_lt small]
    simp [catchUp]
  | succ _ ih =>
    cases rounds with
    | zero =>
      have stop : ¬ next ≤ now := by simpa using last
      rw [show missed + 0 = missed from rfl,Nat.mod_eq_of_lt small]
      simp [catchUp,stop]
    | succ rounds =>
      have go : next ≤ now := by simpa using past 0 (by omega)
      rw [catchUp,if_pos go,ih rounds (next+period) ((missed+1) % 2^32) (Nat.mod_lt _ (by decide)) (by omega) ?_ ?_]
      · push_cast
        rw [Prod.mk.injEq]
        exact ⟨by ring,by omega⟩
      · intro k _
        have := past (k+1) (by omega)
        push_cast at this
        linarith
      push_cast at last
      linarith

lemma nextExpiry_eq {n : TimerNode} {now : Int} (late : n.expiry ≤ now) (repeats : n.period > 0) :
    nextExpiry n now = (n.expiry + ((now - n.expiry) / n.period + 1) * n.period,
    ((now - n.expiry) / n.period).toNat % 2^32) := by
  let rounds := ((now - n.expiry) / n.period).toNat
  have nonneg : 0 ≤ (now - n.expiry) / n.period := Int.ediv_nonneg (by omega) (by omega)
  have cast : (rounds : Int) = (now - n.expiry) / n.period := Int.toNat_of_nonneg nonneg
  have below := Int.ediv_mul_le (now - n.expiry) (by omega : n.period ≠ 0)
  have above := Int.lt_ediv_add_one_mul_self (now - n.expiry) repeats
  have enough : rounds ≤ (now - n.expiry).toNat := by
    have := Int.ediv_le_self n.period (by omega : 0 ≤ now - n.expiry)
    omega
  unfold nextExpiry
  rw [catchUp_spec rounds _ _ 0 (by decide) enough ?_ ?_,Nat.zero_add,Prod.mk.injEq]
  · refine ⟨?_,rfl⟩
    rw [cast]
    ring
  · intro k _
    have fewer : (k:Int) + 1 ≤ (now - n.expiry) / n.period := by omega
    have := Int.mul_le_mul_of_nonneg_right fewer (by omega : 0 ≤ n.period)
    linarith
  rw [cast]
  linarith

def relabel (s : Timers) (stats : TimerStats) (fired : List TimerCtx) (firing : Option Handle) : Timers :=
  {s with stats := stats, fired := fired, firing := firing}

variable {s : Timers} {id : Handle}

lemma insertTimer_relabel {i : NodeRef} (fresh : ¬ s.Scheduled i)
    (stats : TimerStats) (fired : List TimerCtx) (firing : Option Handle) :
    (s.relabel stats fired firing).insertTimer i = (s.insertTimer i).relabel stats fired firing := by
  have labelled : ¬ (s.relabel stats fired firing).Scheduled i := fresh
  rw [insertTimer_eq labelled,insertTimer_eq fresh]
  change (if s.inWheel i then _ else _) = _
  cases s.inWheel i <;> rfl

lemma retire_relabel (s : Timers) (i : NodeRef) (stats : TimerStats) (fired : List TimerCtx) (firing : Option Handle) :
    (s.relabel stats fired firing).retire i = (s.retire i).relabel stats fired firing := by
  have unlinked : (s.relabel stats fired firing).glistUnlink i = (s.glistUnlink i).relabel stats fired firing := by
    have same : ((s.relabel stats fired firing).node i).groupLink = (s.node i).groupLink := rfl
    unfold glistUnlink
    rw [same]
    cases (s.node i).groupLink <;> rfl
  unfold retire
  rw [unlinked]
  rfl

lemma fireTimer_silent {i : NodeRef} (hand : InHand s i)
    (late : (s.node i).expiry ≤ s.now) : ∃ stats, fireTimer silent s i = (if (s.node i).period > 0 then
    (s.setExpiry i ((s.deadlineOf i).next s.now)).insertTimer i
    else s.retire i).relabel stats (s.fired ++ [(s.deadlineOf i).context s.now (s.node i).id]) none := by
  have active := hand.active
  have idle : ∀ t, ¬ (s.setExpiry i t).Scheduled i := fun t queued =>
    hand.idle ((modify_scheduled i (fun n => {n with expiry := t, expiryTick := s.wheel.tickOf t})
      (fun _ => rfl) i).mp queued)
  have unfolded : fireTimer silent s i = (s.beforeCallback i).afterCallback i (decide ((s.node i).period > 0)) := by
    rw [fireTimer,active]
    rfl
  -- a timer that no fixed rate queues again before its callback is only recorded there
  have plain : ¬ FixedRate (s.node i) → s.beforeCallback i = s.relabel {s.stats with fired := s.stats.fired+1}
        (s.fired ++ [(s.deadlineOf i).context s.now (s.node i).id]) (some (s.node i).id) := by
    intro rate
    have told : (s.deadlineOf i).context s.now (s.node i).id =
        ⟨(s.node i).id,(s.node i).expiry,s.now,0⟩ := congrArg (TimerCtx.mk _ _ _) (if_neg rate)
    rw [told]
    exact if_neg rate
  rw [unfolded,afterCallback_eq]
  by_cases repeats : (s.node i).period > 0
  · rw [if_pos repeats,decide_eq_true repeats,if_pos rfl]
    cases mode : (s.node i).mode with
    | fixedRate =>
      let t := (s.deadlineOf i).next s.now
      let stats := {s.stats with
        coalesced := s.stats.coalesced + ((s.deadlineOf i).missed s.now).toNat % 2^32}
      have next : nextExpiry (s.node i) s.now = (t,((s.deadlineOf i).missed s.now).toNat % 2^32) := by
        rw [nextExpiry_eq late repeats]
        simp only [Deadline.next,Deadline.missed,deadlineOf,mode,t]
      have told : (s.deadlineOf i).context s.now (s.node i).id = ⟨(s.node i).id,(s.node i).expiry,
          s.now,((s.deadlineOf i).missed s.now).toNat % 2^32⟩ := by
        exact congrArg (TimerCtx.mk _ _ _) (if_pos ⟨repeats,mode⟩)
      obtain ⟨queue,_⟩ := insertTimer_requeued hand.filing hand.idle t
      have before : s.beforeCallback i = ((s.setExpiry i t).insertTimer i).relabel {stats with fired := stats.fired+1}
          (s.fired ++ [(s.deadlineOf i).context s.now (s.node i).id]) (some (s.node i).id) := by
        have labels := insertTimer_relabel (idle t) stats s.fired s.firing
        unfold beforeCallback
        rw [if_pos ⟨repeats,mode⟩,next,told]
        change (((s.setExpiry i t).relabel stats s.fired s.firing).insertTimer i).startCallback _ _ = _
        rw [labels]
        change ((s.setExpiry i t).insertTimer i).relabel _ (s.fired ++
          [⟨_,_,((s.setExpiry i t).insertTimer i).now,_⟩]) _ = _
        rw [queue.now]
        rfl
      have self : (s.beforeCallback i).node i = {s.node i with
          expiry := t
          expiryTick := s.wheel.tickOf t
          inHeap := !s.parks (s.node i).precise t} := by
        rw [before]
        exact queue.self
      refine ⟨{stats with fired := stats.fired+1},?_⟩
      rw [self,active,mode,before]
      rfl
    | fixedDelay =>
      have next : (s.deadlineOf i).next s.now = s.now + (s.node i).period := by
        simp only [Deadline.next,deadlineOf,mode]
      have labels := insertTimer_relabel (idle (s.now + (s.node i).period)) {s.stats with fired := s.stats.fired+1}
        (s.fired ++ [(s.deadlineOf i).context s.now (s.node i).id]) (some (s.node i).id)
      refine ⟨{s.stats with fired := s.stats.fired+1},?_⟩
      rw [plain (fun rate => by rw [FixedRate,mode] at rate; simp at rate),next]
      change (if (s.node i).cancelled then _ else if (s.node i).mode = .fixedDelay then _ else _) = _
      rw [active,if_neg (by decide),if_pos mode]
      exact congrArg (fun u : Timers => {u with firing := none}) labels
  · rw [if_neg repeats,decide_eq_false repeats,plain (fun rate => repeats rate.1),retire_relabel]
    refine ⟨{s.stats with fired := s.stats.fired+1},?_⟩
    exact (if_neg (by rw [← Bool.not_eq_true] at active; exact active)).trans rfl

structure Fired (s s' : Timers) (id : Handle) : Prop where
  table : s.timers.SameSlots s'.timers
  groupTable : s.groups.SameSlots s'.groups
  misused : s'.misused = s.misused
  others : ∀ j, j ≠ id.idx → s'.node j = s.node j ∧ s'.wheel.link j = s.wheel.link j
  period : (s'.node id.idx).period = (s.node id.idx).period
  fired : s'.fired = s.fired ++ [(s.deadlineOf id.idx).context s.now id]
  entry : s'.armed id = (s.deadlineOf id.idx).rearm s.wheel.tick s.now
  retired : s'.Scheduled id.idx ∨ id ∈ s'.dead
  dead : ∀ h ∈ s.dead, h ∈ s'.dead

structure Out (s u : Timers) (id : Handle) : Prop where
  hand : InHand u id.idx
  frame : Frame s u
  held : u.timers.holds id = true
  self : u.node id.idx = (s.node id.idx).setInHeap false
  others : ∀ j, j ≠ id.idx → u.node j = s.node j ∧ u.wheel.link j = s.wheel.link j
  deadline : u.deadlineOf id.idx = {s.deadlineOf id.idx with home := (u.deadlineOf id.idx).home}

lemma unlinkTimer_out (sound : s.Sound) (quiet : s.firing = none) (held : s.timers.holds id = true)
    (queued : s.Scheduled id.idx) : Out s (s.unlinkTimer id.idx) id := by
  obtain ⟨_,frame,links,flags⟩ := unlinkTimer_spec sound.filing id.idx
  refine ⟨unlinkTimer_inHand sound quiet queued,frame,(frame.table.holds id).trans held,?_,?_,?_⟩
  · rw [frame.node,flags,if_pos rfl]
  · intro j other
    rw [frame.node,flags,links,if_neg other,if_neg other]
    exact ⟨rfl,rfl⟩
  unfold deadlineOf
  rw [frame.node,frame.groups]
  rfl

lemma Out.requeue {u : Timers} (out : Out s u id) (standing : s.Standing)
    (stands : (s.deadlineOf id.idx).insertionTick s.wheel.tick s.now = s.wheel.nowTick)
    (repeats : (s.node id.idx).period > 0)
    (range : s.InRange ((s.deadlineOf id.idx).next s.now)) (stats : TimerStats) :
    Fired s (((u.setExpiry id.idx ((s.deadlineOf id.idx).next s.now)).insertTimer id.idx).relabel
    stats (u.fired ++ [(s.deadlineOf id.idx).context s.now id]) none) id := by
  obtain ⟨hand,frame,held,self,others,deadline⟩ := out
  let t := (s.deadlineOf id.idx).next s.now
  let v := (u.setExpiry id.idx t).insertTimer id.idx
  obtain ⟨queue,misused⟩ := insertTimer_requeued hand.filing hand.idle t
  have grouped : s.groups.SameSlots v.groups := by
    rw [queue.groups,frame.groups]
    exact .refl _
  refine ⟨frame.table.trans queue.table,grouped,misused.trans frame.misused,?_,?_,
    congrArg (· ++ _) frame.fired,?_,.inl ((queue.scheduled _).mpr (.inl rfl)),?_⟩
  · intro j other
    change v.node j = _ ∧ v.wheel.link j = _
    rw [queue.others j other,queue.link,if_neg other]
    exact others j other
  · change (v.node id.idx).period = _
    rw [queue.self,self]
    rfl
  · change v.armed id = _
    have standingOut : u.Standing := by
      refine ⟨frame.clock.tick ▸ standing.positive,?_⟩
      rw [frame.clock.tick,frame.clock.nowTick,frame.now]
      exact standing.reached
    have rangeOut : u.InRange t := ⟨by rw [frame.now]; exact range.recent,range.bound⟩
    have home : u.newHome (u.node id.idx).precise t = homeOf u.wheel.tick u.wheel.nowTick t (u.node id.idx).precise :=
      parks_home standingOut _ (.inr rangeOut)
    rw [queue.armed hand.life held,update_self,home,frame.clock.tick, frame.clock.nowTick,deadline,self,← stands]
    exact (if_pos repeats).symm
  intro h inside
  change h ∈ v.dead
  rw [queue.dead,frame.dead]
  exact inside

lemma Out.retire {u : Timers} (out : Out s u id) (once : ¬ (s.node id.idx).period > 0) (stats : TimerStats) :
    Fired s ((u.retire id.idx).relabel stats (u.fired ++ [(s.deadlineOf id.idx).context s.now id]) none) id := by
  obtain ⟨hand,frame,held,self,others,_⟩ := out
  obtain ⟨_,drop⟩ := retire_spec hand.filing hand.life hand.idle
  have grouped := drop.groupTable
  rw [frame.groups] at grouped
  refine ⟨frame.table.trans drop.table,grouped,drop.misused.trans frame.misused,?_,?_,
    congrArg (· ++ _) frame.fired,?_,.inr ?_,?_⟩
  · intro j other
    change (u.retire id.idx).node j = _ ∧ (u.retire id.idx).wheel.link j = _
    rw [drop.others j other,drop.link,if_neg other]
    exact others j other
  · change ((u.retire id.idx).node id.idx).period = _
    rw [drop.rate.1,self]
    rfl
  · change (u.retire id.idx).armed id = _
    rw [drop.armed hand.life held,update_self]
    exact (if_neg once).symm
  · change id ∈ (u.retire id.idx).dead
    rw [drop.dead,hand.life.id_of_holds held]
    simp
  intro h inside
  change h ∈ (u.retire id.idx).dead
  rw [drop.dead,frame.dead]
  exact List.mem_append_left _ inside

lemma pop_silent (sound : s.Sound) (quiet : s.firing = none) (standing : s.Standing) (held : s.timers.holds id = true)
    (queued : s.Scheduled id.idx) (late : (s.node id.idx).expiry ≤ s.now)
    (stands : (s.deadlineOf id.idx).insertionTick s.wheel.tick s.now = s.wheel.nowTick)
    (range : (s.node id.idx).period > 0 → s.InRange ((s.deadlineOf id.idx).next s.now)) :
    Fired s (pop silent s id.idx) id := by
  let u := s.unlinkTimer id.idx
  have out : Out s u id := unlinkTimer_out sound quiet held queued
  have next : (u.deadlineOf id.idx).next u.now = (s.deadlineOf id.idx).next s.now := by
    rw [out.deadline,out.frame.now]
    rfl
  have context : (u.deadlineOf id.idx).context u.now (u.node id.idx).id = (s.deadlineOf id.idx).context s.now id := by
    rw [out.deadline,out.frame.now,out.hand.life.id_of_holds out.held]
    rfl
  have same : (u.node id.idx).period = (s.node id.idx).period := by rw [out.self]; rfl
  obtain ⟨stats,result⟩ := fireTimer_silent out.hand (by rw [out.self,out.frame.now]; exact late)
  rw [next,context,same] at result
  change pop silent s id.idx = _ at result
  rw [result]
  by_cases repeats : (s.node id.idx).period > 0
  · rw [if_pos repeats]
    exact out.requeue standing stands repeats (range repeats) stats
  rw [if_neg repeats]
  exact out.retire repeats stats
end AffiniX.Timers
