import AffiniX.TimerLifecycle

/-! The timer calls, by their net effect. -/
namespace AffiniX.Timers
open TimerWheel (home target SameClock)
open Function HandleTable List Bool
variable {s s' : Timers} {i : NodeRef} {expiry period t : Int} {mode : RepeatMode} {g : Handle}
  {precise : Bool}

lemma Requeued.lifecycle (queue : Requeued s s' i t) (life : s.Lifecycle) (live : s.timers.alive i = true)
    (active : (s.node i).cancelled = false) (kept : (s.node i).id ∉ s.dead) : s'.Lifecycle := by
  refine life.transfer queue.table queue.groups queue.dead ?_ ?_
  · intro j
    by_cases own : j = i
    · rw [own,queue.self]
      exact ⟨rfl,rfl,rfl⟩
    rw [queue.others j own]
    exact ⟨rfl,rfl,rfl⟩
  intro j queued
  rcases (queue.scheduled j).mp queued with rfl | before
  · exact .inr ⟨live,active,kept⟩
  · exact .inl before

def armedNode (s : Timers) (expiry period : Int) (mode : RepeatMode) (precise : Bool) : TimerNode :=
  {TimerNode.blank with
    id := s.timers.nextHandle, expiry := expiry, expiryTick := s.wheel.tickOf expiry
    period := period, mode := mode, precise := precise}

structure Armed (s s' : Timers) (expiry period : Int) (mode : RepeatMode) (g : Handle)
    (precise : Bool) : Prop where
  filing : s'.Filing
  now : s'.now = s.now
  clock : SameClock s.wheel s'.wheel
  dead : s'.dead = s.dead
  fired : s'.fired = s.fired
  firing : s'.firing = s.firing
  misused : s'.misused = s.misused
  table : (s.timers.emplace (s.armedNode expiry period mode precise)).2.SameSlots s'.timers
  groupTable : s.groups.SameSlots s'.groups
  members : ∀ k, s'.groups.node k = s.groups.node k ++
    (if s.groups.holds g = true ∧ k = g.idx then [s.timers.nextIdx] else [])
  others : ∀ j, j ≠ s.timers.nextIdx → s'.node j = s.node j
  self : s'.node s.timers.nextIdx = {s.armedNode expiry period mode precise with
    groupLink := if s.groups.holds g then some g.idx else none
    group := if s.groups.holds g then g else Handle.none
    inHeap := !s.parks precise expiry}
  link : ∀ j, s'.wheel.link j = if j = s.timers.nextIdx then s.bucketOf precise expiry else s.wheel.link j

section
variable (armed : Armed s s' expiry period mode g precise)
include armed

lemma Armed.scheduled : s'.Scheduled s.timers.nextIdx := by
  unfold Scheduled
  rw [armed.link,if_pos rfl,armed.self,bucketOf]
  cases s.parks precise expiry <;> simp

lemma Armed.alive_eq (j : NodeRef) : s'.timers.alive j = if j = s.timers.nextIdx then true else s.timers.alive j := by
  rw [armed.table.alive]
  exact emplace_alive _ _ _

lemma Armed.holds_iff (life : s.Lifecycle) (h : Handle) :
    s'.timers.holds h = true ↔ h = s.timers.nextHandle ∨ s.timers.holds h = true := by
  rw [armed.table.holds]
  exact emplace_holds life.timers _ h
end

lemma Lifecycle.next_idle (life : s.Lifecycle) : ¬ s.Scheduled s.timers.nextIdx := by
  intro queued
  have live := (life.scheduled _ queued).1
  rw [nextIdx_dead life.timers] at live
  contradiction

private lemma construct_filing (filing : s.Filing) (life : s.Lifecycle) (n : TimerNode) (flag : n.inHeap = false) :
    (s.construct n).Filing ∧ (s.construct n).wheel = s.wheel ∧
      ∀ j, (s.construct n).node j = if j = s.timers.nextIdx then n else s.node j := by
  obtain ⟨unlinked,outside⟩ := not_scheduled.mp life.next_idle
  have wheel : (s.construct n).wheel = s.wheel := by
    have same : update s.wheel.link s.timers.nextIdx none = s.wheel.link := by
      rw [← unlinked]
      exact update_eq_self _ _
    unfold construct
    simp only [same]
  have nodes : ∀ j, (s.construct n).node j = if j = s.timers.nextIdx then n else s.node j := emplace_node s.timers n
  have absent : ¬ s.heap.Mem s.timers.nextIdx := fun member => by
    rw [(filing.inHeap _).mpr member] at outside
    contradiction
  have other : ∀ j, s.Scheduled j → j ≠ s.timers.nextIdx := by
    rintro j queued rfl
    exact life.next_idle queued
  refine ⟨⟨wheel ▸ filing.wheel,wheel ▸ filing.epoch,?_,?_,?_,?_⟩,wheel,nodes⟩
  · intro j b linked
    rw [wheel] at linked ⊢
    rw [expiryTick,nodes,if_neg (other j (.inl (by simp [linked])))]
    exact filing.filed j b linked
  · refine (filing.heap.forget absent _).congr ?_
    intro j member
    have apart := other j (.inr ((filing.inHeap j).mpr member))
    rw [expiryKey,nodes,if_neg apart]
    rfl
  · intro j
    rw [nodes]
    split
    · next own =>
      rw [own,flag]
      exact ⟨fun impossible => absurd impossible (by simp),fun member => absurd member absent⟩
    · exact filing.inHeap j
  intro j b linked
  rw [wheel] at linked
  rw [nodes,if_neg (other j (.inl (by simp [linked])))]
  exact filing.apart j b linked

private lemma joinGroup_eq (s : Timers) (i : NodeRef) (g : Handle) : s.joinGroup i g = if s.groups.holds g then
      {s with
        timers := s.timers.modify i (fun n => {n with groupLink := some g.idx, group := g})
        groups := s.groups.modify g.idx (fun members => members ++ [i])}
    else s := by
  unfold joinGroup
  cases held : s.groups.holds g with
  | false => simp
  | true =>
    have valid : g.valid = true := by
      simp [HandleTable.holds] at held
      exact held.1.1.1
    simp [valid]

lemma arm_spec (filing : s.Filing) (life : s.Lifecycle) (expiry period : Int) (mode : RepeatMode) (g : Handle)
    (precise : Bool) : (s.arm expiry period mode g precise).1 = s.timers.nextHandle ∧
    Armed s (s.arm expiry period mode g precise).2 expiry period mode g precise := by
  let n := s.armedNode expiry period mode precise
  let i := s.timers.nextIdx
  obtain ⟨built,wheel,nodes⟩ := construct_filing filing life n rfl
  let t := (s.construct n).joinGroup i g
  have links : t.wheel = s.wheel := by
    rw [← wheel]
    dsimp only [t]
    rw [joinGroup_eq]
    split <;> rfl
  have joined : t.Filing ∧ t.now = s.now ∧ t.dead = s.dead ∧ t.fired = s.fired ∧
      t.firing = s.firing ∧ t.misused = s.misused ∧
      (s.timers.emplace n).2.SameSlots t.timers ∧ s.groups.SameSlots t.groups ∧
      (∀ k, t.groups.node k = s.groups.node k ++ (if s.groups.holds g = true ∧ k = g.idx then [i] else [])) ∧
      ∀ j, t.node j = if j = i then {n with
        groupLink := if s.groups.holds g then some g.idx else none
        group := if s.groups.holds g then g else Handle.none} else s.node j := by
    dsimp only [t]
    rw [joinGroup_eq]
    cases held : s.groups.holds g with
    | false =>
      rw [if_neg (by change ¬ s.groups.holds g = true; simp [held])]
      refine ⟨built,rfl,rfl,rfl,rfl,rfl,.refl _,.refl _,by intro k; simp; rfl,?_⟩
      intro j
      rw [nodes]
      rfl
    | true =>
      rw [if_pos (by exact held)]
      let f : TimerNode → TimerNode := fun n => {n with groupLink := some g.idx, group := g}
      have marked : ∀ j, ((s.construct n).modify i f).node j = if j = i then f n else s.node j := by
        intro j
        rw [node_modify,nodes,if_pos rfl,nodes]
        split <;> rfl
      refine ⟨?_,rfl,rfl,rfl,rfl,rfl,modify_same _ i f,
        modify_same s.groups g.idx (fun members => members ++ [i]),?_,marked⟩
      · exact (built.modify i f (fun _ => ⟨rfl,rfl,rfl⟩)).congr rfl rfl (fun _ => rfl) (fun _ _ => ⟨rfl,rfl⟩)
      intro k
      refine (modify_node s.groups g.idx k (fun members => members ++ [i])).trans ?_
      by_cases own : k = g.idx <;> simp [own]
  obtain ⟨filed,now,dead,fired,firing,misused,table,groupTable,members,tnodes⟩ := joined
  have idle : ¬ t.Scheduled i := by
    rw [not_scheduled,links,tnodes,if_pos rfl]
    exact ⟨(not_scheduled.mp life.next_idle).1,rfl⟩
  obtain ⟨after,frame,newLinks,flags⟩ := insertTimer_spec filed idle
  have self := tnodes i
  rw [if_pos rfl] at self
  have choice : t.inWheel i = s.parks precise expiry := by
    unfold inWheel parks expiryTick
    rw [self,links]
    rfl
  have result : s.arm expiry period mode g precise = (s.timers.nextHandle,{t.insertTimer i with
      stats := {(t.insertTimer i).stats with armed := (t.insertTimer i).stats.armed+1}}) := rfl
  rw [result]
  refine ⟨rfl,⟨after.congr rfl rfl (fun _ => rfl) (fun _ _ => ⟨rfl,rfl⟩),frame.now.trans now,
    links ▸ frame.clock,frame.dead.trans dead,frame.fired.trans fired,frame.firing.trans firing,
    frame.misused.trans misused,table.trans frame.table,?_,?_,?_,?_,?_⟩⟩
  · change s.groups.SameSlots (t.insertTimer i).groups
    rw [frame.groups]
    exact groupTable
  · intro k
    rw [frame.groups]
    exact members k
  · intro j other
    change (t.insertTimer i).node j = _
    rw [frame.node,flags,if_neg other,tnodes,if_neg other]
    rfl
  · change (t.insertTimer i).node i = _
    rw [frame.node,flags,if_pos rfl,self,choice]
    rfl
  intro j
  rw [newLinks,choice,bucketOf,expiryTick,self,links]
  change _ = if j = i then _ else _
  have unlinked := (not_scheduled.mp life.next_idle).1
  by_cases own : j = i
  · cases s.parks precise expiry
    · simpa [own] using unlinked
    simp [own]
    rfl
  · simp [own]

lemma Armed.lifecycle (armed : Armed s s' expiry period mode g precise) (life : s.Lifecycle) : s'.Lifecycle := by
  let i := s.timers.nextIdx
  have unborn := nextIdx_dead life.timers
  have alone : ∀ k, (s.node i).groupLink ≠ some k := by
    intro k member
    have live := (life.grouped i k member).1
    rw [unborn] at live
    contradiction
  have alive := armed.alive_eq
  have scheduled : ∀ j, j ≠ i → s'.Scheduled j → s.Scheduled j := by
    intro j other queued
    unfold Scheduled at queued ⊢
    rwa [armed.link,if_neg other,armed.others j other] at queued
  have outside : ∀ k, i ∉ s.groups.node k := fun k member => alone k ((life.members k i).mp member)
  refine ⟨armed.table.wf (emplace_wf life.timers _),armed.groupTable.wf life.groups, ?_,?_,?_,?_,?_,?_⟩
  · intro j live
    rw [armed.table.gen,emplace_slots]
    by_cases own : j = i
    · rw [if_pos own,own,armed.self]
      rfl
    rw [alive,if_neg own] at live
    rw [if_neg own,armed.others j own]
    exact life.ids j live
  · intro j queued
    rw [alive]
    by_cases own : j = i
    · rw [if_pos own,own,armed.self]
      exact ⟨rfl,rfl⟩
    rw [if_neg own,armed.others j own]
    exact life.scheduled j (scheduled j own queued)
  · intro k j
    rw [armed.members,mem_append]
    by_cases own : j = i
    · rw [own,armed.self]
      have := outside k
      by_cases held : s.groups.holds g = true
      · by_cases same : k = g.idx
        · simp [held,same,i]
        · simp [held,same,Ne.symm same,this]
      · simp [held,this]
    rw [armed.others j own,life.members]
    split <;> simp [own,i]
  · intro k
    rw [armed.members]
    split
    · rw [nodup_append]
      refine ⟨life.nodup k,by simp,?_⟩
      intro a inside b last same
      rw [same,mem_singleton.mp last] at inside
      exact outside k inside
    · simpa using life.nodup k
  · intro j k member
    rw [alive,armed.groupTable.alive]
    by_cases own : j = i
    · rw [own,armed.self] at member ⊢
      by_cases held : s.groups.holds g = true
      · simp only [held,if_true,Option.some.injEq] at member
        exact ⟨if_pos rfl,rfl,member ▸ ((HandleTable.holds_iff _ _).mp held).2.2.1⟩
      · simp [held] at member
    rw [armed.others j own] at member ⊢
    rw [if_neg own]
    exact life.grouped j k member
  intro h inside
  rw [armed.dead] at inside
  obtain ⟨held,idle,single⟩ := life.dead h inside
  have other : h.idx ≠ i := by
    intro same
    have live := ((HandleTable.holds_iff _ _).mp held).2.2.1
    rw [same,unborn] at live
    contradiction
  rw [armed.others _ other]
  exact ⟨(armed.holds_iff life h).2 (.inr held),fun queued => idle (scheduled _ other queued),single⟩

structure Sound (s : Timers) : Prop where
  filing : s.Filing
  life : s.Lifecycle
  firing : s.Firing

lemma create_sound (tick : Int) (firstGen : Nat) (now : Int) : (create tick firstGen now).Sound :=
  ⟨create_filing tick firstGen now,create_lifecycle tick firstGen now,
    fun _ impossible => by simp [create] at impossible⟩

lemma Dropped.keeps (drop : Dropped s s' i) : Keeps s s' := by
  refine ⟨drop.stays,drop.fired,drop.firing, fun h held => (drop.table.holds h).trans held,?_⟩
  intro h _
  by_cases own : h.idx = i
  · rw [own]
    exact drop.rate
  rw [drop.others _ own]
  exact ⟨rfl,rfl⟩

lemma Dropped.sound (drop : Dropped s s' i) (filing : s'.Filing) (cancelled : (s'.node i).cancelled = true)
    (sound : s.Sound) (live : s.timers.alive i = true) : s'.Sound := by
  refine ⟨filing,drop.lifecycle sound.life live,?_⟩
  intro h firing
  rw [drop.firing] at firing
  obtain ⟨held,idle,retired⟩ := sound.firing h firing
  refine ⟨(drop.table.holds h).trans held,?_⟩
  by_cases own : h.idx = i
  · rw [own]
    exact ⟨.inr (fun queued => ((drop.scheduled _).mp queued).2 rfl),fun _ => cancelled⟩
  rw [drop.others _ own]
  refine ⟨idle.imp_right (fun before queued => before ((drop.scheduled _).mp queued).1),?_⟩
  intro inside
  rw [drop.dead,mem_append,mem_singleton] at inside
  refine retired (inside.resolve_right (fun same => own ?_))
  rw [same,sound.life.ids i live]

lemma Lifecycle.held_ne_next (life : s.Lifecycle) {h : Handle}
    (held : s.timers.holds h = true) : h.idx ≠ s.timers.nextIdx := by
  intro same
  have live := ((HandleTable.holds_iff _ _).mp held).2.2.1
  rw [same,nextIdx_dead life.timers] at live
  contradiction

lemma Armed.keeps (armed : Armed s s' expiry period mode g precise) (life : s.Lifecycle) : Keeps s s' := by
  refine ⟨⟨armed.now,armed.clock,?_⟩,armed.fired,armed.firing,?_,?_⟩
  · intro n linked
    rw [armed.link] at linked
    split at linked
    · exact absurd linked (bucketOf_not_current s precise expiry)
    · exact linked
  · exact fun h held => (armed.holds_iff life h).2 (.inr held)
  intro h held
  rw [armed.others _ (life.held_ne_next held)]
  exact ⟨rfl,rfl⟩

lemma Armed.sound (armed : Armed s s' expiry period mode g precise) (sound : s.Sound) : s'.Sound := by
  refine ⟨armed.filing,armed.lifecycle sound.life,?_⟩
  intro h firing
  rw [armed.firing] at firing
  obtain ⟨held,idle⟩ := sound.firing h firing
  have other := sound.life.held_ne_next held
  refine ⟨(armed.keeps sound.life).holds h held,?_⟩
  unfold Scheduled
  rw [armed.others _ other,armed.link,if_neg other,armed.dead]
  exact idle

lemma Requeued.keeps (queue : Requeued s s' i t) : Keeps s s' := by
  refine ⟨queue.stays,queue.fired,queue.firing, fun h held => (queue.table.holds h).trans held,?_⟩
  intro h _
  by_cases own : h.idx = i
  · rw [own,queue.self]
    exact ⟨rfl,rfl⟩
  rw [queue.others _ own]
  exact ⟨rfl,rfl⟩

lemma Requeued.sound {id : Handle} (queue : Requeued s s' id.idx t)
    (sound : s.Sound) (held : s.timers.holds id = true) (active : (s.node id.idx).cancelled = false)
    (proper : s.finishing id (s.node id.idx) = false) : s'.Sound := by
  unfold finishing at proper
  simp only [Bool.or_eq_false_iff,decide_eq_false_iff_not,Bool.and_eq_false_iff,Bool.not_eq_eq_eq_not,
    Bool.not_false,Bool.and_eq_true,decide_eq_true_eq] at proper
  have own := sound.life.id_of_holds held
  have live := ((HandleTable.holds_iff _ _).mp held).2.2.1
  refine ⟨queue.filing,queue.lifecycle sound.life live active (by rw [own]; exact proper.1),?_⟩
  intro h firing
  rw [queue.firing] at firing
  obtain ⟨heldToo,idle,retired⟩ := sound.firing h firing
  refine ⟨(queue.table.holds h).trans heldToo,?_⟩
  rw [queue.dead]
  by_cases same : h.idx = id.idx
  · have equal : h = id := by rw [← own,← same,sound.life.id_of_holds heldToo]
    rw [same] at retired ⊢
    rw [queue.self]
    exact ⟨.inl (proper.2.resolve_left (fun apart => apart (equal ▸ firing))),retired⟩
  rw [queue.others _ same]
  refine ⟨idle.imp_right (fun before queued => before ?_),retired⟩
  exact ((queue.scheduled _).mp queued).resolve_left same

lemma makeTimerGroup_sound (sound : s.Sound) : s.makeTimerGroup.2.Sound := by
  have unborn := nextIdx_dead sound.life.groups
  have empty : s.groups.node s.groups.nextIdx = [] := by
    refine eq_nil_iff_forall_not_mem.mpr (fun i member => ?_)
    have live := (sound.life.grouped i _ ((sound.life.members _ i).mp member)).2.2
    rw [unborn] at live
    contradiction
  have lists : ∀ k, (s.groups.emplace []).2.node k = s.groups.node k := by
    intro k
    rw [emplace_node]
    split
    · next own => rw [own,empty]
    · rfl
  refine ⟨sound.filing.congr rfl rfl (fun _ => rfl) (fun _ _ => ⟨rfl,rfl⟩),
    ⟨sound.life.timers,emplace_wf sound.life.groups [],sound.life.ids,
      sound.life.scheduled,?_,?_,?_,sound.life.dead⟩,sound.firing⟩
  · intro k i
    exact (lists k).symm ▸ sound.life.members k i
  · intro k
    exact (lists k).symm ▸ sound.life.nodup k
  intro i k member
  obtain ⟨live,active,alive⟩ := sound.life.grouped i k member
  refine ⟨live,active,?_⟩
  change (s.groups.emplace []).2.alive k = true
  rw [emplace_alive]
  split
  · rfl
  · exact alive

lemma cancelMember_sound (sound : s.Sound) {g : Nat}
    (member : i ∈ s.groups.node g) : (s.cancelMember i).Sound ∧ Keeps s (s.cancelMember i) := by
  obtain ⟨filing,drop,cancelled⟩ := cancelMember_spec sound.filing i (fun k => sound.life.members k i)
  have live := (sound.life.grouped i g ((sound.life.members g i).mp member)).1
  exact ⟨drop.sound filing cancelled sound live,drop.keeps⟩

lemma cancelMembers_sound (g fuel : Nat) (sound : s.Sound) :
    (cancelMembers g fuel s).Sound ∧ Keeps s (cancelMembers g fuel s) := by
  induction fuel generalizing s with
  | zero => exact ⟨sound,.refl s⟩
  | succ _ ih =>
    unfold cancelMembers
    split
    · exact ⟨sound,.refl s⟩
    next i _ list =>
    have member : i ∈ s.groups.node g := by simp [list]
    obtain ⟨next,keeps⟩ := cancelMember_sound sound member
    exact ⟨(ih next).1,keeps.trans (ih next).2⟩

lemma Sound.stats (sound : s.Sound) (stats : TimerStats) : ({s with stats := stats} : Timers).Sound :=
  ⟨sound.filing.congr rfl rfl (fun _ => rfl) (fun _ _ => ⟨rfl,rfl⟩),
    ⟨sound.life.timers,sound.life.groups,sound.life.ids,sound.life.scheduled,sound.life.members,
      sound.life.nodup,sound.life.grouped,sound.life.dead⟩,sound.firing⟩

lemma cancelGroup_sound (sound : s.Sound) (g : Handle) : (s.cancelGroup g).2.Sound ∧ Keeps s (s.cancelGroup g).2 := by
  unfold cancelGroup
  split
  · exact ⟨sound,.refl s⟩
  next members _ =>
  obtain ⟨after,keeps⟩ := cancelMembers_sound g.idx members.length sound
  exact ⟨after.stats _,keeps.trans ⟨⟨rfl,.refl _,fun _ linked => linked⟩,rfl,rfl,
    fun _ held => held,fun _ _ => ⟨rfl,rfl⟩⟩⟩

lemma found_or_stale (s : Timers) (id : Handle) : (s.timers.holds id = true ∧ (s.node id.idx).cancelled = false) ∨
    (s.cancel id = (false,s) ∧ ∀ d, s.reschedule id d = (false,s)) := by
  cases held : s.timers.holds id with
  | false =>
    have stale : s.timers.get id = none := by simp [HandleTable.get,held]
    simp [cancel,reschedule,stale]
  | true =>
    have found : s.timers.get id = some (s.node id.idx) := (get_eq_some _ _ _).mpr ⟨held,rfl⟩
    cases active : (s.node id.idx).cancelled with
    | true => simp [cancel,reschedule,found,active]
    | false => simp

lemma cancel_sound (sound : s.Sound) (id : Handle) : (s.cancel id).2.Sound ∧ Keeps s (s.cancel id).2 := by
  rcases s.found_or_stale id with ⟨held,active⟩ | ⟨idle,_⟩
  · obtain ⟨_,filing,drop,cancelled⟩ := cancel_spec sound.filing sound.life held active
    have live := ((HandleTable.holds_iff _ _).mp held).2.2.1
    exact ⟨drop.sound filing cancelled sound live,drop.keeps⟩
  rw [idle]
  exact ⟨sound,.refl s⟩

lemma reschedule_sound (sound : s.Sound) (id : Handle) (d : Int64) (proper : (s.reschedule id d).2.misused = false) :
    (s.reschedule id d).2.Sound ∧ Keeps s (s.reschedule id d).2 := by
  rcases s.found_or_stale id with ⟨held,active⟩ | ⟨_,idle⟩
  · obtain ⟨_,queue,misused⟩ := reschedule_spec sound.filing d held active
    rw [misused,or_eq_false_iff] at proper
    exact ⟨queue.sound sound held active proper.2,queue.keeps⟩
  rw [idle]
  exact ⟨sound,.refl s⟩

lemma call_sound (sound : s.Sound) (c : TimerCall)
    (proper : (s.call c).2.misused = false) : (s.call c).2.Sound ∧ Keeps s (s.call c).2 := by
  have arms : ∀ expiry period mode g precise, (s.arm expiry period mode g precise).2.Sound ∧
      Keeps s (s.arm expiry period mode g precise).2 := by
    intro expiry period mode g precise
    have armed := (arm_spec sound.filing sound.life expiry period mode g precise).2
    exact ⟨armed.sound sound,armed.keeps sound.life⟩
  cases c with
  | after | atTime | every => exact arms _ _ _ _ _
  | cancel id => exact cancel_sound sound id
  | reschedule id d => exact reschedule_sound sound id d proper
  | makeTimerGroup =>
    exact ⟨makeTimerGroup_sound sound,⟨rfl,.refl _,fun _ linked => linked⟩,rfl,rfl,
      fun _ held => held,fun _ _ => ⟨rfl,rfl⟩⟩
  | cancelGroup g => exact cancelGroup_sound sound g

section
variable (s : Timers)
section
variable (i : NodeRef)

@[simp] lemma insertTimer_misused : (s.insertTimer i).misused = s.misused := by
  unfold insertTimer
  dsimp only
  split <;> rfl

@[simp] lemma unlinkTimer_misused : (s.unlinkTimer i).misused = s.misused := by
  unfold unlinkTimer heapRemove
  split <;> rfl

@[simp] lemma glistUnlink_misused : (s.glistUnlink i).misused = s.misused := by
  unfold glistUnlink
  split <;> rfl

@[simp] lemma modify_misused (f : TimerNode → TimerNode) : (s.modify i f).misused = s.misused := rfl

@[simp] lemma joinGroup_misused (g : Handle) : (s.joinGroup i g).misused = s.misused := by
  unfold joinGroup
  split <;> rfl
end

@[simp] lemma cancelMembers_misused (g fuel : Nat) (s : Timers) : (cancelMembers g fuel s).misused = s.misused := by
  induction fuel generalizing s with
  | zero => rfl
  | succ _ ih =>
    unfold cancelMembers
    split
    · rfl
    rw [ih]
    simp [cancelMember]

@[simp] lemma arm_misused (expiry period : Int) (mode : RepeatMode) (g : Handle)
    (precise : Bool) : (s.arm expiry period mode g precise).2.misused = s.misused := by
  simp only [arm,insertTimer_misused,joinGroup_misused]
  rfl

lemma call_misused (c : TimerCall) (already : s.misused = true) : (s.call c).2.misused = true := by
  cases c with
  | after | atTime | every => exact (arm_misused _ _ _ _ _ _).trans already
  | cancel =>
    simp only [call,cancel]
    split
    · exact already
    split
    · exact already
    · simpa using already
  | reschedule =>
    simp only [call,reschedule]
    split
    · exact already
    split
    · exact already
    · simp [setExpiry,already]
  | makeTimerGroup => exact already
  | cancelGroup =>
    simp only [call,cancelGroup]
    split
    · exact already
    · simpa using already

lemma calls_misused (cs : List TimerCall) (already : s.misused = true) : (s.calls cs).misused = true := by
  induction cs generalizing s with
  | nil => exact already
  | cons c _ ih => exact ih _ (call_misused s c already)
end

lemma calls_sound (sound : s.Sound) (cs : List TimerCall)
    (proper : (s.calls cs).misused = false) : (s.calls cs).Sound ∧ Keeps s (s.calls cs) := by
  induction cs generalizing s with
  | nil => exact ⟨sound,.refl s⟩
  | cons c rest ih =>
    have first : (s.call c).2.misused = false := by
      cases flag : (s.call c).2.misused with
      | false => rfl
      | true => exact absurd (calls_misused _ rest flag) (by simpa [calls] using proper)
    obtain ⟨next,keeps⟩ := call_sound sound c first
    obtain ⟨last,keepsRest⟩ := ih next proper
    exact ⟨last,keeps.trans keepsRest⟩
end AffiniX.Timers
