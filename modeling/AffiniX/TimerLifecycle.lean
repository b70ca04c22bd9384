import AffiniX.TimerSchedule

/-! The life of a timer node: what is queued or grouped is alive and not cancelled, and what waits for reclamation is
linked nowhere. -/
namespace AffiniX.Timers
open HandleTable TimerNode
open TimerWheel (home target SameClock)

structure Lifecycle (s : Timers) : Prop where
  timers : s.timers.Wf
  groups : s.groups.Wf
  ids : ∀ i, s.timers.alive i = true → (s.node i).id = ⟨i,(s.timers.slots i).gen⟩
  scheduled : ∀ i, s.Scheduled i → s.timers.alive i = true ∧ (s.node i).cancelled = false
  members : ∀ g i, i ∈ s.groups.node g ↔ (s.node i).groupLink = some g
  nodup : ∀ g, (s.groups.node g).Nodup
  grouped : ∀ i g, (s.node i).groupLink = some g →
    s.timers.alive i = true ∧ (s.node i).cancelled = false ∧ s.groups.alive g = true
  dead : ∀ h ∈ s.dead, s.timers.holds h = true ∧ ¬ s.Scheduled h.idx ∧ (s.node h.idx).groupLink = none

def FixedRate (n : TimerNode) : Prop := n.period > 0 ∧ n.mode = .fixedRate

/-- The timer inside its callback is alive, unqueued unless a fixed rate queued it, and
retired only by a cancellation. -/
def Firing (s : Timers) : Prop := ∀ h, s.firing = some h →
  s.timers.holds h = true ∧ (FixedRate (s.node h.idx) ∨ ¬ s.Scheduled h.idx) ∧
    (h ∈ s.dead → (s.node h.idx).cancelled = true)

structure Stays (s s' : Timers) : Prop where
  now : s'.now = s.now
  clock : SameClock s.wheel s'.wheel
  current : ∀ n, s'.wheel.link n = some (0,s.wheel.nowTick % TimerWheel.slots) →
    s.wheel.link n = some (0,s.wheel.nowTick % TimerWheel.slots)

lemma Stays.refl (s : Timers) : Stays s s := ⟨rfl,.refl _,fun _ linked => linked⟩

variable {s s' : Timers} {i : NodeRef}

lemma Stays.trans {t u : Timers} (first : Stays s t) (second : Stays t u) : Stays s u := by
  refine ⟨second.now.trans first.now,first.clock.trans second.clock,?_⟩
  intro n linked
  have middle := second.current n
  rw [first.clock.nowTick] at middle
  exact first.current n (middle linked)

structure Keeps (s s' : Timers) : Prop extends Stays s s' where
  fired : s'.fired = s.fired
  firing : s'.firing = s.firing
  holds : ∀ h, s.timers.holds h = true → s'.timers.holds h = true
  rate : ∀ h, s.timers.holds h = true →
    (s'.node h.idx).period = (s.node h.idx).period ∧ (s'.node h.idx).mode = (s.node h.idx).mode

lemma Keeps.refl (s : Timers) : Keeps s s := ⟨.refl s,rfl,rfl,fun _ held => held,fun _ _ => ⟨rfl,rfl⟩⟩

lemma Keeps.trans {t u : Timers} (first : Keeps s t) (second : Keeps t u) : Keeps s u :=
  ⟨first.toStays.trans second.toStays,second.fired.trans first.fired,
    second.firing.trans first.firing,fun h held => second.holds h (first.holds h held),
    fun h held => ⟨(second.rate h (first.holds h held)).1.trans (first.rate h held).1,
      (second.rate h (first.holds h held)).2.trans (first.rate h held).2⟩⟩

lemma create_lifecycle (tick : Int) (firstGen : Nat) (now : Int) : (create tick firstGen now).Lifecycle := by
  refine ⟨create_wf _ _,create_wf _ _,?_,?_,?_,?_,?_,?_⟩
  · intro i live
    simp [create,HandleTable.create,HandleTable.alive] at live
  · intro i queued
    simp [Scheduled,create,TimerWheel.create,node,HandleTable.create,HandleTable.node, blank] at queued
  · intro g i
    simp [create,node,HandleTable.create,HandleTable.node,blank]
  · intro g
    simp [create,HandleTable.create,HandleTable.node]
  · intro i g member
    simp [create,node,HandleTable.create,HandleTable.node,blank] at member
  intro h inside
  simp [create] at inside

lemma Lifecycle.id_of_holds (life : s.Lifecycle) {h : Handle}
    (held : s.timers.holds h = true) : (s.node h.idx).id = h := by
  obtain ⟨_,_,live,gen⟩ := (holds_iff _ _).mp held
  rw [life.ids h.idx live]
  exact Handle.ext rfl gen

lemma Lifecycle.holds_id (life : s.Lifecycle)
    (live : s.timers.alive i = true) : s.timers.holds (s.node i).id = true := by
  rw [life.ids i live]
  exact life.timers.holds_own live

lemma Lifecycle.transfer (life : s.Lifecycle)
    (table : s.timers.SameSlots s'.timers) (groups : s'.groups = s.groups) (dead : s'.dead = s.dead)
    (nodes : ∀ j, (s'.node j).id = (s.node j).id ∧ (s'.node j).cancelled = (s.node j).cancelled ∧
    (s'.node j).groupLink = (s.node j).groupLink)
    (gain : ∀ j, s'.Scheduled j → s.Scheduled j ∨ (s.timers.alive j = true ∧
    (s.node j).cancelled = false ∧ (s.node j).id ∉ s.dead)) : s'.Lifecycle := by
  refine ⟨table.wf life.timers,groups ▸ life.groups,?_,?_,?_,?_,?_,?_⟩
  · intro i live
    rw [table.alive] at live
    rw [(nodes i).1,table.gen]
    exact life.ids i live
  · intro i queued
    rw [table.alive,(nodes i).2.1]
    cases gain i queued with
    | inl before => exact life.scheduled i before
    | inr fresh => exact ⟨fresh.1,fresh.2.1⟩
  · intro g i
    rw [groups,(nodes i).2.2]
    exact life.members g i
  · rw [groups]
    exact life.nodup
  · intro i g member
    rw [table.alive,(nodes i).2.1,groups]
    rw [(nodes i).2.2] at member
    exact life.grouped i g member
  intro h inside
  rw [dead] at inside
  rw [table.holds,(nodes _).2.2]
  obtain ⟨held,idle,alone⟩ := life.dead h inside
  refine ⟨held,?_,alone⟩
  intro queued
  cases gain _ queued with
  | inl before => exact idle before
  | inr fresh =>
    apply fresh.2.2
    rw [life.id_of_holds held]
    exact inside

structure Dropped (s s' : Timers) (i : NodeRef) : Prop where
  now : s'.now = s.now
  clock : SameClock s.wheel s'.wheel
  fired : s'.fired = s.fired
  firing : s'.firing = s.firing
  misused : s'.misused = s.misused
  table : s.timers.SameSlots s'.timers
  groupTable : s.groups.SameSlots s'.groups
  members : ∀ g, s'.groups.node g = (s.groups.node g).erase i
  link : ∀ j, s'.wheel.link j = if j = i then none else s.wheel.link j
  inHeap : (s'.node i).inHeap = false
  others : ∀ j, j ≠ i → s'.node j = s.node j
  groupLink : (s'.node i).groupLink = none
  id : (s'.node i).id = (s.node i).id
  rate : (s'.node i).period = (s.node i).period ∧ (s'.node i).mode = (s.node i).mode
  dead : s'.dead = s.dead ++ [(s.node i).id]

lemma Dropped.scheduled (drop : Dropped s s' i) (j : NodeRef) : s'.Scheduled j ↔ s.Scheduled j ∧ j ≠ i := by
  unfold Scheduled
  rw [drop.link]
  by_cases own : j = i
  · simp [own,drop.inHeap]
  · simp [own,drop.others j own]

lemma Dropped.stays (drop : Dropped s s' i) : Stays s s' := by
  refine ⟨drop.now,drop.clock,?_⟩
  intro n linked
  rw [drop.link] at linked
  split at linked
  · contradiction
  · exact linked

lemma Dropped.lifecycle (drop : Dropped s s' i)
    (life : s.Lifecycle) (live : s.timers.alive i = true) : s'.Lifecycle := by
  refine ⟨drop.table.wf life.timers,drop.groupTable.wf life.groups,?_,?_,?_,?_,?_,?_⟩
  · intro j alive
    rw [drop.table.alive] at alive
    rw [drop.table.gen]
    by_cases own : j = i
    · rw [own,drop.id]
      exact life.ids i live
    rw [drop.others j own]
    exact life.ids j alive
  · intro j queued
    obtain ⟨before,other⟩ := (drop.scheduled j).mp queued
    rw [drop.table.alive,drop.others j other]
    exact life.scheduled j before
  · intro g j
    rw [drop.members,(life.nodup g).mem_erase_iff]
    by_cases own : j = i
    · rw [own,drop.groupLink]
      simp
    rw [drop.others j own,life.members]
    simp [own]
  · intro g
    rw [drop.members]
    exact (life.nodup g).erase i
  · intro j g member
    by_cases own : j = i
    · rw [own,drop.groupLink] at member
      contradiction
    rw [drop.others j own] at member ⊢
    rw [drop.table.alive,drop.groupTable.alive]
    exact life.grouped j g member
  intro h inside
  rw [drop.dead,List.mem_append,List.mem_singleton] at inside
  have held : s.timers.holds h = true := by
    cases inside with
    | inl before => exact (life.dead h before).1
    | inr same => exact same ▸ life.holds_id live
  refine ⟨(drop.table.holds h).trans held,?_⟩
  by_cases own : h.idx = i
  · rw [own]
    exact ⟨fun queued => ((drop.scheduled i).mp queued).2 rfl,drop.groupLink⟩
  have before : h ∈ s.dead := by
    refine inside.resolve_right (fun same => own ?_)
    rw [same,life.ids i live]
  rw [drop.others _ own]
  obtain ⟨_,idle,alone⟩ := life.dead h before
  exact ⟨fun queued => idle ((drop.scheduled _).mp queued).1,alone⟩

structure Ungrouped (s s' : Timers) (i : NodeRef) : Prop where
  rest : s' = {s with timers := s'.timers, groups := s'.groups}
  table : s.timers.SameSlots s'.timers
  groupTable : s.groups.SameSlots s'.groups
  members : ∀ g, s'.groups.node g = (s.groups.node g).erase i
  node : ∀ j, s'.node j = if j = i then (s.node i).ungroup else s.node j

lemma glistUnlink_spec (i : NodeRef) (members : ∀ g, i ∈ s.groups.node g ↔ (s.node i).groupLink = some g) :
    Ungrouped s (s.glistUnlink i) i := by
  cases link : (s.node i).groupLink with
  | none =>
    have same : s.glistUnlink i = s := by simp [glistUnlink,link]
    rw [same]
    refine ⟨rfl,.refl _,.refl _,?_,?_⟩
    · intro g
      refine (List.erase_of_not_mem ?_).symm
      rw [members,link]
      simp
    intro j
    split
    · next own => rw [own,ungroup,← link]
    · rfl
  | some g =>
    have unlinked : s.glistUnlink i = {s with
        timers := s.timers.modify i ungroup
        groups := s.groups.modify g (fun members => members.erase i)} := by
      simp only [glistUnlink,link]
    rw [unlinked]
    refine ⟨rfl,modify_same s.timers i ungroup, modify_same s.groups g (fun members => members.erase i),?_,?_⟩
    · intro _
      rw [modify_node]
      split
      · next own => rw [own]
      next other =>
      refine (List.erase_of_not_mem ?_).symm
      rw [members,link]
      exact fun same => other (Option.some.inj same).symm
    intro j
    exact node_modify s i j ungroup

lemma Ungrouped.filing (left : Ungrouped s s' i) (filing : s.Filing) : s'.Filing := by
  have nodes : ∀ j, (s'.node j).inHeap = (s.node j).inHeap ∧
      (s'.node j).expiry = (s.node j).expiry ∧ (s'.node j).expiryTick = (s.node j).expiryTick := by
    intro j
    rw [left.node]
    split
    · next own => rw [own]; exact ⟨rfl,rfl,rfl⟩
    · exact ⟨rfl,rfl,rfl⟩
  exact filing.congr (by rw [left.rest]) (by rw [left.rest]) (fun j => (nodes j).1) (fun j _ => (nodes j).2)

lemma Filing.modify (filing : s.Filing) (i : NodeRef) (f : TimerNode → TimerNode)
    (keeps : ∀ n, (f n).inHeap = n.inHeap ∧ (f n).expiry = n.expiry ∧
    (f n).expiryTick = n.expiryTick) : (s.modify i f).Filing := by
  have nodes : ∀ j, ((s.modify i f).node j).inHeap = (s.node j).inHeap ∧
      ((s.modify i f).node j).expiry = (s.node j).expiry ∧
      ((s.modify i f).node j).expiryTick = (s.node j).expiryTick := by
    intro j
    rw [node_modify]
    split
    · next own => rw [own]; exact keeps _
    · exact ⟨rfl,rfl,rfl⟩
  exact filing.congr rfl rfl (fun j => (nodes j).1) (fun j _ => (nodes j).2)

lemma modify_scheduled (i : NodeRef) (f : TimerNode → TimerNode) (keeps : ∀ n, (f n).inHeap = n.inHeap) (j : NodeRef) :
    (s.modify i f).Scheduled j ↔ s.Scheduled j := by
  unfold Scheduled
  rw [node_modify]
  split
  · next own => rw [own,keeps]; rfl
  · rfl

lemma Ungrouped.same (left : Ungrouped s s' i) : s'.wheel = s.wheel ∧ s'.dead = s.dead ∧ s'.now = s.now ∧
    s'.fired = s.fired ∧ s'.firing = s.firing ∧ s'.misused = s.misused := by
  rw [left.rest]
  exact ⟨rfl,rfl,rfl,rfl,rfl,rfl⟩

lemma cancelMember_spec (filing : s.Filing) (i : NodeRef)
    (members : ∀ g, i ∈ s.groups.node g ↔ (s.node i).groupLink = some g) :
    (s.cancelMember i).Filing ∧ Dropped s (s.cancelMember i) i ∧ ((s.cancelMember i).node i).cancelled = true := by
  have left := glistUnlink_spec i members
  obtain ⟨wheel,dead,now,fired,firing,misused⟩ := left.same
  let f : TimerNode → TimerNode := fun n => {n with group := Handle.none, cancelled := true}
  have filed := (left.filing filing).modify i f (fun _ => ⟨rfl,rfl,rfl⟩)
  obtain ⟨after,frame,links,flags⟩ := unlinkTimer_spec filed i
  let t := ((s.glistUnlink i).modify i f).unlinkTimer i
  have other : ∀ j, j ≠ i → t.node j = s.node j := by
    intro j apart
    rw [frame.node,flags,if_neg apart,node_modify,if_neg apart,left.node,if_neg apart]
    rfl
  have self : t.node i = (f (s.node i).ungroup).setInHeap false := by
    rw [frame.node,flags,if_pos rfl,node_modify,if_pos rfl,left.node,if_pos rfl]
  have result : s.cancelMember i = {t with dead := t.dead ++ [(t.node i).id]} := rfl
  rw [result]
  refine ⟨after.congr rfl rfl (fun _ => rfl) (fun _ _ => ⟨rfl,rfl⟩),
    ⟨frame.now.trans now,wheel ▸ frame.clock,frame.fired.trans fired,frame.firing.trans firing,
      frame.misused.trans misused,?_,?_,?_,?_,?_,other,?_,?_,?_,?_⟩,?_⟩
  · exact (left.table.trans (modify_same _ i f)).trans frame.table
  · change s.groups.SameSlots t.groups
    rw [frame.groups]
    exact left.groupTable
  · intro g
    rw [frame.groups]
    exact left.members g
  · intro j
    rw [← wheel]
    exact links j
  · change (t.node i).inHeap = false
    rw [self]
    rfl
  · change (t.node i).groupLink = none
    rw [self]
    rfl
  · change (t.node i).id = _
    rw [self]
    rfl
  · change (t.node i).period = _ ∧ (t.node i).mode = _
    rw [self]
    exact ⟨rfl,rfl⟩
  · change t.dead ++ [(t.node i).id] = _
    rw [self,frame.dead]
    exact congrArg (· ++ [(s.node i).id]) dead
  change (t.node i).cancelled = true
  rw [self]
  rfl

lemma cancel_spec (filing : s.Filing) (life : s.Lifecycle) {id : Handle} (held : s.timers.holds id = true)
    (live : (s.node id.idx).cancelled = false) : (s.cancel id).1 = true ∧ (s.cancel id).2.Filing ∧
    Dropped s (s.cancel id).2 id.idx ∧ ((s.cancel id).2.node id.idx).cancelled = true := by
  let f : TimerNode → TimerNode := fun n => {n with cancelled := true}
  let g : TimerNode → TimerNode := fun n => {n with group := Handle.none}
  have found : s.timers.get id = some (s.node id.idx) := (get_eq_some _ _ _).mpr ⟨held,rfl⟩
  have marked := filing.modify id.idx f (fun _ => ⟨rfl,rfl,rfl⟩)
  obtain ⟨after,frame,links,flags⟩ := unlinkTimer_spec marked id.idx
  let t := (s.modify id.idx f).unlinkTimer id.idx
  have nodes : ∀ j, t.node j = if j = id.idx then (f (s.node id.idx)).setInHeap false else s.node j := by
    intro j
    rw [frame.node,flags,node_modify]
    split <;> rfl
  have members : ∀ k, id.idx ∈ t.groups.node k ↔ (t.node id.idx).groupLink = some k := by
    intro k
    rw [frame.groups,nodes,if_pos rfl]
    exact life.members k id.idx
  have left := glistUnlink_spec id.idx members
  obtain ⟨wheel,dead,now,fired,firing,misused⟩ := left.same
  have other : ∀ j, j ≠ id.idx → ((t.glistUnlink id.idx).modify id.idx g).node j = s.node j := by
    intro j apart
    rw [node_modify,if_neg apart,left.node,if_neg apart,nodes,if_neg apart]
  have self : ((t.glistUnlink id.idx).modify id.idx g).node id.idx =
      g ((f (s.node id.idx)).setInHeap false).ungroup := by
    rw [node_modify,if_pos rfl,left.node,if_pos rfl,nodes,if_pos rfl]
  let u := (t.glistUnlink id.idx).modify id.idx g
  have result : s.cancel id = (true,{u with
      dead := u.dead ++ [id]
      stats := {u.stats with cancelled := u.stats.cancelled+1}}) := by
    simp only [cancel,found,live]
    rfl
  rw [result]
  refine ⟨rfl,?_,⟨now.trans frame.now,?_,fired.trans frame.fired,firing.trans frame.firing,
    misused.trans frame.misused,?_,?_,?_,?_,?_,other,?_,?_,?_,?_⟩,?_⟩
  · exact ((left.filing after).modify id.idx g (fun _ => ⟨rfl,rfl,rfl⟩)).congr rfl rfl
      (fun _ => rfl) (fun _ _ => ⟨rfl,rfl⟩)
  · change SameClock s.wheel (t.glistUnlink id.idx).wheel
    rw [wheel]
    exact frame.clock
  · exact (((modify_same s.timers id.idx f).trans frame.table).trans left.table).trans
      (modify_same _ id.idx g)
  · have same := left.groupTable
    rw [frame.groups] at same
    exact same
  · intro k
    have erased := left.members k
    rw [frame.groups] at erased
    exact erased
  · intro j
    change (t.glistUnlink id.idx).wheel.link j = _
    rw [wheel]
    exact links j
  · change (u.node id.idx).inHeap = false
    rw [self]
    rfl
  · change (u.node id.idx).groupLink = none
    rw [self]
    rfl
  · change (u.node id.idx).id = _
    rw [self]
    rfl
  · change (u.node id.idx).period = _ ∧ (u.node id.idx).mode = _
    rw [self]
    exact ⟨rfl,rfl⟩
  · change (t.glistUnlink id.idx).dead ++ [id] = _
    rw [life.id_of_holds held,dead,frame.dead]
    rfl
  change (u.node id.idx).cancelled = true
  rw [self]
  rfl

def parks (s : Timers) (precise : Bool) (t : Int) : Bool :=
  TimerWheel.fits (s.wheel.tickOf t) s.wheel.nowTick && !precise

def bucketOf (s : Timers) (precise : Bool) (t : Int) : Option Bucket :=
  if s.parks precise t then
    some (home (target (s.wheel.tickOf t) s.wheel.nowTick) s.wheel.nowTick)
  else none

lemma bucketOf_not_current (s : Timers) (precise : Bool) (t : Int) :
    s.bucketOf precise t ≠ some (0,s.wheel.nowTick % TimerWheel.slots) := by
  unfold bucketOf parks
  split
  · next choice =>
    rw [Bool.and_eq_true,TimerWheel.fits_iff] at choice
    exact fun here => (TimerWheel.home_placed _ _ choice.1).not_current (Option.some.inj here)
  · simp

structure Requeued (s s' : Timers) (i : NodeRef) (t : Int) : Prop where
  filing : s'.Filing
  now : s'.now = s.now
  clock : SameClock s.wheel s'.wheel
  groups : s'.groups = s.groups
  dead : s'.dead = s.dead
  fired : s'.fired = s.fired
  firing : s'.firing = s.firing
  table : s.timers.SameSlots s'.timers
  others : ∀ j, j ≠ i → s'.node j = s.node j
  self : s'.node i = {s.node i with
    expiry := t, expiryTick := s.wheel.tickOf t, inHeap := !s.parks (s.node i).precise t}
  link : ∀ j, s'.wheel.link j = if j = i then s.bucketOf (s.node i).precise t else s.wheel.link j

lemma Requeued.scheduled {t : Int} (queue : Requeued s s' i t)
    (j : NodeRef) : s'.Scheduled j ↔ j = i ∨ s.Scheduled j := by
  unfold Scheduled
  rw [queue.link]
  by_cases own : j = i
  · rw [own,queue.self,bucketOf]
    cases s.parks (s.node i).precise t <;> simp
  · simp [own,queue.others j own]

lemma Requeued.stays {t : Int} (queue : Requeued s s' i t) : Stays s s' := by
  refine ⟨queue.now,queue.clock,?_⟩
  intro n linked
  rw [queue.link] at linked
  split at linked
  · exact absurd linked (bucketOf_not_current s _ t)
  · exact linked

lemma insertTimer_requeued (filing : s.Filing) (fresh : ¬ s.Scheduled i) (t : Int) :
    Requeued s ((s.setExpiry i t).insertTimer i) i t ∧ ((s.setExpiry i t).insertTimer i).misused = s.misused := by
  let f : TimerNode → TimerNode := fun n => {n with expiry := t, expiryTick := s.wheel.tickOf t}
  have nodes : ∀ j, (s.setExpiry i t).node j = if j = i then f (s.node i) else s.node j :=
    fun j => node_modify s i j f
  have flags : ∀ j, ((s.setExpiry i t).node j).inHeap = (s.node j).inHeap := by
    intro j
    rw [nodes]
    split
    · next own => rw [own]
    · rfl
  have moved : (s.setExpiry i t).Filing := by
    refine filing.congr rfl rfl flags ?_
    intro j queued
    have other : j ≠ i := by
      rintro rfl
      exact fresh queued
    rw [nodes,if_neg other]
    exact ⟨rfl,rfl⟩
  have still : ¬ (s.setExpiry i t).Scheduled i := by
    unfold Scheduled
    rw [flags]
    exact fresh
  obtain ⟨after,frame,links,heaps⟩ := insertTimer_spec moved still
  have self := nodes i
  rw [if_pos rfl] at self
  have choice : (s.setExpiry i t).inWheel i = s.parks (s.node i).precise t := by
    unfold inWheel parks expiryTick
    rw [self]
    rfl
  refine ⟨⟨after,frame.now,frame.clock,frame.groups,frame.dead,frame.fired,frame.firing,
    (modify_same s.timers i f).trans frame.table,?_,?_,?_⟩,frame.misused⟩
  · intro j other
    rw [frame.node,heaps,if_neg other,flags,nodes,if_neg other]
    rfl
  · rw [frame.node,heaps,if_pos rfl,choice,self]
    rfl
  intro j
  rw [links,choice,bucketOf]
  by_cases own : j = i
  · subst own
    have unlinked := (not_scheduled.mp fresh).1
    cases s.parks (s.node j).precise t
    · simp only [Bool.false_eq_true,and_false,if_false,if_true]
      exact unlinked
    simp [expiryTick,self,f]
    rfl
  simp [own]
  rfl

lemma reschedule_spec (filing : s.Filing) {id : Handle} (d : Int64)
    (held : s.timers.holds id = true) (live : (s.node id.idx).cancelled = false) :
    (s.reschedule id d).1 = true ∧ Requeued s (s.reschedule id d).2 id.idx (s.now + d.toInt) ∧
    (s.reschedule id d).2.misused = (s.misused || s.finishing id (s.node id.idx)) := by
  have found : s.timers.get id = some (s.node id.idx) := (get_eq_some _ _ _).mpr ⟨held,rfl⟩
  let t : Timers := {s with misused := s.misused || s.finishing id (s.node id.idx)}
  have marked : t.Filing := filing.congr rfl rfl (fun _ => rfl) (fun _ _ => ⟨rfl,rfl⟩)
  obtain ⟨after,frame,links,flags⟩ := unlinkTimer_spec marked id.idx
  have idle : ¬ (t.unlinkTimer id.idx).Scheduled id.idx := by
    rw [unlinkTimer_scheduled marked]
    simp
  obtain ⟨queue,misused⟩ := insertTimer_requeued after idle ((t.unlinkTimer id.idx).now + d.toInt)
  have result : s.reschedule id d = (true,((t.unlinkTimer id.idx).setExpiry id.idx
      ((t.unlinkTimer id.idx).now + d.toInt)).insertTimer id.idx) := by
    simp only [reschedule,found,live]
    rfl
  have self : (t.unlinkTimer id.idx).node id.idx = (s.node id.idx).setInHeap false := by
    rw [frame.node,flags,if_pos rfl]
    rfl
  rw [frame.now] at queue misused result
  rw [result]
  have wheel : (t.unlinkTimer id.idx).wheel.tickOf (s.now + d.toInt) = s.wheel.tickOf (s.now + d.toInt) := by
    unfold TimerWheel.tickOf
    rw [frame.clock.tick]
  have choice : ∀ precise, (t.unlinkTimer id.idx).parks precise (s.now + d.toInt) =
      s.parks precise (s.now + d.toInt) := by
    intro _
    unfold parks
    rw [wheel,frame.clock.nowTick]
  refine ⟨rfl,⟨queue.filing,queue.now.trans frame.now,frame.clock.trans queue.clock,
    queue.groups.trans frame.groups,queue.dead.trans frame.dead,queue.fired.trans frame.fired,
    queue.firing.trans frame.firing,frame.table.trans queue.table,?_,?_,?_⟩,
    misused.trans frame.misused⟩
  · intro j other
    rw [queue.others j other,frame.node,flags,if_neg other]
    rfl
  · refine queue.self.trans ?_
    rw [self,wheel]
    rw [← choice]
    rfl
  intro j
  refine (queue.link j).trans ?_
  rw [links,self]
  unfold bucketOf
  rw [choice,wheel,frame.clock.nowTick]
  split <;> rfl
end AffiniX.Timers
