import AffiniX.TimerPlacement
import AffiniX.Timers

/-! The scheduling structures: every queued node is filed in the wheel or a member of the heap, never both. -/
namespace AffiniX.Timers
open TimerWheel HandleTable
open TimerWheel (Filed Placed home target SameClock)

def Scheduled (s : Timers) (i : NodeRef) : Prop := (s.wheel.link i).isSome = true ∨ (s.node i).inHeap = true

def inWheel (s : Timers) (i : NodeRef) : Bool :=
  TimerWheel.fits (s.expiryTick i) s.wheel.nowTick && !(s.node i).precise

structure Filing (s : Timers) : Prop where
  wheel : s.wheel.Wf
  epoch : s.wheel.primed = false → s.wheel.nowTick = 0
  filed : ∀ i b, s.wheel.link i = some b → Filed s.wheel.nowTick (s.expiryTick i) b
  heap : IndexedHeap.Valid 4 s.expiryKey s.heap
  inHeap : ∀ i, (s.node i).inHeap = true ↔ s.heap.Mem i
  apart : ∀ i b, s.wheel.link i = some b → (s.node i).inHeap = false

structure Frame (s s' : Timers) : Prop where
  now : s'.now = s.now
  clock : SameClock s.wheel s'.wheel
  groups : s'.groups = s.groups
  dead : s'.dead = s.dead
  stats : s'.stats = s.stats
  fired : s'.fired = s.fired
  firing : s'.firing = s.firing
  misused : s'.misused = s.misused
  table : s.timers.SameSlots s'.timers
  node : ∀ j, s'.node j = (s.node j).setInHeap (s'.node j).inHeap

variable {s : Timers} {i : NodeRef}

lemma not_scheduled : ¬ s.Scheduled i ↔ s.wheel.link i = none ∧ (s.node i).inHeap = false := by
  unfold Scheduled
  rw [not_or,Bool.not_eq_true,Bool.not_eq_true,Option.isSome_eq_false_iff,Option.isNone_iff_eq_none]

lemma create_filing (tick : Int) (firstGen : Nat) (now : Int) : (create tick firstGen now).Filing := by
  refine ⟨create_wf tick,fun _ => rfl,?_,?_,?_,?_⟩
  · intro i b linked
    simp [create,TimerWheel.create] at linked
  · refine ⟨fun c _ bound => ?_,fun c bound => ?_⟩ <;> simp [create] at bound
  · intro i
    simp [create,node,HandleTable.create,HandleTable.node,TimerNode.blank,IndexedHeap.Mem]
  intro i b linked
  simp [create,TimerWheel.create] at linked

lemma node_modify (s : Timers) (i j : NodeRef) (f : TimerNode → TimerNode) :
    (s.modify i f).node j = if j = i then f (s.node i) else s.node j :=
  modify_node s.timers i j f

lemma modify_self (s : Timers) (i : NodeRef) (f : TimerNode → TimerNode)
    (same : f (s.node i) = s.node i) : s.modify i f = s := by
  unfold modify
  rw [HandleTable.modify_self s.timers i f same]

lemma Filing.congr {s' : Timers} (filing : s.Filing) (wheel : s'.wheel = s.wheel)
    (heap : s'.heap = s.heap) (flag : ∀ i, (s'.node i).inHeap = (s.node i).inHeap)
    (times : ∀ i, s.Scheduled i →
    (s'.node i).expiry = (s.node i).expiry ∧ (s'.node i).expiryTick = (s.node i).expiryTick) :
    s'.Filing := by
  refine ⟨wheel ▸ filing.wheel,wheel ▸ filing.epoch,?_,?_,?_,?_⟩
  · intro i b linked
    rw [wheel] at linked ⊢
    have queued : s.Scheduled i := .inl (by simp [linked])
    rw [expiryTick,(times i queued).2]
    exact filing.filed i b linked
  · rw [heap]
    refine filing.heap.congr (fun i member => ?_)
    exact (times i (.inr ((filing.inHeap i).mpr member))).1
  · intro i
    rw [flag,heap]
    exact filing.inHeap i
  intro i b linked
  rw [wheel] at linked
  rw [flag]
  exact filing.apart i b linked

lemma insertTimer_eq (fresh : ¬ s.Scheduled i) : s.insertTimer i =
    if s.inWheel i then {s with wheel := s.wheel.insert s.expiryTick i} else s.heapPush i := by
  have flag := (not_scheduled.mp fresh).2
  have same : s.modify i (·.setInHeap false) = s := modify_self s i _ (by rw [← flag]; rfl)
  unfold insertTimer
  rw [same]
  rfl

private lemma reads_of_nodes {s' : Timers} {flag : Bool}
    (nodes : ∀ j, s'.node j = if j = i then (s.node i).setInHeap flag else s.node j) :
    s'.expiryTick = s.expiryTick ∧ s'.expiryKey = s.expiryKey := by
  constructor <;> funext j
  · rw [expiryTick,nodes]
    split
    · next own => rw [own]; rfl
    · rfl
  rw [expiryKey,nodes]
  split
  · next own => rw [own]; rfl
  · rfl

lemma insertTimer_spec (filing : s.Filing) (fresh : ¬ s.Scheduled i) :
    (s.insertTimer i).Filing ∧ Frame s (s.insertTimer i) ∧
    (∀ j, (s.insertTimer i).wheel.link j = if j = i ∧ s.inWheel i = true then
    some (home (target (s.expiryTick i) s.wheel.nowTick) s.wheel.nowTick)
    else s.wheel.link j) ∧
    ∀ j, ((s.insertTimer i).node j).inHeap = if j = i then !s.inWheel i else (s.node j).inHeap := by
  obtain ⟨unlinked,flag⟩ := not_scheduled.mp fresh
  rw [insertTimer_eq fresh]
  cases choice : s.inWheel i with
  | true =>
    have near : s.expiryTick i - s.wheel.nowTick < 256^4 := by
      unfold inWheel at choice
      rw [Bool.and_eq_true] at choice
      exact (fits_iff _ _).mp choice.1
    have links : ∀ j, (s.wheel.insert s.expiryTick i).link j = if j = i ∧ true = true then
        some (home (target (s.expiryTick i) s.wheel.nowTick) s.wheel.nowTick)
        else s.wheel.link j := by
      intro j
      rw [insert_eq,insertNode_link]
      simp
    have clock : SameClock s.wheel (s.wheel.insert s.expiryTick i) := insertNode_clock s.wheel i _ _
    refine ⟨⟨filing.wheel.insert unlinked s.expiryTick near,?_,?_,filing.heap,filing.inHeap,?_⟩,
      ⟨rfl,clock,rfl,rfl,rfl,rfl,rfl,rfl,.refl _,fun _ => rfl⟩,links,?_⟩
    · exact filing.epoch
    · intro j b linked
      rw [if_pos rfl] at linked ⊢
      rw [links] at linked
      split at linked
      · next own =>
        rw [← Option.some.inj linked,own.1]
        exact .inl (home_placed _ _ near)
      · exact filing.filed j b linked
    · intro j b linked
      rw [if_pos rfl] at linked ⊢
      rw [links] at linked
      split at linked
      · next own => rw [own.1]; exact flag
      · exact filing.apart j b linked
    intro j
    rw [if_pos rfl]
    split
    · next own => rw [own]; exact flag
    · rfl
  | false =>
    have outside : ¬ s.heap.Mem i := fun member => by
      rw [(filing.inHeap i).mpr member] at flag
      contradiction
    have nodes : ∀ j, (s.heapPush i).node j = if j = i then (s.node i).setInHeap true else s.node j :=
      fun j => node_modify s i j (·.setInHeap true)
    obtain ⟨ticks,keys⟩ := reads_of_nodes nodes
    obtain ⟨valid,member⟩ := filing.heap.push outside
    rw [if_neg (by simp)]
    refine ⟨⟨filing.wheel,filing.epoch,?_,?_,?_,?_⟩,
      ⟨rfl,.refl _,rfl,rfl,rfl,rfl,rfl,rfl, modify_same s.timers i (·.setInHeap true),?_⟩,?_,?_⟩
    · rw [ticks]
      exact filing.filed
    · rw [keys]
      exact valid
    · intro j
      rw [nodes]
      refine Iff.trans ?_ (member j).symm
      by_cases own : j = i
      · simp [own]
      · simp [own,filing.inHeap]
    · intro j b linked
      rw [nodes]
      split
      · next own =>
        subst own
        change s.wheel.link j = some b at linked
        rw [unlinked] at linked
        contradiction
      · exact filing.apart j b linked
    · intro j
      rw [nodes]
      split
      · next own => rw [own]; rfl
      · rfl
    · intro j
      simp [heapPush]
    intro j
    rw [nodes]
    split <;> rfl

lemma heapRemove_spec (filing : s.Filing) (flag : (s.node i).inHeap = true) :
    (s.heapRemove i).Filing ∧ Frame s (s.heapRemove i) ∧ (s.heapRemove i).wheel = s.wheel ∧ s.wheel.link i = none ∧
    ∀ j, ((s.heapRemove i).node j).inHeap = if j = i then false else (s.node j).inHeap := by
  have unlinked : s.wheel.link i = none := by
    cases linked : s.wheel.link i with
    | none => rfl
    | some b =>
      have := filing.apart i b linked
      rw [flag] at this
      contradiction
  have removed : s.heapRemove i = {s with
      timers := s.timers.modify i (·.setInHeap false)
      heap := s.heap.remove 4 s.expiryKey i} := if_pos flag
  have nodes : ∀ j, (s.heapRemove i).node j = if j = i then (s.node i).setInHeap false else s.node j := by
    intro j
    rw [removed]
    exact node_modify s i j (·.setInHeap false)
  have flags : ∀ j, ((s.heapRemove i).node j).inHeap = if j = i then false else (s.node j).inHeap := by
    intro j
    rw [nodes]
    split <;> rfl
  obtain ⟨ticks,keys⟩ := reads_of_nodes nodes
  obtain ⟨valid,rest⟩ := filing.heap.remove (by decide) ((filing.inHeap i).mp flag)
  have wheel : (s.heapRemove i).wheel = s.wheel := by rw [removed]
  have heap : (s.heapRemove i).heap = s.heap.remove 4 s.expiryKey i := by rw [removed]
  refine ⟨⟨wheel ▸ filing.wheel,wheel ▸ filing.epoch,?_,?_,?_,?_⟩,?_,wheel,unlinked,flags⟩
  · rw [ticks,wheel]
    exact filing.filed
  · rw [keys,heap]
    exact valid
  · intro j
    rw [flags,heap,rest]
    split
    · next own => simp [own]
    · next other => simp [other,filing.inHeap]
  · intro j b linked
    rw [wheel] at linked
    rw [flags,filing.apart j b linked]
    split <;> rfl
  have same := modify_same s.timers i (·.setInHeap false)
  refine ⟨by rw [removed],wheel ▸ .refl _,by rw [removed],by rw [removed],by rw [removed],
    by rw [removed],by rw [removed],by rw [removed],by rw [removed]; exact same,?_⟩
  intro j
  rw [nodes]
  split
  · next own => rw [own]; rfl
  · rfl

lemma unlinkTimer_spec (filing : s.Filing) (i : NodeRef) : (s.unlinkTimer i).Filing ∧ Frame s (s.unlinkTimer i) ∧
    (∀ j, (s.unlinkTimer i).wheel.link j = if j = i then none else s.wheel.link j) ∧
    ∀ j, ((s.unlinkTimer i).node j).inHeap = if j = i then false else (s.node j).inHeap := by
  unfold unlinkTimer
  cases flag : (s.node i).inHeap with
  | true =>
    obtain ⟨after,frame,wheel,unlinked,flags⟩ := heapRemove_spec filing flag
    rw [if_pos rfl]
    refine ⟨after,frame,?_,flags⟩
    intro j
    rw [wheel]
    split
    · next own => rw [own,unlinked]
    · rfl
  | false =>
    rw [if_neg (by simp)]
    have clock := unlink_clock s.wheel i
    have links := unlink_link s.wheel i
    refine ⟨⟨filing.wheel.unlink i,?_,?_,filing.heap,filing.inHeap,?_⟩,
      ⟨rfl,clock,rfl,rfl,rfl,rfl,rfl,rfl,.refl _,fun _ => rfl⟩,links,?_⟩
    · intro start
      exact clock.nowTick.trans (filing.epoch (clock.primed ▸ start))
    · intro j b linked
      rw [links] at linked
      split at linked
      · contradiction
      change Filed (s.wheel.unlink i).nowTick _ _
      rw [clock.nowTick]
      exact filing.filed j b linked
    · intro j b linked
      rw [links] at linked
      split at linked
      · contradiction
      · exact filing.apart j b linked
    intro j
    split
    · next own => rw [own]; exact flag
    · rfl

lemma unlinkTimer_scheduled (filing : s.Filing) (i j : NodeRef) :
    (s.unlinkTimer i).Scheduled j ↔ s.Scheduled j ∧ j ≠ i := by
  obtain ⟨_,_,links,flags⟩ := unlinkTimer_spec filing i
  unfold Scheduled
  rw [links,flags]
  by_cases own : j = i <;> simp [own]
end AffiniX.Timers
