import AffiniX.TimerLinks

/-! Which timers a cancellation or a firing retires. -/
namespace AffiniX.Timers
open TimerNode

structure Retires (gone : NodeRef → Prop) (s s' : Timers) : Prop where
  table : s.timers.SameSlots s'.timers
  groupTable : s.groups.SameSlots s'.groups
  ids : ∀ i, (s'.node i).id = (s.node i).id
  period : ∀ i, (s'.node i).period = (s.node i).period
  kept : ∀ i, ¬ gone i → (s'.node i).groupLink = (s.node i).groupLink ∧ (s'.node i).cancelled = (s.node i).cancelled
  unlinked : ∀ i, gone i → (s'.node i).groupLink = none
  dead : ∀ h, h ∈ s'.dead ↔ h ∈ s.dead ∨ ∃ i, gone i ∧ h = (s.node i).id

namespace Retires
variable {s t u : Timers} {gone more : NodeRef → Prop}

lemma of_eq (timers : t.timers = s.timers) (groups : t.groups = s.groups) (dead : t.dead = s.dead) :
    Retires (fun _ => False) s t := by
  have nodes : ∀ i, t.node i = s.node i := fun i => by rw [node,node,timers]
  refine ⟨timers ▸ .refl _,groups ▸ .refl _,?_,?_,?_,fun _ no => no.elim,?_⟩
  · simp [nodes]
  · simp [nodes]
  · simp [nodes]
  · simp [dead]

lemma congr (retires : Retires gone s t) (same : ∀ i, gone i ↔ more i) : Retires more s t := by
  have equal : gone = more := funext fun i => propext (same i)
  exact equal ▸ retires

lemma trans (first : Retires gone s t) (second : Retires more t u) : Retires (fun i => gone i ∨ more i) s u := by
  refine ⟨first.table.trans second.table,first.groupTable.trans second.groupTable,?_,?_,?_,?_,?_⟩
  · exact fun i => (second.ids i).trans (first.ids i)
  · exact fun i => (second.period i).trans (first.period i)
  · intro i kept
    have before := first.kept i (fun left => kept (.inl left))
    have after := second.kept i (fun left => kept (.inr left))
    exact ⟨after.1.trans before.1,after.2.trans before.2⟩
  · intro i left
    by_cases later : more i
    · exact second.unlinked i later
    rw [(second.kept i later).1]
    exact first.unlinked i (left.resolve_right later)
  intro h
  rw [second.dead,first.dead]
  constructor
  · rintro ((old | ⟨i,left,rfl⟩) | ⟨i,left,rfl⟩)
    · exact .inl old
    · exact .inr ⟨i,.inl left,rfl⟩
    · exact .inr ⟨i,.inr left,first.ids i⟩
  rintro (old | ⟨i,left | left,rfl⟩)
  · exact .inl (.inl old)
  · exact .inl (.inr ⟨i,left,rfl⟩)
  · exact .inr ⟨i,left,(first.ids i).symm⟩

lemma then_eq (retires : Retires gone s t) (timers : u.timers = t.timers) (groups : u.groups = t.groups)
    (dead : u.dead = t.dead) (same : ∀ i, gone i ↔ more i) : Retires more s u :=
  (retires.trans (of_eq timers groups dead)).congr (by simpa using same)
end Retires

variable {s : Timers}

lemma Dropped.retires {s' : Timers} {i : NodeRef} (drop : Dropped s s' i) : Retires (· = i) s s' := by
  refine ⟨drop.table,drop.groupTable,?_,?_,?_,?_,?_⟩
  · intro j
    by_cases own : j = i
    · rw [own,drop.id]
    · rw [drop.others j own]
  · intro j
    by_cases own : j = i
    · rw [own,drop.rate.1]
    · rw [drop.others j own]
  · intro j other
    rw [drop.others j other]
    exact ⟨rfl,rfl⟩
  · intro j own
    rw [own]
    exact drop.groupLink
  intro h
  rw [drop.dead,List.mem_append,List.mem_singleton]
  simp

lemma cancelMembers_retires (g fuel : Nat) (sound : s.Sound) (enough : (s.groups.node g).length ≤ fuel) :
    Retires (· ∈ s.groups.node g) s (cancelMembers g fuel s) := by
  induction fuel generalizing s with
  | zero =>
    have none' : s.groups.node g = [] := List.length_eq_zero_iff.1 (Nat.le_zero.1 enough)
    rw [none']
    exact (Retires.of_eq rfl rfl rfl).congr (by simp)
  | succ fuel rest =>
    unfold cancelMembers
    split
    next none' =>
      rw [none']
      exact (Retires.of_eq rfl rfl rfl).congr (by simp)
    next i others list =>
    obtain ⟨_,drop,_⟩ := cancelMember_spec sound.filing i fun k => sound.life.members k i
    have member : i ∈ s.groups.node g := by simp [list]
    have left : (s.cancelMember i).groups.node g = others := by
      rw [drop.members,list]
      simp
    have fewer : ((s.cancelMember i).groups.node g).length ≤ fuel := by
      rw [list,List.length_cons] at enough
      rw [left]
      omega
    have later := rest (cancelMember_sound sound member).1 fewer
    apply (drop.retires.trans later).congr
    intro j
    rw [left,list,List.mem_cons]

lemma cancelGroup_retires (sound : s.Sound) (g : Handle) :
    Retires (fun i => s.groups.holds g = true ∧ i ∈ s.groups.node g.idx) s (s.cancelGroup g).2 := by
  cases held : s.groups.holds g with
  | false =>
    have stale : s.groups.get g = none := by simp [HandleTable.get,held]
    rw [cancelGroup,stale]
    exact (Retires.of_eq rfl rfl rfl).congr (by simp)
  | true =>
    have found : s.groups.get g = some (s.groups.node g.idx) := (HandleTable.get_eq_some _ _ _).mpr ⟨held,rfl⟩
    rw [cancelGroup,found]
    have retires := cancelMembers_retires g.idx _ sound (le_rfl)
    exact retires.then_eq rfl rfl rfl (by simp)

lemma cancel_retires (sound : s.Sound) (id : Handle) :
    Retires (fun i => s.timers.holds id = true ∧ (s.node id.idx).cancelled = false ∧ i = id.idx) s (s.cancel id).2 := by
  rcases Classical.em (s.timers.holds id = true ∧ (s.node id.idx).cancelled = false) with ⟨held,active⟩ | idle
  · obtain ⟨_,_,drop,_⟩ := cancel_spec sound.filing sound.life held active
    exact drop.retires.congr (by simp [held,active])
  have same : (s.cancel id).2 = s := by
    rcases s.found_or_stale id with found | ⟨stale,_⟩
    · exact absurd found idle
    · rw [stale]
  rw [same]
  apply (Retires.of_eq rfl rfl rfl).congr
  intro i
  exact ⟨nofun,fun here => idle ⟨here.1,here.2.1⟩⟩

lemma Frame.retires {s' : Timers} (frame : Frame s s') : Retires (fun _ => False) s s' := by
  refine ⟨frame.table,frame.groups ▸ .refl _,?_,?_,?_,nofun,?_⟩
  · intro i
    rw [frame.node,setInHeap_id]
  · intro i
    rw [frame.node,setInHeap_period]
  · intro i _
    rw [frame.node,setInHeap_groupLink,setInHeap_cancelled]
    exact ⟨rfl,rfl⟩
  · simp [frame.dead]

def cancelling (g : Option Handle) : List TimerCall := g.toList.map .cancelGroup

lemma cancelling_retires (sound : s.Sound) (g : Option Handle) :
    (s.calls (cancelling g)).Sound ∧ Keeps s (s.calls (cancelling g)) ∧
    Retires (fun j => ∃ h ∈ g, s.groups.holds h = true ∧ j ∈ s.groups.node h.idx) s (s.calls (cancelling g)) := by
  cases g with
  | none => exact ⟨sound,.refl s,(Retires.of_eq rfl rfl rfl).congr (by simp)⟩
  | some g =>
    obtain ⟨after,keeps⟩ := cancelGroup_sound sound g
    exact ⟨after,keeps,(cancelGroup_retires sound g).congr (by simp)⟩

lemma fireTimer_retires (rest : s.Rest) {i : NodeRef} (queued : s.Scheduled i) (once : (s.node i).period = 0)
    (g : Option Handle) : (fireTimer (fun _ => cancelling g) (s.unlinkTimer i) i).Rest ∧
    Retires (fun j => j = i ∨ ∃ h ∈ g, s.groups.holds h = true ∧ j ∈ s.groups.node h.idx)
    s (fireTimer (fun _ => cancelling g) (s.unlinkTimer i) i) := by
  have frame := (unlinkTimer_spec rest.sound.filing i).2.1
  have hand := unlinkTimer_inHand rest.sound rest.quiet queued
  let u := s.unlinkTimer i
  have period : (u.node i).period = 0 := (frame.retires.period i).trans once
  have own : (u.node i).id.idx = i := by rw [hand.life.ids i hand.live]
  obtain ⟨started,stays,firing,_,_⟩ := beforeCallback_sound hand
  have start : u.beforeCallback i = u.startCallback (u.node i) 0 := by
    unfold beforeCallback
    rw [if_neg (by rw [period]; simp)]
  have begun : Retires (fun _ => False) s (u.beforeCallback i) := by
    rw [start]
    exact frame.retires.then_eq rfl rfl rfl fun _ => .rfl
  obtain ⟨called,keeps,cancels⟩ := cancelling_retires started g
  let c := (u.beforeCallback i).calls (cancelling g)
  have groups : (u.beforeCallback i).groups = s.groups := by
    rw [start]
    exact frame.groups
  rw [groups] at cancels
  have fired : fireTimer (fun _ => cancelling g) u i = c.afterCallback (u.node i).id.idx false := by
    rw [fireTimer,hand.active,own]
    simp only [Bool.false_eq_true,if_false]
    rw [period]
    rfl
  have still : (c.node i).period = 0 := (cancels.period i).trans ((begun.period i).trans once)
  have oneShot : false = decide ((c.node (u.node i).id.idx).period > 0) := by
    rw [own,still]
    rfl
  obtain ⟨done,after,quiet,_⟩ := afterCallback_sound called (keeps.firing.trans firing) oneShot
  rw [fired]
  refine ⟨⟨done,quiet,?_⟩,?_⟩
  · have all := ((unlinkTimer_stays rest.sound.filing i).trans stays).trans (keeps.toStays.trans after)
    exact all.drained rest.drained
  have both := begun.trans cancels
  rw [own,afterCallback_eq]
  split
  next cancelled =>
    -- the callback has cancelled the timer that fired
    have member : ∃ h ∈ g, s.groups.holds h = true ∧ i ∈ s.groups.node h.idx := by
      by_contra other
      have same : (c.node i).cancelled = (s.node i).cancelled := (both.kept i (by simpa using other)).2
      rw [same,(rest.sound.life.scheduled i queued).2] at cancelled
      contradiction
    refine both.then_eq rfl rfl rfl ?_
    intro j
    constructor
    · exact fun later => .inr (later.resolve_left id)
    rintro (rfl | later)
    · exact .inr member
    · exact .inr later
  · simp only [Bool.false_eq_true,if_false]
    have idle : ¬ c.Scheduled i := by
      have unqueued := (called.firing _ (keeps.firing.trans firing)).2.1
      rw [own] at unqueued
      apply unqueued.resolve_left
      intro rate
      have positive : (c.node i).period > 0 := rate.1
      rw [still] at positive
      exact lt_irrefl _ positive
    have drop := (retire_spec called.filing called.life idle).2
    refine (both.trans drop.retires).then_eq rfl rfl rfl ?_
    intro j
    constructor
    · rintro ((impossible | later) | same)
      · exact impossible.elim
      · exact .inr later
      · exact .inl same
    rintro (same | later)
    · exact .inr same
    · exact .inl (.inr later)
end AffiniX.Timers
