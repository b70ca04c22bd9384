import AffiniX.HandleTable
import AffiniX.Transition

/-! The handle table with the width of its indices and its history. -/
namespace AffiniX
open Function List HandleTable Prod Nat

structure Slab (α β : Type*) where
  table : HandleTable α
  place : Nat → β
  issued : List (Handle × α × β)
  released : List Handle
  recent : List Nat

namespace Slab
open Transition
variable {α β : Type*}

def create (firstGen : BitVec 32) (blank : α) (place : Nat → β) : Slab α β :=
  ⟨.create firstGen.toNat blank,place,[],[],[]⟩

section
variable (t : HandleTable α)

def nextIdx : Nat := t.free.headD (t.size % 2^32)

def grown : HandleTable α :=
  if t.free = [] then
    { t with
      size := t.size+1
      slots := update t.slots t.size { t.slots t.size with gen := t.firstGen, alive := false } }
  else t

def nextHandle : Handle := ⟨nextIdx t,((grown t).slots (nextIdx t)).gen⟩

def emplace (x : α) : HandleTable α :=
  { grown t with
    slots := update (grown t).slots (nextIdx t) ⟨(nextHandle t).gen,true,x⟩
    free := t.free.tail
    live := t.live+1 }
end

inductive Op (α β : Type*)
  | emplace (object : α) (place : β)
  | release (h : Handle)
  | reclaim
  | get (h : Handle)

def get (s : Slab α β) (h : Handle) : Option (α × β) := (s.table.get h).map fun x => (x,s.place h.idx)

def placed (s : Slab α β) (place : β) : Nat → β :=
  if s.table.free = [] then update s.place s.table.size place else s.place

def step (s : Slab α β) : Op α β → Slab α β
  | .emplace x place =>
    { s with
      table := emplace s.table x
      place := s.placed place
      issued := (nextHandle s.table,x,s.placed place (nextIdx s.table))::s.issued }
  | .release h =>
    if s.table.holds h then
      { s with table := s.table.release h, released := h::s.released, recent := h.idx::s.recent }
    else { s with table := s.table.release h }
  | .reclaim => { s with table := s.table.reclaim, recent := [] }
  | .get _ => s

def Narrow (s : Slab α β) : Op α β → Prop
  | .emplace _ _ => s.table.free = [] → s.table.size < 2^32
  | _ => True

def releases (s : Slab α β) (i : Nat) : Nat := s.released.countP (·.idx = i)

variable {t : HandleTable α}

lemma nextIdx_eq (narrow : t.free = [] → t.size < 2^32) : nextIdx t = t.nextIdx := by
  unfold nextIdx HandleTable.nextIdx
  cases list : t.free with
  | nil => exact mod_eq_of_lt (narrow list)
  | cons => rfl

lemma nextIdx_grows (empty : t.free = []) : t.nextIdx = t.size := by
  rw [HandleTable.nextIdx,empty]
  rfl

lemma nextHandle_eq (narrow : t.free = [] → t.size < 2^32) : nextHandle t = t.nextHandle := by
  unfold nextHandle HandleTable.nextHandle grown
  rw [nextIdx_eq narrow]
  split
  next empty =>
    rw [nextIdx_grows empty]
    simp
  · rfl

lemma emplace_eq (narrow : t.free = [] → t.size < 2^32) (x : α) : emplace t x = (t.emplace x).2 := by
  unfold emplace HandleTable.emplace
  rw [nextIdx_eq narrow,nextHandle_eq narrow]
  unfold grown
  split
  next empty => rw [nextIdx_grows empty,update_idem]
  · rfl

section
variable (first k : Nat)

/-- The generation of a slot after `k` releases: the counter skips zero. -/
def generation : Nat := (first-1+k) % (2^32-1)+1

lemma generation_zero (positive : first ≠ 0) (word : first < 2^32) : generation first 0 = first := by
  unfold generation
  omega

lemma nextGen_generation : HandleTable.nextGen (generation first k) = generation first (k+1) := by
  unfold HandleTable.nextGen generation
  split <;> omega

lemma generation_injective {j : Nat} (few : j < 2^32-1) (few' : k < 2^32-1)
    (same : generation first j = generation first k) : j = k := by
  unfold generation at same
  omega
end

/-- What holds of the slots along a run: each is alive or waits in one of the two queues, and
its generation tells how often it was released. -/
structure Kept (first : Nat) (s : Slab α β) : Prop where
  wf : s.table.Wf
  seed : s.table.firstGen = generation first 0
  covered : ∀ i < s.table.size, s.table.alive i ∨ i ∈ s.table.deferred ∨ i ∈ s.table.free
  live : s.table.live = ((Finset.range s.table.size).filter fun i => s.table.alive i).card
  recent : ∀ i, i ∈ s.table.deferred ↔ i ∈ s.recent
  gen : ∀ i < s.table.size, (s.table.slots i).gen = generation first (s.releases i)
  unreleased : ∀ i, s.table.size ≤ i → s.releases i = 0
  tracked : ∀ e ∈ s.issued, e.1.idx < s.table.size ∧ ∃ k, e.1.gen = generation first k ∧
    k < s.releases e.1.idx+if s.table.alive e.1.idx then 1 else 0
  known : ∀ h ∈ s.released, h ∈ s.issued.map fst

lemma create_kept (firstGen : BitVec 32) (blank : α) (place : Nat → β) :
    Kept (if firstGen.toNat = 0 then 1 else firstGen.toNat) (create firstGen blank place) where
  wf := create_wf _ _
  seed := by
    rw [generation_zero]
    · rfl
    · split <;> omega
    · split <;> omega
  covered := nofun
  live := rfl
  recent _ := Iff.rfl
  gen := nofun
  unreleased _ _ := rfl
  tracked := nofun
  known := nofun

section
variable {first : Nat} {s : Slab α β}

lemma emplace_size (t : HandleTable α) (x : α) : (t.emplace x).2.size = if t.free = [] then t.size+1 else t.size := rfl

lemma nextIdx_lt {t : HandleTable α} (wf : t.Wf) (x : α) : t.nextIdx < (t.emplace x).2.size := by
  rw [emplace_size]
  split
  next empty =>
    rw [nextIdx_grows empty]
    omega
  next some' =>
  obtain ⟨i,_,list⟩ := exists_cons_of_ne_nil some'
  rw [HandleTable.nextIdx,list]
  exact (wf.dead i (.inl (by simp [list]))).1

lemma lt_emplace_size {t : HandleTable α} (wf : t.Wf) (x : α) (i : Nat) :
    i < (t.emplace x).2.size ↔ i < t.size ∨ i = t.nextIdx := by
  have inside := nextIdx_lt wf x
  rw [emplace_size] at inside ⊢
  split at inside
  next empty =>
    rw [if_pos empty,nextIdx_grows empty]
    omega
  next some' =>
  rw [if_neg some']
  constructor
  · exact .inl
  rintro (old | rfl)
  · exact old
  · exact inside

lemma Kept.nextGen (kept : Kept first s) : s.table.nextHandle.gen = generation first (s.releases s.table.nextIdx) := by
  unfold HandleTable.nextHandle
  simp only
  split
  next empty => rw [nextIdx_grows empty,kept.unreleased _ (le_rfl),kept.seed]
  next some' =>
  obtain ⟨i,_,list⟩ := exists_cons_of_ne_nil some'
  apply kept.gen
  rw [HandleTable.nextIdx,list]
  exact (kept.wf.dead i (.inl (by simp [list]))).1

lemma emplace_live (kept : Kept first s) (x : α) : (s.table.emplace x).2.live =
    ((Finset.range (s.table.emplace x).2.size).filter fun i => (s.table.emplace x).2.alive i).card := by
  have dead := nextIdx_dead kept.wf
  have alive : ((Finset.range (s.table.emplace x).2.size).filter fun i => (s.table.emplace x).2.alive i) =
      insert s.table.nextIdx ((Finset.range s.table.size).filter fun i => s.table.alive i) := by
    ext i
    rw [Finset.mem_filter,Finset.mem_insert,Finset.mem_filter,Finset.mem_range,Finset.mem_range,
      lt_emplace_size kept.wf,emplace_alive]
    by_cases here : i = s.table.nextIdx <;> simp [here]
  rw [alive,Finset.card_insert_of_notMem (by simp [dead]),← kept.live]
  rfl

lemma emplace_kept (kept : Kept first s) (x : α) (place : β)
    (narrow : s.Narrow (.emplace x place)) : Kept first (s.step (.emplace x place)) := by
  have table : (s.step (.emplace x place)).table = (s.table.emplace x).2 := emplace_eq narrow x
  have handle : nextHandle s.table = s.table.nextHandle := nextHandle_eq narrow
  constructor
  · rw [table]
    exact emplace_wf kept.wf x
  · rw [table]
    exact kept.seed
  · rw [table]
    intro i inside
    rw [emplace_alive]
    rcases (lt_emplace_size kept.wf x i).1 inside with old | rfl
    · split
      · exact .inl rfl
      next other =>
      rcases kept.covered i old with alive | deferred | free
      · exact .inl alive
      · exact .inr (.inl deferred)
      refine .inr (.inr ?_)
      change i ∈ s.table.free.tail
      cases list : s.table.free with
      | nil => simp [list] at free
      | cons =>
        rw [list] at free
        rcases mem_cons.1 free with same | there
        · rw [HandleTable.nextIdx,list] at other
          exact absurd same other
        · exact there
    · exact .inl (by rw [if_pos rfl])
  · rw [table]
    exact emplace_live kept x
  · rw [table]
    exact kept.recent
  · rw [table]
    intro i inside
    rw [emplace_slots]
    rcases (lt_emplace_size kept.wf x i).1 inside with old | rfl
    · split
      next here =>
        rw [here]
        exact kept.nextGen
      · exact kept.gen i old
    rw [if_pos rfl]
    exact kept.nextGen
  · rw [table]
    intro i outside
    apply kept.unreleased
    rw [emplace_size] at outside
    split at outside <;> omega
  · rw [table]
    intro e member
    rcases mem_cons.1 member with rfl | old
    · rw [handle]
      refine ⟨nextIdx_lt kept.wf x,_,kept.nextGen,?_⟩
      change s.releases s.table.nextIdx < s.releases s.table.nextIdx+
        if (s.table.emplace x).2.alive s.table.nextIdx then 1 else 0
      rw [emplace_alive,if_pos rfl]
      exact Nat.lt_succ_self _
    obtain ⟨inside,k,gen,bound⟩ := kept.tracked e old
    refine ⟨(lt_emplace_size kept.wf x _).2 (.inl inside),k,gen,Nat.lt_of_lt_of_le bound ?_⟩
    apply Nat.add_le_add_left
    rw [emplace_alive]
    split <;> split <;> simp_all
  · intro h member
    exact mem_cons_of_mem _ (kept.known h member)
end
section
variable {first : Nat} {s : Slab α β}

lemma releases_cons (s : Slab α β) (h : Handle) (table : HandleTable α) (recent : List Nat) (i : Nat) :
    releases { s with table := table, released := h::s.released, recent := recent } i =
      s.releases i+if h.idx = i then 1 else 0 := by
  simp [releases,countP_cons]

lemma release_live {t : HandleTable α} {h : Handle} (held : t.holds h)
    (live : t.live = ((Finset.range t.size).filter fun i => t.alive i).card) :
    (t.release h).live = ((Finset.range (t.release h).size).filter fun i => (t.release h).alive i).card := by
  obtain ⟨_,inside,alive,_⟩ := (holds_iff t h).1 held
  have left : ((Finset.range (t.release h).size).filter fun i => (t.release h).alive i) =
      ((Finset.range t.size).filter fun i => t.alive i).erase h.idx := by
    ext i
    rw [Finset.mem_erase,Finset.mem_filter,Finset.mem_filter,release_size, release_alive]
    by_cases here : i = h.idx
    · simp [here,held]
    · simp [here]
  rw [left,Finset.card_erase_of_mem (by simp [inside,alive]),← live]
  simp [HandleTable.release,held]

lemma release_kept (kept : Kept first s) {h : Handle} (held : s.table.holds h)
    (issued : h ∈ s.issued.map fst) : Kept first (s.step (.release h)) := by
  obtain ⟨_,_,alive,own⟩ := (holds_iff s.table h).1 held
  have next : s.step (.release h) = { s with
      table := s.table.release h, released := h::s.released, recent := h.idx::s.recent } :=
    if_pos held
  have deferred : (s.table.release h).deferred = s.table.deferred++[h.idx] := by simp [HandleTable.release,held]
  have free : (s.table.release h).free = s.table.free := by simp [HandleTable.release,held]
  rw [next]
  refine ⟨release_wf kept.wf h,?_,?_,release_live held kept.live,?_,?_,?_,?_,?_⟩
  · simpa [HandleTable.release,held] using kept.seed
  · intro i bound
    rw [release_size] at bound
    rw [release_alive,deferred,free,mem_append,mem_singleton]
    by_cases here : i = h.idx
    · exact .inr (.inl (.inr here))
    rw [if_neg fun both => here both.2]
    rcases kept.covered i bound with alive | waiting | free
    · exact .inl alive
    · exact .inr (.inl (.inl waiting))
    · exact .inr (.inr free)
  · intro i
    rw [deferred,mem_append,mem_singleton,mem_cons,kept.recent,or_comm]
  · intro i bound
    rw [release_size] at bound
    rw [releases_cons,release_slots]
    by_cases here : i = h.idx
    · subst here
      rw [if_pos ⟨held,rfl⟩,if_pos rfl,← nextGen_generation,← kept.gen _ bound,own]
    rw [if_neg fun both => here both.2,if_neg fun same => here same.symm,Nat.add_zero]
    exact kept.gen i bound
  · intro i outside
    rw [release_size] at outside
    rw [releases_cons,kept.unreleased i outside,if_neg]
    rintro rfl
    omega
  · intro e member
    obtain ⟨bound,k,gen,early⟩ := kept.tracked e member
    rw [release_size,releases_cons,release_alive]
    refine ⟨bound,k,gen,?_⟩
    by_cases here : e.1.idx = h.idx
    · rw [here,alive] at early
      simpa [here,held] using early
    · simpa [here,Ne.symm here] using early
  intro g member
  rcases mem_cons.1 member with rfl | old
  · exact issued
  · exact kept.known g old

lemma reclaim_kept (kept : Kept first s) : Kept first (s.step .reclaim) :=
  { kept with
    wf := reclaim_wf kept.wf
    covered i bound := by
      rcases kept.covered i bound with alive | deferred | free
      · exact .inl alive
      · exact .inr (.inr (mem_append_left _ (mem_reverse.2 deferred)))
      · exact .inr (.inr (mem_append_right _ free))
    recent _ := Iff.rfl }
end

/-- The table maps the handles issued and not released to their objects, in place; a slot is in one of three states; and
one just released is not handed out. -/
structure Refines (s : Slab α β) : Prop where
  get : ∀ h x p, s.get h = some (x,p) ↔ (h,x,p) ∈ s.issued ∧ h ∉ s.released
  distinct : (s.issued.map fst).Nodup
  partition : ∀ i < s.table.size, s.table.alive i = true ∧ i ∉ s.table.deferred ∧ i ∉ s.table.free ∨
    s.table.alive i = false ∧ i ∈ s.table.deferred ∧ i ∉ s.table.free ∨
    s.table.alive i = false ∧ i ∉ s.table.deferred ∧ i ∈ s.table.free
  queued : s.table.deferred.Nodup ∧ s.table.free.Nodup
  size : s.table.live = ((Finset.range s.table.size).filter fun i => s.table.alive i).card
  held : (s.table.free = [] → s.table.size < 2^32) → nextIdx s.table ∉ s.recent

structure Maps (s : Slab α β) : Prop where
  get : ∀ h x p, s.get h = some (x,p) ↔ (h,x,p) ∈ s.issued ∧ h ∉ s.released
  distinct : (s.issued.map fst).Nodup

section
variable {first : Nat} {s : Slab α β}

lemma emplace_get {t : HandleTable α} (wf : t.Wf) (x : α) (h : Handle) :
    (t.emplace x).2.get h = if h = t.nextHandle then some x else t.get h := by
  split
  next own =>
    rw [own,get_eq_some,emplace_node]
    exact ⟨emplace_holds_new wf x,if_pos rfl⟩
  next other =>
  have same := emplace_holds wf x h
  unfold HandleTable.get
  by_cases held : t.holds h
  · have apart : h.idx ≠ t.nextIdx := by
      intro here
      have alive := ((holds_iff t h).1 held).2.2.1
      rw [here,nextIdx_dead wf] at alive
      cases alive
    rw [if_pos (same.2 (.inr held)),if_pos held,emplace_node,if_neg apart]
  · rw [if_neg held,if_neg fun after => held ((same.1 after).resolve_left other)]

lemma release_get (t : HandleTable α) (h g : Handle) : (t.release h).get g = if g = h then none else t.get g := by
  have holds := release_holds t h g
  unfold HandleTable.get
  rw [release_node]
  by_cases same : g = h
  · rw [if_pos same,if_neg fun after => (holds.1 after).2 same]
  rw [if_neg same]
  by_cases held : t.holds g
  · rw [if_pos held,if_pos (holds.2 ⟨held,same⟩)]
  · rw [if_neg held,if_neg fun after => held (holds.1 after).1]

lemma Kept.fresh (kept : Kept first s) (few : ∀ i, s.releases i < 2^32-1) : s.table.nextHandle ∉ s.issued.map fst := by
  intro issued
  obtain ⟨e,member,same⟩ := mem_map.1 issued
  obtain ⟨_,k,gen,early⟩ := kept.tracked e member
  have idx : e.1.idx = s.table.nextIdx := congrArg Handle.idx same
  rw [idx,nextIdx_dead kept.wf] at early
  have last := few s.table.nextIdx
  have equal : generation first k = generation first (s.releases s.table.nextIdx) := by
    rw [← gen,same,kept.nextGen]
  have past : k < s.releases s.table.nextIdx := by simpa using early
  exact Nat.ne_of_lt past (generation_injective first _ (Nat.lt_trans past last) last equal)

lemma emplace_maps (maps : Maps s) (kept : Kept first s) (few : ∀ i, s.releases i < 2^32-1)
    (x : α) (place : β) (narrow : s.Narrow (.emplace x place)) : Maps (s.step (.emplace x place)) := by
  have table : (s.step (.emplace x place)).table = (s.table.emplace x).2 := emplace_eq narrow x
  have handle : nextHandle s.table = s.table.nextHandle := nextHandle_eq narrow
  have index : nextIdx s.table = s.table.nextIdx := nextIdx_eq narrow
  have fresh := kept.fresh few
  have stays : ∀ i < s.table.size, s.placed place i = s.place i := by
    intro i _
    unfold placed
    split
    · exact update_of_ne (by omega) _ _
    · rfl
  constructor
  · intro h y p
    unfold Slab.get
    rw [table,emplace_get kept.wf]
    change _ ↔ (h,y,p) ∈ (nextHandle s.table,x,s.placed place (nextIdx s.table))::s.issued ∧ _
    rw [handle,index,mem_cons]
    by_cases own : h = s.table.nextHandle
    · subst own
      rw [if_pos rfl]
      have unknown : ∀ y p, (s.table.nextHandle,y,p) ∉ s.issued := fun y p there => fresh (mem_map.2 ⟨_,there,rfl⟩)
      have live : s.table.nextHandle ∉ s.released := fun gone => fresh (kept.known _ gone)
      constructor
      · intro here
        cases here
        exact ⟨.inl rfl,live⟩
      rintro ⟨here | there,_⟩
      · cases here
        rfl
      · exact absurd there (unknown y p)
    rw [if_neg own]
    have old := maps.get h y p
    have other : (h,y,p) ≠ (s.table.nextHandle,x,s.placed place s.table.nextIdx) := fun equal =>
      own (congrArg fst equal)
    rw [or_iff_right other]
    refine Iff.trans ?_ old
    unfold Slab.get
    cases found : s.table.get h with
    | none => rfl
    | some z =>
      have inside := ((holds_iff _ _).1 ((get_eq_some _ _ _).1 found).1).2.1
      change some (z,s.placed place h.idx) = _ ↔ some (z,s.place h.idx) = _
      rw [stays _ inside]
  · change ((nextHandle s.table)::s.issued.map fst).Nodup
    rw [handle]
    exact nodup_cons.2 ⟨fresh,maps.distinct⟩

variable {h : Handle}

lemma release_maps (maps : Maps s) (held : s.table.holds h) : Maps (s.step (.release h)) := by
  have next : s.step (.release h) = { s with
      table := s.table.release h, released := h::s.released, recent := h.idx::s.recent } :=
    if_pos held
  rw [next]
  refine ⟨?_,maps.distinct⟩
  intro g y p
  have old := maps.get g y p
  unfold Slab.get at old ⊢
  rw [release_get,mem_cons,not_or]
  by_cases same : g = h
  · simp [same]
  rw [if_neg same,old]
  simp [same]

lemma release_stale (stale : ¬ s.table.holds h) : s.step (.release h) = s := by
  rw [step,if_neg stale,HandleTable.release,if_neg stale]

lemma Maps.issued (maps : Maps s) (held : s.table.holds h) : h ∈ s.issued.map fst := by
  have found : s.get h = some (s.table.node h.idx,s.place h.idx) := by
    unfold Slab.get
    rw [(get_eq_some s.table h _).2 ⟨held,rfl⟩]
    rfl
  exact mem_map.2 ⟨_,((maps.get _ _ _).1 found).1,rfl⟩
end
variable {first : Nat} {s : Slab α β}

lemma releases_step (s : Slab α β) (op : Op α β) (i : Nat) : s.releases i ≤ (s.step op).releases i := by
  cases op with
  | emplace | reclaim | get => exact le_rfl
  | release =>
    rw [step]
    split
    · rw [releases_cons]
      exact le_add_right _ _
    · exact le_rfl

lemma step_maps (both : (∀ i, s.releases i < 2^32-1) → Kept first s ∧ Maps s) (op : Op α β) (narrow : s.Narrow op)
    (few : ∀ i, (s.step op).releases i < 2^32-1) : Kept first (s.step op) ∧ Maps (s.step op) := by
  have before : ∀ i, s.releases i < 2^32-1 := fun i => lt_of_le_of_lt (releases_step s op i) (few i)
  obtain ⟨kept,maps⟩ := both before
  cases op with
  | emplace x place => exact ⟨emplace_kept kept x place narrow,emplace_maps maps kept before x place narrow⟩
  | release h =>
    by_cases held : s.table.holds h
    · exact ⟨release_kept kept held (maps.issued held),release_maps maps held⟩
    rw [release_stale held]
    exact ⟨kept,maps⟩
  | reclaim => exact ⟨reclaim_kept kept,maps.get,maps.distinct⟩
  | get => exact ⟨kept,maps⟩

lemma create_maps (firstGen : BitVec 32) (blank : α) (place : Nat → β) : Maps (create firstGen blank place) := by
  refine ⟨?_,nodup_nil⟩
  intro h x p
  have empty : (create firstGen blank place).table.holds h = false := by
    simp [create,HandleTable.create,HandleTable.holds]
  simp [Slab.get,HandleTable.get,empty]
  intro there
  cases there

lemma Kept.refines (kept : Kept first s) (maps : Maps s) : Refines s := by
  have nodup := nodup_append.1 kept.wf.nodup
  have apart : ∀ i, i ∈ s.table.deferred → i ∉ s.table.free := fun i deferred free =>
    nodup.2.2 i (mem_reverse.2 deferred) i free rfl
  refine ⟨maps.get,maps.distinct,?_,⟨nodup_reverse.1 nodup.1,nodup.2.1⟩,kept.live,?_⟩
  · intro i bound
    cases alive : s.table.alive i with
    | true =>
      refine .inl ⟨rfl,fun deferred => ?_,fun free => ?_⟩
      · exact absurd (kept.wf.dead i (.inr deferred)).2 (by simp [alive])
      · exact absurd (kept.wf.dead i (.inl free)).2 (by simp [alive])
    | false =>
      rcases kept.covered i bound with live | deferred | free
      · exact absurd live (by simp [alive])
      · exact .inr (.inl ⟨rfl,deferred,apart i deferred⟩)
      · exact .inr (.inr ⟨rfl,fun deferred => apart i deferred free,free⟩)
  intro narrow recent
  rw [nextIdx_eq narrow,← kept.recent] at recent
  cases list : s.table.free with
  | nil =>
    have inside := (kept.wf.dead _ (.inr recent)).1
    rw [nextIdx_grows list] at inside
    omega
  | cons i rest =>
    rw [HandleTable.nextIdx,list] at recent
    exact apart i recent (by simp [list])

/-- Within the width of an index, and with no slot released as often as a generation has values, the table is a map from
live handles to their objects. -/
theorem handles_refine {firstGen : BitVec 32} {blank : α} {place : Nat → β} {ops : List (Op α β)}
    {s : Slab α β}
    (run : Exec (Guarded (fun s op t => step s op = t) Narrow) (create firstGen blank place) ops s)
    (few : ∀ i, s.releases i < 2^32-1) : Refines s := by
  have both := run.invariant (fun s => (∀ i, s.releases i < 2^32-1) →
      Kept (if firstGen.toNat = 0 then 1 else firstGen.toNat) s ∧ Maps s)
    (fun s op t head both few => by
      obtain ⟨narrow,rfl⟩ := head
      exact step_maps both op narrow few)
    (fun _ => ⟨create_kept firstGen blank place,create_maps firstGen blank place⟩) few
  exact both.1.refines both.2

theorem reused_refines : ∃ s : Slab Nat Nat, s.get ⟨0,1⟩ = none ∧ s.get ⟨0,2⟩ = some (8,0) ∧ Refines s := by
  let ops : List (Op Nat Nat) := [.emplace 7 0,.release ⟨0,1⟩,.reclaim,.emplace 8 0]
  have run : Exec (Guarded (fun s op t => step s op = t) Narrow) (create 1 0 id) ops
      (ops.foldl step (create 1 0 id)) := by
    refine .cons _ _ _ _ _ ⟨fun _ => by decide,rfl⟩ (.cons _ _ _ _ _ ⟨trivial,rfl⟩
      (.cons _ _ _ _ _ ⟨trivial,rfl⟩ (.cons _ _ _ _ _ ⟨fun _ => by decide,rfl⟩ (.nil _))))
  refine ⟨_,by decide,by decide,handles_refine run fun i => ?_⟩
  have once : (ops.foldl step (create 1 0 id)).released = [⟨0,1⟩] := by decide
  rw [releases,once,countP_cons,countP_nil]
  split <;> omega

structure Filled (n : Nat) (s : Slab Nat β) : Prop where
  size : s.table.size = n
  free : s.table.free = []
  seed : s.table.firstGen = 1
  released : s.released = []
  root : 0 < n → s.table.slots 0 = ⟨1,true,0⟩ ∧ ⟨0,1⟩ ∈ s.issued.map fst

section
variable {n : Nat} {s : Slab Nat β}

lemma Filled.handle (filled : Filled n s) (small : n < 2^32) : nextHandle s.table = ⟨n,1⟩ := by
  rw [nextHandle_eq fun _ => by rw [filled.size]; exact small,HandleTable.nextHandle,
    nextIdx_grows filled.free,filled.size,if_pos filled.free,filled.seed]

lemma Filled.step (filled : Filled n s) (small : n < 2^32) (place : β) : Filled (n+1) (s.step (.emplace n place)) := by
  have table : (s.step (.emplace n place)).table = (s.table.emplace n).2 :=
    emplace_eq (fun _ => by rw [filled.size]; exact small) n
  have index : s.table.nextIdx = n := (nextIdx_grows filled.free).trans filled.size
  refine ⟨?_,?_,?_,filled.released,fun _ => ⟨?_,?_⟩⟩
  · rw [table,emplace_size,if_pos filled.free,filled.size]
  · rw [table]
    change s.table.free.tail = []
    rw [filled.free]
    rfl
  · rw [table]
    exact filled.seed
  · rw [table,emplace_slots,index,HandleTable.nextHandle,if_pos filled.free,filled.seed]
    split
    next first => rw [← first]
    · exact (filled.root (by omega)).1
  change ⟨0,1⟩ ∈ nextHandle s.table::s.issued.map fst
  rw [filled.handle small]
  cases n with
  | zero => exact mem_cons_self
  | succ n => exact mem_cons_of_mem _ (filled.root (succ_pos n)).2
end

lemma filled_run (n : Nat) (small : n ≤ 2^32) :
    ∃ ops, ∃ s : Slab Nat Nat, Exec (fun s op t => step s op = t) (create 1 0 id) ops s ∧ Filled n s := by
  induction n with
  | zero => exact ⟨[],_,.nil _,rfl,rfl,rfl,rfl,nofun⟩
  | succ n ih =>
    obtain ⟨ops,s,run,filled⟩ := ih (by omega)
    exact ⟨ops++[.emplace n n],_,run.append (.cons _ _ _ _ _ rfl (.nil _)), filled.step (by omega) n⟩

theorem cut_index_aliases : ∃ ops, ∃ s : Slab Nat Nat,
    Exec (fun s op t => step s op = t) (create 1 0 id) ops s ∧
      (∀ i, s.releases i = 0) ∧ ¬ (s.issued.map fst).Nodup := by
  obtain ⟨ops,s,run,filled⟩ := filled_run (2^32) (le_rfl)
  have handle : nextHandle s.table = ⟨0,1⟩ := by
    have index : nextIdx s.table = 0 := by
      rw [nextIdx,filled.free,filled.size]
      rfl
    have gen : ((grown s.table).slots 0).gen = 1 := by
      rw [grown,if_pos filled.free]
      change (update s.table.slots s.table.size _ 0).gen = 1
      rw [filled.size,update_of_ne (by decide),(filled.root (by decide)).1]
    rw [nextHandle,index,gen]
  refine ⟨ops++[.emplace 0 0],_,run.append (.cons _ _ _ _ _ rfl (.nil _)),?_,?_⟩
  · intro i
    change s.released.countP _ = 0
    rw [filled.released]
    rfl
  change ¬ (nextHandle s.table::s.issued.map fst).Nodup
  rw [handle,nodup_cons]
  exact fun distinct => distinct.1 (filled.root (by decide)).2

end Slab
end AffiniX
