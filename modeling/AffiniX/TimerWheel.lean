import Mathlib

/-! The hierarchical timer wheel: four levels of 256 buckets, 64-bit ticks. -/
namespace AffiniX
open Function List

/-- A `TimerNode*`: the slot of the handle table that the node lives in. -/
abbrev NodeRef := Nat

abbrev Bucket := Nat × Nat

structure TimerWheel where
  tick : Int
  nowTick : Nat
  primed : Bool
  count : Nat
  maxTicksPerCall : Nat
  buckets : Bucket → List NodeRef
  link : NodeRef → Option Bucket

namespace TimerWheel
def levels : Nat := 4
def slots : Nat := 256

def create (tick : Int) : TimerWheel := ⟨tick,0,false,0,4096,fun _ => [],fun _ => none⟩

def toU64 (z : Int) : Nat := (z % 2^64).toNat

variable (w : TimerWheel)

def tickOf (t : Int) : Nat := toU64 ((t + w.tick - 1).tdiv w.tick)

def floorTick (t : Int) : Nat := toU64 (t.tdiv w.tick)

def fits (expiryTick nowTick : Nat) : Bool :=
  decide (expiryTick ≤ nowTick) || (List.range levels).foldl (fun d _ => d / 256) (expiryTick - nowTick) == 0

/-- The loop `while (d >= kSlots) { d >>= 8; ++level; }`. A 64-bit distance leaves
it within eight rounds. -/
def levelOf : Nat → Nat → Nat
  | 0, _ => 0
  | fuel+1, d => if slots ≤ d then levelOf fuel (d / 256) + 1 else 0

def home (et nowTick : Nat) : Bucket := let level := levelOf 8 (et - nowTick)
  (level,et / 256^level % slots)

def listPushBack (b : Bucket) (n : NodeRef) : TimerWheel :=
  {w with
    buckets := update w.buckets b (w.buckets b ++ [n])
    link := update w.link n (some b)}

def listUnlink (n : NodeRef) : TimerWheel := match w.link n with
  | some b =>
    {w with
      buckets := update w.buckets b ((w.buckets b).erase n)
      link := update w.link n none}
  | none => w

def insertNode (n : NodeRef) (et nowTick : Nat) : TimerWheel := let w := w.listPushBack (home et nowTick) n
  {w with count := w.count+1}

section
variable (expiryTick : NodeRef → Nat)

def insert (n : NodeRef) : TimerWheel :=
  w.insertNode n (if expiryTick n > w.nowTick then expiryTick n else w.nowTick+1) w.nowTick

def pull (n : NodeRef) : TimerWheel := let w := w.listUnlink n
  {w with count := w.count-1}

def unlink (n : NodeRef) : TimerWheel := if (w.link n).isSome then w.pull n else w

def bucketNodes : List NodeRef := (List.range levels ×ˢ List.range slots).flatMap w.buckets

/-- The first `advance` anchors the epoch and places every queued node anew. -/
def prime (target : Nat) : TimerWheel := let hold := w.bucketNodes
  let minEt := if target ≠ 0 then target else 1
  let w := {w with
    primed := true
    buckets := fun _ => []
    link := fun _ => none
    count := 0
    nowTick := if target ≠ 0 then target-1 else 0}
  hold.foldl (fun w n => w.insertNode n (if expiryTick n > minEt then expiryTick n else minEt) w.nowTick) w

def cascadeNode (b : Bucket) (w : TimerWheel) (n : NodeRef) : TimerWheel :=
  let et := if expiryTick n > w.nowTick then expiryTick n else w.nowTick
  if home et w.nowTick ≠ b then (w.pull n).insertNode n et w.nowTick else w

def cascade (level : Nat) : TimerWheel := let b : Bucket := (level,w.nowTick / 256^level % slots)
  (w.buckets b).foldl (cascadeNode expiryTick b) w

def step : TimerWheel :=
  [1,2,3].foldl (fun w l =>
    if w.nowTick % (slots * 256^(l-1)) = 0 then w.cascade expiryTick l else w)
    {w with nowTick := w.nowTick+1}
end

structure Host (σ : Type*) where
  wheel : σ → TimerWheel
  setWheel : σ → TimerWheel → σ
  expiryTick : σ → NodeRef → Nat

section
variable {σ : Type*} (H : Host σ) (fire : σ → NodeRef → σ)

/-- The loop over one level-0 slot. Nothing is inserted into the slot while it
drains, so its length on entry bounds the rounds. -/
def expireSlot (slot : Nat) : Nat → σ → σ
  | 0, s => s
  | fuel+1, s =>
    match (H.wheel s).buckets (0,slot) with
    | [] => s
    | n::_ =>
      let w := (H.wheel s).pull n
      if H.expiryTick s n > w.nowTick then
        expireSlot slot fuel (H.setWheel s (w.insert (H.expiryTick s) n))
      else expireSlot slot fuel (fire (H.setWheel s w) n)

def advanceStep (s : σ) : σ := let s := H.setWheel s ((H.wheel s).step (H.expiryTick s))
  let slot := (H.wheel s).nowTick % slots
  expireSlot H fire slot ((H.wheel s).buckets (0,slot)).length s

def advanceLoop (target : Nat) : Nat → σ → σ
  | 0, s => s
  | fuel+1, s => if (H.wheel s).nowTick < target then advanceLoop target fuel (advanceStep H fire s) else s

def advance (target : Nat) (s : σ) : σ :=
  let s := if (H.wheel s).primed then s
    else H.setWheel s ((H.wheel s).prime (H.expiryTick s) target)
  if (H.wheel s).count = 0 then
    if target > (H.wheel s).nowTick then H.setWheel s {H.wheel s with nowTick := target} else s
  else advanceLoop H fire target (H.wheel s).maxTicksPerCall s
end

/-- The lists and the links agree, no node is in two lists or twice in one, every
list is one of the wheel's, and `count` counts the linked nodes. -/
structure Wf (w : TimerWheel) : Prop where
  mem : ∀ b n, n ∈ w.buckets b ↔ w.link n = some b
  nodup : ∀ b, (w.buckets b).Nodup
  range : ∀ n b, w.link n = some b → b.1 < levels ∧ b.2 < slots
  count : w.count = w.bucketNodes.length

lemma create_wf (tick : Int) : (create tick).Wf := by
  refine ⟨by simp [create],by simp [create],by simp [create],?_⟩
  simp [create,bucketNodes]

private lemma flatMap_swap_one {ι α : Type*} [DecidableEq ι] (keys : List ι) (nodup : keys.Nodup)
    (k : ι) (member : k ∈ keys) (f g : ι → List α) (x : α) (same : ∀ j, j ≠ k → g j = f j)
    (own : (g k).Perm (x::f k)) : (keys.flatMap g).Perm (x::keys.flatMap f) := by
  induction keys with
  | nil => simp at member
  | cons key rest ih =>
    have split := nodup_cons.mp nodup
    rw [flatMap_cons,flatMap_cons]
    by_cases here : key = k
    · subst here
      have tail : rest.flatMap g = rest.flatMap f :=
        flatMap_congr (fun j inside => same j (fun equal => split.1 (equal ▸ inside)))
      rw [tail]
      exact own.append_right _
    rw [same key here]
    have later : k ∈ rest := (mem_cons.mp member).resolve_left (fun equal => here equal.symm)
    exact ((ih split.2 later).append_left _).trans perm_middle

private lemma bucket_keys (b : Bucket) (level : b.1 < levels) (slot : b.2 < slots) :
    b ∈ (List.range levels ×ˢ List.range slots) := by
  exact mem_product.mpr ⟨mem_range.mpr level,mem_range.mpr slot⟩

private lemma keys_nodup : (List.range levels ×ˢ List.range slots).Nodup := nodup_range.product nodup_range

variable {w : TimerWheel} {n : NodeRef}

lemma Wf.mem_bucketNodes (wf : w.Wf) (n : NodeRef) : n ∈ w.bucketNodes ↔ (w.link n).isSome = true := by
  unfold bucketNodes
  rw [mem_flatMap]
  constructor
  · rintro ⟨b,_,member⟩
    simp [(wf.mem b n).mp member]
  intro linked
  obtain ⟨b,equal⟩ := Option.isSome_iff_exists.mp linked
  obtain ⟨level,slot⟩ := wf.range n b equal
  exact ⟨b,bucket_keys b level slot,(wf.mem b n).mpr equal⟩

lemma Wf.nodup_bucketNodes (wf : w.Wf) : w.bucketNodes.Nodup := by
  refine nodup_flatMap.mpr ⟨fun b _ => wf.nodup b,keys_nodup.imp ?_⟩
  intro a b apart n left right
  have first := (wf.mem a n).mp left
  rw [(wf.mem b n).mp right] at first
  exact apart (Option.some.inj first).symm

@[simp] lemma listPushBack_link (w : TimerWheel) (b : Bucket) (n m : NodeRef) :
    (w.listPushBack b n).link m = if m = n then some b else w.link m :=
  update_apply _ _ _ _

lemma Wf.pushBack (wf : w.Wf) {b : Bucket} (fresh : w.link n = none) (level : b.1 < levels) (slot : b.2 < slots) :
    Wf {w.listPushBack b n with count := w.count+1} := by
  have absent : n ∉ w.buckets b := fun member => by
    have := (wf.mem b n).mp member
    rw [fresh] at this
    contradiction
  constructor
  · intro a m
    change m ∈ update w.buckets b (w.buckets b ++ [n]) a ↔ (w.listPushBack b n).link m = some a
    rw [update_apply,listPushBack_link]
    by_cases bucket : a = b <;> by_cases own : m = n
    · simp [bucket,own]
    · simp [bucket,own,wf.mem]
    · subst own
      rw [if_neg bucket,if_pos rfl,wf.mem a m,fresh]
      simp [Ne.symm bucket]
    · rw [if_neg bucket,if_neg own,wf.mem]
  · intro a
    change (update w.buckets b (w.buckets b ++ [n]) a).Nodup
    rw [update_apply]
    split
    · rw [nodup_append]
      refine ⟨wf.nodup b,by simp,?_⟩
      intro x inside y last
      rw [mem_singleton.mp last]
      exact fun equal => absent (equal ▸ inside)
    · exact wf.nodup a
  · intro m a linked
    rw [listPushBack_link] at linked
    split at linked
    · rw [← Option.some.inj linked]
      exact ⟨level,slot⟩
    · exact wf.range m a linked
  have perm := flatMap_swap_one _ keys_nodup b (bucket_keys b level slot) w.buckets
    (w.listPushBack b n).buckets n (fun a apart => update_of_ne apart _ _) (by
      change (update w.buckets b (w.buckets b ++ [n]) b).Perm _
      rw [update_self]
      exact perm_append_singleton n (w.buckets b))
  have := perm.length_eq
  change w.count+1 = ((List.range levels ×ˢ List.range slots).flatMap (w.listPushBack b n).buckets).length
  rw [this,wf.count]
  rfl

lemma listUnlink_link (w : TimerWheel) (n m : NodeRef) :
    (w.listUnlink n).link m = if m = n then none else w.link m := by
  unfold listUnlink
  split
  · exact update_apply _ _ _ _
  next unlinked =>
  split
  · next own => rw [own,unlinked]
  · rfl

@[simp] lemma pull_link (w : TimerWheel) (n m : NodeRef) : (w.pull n).link m = if m = n then none else w.link m :=
  listUnlink_link w n m

@[simp] lemma pull_count (w : TimerWheel) (n : NodeRef) : (w.pull n).count = w.count-1 := by
  unfold pull listUnlink
  split <;> rfl

lemma Wf.pull (wf : w.Wf) {b : Bucket} (linked : w.link n = some b) : (w.pull n).Wf := by
  obtain ⟨level,slot⟩ := wf.range n b linked
  have inside : n ∈ w.buckets b := (wf.mem b n).mpr linked
  have lists : (w.listUnlink n).buckets = update w.buckets b ((w.buckets b).erase n) := by simp [listUnlink,linked]
  constructor
  · intro a m
    change m ∈ (w.listUnlink n).buckets a ↔ (w.listUnlink n).link m = some a
    rw [lists,listUnlink_link,update_apply]
    by_cases bucket : a = b <;> by_cases own : m = n
    · subst own
      rw [if_pos bucket,if_pos rfl]
      simp [(wf.nodup b).mem_erase_iff]
    · rw [if_pos bucket,if_neg own,(wf.nodup b).mem_erase_iff,bucket,wf.mem]
      simp [own]
    · subst own
      rw [if_neg bucket,if_pos rfl,wf.mem,linked]
      simp [Ne.symm bucket]
    · rw [if_neg bucket,if_neg own,wf.mem]
  · intro a
    change ((w.listUnlink n).buckets a).Nodup
    rw [lists,update_apply]
    split
    · exact (wf.nodup b).erase n
    · exact wf.nodup a
  · intro m a found
    change (w.listUnlink n).link m = some a at found
    rw [listUnlink_link] at found
    split at found
    · contradiction
    · exact wf.range m a found
  have perm := flatMap_swap_one _ keys_nodup b (bucket_keys b level slot)
    (w.listUnlink n).buckets w.buckets n (fun a apart => by
      rw [lists,update_of_ne apart]) (by
      rw [lists,update_self]
      exact perm_cons_erase inside)
  have := perm.length_eq
  rw [pull_count,wf.count]
  change ((List.range levels ×ˢ List.range slots).flatMap w.buckets).length - 1 = _
  rw [this]
  rfl

lemma Wf.count_eq_zero (wf : w.Wf) : w.count = 0 ↔ ∀ n, w.link n = none := by
  rw [wf.count,length_eq_zero_iff,eq_nil_iff_forall_not_mem]
  simp [wf.mem_bucketNodes]

structure SameClock (w w' : TimerWheel) : Prop where
  tick : w'.tick = w.tick
  nowTick : w'.nowTick = w.nowTick
  primed : w'.primed = w.primed
  maxTicks : w'.maxTicksPerCall = w.maxTicksPerCall

lemma SameClock.refl (w : TimerWheel) : SameClock w w := ⟨rfl,rfl,rfl,rfl⟩

lemma SameClock.trans {u v : TimerWheel} (first : SameClock u v) (second : SameClock v w) : SameClock u w :=
  ⟨second.tick.trans first.tick,second.nowTick.trans first.nowTick,
    second.primed.trans first.primed,second.maxTicks.trans first.maxTicks⟩

section
variable (w : TimerWheel)

lemma pull_clock (n : NodeRef) : SameClock w (w.pull n) := by
  unfold pull listUnlink
  split <;> exact ⟨rfl,rfl,rfl,rfl⟩

lemma insertNode_clock (n : NodeRef) (et nowTick : Nat) : SameClock w (w.insertNode n et nowTick) := ⟨rfl,rfl,rfl,rfl⟩

lemma unlink_clock (n : NodeRef) : SameClock w (w.unlink n) := by
  unfold unlink
  split
  · exact pull_clock w n
  · exact .refl w

@[simp] lemma insertNode_link (n : NodeRef) (et nowTick : Nat) (m : NodeRef) :
    (w.insertNode n et nowTick).link m = if m = n then some (home et nowTick) else w.link m :=
  listPushBack_link w _ n m

@[simp] lemma unlink_link (n m : NodeRef) : (w.unlink n).link m = if m = n then none else w.link m := by
  unfold unlink
  split
  · exact pull_link w n m
  next unlinked =>
  split
  · next own => simpa [own] using unlinked
  · rfl
end

lemma Wf.unlink (wf : w.Wf) (n : NodeRef) : (w.unlink n).Wf := by
  unfold TimerWheel.unlink
  split
  · next linked =>
    obtain ⟨b,equal⟩ := Option.isSome_iff_exists.mp linked
    exact wf.pull equal
  · exact wf

private lemma levelOf_bounds (fuel k d : Nat) (rounds : k ≤ fuel) (some : k ≠ 0)
    (bound : d < 256^k) : levelOf fuel d < k ∧ d < 256^(levelOf fuel d+1) ∧
      (levelOf fuel d ≠ 0 → 256^levelOf fuel d ≤ d) := by
  induction fuel generalizing k d with
  | zero => omega
  | succ fuel ih =>
    unfold levelOf slots
    split
    · next =>
      obtain ⟨k,rfl⟩ := Nat.exists_eq_succ_of_ne_zero some
      have rest : d / 256 < 256^k := by
        rw [Nat.pow_succ] at bound
        omega
      have positive : k ≠ 0 := by
        rintro rfl
        omega
      obtain ⟨_,_,lower⟩ := ih k (d/256) (by omega) positive rest
      refine ⟨by omega,?_,fun _ => ?_⟩
      · rw [Nat.pow_succ]
        omega
      rw [Nat.pow_succ]
      by_cases zero : levelOf fuel (d/256) = 0
      · rw [zero]
        omega
      have := lower zero
      omega
    · exact ⟨by omega,by omega,fun impossible => absurd rfl impossible⟩

lemma levelOf_spec (d : Nat) (bound : d < 256^4) : levelOf 8 d < levels ∧
    d < 256^(levelOf 8 d+1) ∧ (levelOf 8 d ≠ 0 → 256^levelOf 8 d ≤ d) :=
  levelOf_bounds 8 4 d (by decide) (by decide) bound

lemma fits_iff (expiryTick nowTick : Nat) : fits expiryTick nowTick = true ↔ expiryTick - nowTick < 256^4 := by
  simp [fits,levels,range_succ]
  omega

lemma home_range (et nowTick : Nat) (bound : et - nowTick < 256^4) :
    (home et nowTick).1 < levels ∧ (home et nowTick).2 < slots :=
  ⟨(levelOf_spec _ bound).1,Nat.mod_lt _ (by decide)⟩

lemma Wf.insertNode (wf : w.Wf) (fresh : w.link n = none)
    (et nowTick : Nat) (bound : et - nowTick < 256^4) : (w.insertNode n et nowTick).Wf :=
  wf.pushBack fresh (home_range et nowTick bound).1 (home_range et nowTick bound).2

def target (expiryTick nowTick : Nat) : Nat := max expiryTick (nowTick+1)

lemma insert_eq (w : TimerWheel) (expiryTick : NodeRef → Nat) (n : NodeRef) :
    w.insert expiryTick n = w.insertNode n (target (expiryTick n) w.nowTick) w.nowTick := by
  unfold insert target
  congr 1
  split <;> omega

lemma target_distance (expiryTick nowTick : Nat) (bound : expiryTick - nowTick < 256^4) :
    target expiryTick nowTick - nowTick < 256^4 := by
  unfold target
  omega

lemma Wf.insert (wf : w.Wf) (fresh : w.link n = none) (expiryTick : NodeRef → Nat)
    (bound : expiryTick n - w.nowTick < 256^4) : (w.insert expiryTick n).Wf := by
  rw [insert_eq]
  exact wf.insertNode fresh _ _ (target_distance _ _ bound)
end TimerWheel
end AffiniX
