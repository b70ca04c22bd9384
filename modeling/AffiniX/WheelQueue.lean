import AffiniX.TimerPlacement

/-! The ticks that the nodes of a wheel wait for. -/
namespace AffiniX.TimerWheel
open Function Option

inductive Waits (nowTick expiryTick : Nat) (b : Bucket) : Nat → Prop
  | later (placed : Placed nowTick expiryTick b) : Waits nowTick expiryTick b (target expiryTick nowTick)
  | here (slot : b = (0,nowTick % slots)) (due : expiryTick ≤ nowTick) : Waits nowTick expiryTick b nowTick

structure Holds (w : TimerWheel) (expiryTick : NodeRef → Nat) (queue : NodeRef → Option Nat) : Prop where
  wf : w.Wf
  epoch : w.primed = false → w.nowTick = 0
  waits : ∀ n b, w.link n = some b → ∃ tick, queue n = some tick ∧ Waits w.nowTick (expiryTick n) b tick
  free : ∀ n, w.link n = none → queue n = none

def Drained (w : TimerWheel) : Prop := ∀ n, w.link n ≠ some (0,w.nowTick % slots)

def due (w : TimerWheel) : List NodeRef := w.buckets (0,w.nowTick % slots)

namespace Holds
variable {w : TimerWheel} {expiryTick : NodeRef → Nat} {queue : NodeRef → Option Nat} {n : NodeRef}
  {b : Bucket}
section
variable (holds : Holds w expiryTick queue)
include holds

lemma link_isSome (n : NodeRef) : (w.link n).isSome = (queue n).isSome := by
  cases linked : w.link n with
  | none =>
    rw [holds.free n linked]
    rfl
  | some b =>
    obtain ⟨_,queued,_⟩ := holds.waits n b linked
    rw [queued]
    rfl

lemma due (linked : w.link n = some (0,w.nowTick % slots)) : expiryTick n ≤ w.nowTick ∧ queue n = some w.nowTick := by
  obtain ⟨_,queued,waits⟩ := holds.waits n _ linked
  cases waits with
  | later placed => exact absurd rfl placed.not_current
  | here _ due => exact ⟨due,queued⟩

lemma placed (drained : w.Drained) (linked : w.link n = some b) :
    Placed w.nowTick (expiryTick n) b ∧ queue n = some (target (expiryTick n) w.nowTick) := by
  obtain ⟨_,queued,waits⟩ := holds.waits n b linked
  cases waits with
  | later placed => exact ⟨placed,queued⟩
  | here slot => exact absurd (slot ▸ linked) (drained n)

lemma later (drained : w.Drained) {tick : Nat} (queued : queue n = some tick) : w.nowTick < tick := by
  have linked := holds.link_isSome n
  rw [queued] at linked
  obtain ⟨b,linked⟩ := isSome_iff_exists.mp linked
  rw [(holds.placed drained linked).2] at queued
  rw [← some.inj queued]
  unfold target
  omega
end

lemma create (tick : Int) : Holds (create tick) expiryTick fun _ => none :=
  ⟨create_wf tick,fun _ => rfl,nofun,fun _ _ => rfl⟩

variable (holds : Holds w expiryTick queue)
include holds

lemma insert (fresh : w.link n = none) {tick : Nat} (fit : fits tick w.nowTick = true) :
    let expiryTick := update expiryTick n tick
    Holds (w.insert expiryTick n) expiryTick (update queue n (some (target tick w.nowTick))) ∧
      (w.insert expiryTick n).due = w.due := by
  intro expiryTick'
  have own : expiryTick' n = tick := update_self ..
  have placed := home_placed tick w.nowTick ((fits_iff _ _).mp fit)
  rw [insert_eq,own]
  refine ⟨⟨holds.wf.insertNode fresh _ _ (target_distance _ _ ((fits_iff _ _).mp fit)), holds.epoch,?_,?_⟩,?_⟩
  · intro m b linked
    rw [insertNode_link] at linked
    split at linked
    · next same =>
      subst same
      rw [← some.inj linked,own]
      exact ⟨_,update_self ..,.later placed⟩
    next other =>
    rw [update_of_ne other,show expiryTick' m = _ from update_of_ne other ..]
    exact holds.waits m b linked
  · intro m linked
    rw [insertNode_link] at linked
    split at linked
    · cases linked
    next other =>
    rw [update_of_ne other]
    exact holds.free m linked
  · exact update_of_ne placed.not_current.symm _ _

lemma unlink (n : NodeRef) : Holds (w.unlink n) expiryTick (update queue n none) := by
  have clock := unlink_clock w n
  refine ⟨holds.wf.unlink n,?_,?_,?_⟩
  · rw [clock.primed,clock.nowTick]
    exact holds.epoch
  · intro m b linked
    rw [unlink_link] at linked
    split at linked
    · cases linked
    next other =>
    rw [update_of_ne other,clock.nowTick]
    exact holds.waits m b linked
  intro m linked
  rw [unlink_link] at linked
  split at linked
  · next same => rw [same,update_self]
  next other =>
  rw [update_of_ne other]
  exact holds.free m linked

lemma pull (linked : w.link n = some b) : Holds (w.pull n) expiryTick (update queue n none) := by
  have same : w.unlink n = w.pull n := by simp [TimerWheel.unlink,linked]
  exact same ▸ holds.unlink n

lemma step (drained : w.Drained) (primed : w.primed = true) : Holds (w.step expiryTick) expiryTick queue := by
  obtain ⟨wf,nowTick,clock,domain,settled⟩ := step_spec holds.wf expiryTick
    fun n b linked => (holds.placed drained linked).1
  refine ⟨wf,fun unprimed => ?_,?_,fun n linked => holds.free n ((domain n).mp linked)⟩
  · rw [clock.primed,primed] at unprimed
    cases unprimed
  intro n b linked
  obtain ⟨_,linkedBefore⟩ := ne_none_iff_exists'.mp (mt (domain n).mpr (by rw [linked]; nofun))
  have queued := (holds.placed drained linkedBefore).2
  have settled := settled n b linked
  refine ⟨_,queued,?_⟩
  rw [nowTick]
  by_cases here : b = (0,(w.nowTick+1) % slots)
  · have due := (here ▸ settled : Settled _ _ _).due
    rw [show target (expiryTick n) w.nowTick = w.nowTick+1 from max_eq_right due]
    exact .here here due
  obtain ⟨_,placed⟩ := settled.placed here
  have same : target (expiryTick n) w.nowTick = target (expiryTick n) (w.nowTick+1) := by
    unfold target
    omega
  exact same ▸ .later placed

lemma prime (drained : w.Drained) (unprimed : w.primed = false) (goal : Nat) :
    Holds (w.prime expiryTick goal) expiryTick (fun n => (queue n).map fun tick => max tick (max goal 1)) ∧
    SameClock (emptied w goal) (w.prime expiryTick goal) ∧ (w.prime expiryTick goal).Drained := by
  obtain ⟨wf,clock,domain,placed⟩ := prime_spec holds.wf expiryTick goal fun n b linked => by
    have placed := (holds.placed drained linked).1
    have near := placed.near
    have power := Nat.pow_le_pow_right (n := 256) (by decide) placed.level
    rw [holds.epoch unprimed] at near
    unfold target levels at *
    omega
  have nowTick : (w.prime expiryTick goal).nowTick = goal-1 := clock.nowTick
  refine ⟨⟨wf,fun off => ?_,?_,?_⟩,clock,?_⟩
  · rw [clock.primed] at off
    cases off
  · intro n b linked
    obtain ⟨_,linkedBefore⟩ := ne_none_iff_exists'.mp (mt (domain n).mpr (by rw [linked]; nofun))
    have queued := (holds.placed drained linkedBefore).2
    rw [holds.epoch unprimed] at queued
    have same : max (target (expiryTick n) 0) (max goal 1) = target (expiryTick n) (goal-1) := by
      unfold target
      omega
    rw [nowTick]
    exact ⟨_,by rw [queued,map_some,same],.later (placed n b linked)⟩
  · intro n linked
    rw [holds.free n ((domain n).mp linked)]
    rfl
  intro n linked
  rw [nowTick] at linked
  exact (placed n _ linked).not_current rfl

lemma snap (primed : w.primed = true) (empty : w.count = 0)
    (tick : Nat) : Holds {w with nowTick := tick} expiryTick queue ∧ Drained {w with nowTick := tick} := by
  have none := holds.wf.count_eq_zero.mp empty
  refine ⟨⟨⟨holds.wf.mem,holds.wf.nodup,holds.wf.range,holds.wf.count⟩,fun off => ?_,?_,holds.free⟩,?_⟩
  · cases primed.symm.trans off
  · intro n b linked
    cases (none n).symm.trans linked
  intro n linked
  cases (none n).symm.trans linked
end Holds

lemma unlink_due (w : TimerWheel) (n : NodeRef) : (w.unlink n).due.length ≤ w.due.length := by
  unfold due
  rw [(unlink_clock w n).nowTick]
  unfold unlink pull listUnlink
  split
  · split
    · next b _ =>
      by_cases here : (0,w.nowTick % slots) = b
      · rw [here]
        simpa using List.length_erase_le
      · simp [update_of_ne here]
    · exact le_rfl
  · exact le_rfl

lemma pull_due {w : TimerWheel} {n : NodeRef} {rest : List NodeRef} (wf : w.Wf)
    (front : w.due = n::rest) : w.link n = some (0,w.nowTick % slots) ∧ (w.pull n).due = rest := by
  have linked := (wf.mem (0,w.nowTick % slots) n).mp (show n ∈ w.due from front ▸ List.mem_cons_self)
  refine ⟨linked,?_⟩
  unfold due
  rw [(pull_clock w n).nowTick]
  unfold due at front
  simp [pull,listUnlink,linked,front]

lemma drained_of_due {w : TimerWheel} (wf : w.Wf) (empty : w.due = []) : w.Drained := by
  intro n linked
  have inside : n ∈ w.due := (wf.mem _ n).mpr linked
  rw [empty] at inside
  cases inside

variable {σ : Type*} (H : Host σ) (fire : σ → NodeRef → σ)

/-- The loop over a slot, without the branch that puts a node back: it ends in `none` there. -/
def expireSlotStrict (slot : Nat) : Nat → σ → Option σ
  | 0, s => some s
  | fuel+1, s =>
    match (H.wheel s).buckets (0,slot) with
    | [] => some s
    | n::_ =>
      let w := (H.wheel s).pull n
      if H.expiryTick s n > w.nowTick then none
      else expireSlotStrict slot fuel (fire (H.setWheel s w) n)

def advanceStepStrict (s : σ) : Option σ := let s := H.setWheel s ((H.wheel s).step (H.expiryTick s))
  let slot := (H.wheel s).nowTick % slots
  expireSlotStrict H fire slot ((H.wheel s).buckets (0,slot)).length s

def advanceLoopStrict (target : Nat) : Nat → σ → Option σ
  | 0, s => some s
  | fuel+1, s =>
    if (H.wheel s).nowTick < target then
      (advanceStepStrict H fire s).bind (advanceLoopStrict target fuel)
    else some s

/-- An advance that ends in `none` where a node of the current slot is found not to be due. -/
def advanceStrict (target : Nat) (s : σ) : Option σ :=
  let s := if (H.wheel s).primed then s
    else H.setWheel s ((H.wheel s).prime (H.expiryTick s) target)
  if (H.wheel s).count = 0 then
    some (if target > (H.wheel s).nowTick then H.setWheel s {H.wheel s with nowTick := target} else s)
  else advanceLoopStrict H fire target (H.wheel s).maxTicksPerCall s

lemma expireSlot_rule {P : σ → Prop} {slot : Nat} (body : ∀ s n rest, P s → (H.wheel s).buckets (0,slot) = n::rest →
    H.expiryTick s n ≤ ((H.wheel s).pull n).nowTick ∧
    P (fire (H.setWheel s ((H.wheel s).pull n)) n) ∧
    ((H.wheel (fire (H.setWheel s ((H.wheel s).pull n)) n)).buckets (0,slot)).length ≤ rest.length)
    (fuel : Nat) (s : σ) (start : P s) (enough : ((H.wheel s).buckets (0,slot)).length ≤ fuel) :
    P (expireSlot H fire slot fuel s) ∧ (H.wheel (expireSlot H fire slot fuel s)).buckets (0,slot) = [] ∧
    expireSlotStrict H fire slot fuel s = some (expireSlot H fire slot fuel s) := by
  induction fuel generalizing s with
  | zero => exact ⟨start,List.eq_nil_of_length_eq_zero (Nat.le_zero.mp enough),rfl⟩
  | succ _ ih =>
    cases front : (H.wheel s).buckets (0,slot) with
    | nil =>
      simp only [expireSlot,expireSlotStrict,front]
      exact ⟨start,trivial,trivial⟩
    | cons n rest =>
      obtain ⟨due,next,_⟩ := body s n rest start front
      rw [front,List.length_cons] at enough
      simp only [expireSlot,expireSlotStrict,front,if_neg (Nat.not_lt.mpr due)]
      exact ih _ next (by omega)
end AffiniX.TimerWheel
