import AffiniX.TimerFiring

/-! Rules for the loops of the timer stage: a property that every firing and every tick keep holds when a slot, the
wheel and the heap are done. -/
namespace AffiniX.Timers
open List
open TimerWheel (slots SameClock)
section
variable (callbacks : Nat → List TimerCall)

def pop (s : Timers) (n : NodeRef) : Timers := fireTimer callbacks (s.unlinkTimer n) n

/-- Every firing and every tick keep the property, or end in a state that is `bad` for good. -/
structure TickCarried (target : Nat) (inv bad : Timers → Prop) : Prop where
  sound : ∀ s, inv s → s.Sound ∧ s.firing = none
  fire : ∀ s n, inv s → s.wheel.link n = some (0,s.wheel.nowTick % slots) →
    (inv (pop callbacks s n) ∧ Stays (s.unlinkTimer n) (pop callbacks s n)) ∨ bad (pop callbacks s n)
  tick : ∀ s, inv s → (∀ n, s.wheel.link n ≠ some (0,s.wheel.nowTick % slots)) →
    s.wheel.nowTick < target → inv {s with wheel := s.wheel.step s.expiryTick}
  badWheel : ∀ s w, bad s → bad {s with wheel := w}
  badFire : ∀ s n, bad s → bad (fireTimer callbacks s n)

structure HeapCarried (inv bad : Timers → Prop) : Prop where
  sound : ∀ s, inv s → s.Sound ∧ s.firing = none
  fire : ∀ s n, inv s → (s.node n).inHeap = true → s.expiryKey n ≤ s.now →
    (inv (pop callbacks s n) ∧ Stays (s.unlinkTimer n) (pop callbacks s n)) ∨ bad (pop callbacks s n)
  badRemove : ∀ s n, bad s → bad (s.heapRemove n)
  badFire : ∀ s n, bad s → bad (fireTimer callbacks s n)
end

lemma Filing.placed {s : Timers} (filing : s.Filing)
    (drained : ∀ n, s.wheel.link n ≠ some (0,s.wheel.nowTick % slots)) (n : NodeRef) (b : Bucket)
    (linked : s.wheel.link n = some b) : TimerWheel.Placed s.wheel.nowTick (s.expiryTick n) b := by
  cases filing.filed n b linked with
  | inl placed => exact placed
  | inr here => exact absurd (here.1 ▸ linked) (drained n)

variable {callbacks : Nat → List TimerCall} {target : Nat} {inv bad : Timers → Prop}

lemma TickCarried.expireSlot_bad (rule : TickCarried callbacks target inv bad) (slot fuel : Nat) (s : Timers)
    (already : bad s) : bad (TimerWheel.expireSlot host (fireTimer callbacks) slot fuel s) := by
  induction fuel generalizing s with
  | zero => exact already
  | succ _ ih =>
    rw [TimerWheel.expireSlot]
    split
    · exact already
    dsimp only
    split
    · exact ih _ (rule.badWheel s _ already)
    · exact ih _ (rule.badFire _ _ (rule.badWheel s _ already))

lemma slot_shrinks {s s' : Timers} (sound : s.Sound) (after : s'.Sound) {n : NodeRef} {rest : List NodeRef}
    (stays : Stays (s.unlinkTimer n) s') (front : s.wheel.buckets (0,s.wheel.nowTick % slots) = n::rest) :
    (s'.wheel.buckets (0,s'.wheel.nowTick % slots)).length ≤ rest.length := by
  obtain ⟨_,frame,links,_⟩ := unlinkTimer_spec sound.filing n
  have now : s'.wheel.nowTick = s.wheel.nowTick := stays.clock.nowTick.trans frame.clock.nowTick
  apply Subperm.length_le
  apply subperm_of_subset (after.filing.wheel.nodup _)
  intro m inside
  have linked := stays.current m
  rw [frame.clock.nowTick,links] at linked
  have before := linked (now ▸ (after.filing.wheel.mem _ m).mp inside)
  split at before
  · contradiction
  next other =>
  have member := (sound.filing.wheel.mem _ m).mpr before
  rw [front] at member
  exact (mem_cons.mp member).resolve_left other

section
variable (rule : TickCarried callbacks target inv bad)
include rule

lemma TickCarried.expireSlot (fuel : Nat) (s : Timers) (start : inv s)
    (enough : (s.wheel.buckets (0,s.wheel.nowTick % slots)).length ≤ fuel) :
    let s' := TimerWheel.expireSlot host (fireTimer callbacks) (s.wheel.nowTick % slots) fuel s
    (inv s' ∧ Stays s s' ∧ ∀ n, s'.wheel.link n ≠ some (0,s'.wheel.nowTick % slots)) ∨ bad s' := by
  induction fuel generalizing s with
  | zero =>
    refine .inl ⟨start,.refl s,?_⟩
    intro n linked
    change s.wheel.link n = some (0,s.wheel.nowTick % slots) at linked
    have member := ((rule.sound s start).1.filing.wheel.mem _ n).mpr linked
    rw [length_eq_zero_iff.mp (Nat.le_zero.mp enough)] at member
    contradiction
  | succ fuel ih =>
    obtain ⟨sound,_⟩ := rule.sound s start
    cases front : s.wheel.buckets (0,s.wheel.nowTick % slots) with
    | nil =>
      have stop : TimerWheel.expireSlot host (fireTimer callbacks) (s.wheel.nowTick % slots) (fuel+1) s = s := by
        rw [TimerWheel.expireSlot,show (host.wheel s).buckets (0,s.wheel.nowTick % slots) = [] from front]
      rw [stop]
      refine .inl ⟨start,.refl s,?_⟩
      intro n linked
      have member := (sound.filing.wheel.mem _ n).mpr linked
      rw [front] at member
      contradiction
    | cons n =>
      have linked := (sound.filing.wheel.mem _ n).mp (front ▸ mem_cons_self)
      rw [expireSlot_succ callbacks fuel sound front]
      rcases rule.fire s n start linked with ⟨next,fired⟩ | stop
      · have stays := (unlinkTimer_stays sound.filing n).trans fired
        have shorter : ((pop callbacks s n).wheel.buckets
            (0,(pop callbacks s n).wheel.nowTick % slots)).length ≤ fuel := by
          rw [front,length_cons] at enough
          refine le_trans (slot_shrinks sound (rule.sound _ next).1 fired front) (by omega)
        have later := ih (pop callbacks s n) next shorter
        have now : (pop callbacks s n).wheel.nowTick = s.wheel.nowTick := stays.clock.nowTick
        rw [now] at later
        rcases later with ⟨final,more,empty⟩ | stop
        · exact .inl ⟨final,stays.trans more,empty⟩
        · exact .inr stop
      · exact .inr (rule.expireSlot_bad _ _ _ stop)

lemma TickCarried.advanceStep (s : Timers) (start : inv s)
    (drained : ∀ n, s.wheel.link n ≠ some (0,s.wheel.nowTick % slots))
    (early : s.wheel.nowTick < target) :
    let s' := TimerWheel.advanceStep host (fireTimer callbacks) s
    (inv s' ∧ s'.wheel.nowTick = s.wheel.nowTick+1 ∧ s'.now = s.now ∧
      ∀ n, s'.wheel.link n ≠ some (0,s'.wheel.nowTick % slots)) ∨ bad s' := by
  have moved := rule.tick s start drained early
  have filing := (rule.sound s start).1.filing
  have tick := (TimerWheel.step_spec filing.wheel s.expiryTick (filing.placed drained)).2.1
  rcases rule.expireSlot _ _ moved (le_refl _) with ⟨final,stays,empty⟩ | stop
  · exact .inl ⟨final,stays.clock.nowTick.trans tick,stays.now,empty⟩
  · exact .inr stop

lemma TickCarried.advanceLoop_bad (fuel : Nat) (s : Timers)
    (already : bad s) : bad (TimerWheel.advanceLoop host (fireTimer callbacks) target fuel s) := by
  induction fuel generalizing s with
  | zero => exact already
  | succ _ ih =>
    rw [TimerWheel.advanceLoop]
    split
    · exact ih _ (rule.expireSlot_bad _ _ _ (rule.badWheel s _ already))
    · exact already

lemma TickCarried.advanceLoop (fuel : Nat) (s : Timers)
    (start : inv s) (drained : ∀ n, s.wheel.link n ≠ some (0,s.wheel.nowTick % slots)) :
    let s' := TimerWheel.advanceLoop host (fireTimer callbacks) target fuel s
    (inv s' ∧ s'.now = s.now ∧ (∀ n, s'.wheel.link n ≠ some (0,s'.wheel.nowTick % slots)) ∧
      (s.wheel.nowTick ≤ target → target ≤ s.wheel.nowTick + fuel → s'.wheel.nowTick = target)) ∨ bad s' := by
  induction fuel generalizing s with
  | zero => exact .inl ⟨start,rfl,drained,fun low high => by
      change s.wheel.nowTick = target
      omega⟩
  | succ fuel ih =>
    rw [TimerWheel.advanceLoop]
    split
    · next early =>
      rcases rule.advanceStep s start drained early with ⟨next,tick,now,empty⟩ | stop
      · rcases ih _ next empty with ⟨final,same,last,reached⟩ | stop
        · refine .inl ⟨final,same.trans now,last,fun low high => reached ?_ ?_⟩
          · change s.wheel.nowTick < target at early
            omega
          · omega
        · exact .inr stop
      · exact .inr (rule.advanceLoop_bad fuel _ stop)
    next stop =>
    refine .inl ⟨start,rfl,drained,fun low high => ?_⟩
    change ¬ s.wheel.nowTick < target at stop
    omega
end

lemma HeapCarried.heapExpire_bad (rule : HeapCarried callbacks inv bad) (fuel : Nat)
    (s s' : Timers) (already : bad s) (done : heapExpire callbacks fuel s = some s') : bad s' := by
  induction fuel generalizing s with
  | zero => contradiction
  | succ _ ih =>
    rw [Timers.heapExpire] at done
    split at done
    · exact ih _ (rule.badFire _ _ (rule.badRemove s _ already)) done
    · exact Option.some.inj done ▸ already

lemma HeapCarried.heapExpire (rule : HeapCarried callbacks inv bad) (fuel : Nat) (s s' : Timers)
    (start : inv s) (done : heapExpire callbacks fuel s = some s') :
    (inv s' ∧ Stays s s' ∧ ∀ n, (s'.node n).inHeap = true → s'.now < s'.expiryKey n) ∨ bad s' := by
  induction fuel generalizing s with
  | zero => contradiction
  | succ fuel ih =>
    obtain ⟨sound,_⟩ := rule.sound s start
    rw [Timers.heapExpire] at done
    split at done
    · next due =>
      have flag := (sound.filing.inHeap _).mpr (s.heap.mem_root due.1)
      have popped : s.heapRemove (s.heap.cell 0) = s.unlinkTimer (s.heap.cell 0) := by
        rw [unlinkTimer,if_pos flag]
      dsimp only at done
      rw [popped] at done
      rcases rule.fire s _ start flag due.2 with ⟨next,fired⟩ | stop
      · rcases ih _ next done with ⟨final,stays,empty⟩ | stop
        · exact .inl ⟨final,((unlinkTimer_stays sound.filing _).trans fired).trans stays,empty⟩
        · exact .inr stop
      · exact .inr (rule.heapExpire_bad fuel _ _ stop done)
    next idle =>
    rw [← Option.some.inj done]
    refine .inl ⟨start,.refl s,?_⟩
    intro n flag
    obtain ⟨i,bound,rfl⟩ := (sound.filing.inHeap n).mp flag
    have root := sound.filing.heap.ordered.root_le i bound
    have nonempty : s.heap.size ≠ 0 := by omega
    have later : ¬ s.expiryKey (s.heap.cell 0) ≤ s.now := fun due => idle ⟨nonempty,due⟩
    omega

lemma HeapCarried.halts (rule : HeapCarried callbacks inv (fun _ => False)) (measure : Timers → Nat)
    (falls : ∀ s n, inv s → (s.node n).inHeap = true → s.expiryKey n ≤ s.now →
    measure (pop callbacks s n) < measure s) (s : Timers) (start : inv s) :
    ∃ fuel s', Timers.heapExpire callbacks fuel s = some s' := by
  obtain ⟨sound,_⟩ := rule.sound s start
  by_cases due : s.heap.size ≠ 0 ∧ s.expiryKey (s.heap.cell 0) ≤ s.now
  · have flag := (sound.filing.inHeap _).mpr (s.heap.mem_root due.1)
    have popped : s.heapRemove (s.heap.cell 0) = s.unlinkTimer (s.heap.cell 0) := by
      rw [unlinkTimer,if_pos flag]
    have next := (rule.fire s _ start flag due.2).resolve_right (fun impossible => impossible)
    have fewer := falls s _ start flag due.2
    obtain ⟨fuel,s',done⟩ := rule.halts measure falls (pop callbacks s (s.heap.cell 0)) next.1
    refine ⟨fuel+1,s',?_⟩
    rw [Timers.heapExpire,if_pos due]
    dsimp only
    rw [popped]
    exact done
  · exact ⟨1,s,by rw [Timers.heapExpire,if_neg due]⟩
termination_by measure s
end AffiniX.Timers
