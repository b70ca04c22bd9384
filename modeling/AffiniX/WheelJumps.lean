import AffiniX.WheelSweeps

/-! The earliest tick at which a wheel has something to do. -/
namespace AffiniX
open TimerWheel List Nat Option
namespace TimerWheel
/-- The next tick after `nowTick` that services bucket `b`, as `next_due_tick` computes it. -/
def candidate (nowTick : Nat) (b : Bucket) : Nat := let span := 256^b.1
  let super := span*256
  let wprev := nowTick / super * super
  let cand := wprev + b.2*span
  if cand ≤ nowTick then cand+super else cand

def nextDueTick (w : TimerWheel) : Option Nat := if w.count = 0 then none
  else (((range levels ×ˢ range slots).filter fun b => !(w.buckets b).isEmpty).map (candidate w.nowTick)).min?

def Serviced (tick : Nat) (b : Bucket) : Prop := tick % 256^b.1 = 0 ∧ b = current b.1 tick

lemma serviced_digits (l k : Nat) {j : Nat} (slot : j < slots) : Serviced ((k*256+j)*256^l) (l,j) := by
  have whole := Nat.pow_pos (n := l) (show 0 < 256 by decide)
  refine ⟨Nat.mul_mod_left _ _,Prod.ext rfl ?_⟩
  change j = (k*256+j)*256^l / 256^l % 256
  rw [Nat.mul_div_cancel _ whole,Nat.mul_comm,Nat.mul_add_mod]
  exact (Nat.mod_eq_of_lt slot).symm

variable {b : Bucket} {expiryTick : Nat}

lemma Serviced.digits {tick : Nat} (serviced : Serviced tick b) : ∃ k, tick = (k*256+b.2)*256^b.1 := by
  obtain ⟨⟨q,rfl⟩,own⟩ := And.imp_left Nat.dvd_of_mod_eq_zero serviced
  have slot : b.2 = q % 256 := by
    have slot := congrArg Prod.snd own
    rwa [current,Nat.mul_div_cancel_left _ (Nat.pow_pos (by decide))] at slot
  exact ⟨q/256,by rw [slot,Nat.mul_comm (q/256),Nat.div_add_mod,Nat.mul_comm]⟩

lemma candidate_spec (nowTick : Nat) (slot : b.2 < slots) : nowTick < candidate nowTick b ∧
    Serviced (candidate nowTick b) b ∧ ∀ tick, nowTick < tick → Serviced tick b → candidate nowTick b ≤ tick := by
  have whole := Nat.pow_pos (n := b.1) (show 0 < 256 by decide)
  have below := Nat.div_mul_le_self nowTick (256^b.1*256)
  have above := Nat.lt_div_mul_add (a := nowTick) (Nat.mul_pos whole (by decide : 0 < 256))
  have digit : b.2*256^b.1 < 256^b.1*256 := by
    rw [Nat.mul_comm]
    exact Nat.mul_lt_mul_of_pos_left slot whole
  have form : ∀ k, (k*256+b.2)*256^b.1 = k*(256^b.1*256)+b.2*256^b.1 := fun k => by ring
  unfold candidate
  dsimp only
  refine ⟨by split <;> omega,?_,?_⟩
  · split
    · have same : nowTick / (256^b.1*256) * (256^b.1*256) + b.2*256^b.1 + 256^b.1*256 =
          ((nowTick / (256^b.1*256) + 1)*256+b.2)*256^b.1 := by ring
      exact same ▸ serviced_digits b.1 _ slot
    rw [← form]
    exact serviced_digits b.1 _ slot
  intro _ later serviced
  obtain ⟨k,rfl⟩ := serviced.digits
  rw [form] at later ⊢
  have steps : ∀ p q, p ≤ q → p*(256^b.1*256) ≤ q*(256^b.1*256) := fun p q le => Nat.mul_le_mul_right _ le
  split
  · next =>
    have : nowTick / (256^b.1*256) + 1 ≤ k := by
      by_contra few
      have := steps k _ (Nat.lt_succ_iff.mp (Nat.lt_of_not_le few))
      omega
    have := steps _ _ this
    rw [Nat.succ_mul] at this
    omega
  have : nowTick / (256^b.1*256) ≤ k := by
    by_contra few
    have := steps (k+1) _ (Nat.lt_of_not_le few)
    rw [Nat.succ_mul] at this
    omega
  have := steps _ _ this
  omega

lemma Placed.serviced {nowTick : Nat} (placed : Placed nowTick expiryTick b) :
    ∃ tick, nowTick < tick ∧ tick ≤ target expiryTick nowTick ∧ Serviced tick b := by
  have whole := Nat.pow_pos (n := b.1) (show 0 < 256 by decide)
  refine ⟨target expiryTick nowTick / 256^b.1 * 256^b.1,?_,Nat.div_mul_le_self _ _,
    Nat.mul_mod_left _ _,Prod.ext rfl ?_⟩
  · exact (Nat.div_lt_iff_lt_mul whole).mp placed.ahead
  rw [placed.slot]
  change _ = target expiryTick nowTick / 256^b.1 * 256^b.1 / 256^b.1 % slots
  rw [Nat.mul_div_cancel _ whole]

lemma Placed.candidate_zero {nowTick j : Nat} (placed : Placed nowTick expiryTick (0,j)) :
    candidate nowTick (0,j) = target expiryTick nowTick := by
  obtain ⟨_,_,_,_⟩ := placed
  unfold candidate slots at *
  norm_num at *
  split_ifs <;> omega

lemma Settled.not_serviced {tick : Nat} (settled : Settled tick expiryTick b)
    (above : b.1 ≠ 0) : ¬Serviced tick b := by
  obtain ⟨l,j⟩ := b
  obtain ⟨_,_,_,_⟩ := settled
  rintro ⟨whole,own⟩
  unfold current levels slots at *
  have cases : l = 1 ∨ l = 2 ∨ l = 3 := by omega
  rcases cases with rfl | rfl | rfl
  all_goals
    simp only [Prod.mk.injEq,true_and] at *
    norm_num at *
    omega

variable {w : TimerWheel}

lemma nextDueTick_spec (wf : w.Wf) (some : w.count ≠ 0) : ∃ tick, w.nextDueTick = .some tick ∧
    (∃ n b, w.link n = .some b ∧ candidate w.nowTick b = tick) ∧
    ∀ n b, w.link n = .some b → tick ≤ candidate w.nowTick b := by
  unfold nextDueTick
  rw [if_neg some]
  have listed : ∀ n b, w.link n = .some b → candidate w.nowTick b ∈
      ((range levels ×ˢ range slots).filter fun b => !(w.buckets b).isEmpty).map (candidate w.nowTick) := by
    intro n b linked
    obtain ⟨level,slot⟩ := wf.range n b linked
    refine mem_map_of_mem (mem_filter.mpr ⟨mem_product.mpr ⟨mem_range.mpr level,mem_range.mpr slot⟩,?_⟩)
    simpa using ne_nil_of_mem ((wf.mem b n).mpr linked)
  obtain ⟨n,linked⟩ := not_forall.mp (mt wf.count_eq_zero.mpr some)
  obtain ⟨b,linked⟩ := ne_none_iff_exists'.mp linked
  obtain ⟨tick,least⟩ := isSome_iff_exists.mp (isSome_min?_of_mem (listed n b linked))
  obtain ⟨inside,below⟩ := min?_eq_some_iff.mp least
  refine ⟨tick,least,?_,fun n b linked => below _ (listed n b linked)⟩
  obtain ⟨b,filled,same⟩ := mem_map.mp inside
  have filled : w.buckets b ≠ [] := by simpa using (mem_filter.mp filled).2
  obtain ⟨n,inside⟩ := exists_mem_of_ne_nil _ filled
  exact ⟨n,b,(wf.mem b n).mp inside,same⟩

lemma step_quiet (wf : w.Wf) (expiryTick : NodeRef → Nat)
    (quiet : ∀ n b, w.link n = some b → ¬Serviced (w.nowTick+1) b) :
    w.step expiryTick = {w with nowTick := w.nowTick+1} := by
  have turn : ∀ level, 1 ≤ level → (w.nowTick+1) % (slots * 256^(level-1)) = 0 →
      cascade {w with nowTick := w.nowTick+1} expiryTick level = {w with nowTick := w.nowTick+1} := by
    intro level above whole
    obtain ⟨level,rfl⟩ := Nat.exists_eq_add_of_le' above
    rw [Nat.add_sub_cancel,slots,Nat.mul_comm,← Nat.pow_succ] at whole
    have empty : w.buckets (level+1,(w.nowTick+1) / 256^(level+1) % slots) = [] := by
      rw [eq_nil_iff_forall_not_mem]
      exact fun n inside => quiet n _ ((wf.mem _ n).mp inside) ⟨whole,rfl⟩
    unfold cascade
    simp only [empty,foldl_nil]
  unfold step
  simp only [foldl_cons,foldl_nil]
  rw [ite_eq_right_iff.mpr (turn 1 (by decide)),ite_eq_right_iff.mpr (turn 2 (by decide)),
    ite_eq_right_iff.mpr (turn 3 (by decide))]
end TimerWheel
namespace WheelOwner
open TimerWheel (slots target candidate Serviced)

def shifted (s : WheelOwner) (tick : Nat) : WheelOwner := {s with wheel := {s.wheel with nowTick := tick}}

section
variable {s : WheelOwner} {due : Nat}

lemma advanceStep_quiet (wf : s.wheel.Wf) (callbacks : Nat → List WheelCall)
    (quiet : ∀ n b, s.wheel.link n = some b → ¬Serviced (s.wheel.nowTick+1) b) :
    advanceStep host (fire callbacks) s = s.shifted (s.wheel.nowTick+1) := by
  have empty : s.wheel.buckets (0,(s.wheel.nowTick+1) % slots) = [] := by
    rw [eq_nil_iff_forall_not_mem]
    intro n inside
    refine quiet n _ ((wf.mem _ n).mp inside) ⟨mod_one _,?_⟩
    simp [current]
  change expireSlot host (fire callbacks) _ _ {s with wheel := s.wheel.step s.expiryTick} = _
  rw [show host.setWheel s ((host.wheel s).step (host.expiryTick s)) =
    s.shifted (s.wheel.nowTick+1) from congrArg (fun w => {s with wheel := w})
      (TimerWheel.step_quiet wf s.expiryTick quiet),TimerWheel.step_quiet wf s.expiryTick quiet]
  change expireSlot host (fire callbacks) _ (s.wheel.buckets (0,(s.wheel.nowTick+1) % slots)).length _ = _
  rw [empty]
  rfl

variable {goal : Nat}

lemma advanceLoop_quiet (wf : s.wheel.Wf) (callbacks : Nat → List WheelCall)
    (fuel : Nat) (quiet : ∀ tick, s.wheel.nowTick < tick → tick ≤ min goal (s.wheel.nowTick+fuel) →
    ∀ n b, s.wheel.link n = some b → ¬Serviced tick b) :
    advanceLoop host (fire callbacks) goal fuel s =
    s.shifted (max s.wheel.nowTick (min goal (s.wheel.nowTick+fuel))) := by
  induction fuel generalizing s with
  | zero =>
    rw [show max s.wheel.nowTick (min goal (s.wheel.nowTick+0)) = s.wheel.nowTick by omega]
    rfl
  | succ fuel ih =>
    change (if s.wheel.nowTick < goal then _ else _) = _
    split
    · next =>
      rw [advanceStep_quiet wf callbacks (quiet _ (lt_succ_self _) (by omega)),
        ih (s := s.shifted (s.wheel.nowTick+1)) ⟨wf.mem,wf.nodup,wf.range,wf.count⟩
          fun tick later upTo => quiet tick (lt_of_succ_lt later) (by
            change tick ≤ min goal (s.wheel.nowTick+1+fuel) at upTo
            omega)]
      change s.shifted (max (s.wheel.nowTick+1) (min goal (s.wheel.nowTick+1+fuel))) = _
      congr 1
      omega
    rw [show max s.wheel.nowTick (min goal (s.wheel.nowTick+(fuel+1))) = s.wheel.nowTick by omega]
    rfl

lemma Rest.advance_quiet (rest : s.Rest) (primed : s.wheel.primed = true) (some : s.wheel.count ≠ 0)
    (callbacks : Nat → List WheelCall)
    (quiet : ∀ tick, s.wheel.nowTick < tick → tick ≤ min goal (s.wheel.nowTick+s.wheel.maxTicksPerCall) →
    ∀ n b, s.wheel.link n = .some b → ¬Serviced tick b) :
    s.advance callbacks goal = s.shifted (s.endTick goal) := by
  rw [advance_eq]
  simp only [WheelOwner.anchored,primed,if_true,some,if_false]
  rw [advanceLoop_quiet rest.holds.wf callbacks _ quiet,endTick,startTick,if_pos primed,if_neg some]

lemma Rest.shifted (rest : s.Rest) (primed : s.wheel.primed = true) (some : s.wheel.count ≠ 0) (later : s.wheel.nowTick ≤ goal) (quiet : ∀ tick, s.wheel.nowTick < tick → tick ≤ goal →
    ∀ n b, s.wheel.link n = .some b → ¬Serviced tick b) : (s.shifted goal).Rest := by
  have free := rest.move (.setMaxTicksPerCall goal)
  have rested := (free.advance (fun _ => []) goal).2.1
  have ends : endTick (s.move (.setMaxTicksPerCall goal)) goal = goal := by
    simp only [endTick,startTick,WheelOwner.move,primed,if_true,some,if_false]
    omega
  rw [free.advance_quiet primed some _ fun tick after upTo => quiet tick after (upTo.trans (min_le_left _ _)),
    ends] at rested
  obtain ⟨⟨wf,epoch,waits,free⟩,drained⟩ := rested
  exact ⟨⟨⟨wf.mem,wf.nodup,wf.range,wf.count⟩,epoch,waits,free⟩,drained⟩

lemma Rest.nextDueTick_le (rest : s.Rest) {n : NodeRef} {effective : Nat}
    (queued : pending s.history n = some effective) : ∃ t, s.wheel.nextDueTick = some t ∧ t ≤ effective := by
  obtain ⟨b,linked⟩ := isSome_iff_exists.mp ((rest.holds.link_isSome n).trans (congrArg isSome queued))
  obtain ⟨placed,queued'⟩ := rest.holds.placed rest.drained linked
  cases queued.symm.trans queued'
  have busy : s.wheel.count ≠ 0 := fun empty => by
    rw [rest.holds.wf.count_eq_zero.mp empty] at linked
    cases linked
  obtain ⟨t,same,_,below⟩ := TimerWheel.nextDueTick_spec rest.holds.wf busy
  obtain ⟨tick,after,upTo,serviced⟩ := placed.serviced
  have first := (TimerWheel.candidate_spec s.wheel.nowTick (rest.holds.wf.range n b linked).2).2.2 tick after serviced
  exact ⟨t,same,(below n b linked).trans (first.trans upTo)⟩
end

/-- In an anchored wheel the next due tick is ahead, nothing happens before it and something at it; when it is the
earliest effective tick. -/
theorem nextDueTick_exact (tick : Int) (moves : List WheelMove)
    (primed : ((create tick).run moves).wheel.primed = true)
    (some : ((create tick).run moves).wheel.count ≠ 0) :
    let s := (create tick).run moves
    let queue := pending s.history
    ∃ t, s.wheel.nextDueTick = .some t ∧ s.wheel.nowTick < t ∧
      (∀ callbacks goal, goal < t → s.advance callbacks goal = s.shifted (s.endTick goal)) ∧
      (∃ n b, s.wheel.link n = .some b ∧
        (b = (0,t % slots) ∧ queue n = .some t ∨
          ∃ b', ((s.shifted (t-1)).wheel.step s.expiryTick).link n = .some b' ∧ b' ≠ b)) ∧
      (∀ n effective, queue n = .some effective → t ≤ effective) ∧
      ∀ n j effective, s.wheel.link n = .some (0,j) → queue n = .some effective →
        (∀ m other, queue m = .some other → effective ≤ other) →
        (∀ m b, s.wheel.link m = .some b → b.1 ≠ 0 → ∀ tick, s.wheel.nowTick < tick →
          Serviced tick b → effective ≤ tick) → t = effective := by
  intro s queue
  have rest : s.Rest := run_rest tick moves
  obtain ⟨t,same,⟨n,b,linked,least⟩,below⟩ := TimerWheel.nextDueTick_spec rest.holds.wf some
  have range := fun n b linked => rest.holds.wf.range n b linked
  obtain ⟨later,serviced,_⟩ := TimerWheel.candidate_spec s.wheel.nowTick (range n b linked).2
  rw [least] at later serviced
  have quiet : ∀ tick, s.wheel.nowTick < tick → tick ≤ t-1 → ∀ n b, s.wheel.link n = .some b → ¬Serviced tick b := by
    intro tick after before n b linked serviced
    have := (TimerWheel.candidate_spec s.wheel.nowTick (range n b linked).2).2.2
      tick after serviced
    have := below n b linked
    omega
  -- a node of level 0 that has the smallest candidate waits for it
  have exact : ∀ n j, s.wheel.link n = .some (0,j) → candidate s.wheel.nowTick (0,j) = t → queue n = .some t := by
    intro n j linked least
    obtain ⟨placed,queued⟩ := rest.holds.placed rest.drained linked
    rw [← least,placed.candidate_zero]
    exact queued
  have sound : ∀ n effective, queue n = .some effective → t ≤ effective := by
    intro n effective queued
    obtain ⟨_,same',le⟩ := rest.nextDueTick_le queued
    cases same.symm.trans same'
    exact le
  refine ⟨t,same,later,?_,⟨n,b,linked,?_⟩,sound,?_⟩
  · intro callbacks goal before
    exact rest.advance_quiet primed some callbacks fun tick after upTo => quiet tick after (by omega)
  · obtain ⟨l,j⟩ := b
    by_cases zero : l = 0
    · subst zero
      refine .inl ⟨?_,exact n j linked least⟩
      simpa [current] using serviced.2
    -- the step settles the node, and a settled node is not in a bucket that was serviced
    have rested := rest.shifted primed some (by omega) quiet
    obtain ⟨_,_,_,domain,settled⟩ := step_spec rested.holds.wf s.expiryTick
      fun n b linked => (rested.holds.placed rested.drained linked).1
    obtain ⟨b',moved⟩ := Option.ne_none_iff_exists'.mp
      (mt (domain n).mp (by rw [show (s.shifted (t-1)).wheel.link n = _ from linked]; nofun))
    refine .inr ⟨b',moved,?_⟩
    rintro rfl
    have settled := settled n _ moved
    rw [show (s.shifted (t-1)).wheel.nowTick+1 = t from Nat.sub_add_cancel (by omega)] at settled
    exact settled.not_serviced zero serviced
  intro m j effective level queued earliest higher
  refine Nat.le_antisymm (sound m effective queued) ?_
  obtain ⟨l,i⟩ := b
  by_cases zero : l = 0
  · subst zero
    exact earliest n t (exact n i linked least)
  · exact higher n _ linked zero t later serviced

theorem nextDueTick_five : ∃ s : WheelOwner, s.wheel.nextDueTick = some 5 ∧ s.wheel.nowTick < 5 := by
  refine ⟨(create 1).run [.advance 0 fun _ => [],.call (.insert 0 5)],?_⟩
  obtain ⟨t,same,later,_⟩ := nextDueTick_exact 1 [.advance 0 fun _ => [],.call (.insert 0 5)]
    (by decide +kernel) (by decide +kernel)
  have five : ((create 1).run [.advance 0 fun _ => [],.call (.insert 0 5)]).wheel.nextDueTick = some 5 := by
    decide +kernel
  cases five.symm.trans same
  exact ⟨five,later⟩

end WheelOwner
end AffiniX
