import AffiniX.TimerWheel

/-! Where the wheel's nodes sit. -/
namespace AffiniX.TimerWheel
structure Placed (nowTick expiryTick : Nat) (b : Bucket) : Prop where
  level : b.1 < levels
  slot : b.2 = target expiryTick nowTick / 256^b.1 % slots
  ahead : nowTick / 256^b.1 < target expiryTick nowTick / 256^b.1
  near : target expiryTick nowTick < nowTick + 256^(b.1+1)

structure Settled (nowTick expiryTick : Nat) (b : Bucket) : Prop where
  level : b.1 < levels
  slot : b.2 = max expiryTick nowTick / 256^b.1 % slots
  ahead : b.1 ≠ 0 → nowTick / 256^b.1 < max expiryTick nowTick / 256^b.1
  near : max expiryTick nowTick < nowTick + 256^(b.1+1)

def current (level nowTick : Nat) : Bucket := (level,nowTick / 256^level % slots)

private lemma level_cases {l : Nat} (bound : l < levels) : l = 0 ∨ l = 1 ∨ l = 2 ∨ l = 3 := by
  unfold levels at bound
  omega

lemma slot_ahead {l aim nowTick : Nat} (span : nowTick + 256^l ≤ aim) : nowTick / 256^l < aim / 256^l :=
  calc nowTick / 256^l < nowTick / 256^l + 1 := Nat.lt_succ_self _
    _ = (nowTick + 256^l) / 256^l := (Nat.add_div_right _ (Nat.pow_pos (by decide))).symm
    _ ≤ aim / 256^l := Nat.div_le_div_right span

lemma home_placed (expiryTick nowTick : Nat) (bound : expiryTick - nowTick < 256^4) :
    Placed nowTick expiryTick (home (target expiryTick nowTick) nowTick) := by
  obtain ⟨level,_,lower⟩ := levelOf_spec _ (target_distance _ _ bound)
  have later : nowTick < target expiryTick nowTick := by unfold target; omega
  unfold home
  refine ⟨level,rfl,?_,by dsimp only; omega⟩
  dsimp only
  generalize levelOf 8 (target expiryTick nowTick - nowTick) = l at *
  by_cases zero : l = 0
  · simpa [zero] using later
  have far := lower zero
  exact slot_ahead (by omega)

variable {expiryTick nowTick : Nat} {b : Bucket} {w : TimerWheel}

lemma Placed.settled (placed : Placed nowTick expiryTick b)
    (stays : b.1 ≠ 0 → (nowTick+1) % 256^b.1 = 0 → b ≠ current b.1 (nowTick+1)) :
    Settled (nowTick+1) expiryTick b := by
  obtain ⟨l,s⟩ := b
  obtain ⟨level,slot,ahead,near⟩ := placed
  refine ⟨level,slot,?_,?_⟩
  · intro above
    have stays := stays above
    unfold current at stays
    unfold target at slot ahead near
    rcases level_cases level with rfl | rfl | rfl | rfl
    · exact absurd rfl above
    all_goals
      simp only [slots,ne_eq,Prod.mk.injEq,true_and] at *
      norm_num at *
      omega
  change target expiryTick nowTick < _
  omega

lemma Placed.cascaded
    (placed : Placed nowTick expiryTick b) (above : b.1 ≠ 0) (wrap : (nowTick+1) % 256^b.1 = 0)
    (here : b = current b.1 (nowTick+1)) :
    max expiryTick (nowTick+1) - (nowTick+1) < 256^b.1 := by
  obtain ⟨l,s⟩ := b
  obtain ⟨level,slot,ahead,near⟩ := placed
  unfold current at here
  unfold target at slot ahead near
  rcases level_cases level with rfl | rfl | rfl | rfl
  · exact absurd rfl above
  all_goals
    simp only [slots,Prod.mk.injEq,true_and] at *
    norm_num at *
    omega

lemma home_settled (expiryTick nowTick : Nat) (bound : max expiryTick nowTick - nowTick < 256^4) :
    Settled nowTick expiryTick (home (max expiryTick nowTick) nowTick) := by
  obtain ⟨level,_,_⟩ := levelOf_spec _ bound
  unfold home
  refine ⟨level,rfl,?_,by dsimp only; omega⟩
  dsimp only
  generalize levelOf 8 (max expiryTick nowTick - nowTick) = l at *
  intro _
  exact slot_ahead (by omega)

lemma home_level_lt (expiryTick nowTick l : Nat) (above : l ≠ 0) (bound : l ≤ 4)
    (distance : max expiryTick nowTick - nowTick < 256^l) : (home (max expiryTick nowTick) nowTick).1 < l := by
  have inside : max expiryTick nowTick - nowTick < 256^4 :=
    lt_of_lt_of_le distance (Nat.pow_le_pow_right (by decide) bound)
  obtain ⟨_,_,lower⟩ := levelOf_spec _ inside
  change levelOf 8 _ < l
  by_contra high
  have := lower (by omega)
  have := Nat.pow_le_pow_right (n := 256) (by decide) (Nat.le_of_not_lt high)
  omega

lemma Settled.due (settled : Settled nowTick expiryTick (0,nowTick % slots)) : expiryTick ≤ nowTick := by
  have slot := settled.slot
  have near := settled.near
  simp [slots] at slot near
  omega

lemma Settled.placed (settled : Settled nowTick expiryTick b) (drained : b ≠ (0,nowTick % slots)) :
    nowTick < expiryTick ∧ Placed nowTick expiryTick b := by
  obtain ⟨l,s⟩ := b
  obtain ⟨level,slot,ahead,near⟩ := settled
  have later : nowTick < max expiryTick nowTick := by
    by_cases zero : l = 0
    · subst zero
      simp [slots] at slot drained
      omega
    by_contra early
    exact absurd (Nat.div_le_div_right (Nat.le_of_not_lt early)) (Nat.not_le_of_lt (ahead zero))
  have same : max expiryTick nowTick = target expiryTick nowTick := by
    unfold target
    omega
  rw [same] at slot ahead near later
  refine ⟨by unfold target at same; omega,level,slot,?_,near⟩
  by_cases zero : l = 0
  · simpa [zero] using later
  · exact ahead zero

lemma Placed.not_current (placed : Placed nowTick expiryTick b) : b ≠ (0,nowTick % slots) := by
  obtain ⟨_,slot,ahead,near⟩ := placed
  rintro rfl
  simp [slots] at slot ahead near
  omega

def Filed (nowTick expiryTick : Nat) (b : Bucket) : Prop :=
  Placed nowTick expiryTick b ∨ (b = (0,nowTick % slots) ∧ expiryTick ≤ nowTick)

lemma Settled.filed (settled : Settled nowTick expiryTick b) : Filed nowTick expiryTick b := by
  by_cases here : b = (0,nowTick % slots)
  · subst here
    exact .inr ⟨rfl,settled.due⟩
  · exact .inl (settled.placed here).2

private lemma cascadeNode_spec (wf : w.Wf) (expiryTick : NodeRef → Nat)
    (b : Bucket) (n : NodeRef) (linked : w.link n = some b)
    (bound : max (expiryTick n) w.nowTick - w.nowTick < 256^4) :
    (cascadeNode expiryTick b w n).Wf ∧ SameClock w (cascadeNode expiryTick b w n) ∧
      ∀ m, (cascadeNode expiryTick b w n).link m =
        if m = n then some (home (max (expiryTick n) w.nowTick) w.nowTick) else w.link m := by
  have aim : (if expiryTick n > w.nowTick then expiryTick n else w.nowTick) = max (expiryTick n) w.nowTick := by
    split <;> omega
  unfold cascadeNode
  simp only [aim]
  split
  · refine ⟨(wf.pull linked).insertNode (by simp) _ _ bound, (pull_clock w n).trans (insertNode_clock _ n _ _),?_⟩
    intro m
    rw [insertNode_link,pull_link]
    split <;> rfl
  next stays =>
  refine ⟨wf,.refl w,?_⟩
  intro m
  split
  · next own => rw [own,linked,not_not.mp stays]
  · rfl

private lemma foldl_spec {move : TimerWheel → NodeRef → TimerWheel} {from? : Option Bucket} (aim : NodeRef → Nat → Nat)
    (moved : ∀ {w : TimerWheel} {n : NodeRef}, w.Wf → w.link n = from? → aim n w.nowTick - w.nowTick < 256^4 →
      (move w n).Wf ∧ SameClock w (move w n) ∧
        ∀ m, (move w n).link m = if m = n then some (home (aim n w.nowTick) w.nowTick) else w.link m)
    (nodes : List NodeRef) {w : TimerWheel} (wf : w.Wf) (nodup : nodes.Nodup) (linked : ∀ n ∈ nodes, w.link n = from?)
    (bound : ∀ n ∈ nodes, aim n w.nowTick - w.nowTick < 256^4) :
    (nodes.foldl move w).Wf ∧ SameClock w (nodes.foldl move w) ∧ ∀ m, (nodes.foldl move w).link m =
      if m ∈ nodes then some (home (aim m w.nowTick) w.nowTick) else w.link m := by
  induction nodes generalizing w with
  | nil => exact ⟨wf,.refl w,fun m => by simp⟩
  | cons n _ ih =>
    obtain ⟨outside,nodup⟩ := List.nodup_cons.mp nodup
    obtain ⟨wfFirst,clock,links⟩ := moved wf (linked n List.mem_cons_self) (bound n List.mem_cons_self)
    obtain ⟨wfRest,clockRest,linksRest⟩ := ih wfFirst nodup (fun m inside => by
        rw [links,if_neg (ne_of_mem_of_not_mem inside outside)]
        exact linked m (List.mem_cons_of_mem _ inside))
      (fun m inside => by
        rw [clock.nowTick]
        exact bound m (List.mem_cons_of_mem _ inside))
    refine ⟨wfRest,clock.trans clockRest,?_⟩
    intro m
    rw [List.foldl_cons,linksRest,links,clock.nowTick]
    by_cases own : m = n
    · subst own
      simp [outside]
    · simp [own]

lemma cascade_spec (wf : w.Wf) (expiryTick : NodeRef → Nat) (level : Nat)
    (bound : ∀ n, w.link n = some (current level w.nowTick) → max (expiryTick n) w.nowTick - w.nowTick < 256^4) :
    (w.cascade expiryTick level).Wf ∧ SameClock w (w.cascade expiryTick level) ∧
    ∀ m, (w.cascade expiryTick level).link m = if w.link m = some (current level w.nowTick) then
    some (home (max (expiryTick m) w.nowTick) w.nowTick) else w.link m := by
  obtain ⟨wfAfter,clock,links⟩ := foldl_spec (fun n now => max (expiryTick n) now)
    (fun wf linked bound => cascadeNode_spec wf expiryTick (current level w.nowTick) _ linked bound) (w.buckets _) wf (wf.nodup _) (fun n => (wf.mem _ n).mp)
    (fun n inside => bound n ((wf.mem _ n).mp inside))
  refine ⟨wfAfter,clock,?_⟩
  intro m
  simp only [wf.mem] at links
  exact links m

def Between (level nowTick expiryTick : Nat) (b : Bucket) : Prop :=
  (b.1 < level ∧ Settled (nowTick+1) expiryTick b) ∨ (level ≤ b.1 ∧ Placed nowTick expiryTick b)

private lemma cascade_turn (wf : w.Wf) (expiryTick : NodeRef → Nat)
    (nowTick level : Nat) (above : level ≠ 0) (bound : level < levels)
    (moved : w.nowTick = nowTick+1)
    (before : ∀ n b, w.link n = some b → Between level nowTick (expiryTick n) b) :
    let w' := if w.nowTick % (slots * 256^(level-1)) = 0 then w.cascade expiryTick level else w
    w'.Wf ∧ SameClock w w' ∧ (∀ n, w'.link n = none ↔ w.link n = none) ∧
      ∀ n b, w'.link n = some b → Between (level+1) nowTick (expiryTick n) b := by
  have period : slots * 256^(level-1) = 256^level := by
    obtain ⟨k,rfl⟩ := Nat.exists_eq_succ_of_ne_zero above
    simp [slots,Nat.pow_succ,Nat.mul_comm]
  -- a node that does not move is settled if this was its level, and waits otherwise
  have keep : ∀ n b, w.link n = some b → (b.1 = level → w.nowTick % 256^level = 0 → b ≠ current level w.nowTick) →
      Between (level+1) nowTick (expiryTick n) b := by
    intro n b linked stays
    cases before n b linked with
    | inl done => exact .inl ⟨by omega,done.2⟩
    | inr waiting =>
      by_cases own : b.1 = level
      · refine .inl ⟨by omega,waiting.2.settled ?_⟩
        intro _ wrap
        rw [own] at wrap ⊢
        rw [moved] at stays
        exact stays own wrap
      · exact .inr ⟨by omega,waiting.2⟩
  intro w'
  dsimp only [w']
  rw [period]
  split
  · next wrap =>
    have distance : ∀ n, w.link n = some (current level w.nowTick) →
        max (expiryTick n) w.nowTick - w.nowTick < 256^level := by
      intro n linked
      cases before n _ linked with
      | inl done => exact absurd done.1 (Nat.lt_irrefl level)
      | inr waiting =>
        rw [moved] at waiting wrap ⊢
        exact waiting.2.cascaded above wrap rfl
    have wide : ∀ n, w.link n = some (current level w.nowTick) →
        max (expiryTick n) w.nowTick - w.nowTick < 256^4 := fun n linked =>
      lt_of_lt_of_le (distance n linked) (Nat.pow_le_pow_right (by decide) (by unfold levels at bound; omega))
    obtain ⟨wfAfter,clock,links⟩ := cascade_spec wf expiryTick level wide
    refine ⟨wfAfter,clock,?_,?_⟩
    · intro n
      rw [links]
      split
      · next here => simp [here]
      · rfl
    intro n b linked
    rw [links] at linked
    split at linked
    · next here =>
      rw [← Option.some.inj linked]
      refine .inl ⟨Nat.lt_succ_of_lt (home_level_lt _ _ level above
        (by unfold levels at bound; omega) (distance n here)),?_⟩
      have settled := home_settled (expiryTick n) w.nowTick (wide n here)
      rwa [moved] at settled ⊢
    next elsewhere =>
    exact keep n b linked (fun _ _ same => elsewhere (same ▸ linked))
  next noWrap =>
  refine ⟨wf,.refl w,fun _ => Iff.rfl,?_⟩
  intro n b linked
  exact keep n b linked (fun _ wrap => absurd wrap noWrap)

lemma step_spec (wf : w.Wf) (expiryTick : NodeRef → Nat)
    (placed : ∀ n b, w.link n = some b → Placed w.nowTick (expiryTick n) b) :
    (w.step expiryTick).Wf ∧ (w.step expiryTick).nowTick = w.nowTick+1 ∧
    SameClock {w with nowTick := w.nowTick+1} (w.step expiryTick) ∧
      (∀ n, (w.step expiryTick).link n = none ↔ w.link n = none) ∧
      ∀ n b, (w.step expiryTick).link n = some b → Settled (w.nowTick+1) (expiryTick n) b := by
  have start : ({w with nowTick := w.nowTick+1} : TimerWheel).Wf := ⟨wf.mem,wf.nodup,wf.range,wf.count⟩
  obtain ⟨wf₁,clock₁,dom₁,between₁⟩ := cascade_turn start expiryTick w.nowTick 1 (by decide)
    (by decide) rfl (fun n b linked => by
      have := placed n b linked
      by_cases zero : b.1 = 0
      · exact .inl ⟨by omega,this.settled (fun above => absurd zero above)⟩
      · exact .inr ⟨by omega,this⟩)
  obtain ⟨wf₂,clock₂,dom₂,between₂⟩ := cascade_turn wf₁ expiryTick w.nowTick 2 (by decide)
    (by decide) clock₁.nowTick between₁
  have clock₁₂ := clock₁.trans clock₂
  obtain ⟨wf₃,clock₃,dom₃,between₃⟩ := cascade_turn wf₂ expiryTick w.nowTick 3 (by decide)
    (by decide) clock₁₂.nowTick between₂
  have clock := clock₁₂.trans clock₃
  refine ⟨wf₃,clock.nowTick,clock,fun n => (dom₃ n).trans ((dom₂ n).trans (dom₁ n)),?_⟩
  intro n b linked
  cases between₃ n b linked with
  | inl done => exact done.2
  | inr beyond => exact absurd beyond.1 (Nat.not_le_of_lt beyond.2.level)

def emptied (w : TimerWheel) (goal : Nat) : TimerWheel :=
  {w with
    primed := true
    buckets := fun _ => []
    link := fun _ => none
    count := 0
    nowTick := goal-1}

lemma emptied_wf (w : TimerWheel) (goal : Nat) : (emptied w goal).Wf := by
  refine ⟨by simp [emptied],by simp [emptied],by simp [emptied],?_⟩
  simp [emptied,bucketNodes]

private lemma prime_eq (w : TimerWheel) (expiryTick : NodeRef → Nat) (goal : Nat) :
    w.prime expiryTick goal = w.bucketNodes.foldl
      (fun w n => w.insertNode n (target (expiryTick n) (goal-1)) w.nowTick) (emptied w goal) := by
  have aim : ∀ n, (if expiryTick n > (if goal ≠ 0 then goal else 1) then expiryTick n
      else (if goal ≠ 0 then goal else 1)) = target (expiryTick n) (goal-1) := by
    intro n
    unfold target
    split_ifs <;> omega
  have epoch : (if goal ≠ 0 then goal-1 else 0) = goal-1 := by
    split <;> omega
  unfold prime emptied
  simp only [aim,epoch]

lemma prime_spec (wf : w.Wf) (expiryTick : NodeRef → Nat) (goal : Nat)
    (early : ∀ n b, w.link n = some b → expiryTick n < 256^4) :
    (w.prime expiryTick goal).Wf ∧ SameClock (emptied w goal) (w.prime expiryTick goal) ∧
    (∀ n, (w.prime expiryTick goal).link n = none ↔ w.link n = none) ∧
    ∀ n b, (w.prime expiryTick goal).link n = some b → Placed (goal-1) (expiryTick n) b := by
  have linked : ∀ n ∈ w.bucketNodes, ∃ b, w.link n = some b := fun n inside =>
    Option.isSome_iff_exists.mp ((wf.mem_bucketNodes n).mp inside)
  have bound : ∀ n ∈ w.bucketNodes, expiryTick n - (goal-1) < 256^4 := by
    intro n inside
    obtain ⟨b,equal⟩ := linked n inside
    have := early n b equal
    omega
  obtain ⟨wfAfter,clock,links⟩ := foldl_spec (fun n _ => target (expiryTick n) (goal-1))
    (fun wf fresh bound => ⟨wf.insertNode fresh _ _ bound,insertNode_clock _ _ _ _,insertNode_link _ _ _ _⟩)
    w.bucketNodes (emptied_wf w goal) wf.nodup_bucketNodes (fun _ _ => rfl)
    (fun n inside => target_distance _ _ (bound n inside))
  rw [← prime_eq] at wfAfter clock links
  refine ⟨wfAfter,clock,?_,?_⟩
  · intro n
    rw [links]
    split
    · next inside =>
      obtain ⟨b,equal⟩ := linked n inside
      simp [equal]
    next outside =>
    rw [wf.mem_bucketNodes,Bool.not_eq_true,Option.isSome_eq_false_iff, Option.isNone_iff_eq_none] at outside
    simp [outside,emptied]
  intro n b found
  rw [links] at found
  split at found
  · next inside =>
    rw [← Option.some.inj found]
    exact home_placed _ _ (bound n inside)
  · contradiction
end AffiniX.TimerWheel
