import AffiniX.ClientRace

/-! The timers of an attempt set, in a group of their own that outlives the set, and the order of its candidates. -/
namespace AffiniX.ClientLoop
open Transition Function List Nat ConnBook

structure Alarms (timers : List ArmedTimer) (sets : Nat) (begun : Nat → Int × Int) : Prop where
  set : ∀ t ∈ timers, ∀ n, t.alarm = .stagger n ∨ t.alarm = .deadline n → n ≤ sets
  due : ∀ t ∈ timers, ∀ n, t.alarm = .deadline n → t.due = (begun n).1+(begun n).2

abbrev Timed (s : ClientLoop) : Prop := Alarms s.timers s.sets s.begun

section
variable {timers : List ArmedTimer} {sets : Nat} {begun : Nat → Int × Int} {t : ArmedTimer}

lemma Alarms.arm (alarms : Alarms timers sets begun)
    (set : ∀ n, t.alarm = .stagger n ∨ t.alarm = .deadline n → n ≤ sets)
    (due : ∀ n, t.alarm = .deadline n → t.due = (begun n).1+(begun n).2) :
    Alarms (timers++[t]) sets begun where
  set u member n named := by
    rcases mem_append.1 member with old | new
    · exact alarms.set u old n named
    rw [mem_singleton.1 new] at named
    exact set n named
  due u member n named := by
    rcases mem_append.1 member with old | new
    · exact alarms.due u old n named
    rw [mem_singleton.1 new] at named ⊢
    exact due n named

lemma Alarms.subset {fewer : List ArmedTimer} (alarms : Alarms timers sets begun)
    (sub : fewer ⊆ timers) : Alarms fewer sets begun :=
  ⟨fun t member => alarms.set t (sub member),fun t member => alarms.due t (sub member)⟩
end
section
variable {s : ClientLoop} (d : Dial)

lemma heSet_timed (timed : Timed s) : Timed (s.heSet d) := by
  have older : ∀ n, n ≤ s.sets → (s.heSet d).begun n = s.begun n := fun n early => update_of_ne (by omega) _ _
  have kept : Alarms s.timers (s.sets+1) (s.heSet d).begun := by
    refine ⟨fun t member n named => le_succ_of_le (timed.set t member n named),?_⟩
    intro t member n named
    rw [older n (timed.set t member n (.inr named))]
    exact timed.due t member n named
  refine kept.arm ?_ ?_
  · rintro n (named | named)
    · cases named
    cases named
    exact le_rfl
  intro n named
  cases named
  have own : (s.heSet d).begun (s.sets+1) = (s.now,s.connectBudget d) := update_self _ _ _
  rw [own]

lemma timed_closed : Closed Timed where
  client _ _ _ timed _ _ := timed
  fewer _ _ timed sub := timed.subset sub
  arm s _ _ alarm timed stagger deadline := by
    refine timed.arm ?_ fun n named => absurd named (deadline n)
    rintro n (named | named)
    · exact le_of_eq (stagger n named)
    · exact absurd named (deadline n)
  set _ d timed := heSet_timed d timed
  rest _ _ _ _ _ timed := timed

lemma connected_timed (a : Nat) (timed : Timed s) : Timed (s.connected a) := by
  unfold connected heWin
  split
  · split
    · split
      · exact timed
      unfold cancelHeGroup
      split
      · exact timed
      · exact timed.subset (filter_subset_self _)
    · exact timed
  · exact timed

lemma step_timed {t : ClientLoop} {m : Move} (timed : Timed s) (taken : s.step m = some t) : Timed t := by
  by_cases connects : ∃ a, m = .connected a
  · obtain ⟨a,rfl⟩ := connects
    obtain ⟨_,rfl⟩ := enabled taken
    exact connected_timed a timed
  · exact timed_closed.step (fun _ _ timed => timed) timed taken fun a same => connects ⟨a,same⟩
end
section
variable {s t : ClientLoop} (d : Dial)

/-- A timer of a set that is called finds no open attempt of another set to close, and is of the
current set or finds it spent. -/
def FindsOwn (s : ClientLoop) : Alarm → Prop
  | .deadline n => (∀ a ∈ s.client.pending, (s.book.conns a).state ≠ .closed → (s.book.conns a).set = n) ∧
    (n = s.sets ∨ Spent s.client)
  | .stagger n => n = s.sets ∨ Spent s.client
  | .connectTimeout _ | .reconnect => True

instance (s : ClientLoop) : (alarm : Alarm) → Decidable (s.FindsOwn alarm)
  | .deadline _ => instDecidableAnd
  | .stagger _ => instDecidableOr
  | .connectTimeout _ | .reconnect => .isTrue trivial

def Isolated (s : ClientLoop) : Move → Prop
  | .fire j _ => ∀ u ∈ s.timers[j]?, s.FindsOwn u.alarm
  | _ => True

instance (s : ClientLoop) : (m : Move) → Decidable (s.Isolated m)
  | .fire j _ => inferInstanceAs (Decidable (∀ u ∈ s.timers[j]?, s.FindsOwn u.alarm))
  | .tick _ | .start _ _ | .resolved _ _ | .connected _ | .refused _ | .close _ _ | .message _
  | .notify _ => .isTrue trivial

lemma heLaunch_book (sockets : List Bool) :
    (heLaunch d sockets s).book = s.book ∨ (heLaunch d sockets s).book = s.book.construct true s.sets := by
  let Same (t : ClientLoop) : Prop := t.book = s.book ∧ t.sets = s.sets
  let Made (t : ClientLoop) : Prop := t.book = s.book ∨ t.book = s.book.construct true s.sets
  refine heLaunch_rule d (P := Same) (N := Same) (Q := Made) (fun _ same _ => .inl same.1)
    (fun _ same _ => same) ?_ (fun _ same => same) (fun _ same => .inl same.1) ?_ sockets ⟨rfl,rfl⟩
  · rintro t ⟨book,sets⟩
    right
    rw [← book,← sets]
    rfl
  rintro t ⟨book,_⟩ _ _
  left
  unfold scheduleReconnect
  split <;> exact book

lemma armStagger_book : s.armStagger.book = s.book := by
  unfold armStagger
  split <;> rfl

lemma closeAll_state (b : ConnBook) (conn : Option Nat) (as : List Nat) (reason : CloseReason) {x : Nat}
    (out : x ∉ as) : ((as.foldl (fun b a => b.close conn a reason) b).conns x).state = (b.conns x).state := by
  induction as generalizing b with
  | nil => rfl
  | cons _ _ ih =>
    obtain ⟨other,out⟩ := not_or.1 (mt mem_cons.2 out)
    rw [foldl_cons,ih _ out,close_state,if_neg fun same => other same.1]

lemma closeAll_born (b : ConnBook) (conn : Option Nat) (as : List Nat) (reason : CloseReason) :
    (as.foldl (fun b a => b.close conn a reason) b).born = b.born := by
  induction as generalizing b with
  | nil => rfl
  | cons _ _ ih => rw [foldl_cons,ih,close_born]

/-- A timer of the set `n` closes attempts of its set whose budget has elapsed, launches attempts of it, and does
nothing once it is not the current set. -/
structure OwnSet (s : ClientLoop) (j n : Nat) (t : ClientLoop) : Prop where
  closed : ∀ a, (s.book.conns a).state ≠ .closed → (t.book.conns a).state = .closed →
    (s.book.conns a).set = n ∧ (s.begun n).1+(s.begun n).2 ≤ s.now
  launched : ∀ a, s.book.born ≤ a → a < t.book.born → (t.book.conns a).set = n
  others : n ≠ s.sets → (Spent t.client ↔ Spent s.client) ∧ t.timers = s.timers.eraseIdx j ∧
    t.client = { s.client with heNext := t.client.heNext }

lemma stagger_ownSet {j n : Nat} (own : s.FindsOwn (.stagger n)) :
    OwnSet s j n (ring { s with timers := s.timers.eraseIdx j } d (.stagger n)) := by
  have book : (ring { s with timers := s.timers.eraseIdx j } d (.stagger n)).book = s.book ∨
      (ring { s with timers := s.timers.eraseIdx j } d (.stagger n)).book = s.book.construct true s.sets := by
    rw [ring,armStagger_book]
    exact heLaunch_book d _
  by_cases spent : Spent s.client
  · -- nothing is left to launch
    have same : ring { s with timers := s.timers.eraseIdx j } d (.stagger n) =
        { s with timers := s.timers.eraseIdx j } := by
      rw [ring,heLaunch_of_spent,armStagger_of_spent]
      · exact spent
      · exact spent
    rw [same]
    exact ⟨fun a open' ended => absurd ended open',fun a old new => absurd new (Nat.not_lt_of_le old),
      fun _ => ⟨.rfl,rfl,rfl⟩⟩
  have current : n = s.sets := own.resolve_right spent
  refine ⟨fun a open' ended => ?_,fun a old new => ?_,fun other => absurd current other⟩
  · rcases book with same | one
    · rw [same] at ended
      exact absurd ended open'
    rw [one,ConnBook.Sound.construct_conns] at ended
    split at ended
    · cases ended
    · exact absurd ended open'
  rcases book with same | one
  · rw [same] at new
    exact absurd new (Nat.not_lt_of_le old)
  rw [one] at new ⊢
  have only : a = s.book.born := Nat.le_antisymm (Nat.le_of_lt_succ new) old
  rw [ConnBook.Sound.construct_conns,if_pos only]
  exact current.symm

lemma deadline_ownSet {j n : Nat} {u : ArmedTimer} (timed : Timed s) (armed : s.timers[j]? = some u)
    (named : u.alarm = .deadline n) (due : u.due ≤ s.now) (own : s.FindsOwn (.deadline n)) :
    OwnSet s j n (ring { s with timers := s.timers.eraseIdx j } d (.deadline n)) := by
  have set := timed.due u (mem_of_getElem? armed) n named
  refine ⟨fun a open' ended => ?_,fun a old new => ?_,fun other => ⟨?_,rfl,rfl⟩⟩
  · have member : a ∈ s.client.pending := not_not.1 fun out => open' (by
      rw [← ended]
      exact (closeAll_state s.book s.client.conn _ _ out).symm)
    exact ⟨own.1 a member open',set ▸ due⟩
  · have born := closeAll_born s.book s.client.conn s.client.pending .connectFailed
    exact absurd (Nat.lt_of_lt_of_eq new born) (Nat.not_lt_of_le old)
  · exact iff_of_true (.inr (le_rfl)) (own.2.resolve_left other)

/-- While no timer of a set finds something of another to act on, timers act on their own set, after its budget. -/
theorem attempt_sets_isolated {happyEyeballs autoReconnect : Bool} {connectTimeout heStagger : Int}
    {moves : List Move} {j n : Nat} {d : Dial} {u : ArmedTimer}
    (run : Exec (Guarded (Via step) Isolated)
      (create happyEyeballs autoReconnect connectTimeout heStagger) moves s)
    (armed : s.timers[j]? = some u) (set : u.alarm = .deadline n ∨ u.alarm = .stagger n)
    (isolated : s.Isolated (.fire j d)) (taken : s.step (.fire j d) = some t) : OwnSet s j n t := by
  have timed : Timed s := run.invariant Timed (fun s m t head timed => step_timed timed head.2) ⟨nofun,nofun⟩
  have own := isolated u armed
  rw [step,armed] at taken
  obtain ⟨due,rfl⟩ := enabled taken
  rcases set with named | named
  · rw [named] at own ⊢
    exact deadline_ownSet d timed armed named due own
  rw [named] at own ⊢
  exact stagger_ownSet d own

end

def setFails : List Move := [.start (.addrs 2) {},.refused 0,.notify {},.refused 1,.notify { delay := 100 }]

theorem laterSet_isolated : ∃ s t, Exec (Guarded (Via step) Isolated)
    (create true true 5000 250) (setFails++[.tick 5000,.fire 0 {},.fire 0 {},.fire 0 {},.tick 5000]) s ∧
      step s (.fire 0 {}) = some t ∧ (s.sets = 2 ∧ (s.book.conns 2).state = .connecting ∧
        (t.book.conns 2).state = .closed) ∧ OwnSet s 0 2 t :=
  Exec.stepped_of_drive (P := fun s t => (s.Isolated (.fire 0 {}) ∧
      s.timers[0]?.map (·.alarm) = some (.deadline 2)) ∧ s.sets = 2 ∧
      (s.book.conns 2).state = .connecting ∧ (t.book.conns 2).state = .closed)
    (by decide +kernel) fun _ _ run taken ⟨⟨isolated,named⟩,seen⟩ => by
      obtain ⟨u,armed,named⟩ := Option.map_eq_some_iff.1 named
      exact ⟨seen,attempt_sets_isolated run armed (.inl named) isolated taken⟩

/-- The retry comes before: a stagger timer of the first set launches for the second, and its deadline closes too
early. -/
theorem staleTimers_act :
    (∃ s t, Exec (Guarded (Via step) fun _ _ => True)
      (create true true 5000 250) (setFails++[.tick 100,.fire 2 {},.tick 150]) s ∧
        step s (.fire 1 {}) = some t ∧ s.timers[1]?.map (·.alarm) = some (.stagger 1) ∧ s.sets = 2 ∧
          s.book.born = 3 ∧ t.book.born = 4 ∧ (t.book.conns 3).set = 2) ∧
    ∃ s t, Exec (Guarded (Via step) fun _ _ => True)
      (create true true 5000 250) (setFails++[.tick 100,.fire 2 {},.tick 4900]) s ∧
        step s (.fire 0 {}) = some t ∧ s.timers[0]?.map (·.alarm) = some (.deadline 1) ∧
          (s.book.conns 2).set = 2 ∧ (s.book.conns 2).state = .connecting ∧
          (t.book.conns 2).state = .closed ∧ s.begun 2 = (100,5000) ∧ s.now = 5000 :=
  ⟨Exec.step_of_drive (by decide +kernel),Exec.step_of_drive (by decide +kernel)⟩

variable {A : Type} (v6 : A → Bool)

def alternate : List A → List A → List A
  | [],[] => []
  | a::v6,[] => a::alternate v6 []
  | [],b::v4 => b::alternate [] v4
  | a::v6,b::v4 => a::b::alternate v6 v4

/-- The order of `he_begin`, which looks at the families alone. -/
def heAddrs (addrs : List A) : List A := alternate (addrs.filter v6) (addrs.filter (!v6 ·))

lemma alternate_spec {s f : List A} (six : ∀ a ∈ s, v6 a) (four : ∀ a ∈ f, v6 a = false) :
    (alternate s f).filter v6 = s ∧ (alternate s f).filter (!v6 ·) = f ∧
    ∀ i < 2*min s.length f.length, (alternate s f)[i]?.map v6 = some (i % 2 == 0) := by
  fun_induction alternate s f with
  | case1 | case2 | case3 => simp_all
  | case4 a s b f ih =>
    obtain ⟨first,six⟩ := forall_mem_cons.1 six
    obtain ⟨second,four⟩ := forall_mem_cons.1 four
    obtain ⟨left,right,turns⟩ := ih six four
    refine ⟨by simp [first,second,left],by simp [first,second,right],fun i early => ?_⟩
    obtain _ | _ | i := i
    · simp [first]
    · simp [second]
    · simpa [Nat.add_assoc] using turns i (by grind)

/-- Every address has its turn, those of a family in their order, and the families alternate while both last. -/
theorem heAddrs_alternates (addrs : List A) : heAddrs v6 addrs ~ addrs ∧
    (heAddrs v6 addrs).filter v6 = addrs.filter v6 ∧ (heAddrs v6 addrs).filter (!v6 ·) = addrs.filter (!v6 ·) ∧
    ∀ i < 2*min (addrs.countP v6) (addrs.countP (!v6 ·)), (heAddrs v6 addrs)[i]?.map v6 = some (i % 2 == 0) := by
  have spec := alternate_spec v6 (s := addrs.filter v6) (f := addrs.filter (!v6 ·)) (by simp) (by simp)
  rw [← countP_eq_length_filter,← countP_eq_length_filter] at spec
  have perm := filter_append_perm v6 (heAddrs v6 addrs)
  rw [heAddrs,spec.1,spec.2.1] at perm
  exact ⟨perm.symm.trans (filter_append_perm v6 addrs),spec⟩
end AffiniX.ClientLoop
