import AffiniX.ClientRace

/-! Happy Eyeballs has one winner, if the end of a lost attempt is not taken for the loss of the connection. -/
namespace AffiniX.ClientLoop
open Transition
section
variable {s t : ClientLoop} {m : Move}

structure OneWinner (s : ClientLoop) : Prop where
  single : ∀ a ∈ s.book.opens, ∀ c ∈ s.book.opens, (s.book.conns a).attempt →
    (s.book.conns c).attempt → (s.book.conns a).set = (s.book.conns c).set → a = c
  promoted : ∀ a, s.client.conn = some a → (s.book.conns a).attempt → a ∈ s.book.opens
  winner : s.client.heWon → ∃ a ∈ s.book.opens, (s.book.conns a).attempt ∧ (s.book.conns a).set = s.sets
  openedOnce : s.book.opens.Nodup
  silent : ∀ a ∈ s.book.handled, (s.book.conns a).attempt → a ∈ s.book.opens
  destroyedOnce : s.book.destroyed.Nodup
  fate : ∀ a < s.book.born, (s.book.conns a).attempt → a ∉ s.book.opens →
    a ∈ s.client.pending ∧ (s.book.conns a).set = s.sets ∨
    a ∈ s.client.closing ∧ (∃ reason, (a,reason) ∈ s.book.deferred) ∨ a ∈ s.book.destroyed

/-- `on_open` is called for what is promoted, the end of a loser only destroys it, and a connection stays until it ends
itself. -/
structure Undisturbed (s : ClientLoop) (m : Move) (t : ClientLoop) : Prop where
  opens : t.book.opens = s.book.opens ∨ ∃ a, m = .connected a ∧ t.book.opens = a::s.book.opens ∧
    t.client.conn = some a ∧ t.client.state = .connected
  loser : ∀ d a reason rest, m = .notify d → s.book.deferred = (a,reason)::rest →
    a ∈ s.client.closing → t.timers = s.timers ∧ t.book.destroyed = a::s.book.destroyed ∧
      t.client = { s.client with closing := s.client.closing.erase a }
  kept : ∀ w, s.client.conn = some w → (∀ d reason rest, m = .notify d → s.book.deferred ≠ (w,reason)::rest) →
    t.client.conn = some w ∧ reconnects t.timers = 0 ∧
      (w ∈ s.book.opens → s.client.state = .connected ∧ t.client.state = .connected)

lemma Inv.oneWinner (inv : Inv s) : OneWinner s where
  single := inv.book.single
  promoted a held := (inv.book.current a held).2.2.2
  winner := inv.shown.winner
  openedOnce := inv.book.openedOnce
  silent a member := (inv.book.handled a member).2
  destroyedOnce := inv.book.once
  fate a made attempt unopened := by
    by_cases alive : (s.book.conns a).alive
    · rcases inv.book.owned a alive with held | member | member
      · exact absurd ((inv.book.current a held).2.2.2 attempt) unopened
      · exact .inl ⟨member,(inv.book.trying a member).2.2.1⟩
      · exact .inr (.inl ⟨member,inv.book.told a alive (inv.book.losing a member).2.2.1⟩)
    · exact .inr (.inr ((inv.book.destroyed a).2 ⟨made,Bool.eq_false_iff.2 alive⟩))

lemma connected_opens {a : Nat} (inv : Inv s) (alive : (s.book.conns a).alive)
    (connecting : (s.book.conns a).state = .connecting) : (s.connected a).book.opens = a::s.book.opens ∧
    (s.connected a).client.conn = some a ∧ (s.connected a).client.state = .connected := by
  unfold connected
  split
  next attempt =>
    have member := inv.book.pending_of_connecting alive attempt connecting
    have unwon : ¬ s.client.heWon := fun won => List.ne_nil_of_mem member (inv.control.won won)
    have kept := closeAll_kept (s.book.establish a) (some a) (s.client.pending.erase a) .localClose a
    unfold heWin
    rw [if_pos member,if_neg unwon]
    unfold cancelHeGroup
    refine ⟨?_,?_,rfl⟩
    · split <;> exact congrArg (a::·) kept.1
    · split <;> rfl
  next sequential => exact ⟨rfl,inv.book.current_of_sequential alive (Bool.eq_false_iff.2 sequential),rfl⟩

lemma opens_closed (opens : List Nat) : Closed fun s => s.book.opens = opens where
  client _ _ _ before _ same := same.trans before
  fewer _ _ before _ := before
  arm _ _ _ _ before _ _ := before
  set _ _ before := before
  rest _ _ _ _ _ before := before

lemma step_opens (inv : Inv s) (taken : s.step m = some t) : t.book.opens = s.book.opens ∨ ∃ a, m = .connected a ∧
    t.book.opens = a::s.book.opens ∧ t.client.conn = some a ∧ t.client.state = .connected := by
  by_cases connects : ∃ a, m = .connected a
  · obtain ⟨a,rfl⟩ := connects
    obtain ⟨⟨alive,connecting⟩,rfl⟩ := enabled taken
    exact .inr ⟨a,rfl,connected_opens inv alive connecting⟩
  · exact .inl ((opens_closed _).step (fun _ _ same => same) rfl taken fun a same => connects ⟨a,same⟩)

lemma step_loser (inv : Inv s) (reclaims : s.Reclaims m) (taken : s.step m = some t) (d : Dial) (a : Nat)
    (reason : CloseReason) (rest : List (Nat × CloseReason)) (notified : m = .notify d)
    (next : s.book.deferred = (a,reason)::rest) (member : a ∈ s.client.closing) : t.timers = s.timers ∧
    t.book.destroyed = a::s.book.destroyed ∧ t.client = { s.client with closing := s.client.closing.erase a } := by
  subst notified
  have quiet : s.Quiet a reason := reclaims (a,reason) (by rw [next]; rfl)
  have other : s.client.conn ≠ some a := fun held => (inv.book.current a held).2.2.1 member
  rw [step,next] at taken
  cases taken
  rw [onConnGone_of_loser d inv other member quiet]
  exact ⟨rfl,rfl,rfl⟩

lemma step_conn (inv : Inv s) (reclaims : s.Reclaims m) (taken : s.step m = some t) {w : Nat}
    (held : s.client.conn = some w) (other : ∀ d reason rest, m = .notify d → s.book.deferred ≠ (w,reason)::rest) :
    t.client.conn = some w ∧ ((s.book.conns w).state = .established → (∀ reason, m ≠ .close w reason) →
      (t.book.conns w).state = .established) := by
  have some' : s.client.conn ≠ none := by simp [held]
  obtain ⟨idle,spent⟩ := inv.control.held some'
  have closed {a : Nat} {reason : CloseReason} (up : (s.book.conns w).state = .established) (other : w ≠ a) :
      ((s.book.close s.client.conn a reason).conns w).state = .established := by
    rw [ConnBook.close_state,if_neg fun same => other same.1]
    exact up
  cases m with
  | tick =>
    cases taken
    exact ⟨held,fun up _ => up⟩
  | start =>
    obtain ⟨fresh,_⟩ := Option.ite_none_left_eq_some.1 taken
    exact absurd (inv.control.early (.inr (Bool.eq_false_iff.2 fresh))).1 some'
  | resolved =>
    obtain ⟨resolving,_⟩ := Option.ite_none_right_eq_some.1 taken
    exact absurd (inv.control.early (.inl resolving)).1 some'
  | connected a =>
    obtain ⟨⟨alive,connecting⟩,rfl⟩ := enabled taken
    by_cases attempt : (s.book.conns a).attempt
    · exact absurd idle (List.ne_nil_of_mem (inv.book.pending_of_connecting alive attempt connecting))
    unfold connected
    rw [if_neg attempt]
    refine ⟨held,fun up _ => ?_⟩
    simp only [opened,setState,setClient,ConnBook.Sound.establish_conns]
    split
    · rfl
    · exact up
  | refused a =>
    obtain ⟨⟨_,connecting⟩,rfl⟩ := enabled taken
    exact ⟨held,fun up _ => closed up (fun same => by rw [same,connecting] at up; cases up)⟩
  | close a reason =>
    obtain ⟨_,rfl⟩ := enabled taken
    exact ⟨held,fun up keeps => closed up fun same => keeps reason (by rw [same])⟩
  | message =>
    obtain ⟨_,rfl⟩ := enabled taken
    exact ⟨held,fun up _ => up⟩
  | notify d =>
    rw [step] at taken
    split at taken
    · cases taken
    next a reason rest next =>
    cases taken
    have apart : s.client.conn ≠ some a := by
      rw [held]
      rintro ⟨⟩
      exact other d reason rest rfl next
    by_cases losing : a ∈ s.client.closing
    · rw [onConnGone_of_loser d inv apart losing (reclaims (a,reason) (by rw [next]; rfl))]
      refine ⟨held,fun up _ => ?_⟩
      rw [ConnBook.Sound.destroy_conns]
      split
      next same => exact same ▸ up
      · exact up
    have out : a ∉ s.client.pending := by simp [idle]
    unfold onConnGone
    rw [if_neg apart,if_neg out,if_neg losing]
    exact ⟨held,fun up _ => up⟩
  | fire =>
    rw [step] at taken
    split at taken
    · cases taken
    next u armed =>
    obtain ⟨_,rfl⟩ := enabled taken
    cases named : u.alarm with
    | connectTimeout a =>
      rw [ring]
      split
      next connecting => exact ⟨held,fun up _ => closed up (fun same => by rw [same,connecting] at up; cases up)⟩
      · exact ⟨held,fun up _ => up⟩
    | reconnect => exact absurd (fired_ready inv armed named).1.conn some'
    | stagger =>
      rw [ring,heLaunch_of_spent,armStagger_of_spent]
      · exact ⟨held,fun up _ => up⟩
      · exact spent
      · exact spent
    | deadline =>
      refine ⟨held,fun up _ => ?_⟩
      simp only [ring,heTimeout,idle,List.foldl_nil]
      exact up

lemma step_undisturbed (inv : Inv s) (reclaims : s.Reclaims m) (taken : s.step m = some t) : Undisturbed s m t where
  opens := step_opens inv taken
  loser := step_loser inv reclaims taken
  kept w held other := by
    have after := step_inv inv reclaims taken
    have same := (step_conn inv reclaims taken held other).1
    refine ⟨same,not_not.1 fun waits => ?_,fun opened => ⟨inv.shown.state w held opened,?_⟩⟩
    · cases (after.control.waits waits).1.symm.trans same
    apply after.shown.state w same
    rcases step_opens inv taken with old | ⟨a,_,new,_⟩
    · rw [old]
      exact opened
    rw [new]
    exact List.mem_cons_of_mem _ opened

/-- At most one attempt of a set is promoted; the application is told of it once and of no other, and only its end
takes it away. -/
theorem race_has_one_winner {happyEyeballs autoReconnect : Bool} {connectTimeout heStagger : Int}
    {moves : List Move} (run : Exec (Guarded (Via step) Reclaims)
      (create happyEyeballs autoReconnect connectTimeout heStagger) moves s) :
    OneWinner s ∧ ∀ m t, s.Reclaims m → s.step m = some t → Undisturbed s m t := by
  have inv : Inv s := run.invariant Inv (fun s m t head inv => step_inv inv head.1 head.2) (create_inv _ _ _ _)
  exact ⟨inv.oneWinner,fun m t reclaims taken => step_undisturbed inv reclaims taken⟩

end

def firstWins : List Move := [.start (.addrs 2) {},.tick 250,.fire 1 {},.connected 0]

theorem firstWins_undisturbed : ∃ s t, Exec (Guarded (Via step) Reclaims)
    (create true false 5000 250) firstWins s ∧ step s (.notify {}) = some t ∧
      (s.client.conn = some 0 ∧ s.client.closing = [1] ∧ t.book.destroyed = [1]) ∧
      OneWinner s ∧ Undisturbed s (.notify {}) t := by
  refine Exec.stepped_of_drive (P := fun s t => s.Reclaims (.notify {}) ∧
    s.client.conn = some 0 ∧ s.client.closing = [1] ∧ t.book.destroyed = [1]) (by decide +kernel) ?_
  rintro s t run taken ⟨reclaims,seen⟩
  obtain ⟨winner,next⟩ := race_has_one_winner run
  exact ⟨seen,winner,next _ t reclaims taken⟩

/-- With retries the notification about a loser leaves `Connected` and arms a retry, whose race replaces an established
connection. -/
theorem loser_arms_retry :
    (∃ s t, Exec (Guarded (Via step) fun _ _ => True)
      (create true true 5000 250) firstWins s ∧ step s (.notify {}) = some t ∧
        s.client.conn = some 0 ∧ s.client.state = .connected ∧ s.client.closing = [1] ∧
        t.client.conn = some 0 ∧ t.client.state = .reconnectWait ∧ reconnects t.timers = 1) ∧
    ∃ s t, Exec (Guarded (Via step) fun _ _ => True)
      (create true true 5000 250) (firstWins++[.notify {},.fire 0 {}]) s ∧ step s (.connected 2) = some t ∧
        s.client.conn = some 0 ∧ t.client.conn = some 2 ∧
        (t.book.conns 0).alive ∧ (t.book.conns 0).state = .established :=
  ⟨Exec.step_of_drive (by decide +kernel),Exec.step_of_drive (by decide +kernel)⟩

end AffiniX.ClientLoop
