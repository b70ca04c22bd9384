import AffiniX.SilentLosers

/-! Further calls of `start` on a client. -/
namespace AffiniX
open Transition List
namespace ClientLoop

/-- A client without attempts has no candidate of a race left to launch. -/
def Settled (s : ClientLoop) : Prop := s.client.pending ≠ [] ∨ Spent s.client

section
variable {s t : ClientLoop} (d : Dial)

lemma scheduleReconnect_settled (settled : s.Settled) : (s.scheduleReconnect d).Settled := by
  obtain ⟨_,_,same⟩ := scheduleReconnect_eq d s
  exact same ▸ settled

lemma connectNext_settled (sockets : List Bool) (settled : s.Settled) : (connectNext d sockets s).Settled := by
  obtain ⟨_,_,_,_,_,same⟩ := connectNext_eq d sockets s
  exact same ▸ settled

lemma attemptDone_settled {launch : ClientLoop → ClientLoop} (launches : ∀ s, (launch s).Settled) (s : ClientLoop) :
    (heAttemptDone d launch s).Settled := by
  unfold heAttemptDone
  split
  next busy => exact busy.elim (fun won => .inr (.inl won)) .inl
  split
  · exact launches s
  next spent => exact scheduleReconnect_settled d (s := s.setState .disconnected) (.inr (.inr (Nat.le_of_not_lt spent)))

lemma heLaunch_settled (sockets : List Bool) (s : ClientLoop) : (heLaunch d sockets s).Settled := by
  induction sockets generalizing s with
  | nil =>
    rw [heLaunch]
    split
    next spent => exact .inr spent
    · exact .inl (by simp [launchAttempt])
  | cons ok rest ih =>
    rw [heLaunch]
    split
    next spent => exact .inr spent
    cases ok with
    | true => exact .inl (by simp [launchAttempt])
    | false => exact attemptDone_settled d ih _

lemma armStagger_settled (settled : s.Settled) : s.armStagger.Settled := by
  unfold armStagger
  split <;> exact settled

lemma beginConnect_settled (settled : s.Settled) : (s.beginConnect d).Settled := by
  unfold beginConnect
  split
  · exact armStagger_settled (heLaunch_settled d _ _)
  · exact connectNext_settled d (s := s.setClient fun c => { c with addrIdx := 0 }) _ settled

lemma afterGone_settled (reason : CloseReason) (settled : s.Settled) : (s.afterGone reason d).Settled := by
  unfold afterGone
  split
  · split
    · exact connectNext_settled d _ settled
    · exact settled
  split
  · exact scheduleReconnect_settled d settled
  · exact settled

lemma start_settled (how : Owners.Resolution) (settled : s.Settled) : (s.start how d).Settled := by
  cases how with
  | addrs n =>
    exact beginConnect_settled d (s := ({ s with started := true, groups := s.groups+1, group := s.groups+1 }).setClient
      fun c => { c with addrs := n }) settled
  | failed | later => exact settled

lemma step_settled {m : Move} (settled : s.Settled) (taken : s.step m = some t) : t.Settled := by
  cases m with
  | tick =>
    cases taken
    exact settled
  | start how d =>
    rw [step] at taken
    split at taken
    · cases taken
    cases taken
    exact start_settled d how settled
  | resolved addrs d =>
    obtain ⟨_,rfl⟩ := enabled taken
    cases addrs with
    | none =>
      exact scheduleReconnect_settled d
        (s := s.setClient fun c => { c with resolving := false, state := .disconnected }) settled
    | some n => exact beginConnect_settled d (s := s.setClient fun c => { c with resolving := false, addrs := n }) settled
  | connected a =>
    obtain ⟨_,rfl⟩ := enabled taken
    unfold connected
    split
    · unfold heWin
      split
      · split
        · exact settled
        rw [cancelHeGroup_opened,cancelHeGroup]
        split <;> exact .inr (.inl rfl)
      · exact settled
    · exact settled
  | refused | close | message =>
    obtain ⟨_,rfl⟩ := enabled taken
    exact settled
  | notify d =>
    rw [step] at taken
    split at taken
    · cases taken
    cases taken
    unfold onConnGone
    split
    · exact afterGone_settled d _ settled
    split
    · exact afterGone_settled d _ (attemptDone_settled d (heLaunch_settled d _) _)
    split
    · exact afterGone_settled d _ settled
    · exact settled
  | fire j d =>
    rw [step] at taken
    split at taken
    · cases taken
    next u _ =>
    obtain ⟨_,rfl⟩ := enabled taken
    cases u.alarm with
    | connectTimeout a =>
      rw [ring]
      split <;> exact settled
    | reconnect => exact beginConnect_settled d (s := { s with timers := s.timers.eraseIdx j }) settled
    | stagger => exact armStagger_settled (heLaunch_settled d _ _)
    | deadline => exact .inr (.inr le_rfl)
end

def Active (s : ClientLoop) : Prop :=
  s.client.conn ≠ none ∨ s.client.resolving ∨ s.client.pending ≠ [] ∨ s.client.closing ≠ []

instance (s : ClientLoop) : Decidable s.Active := instDecidableOr

def Waiting (s : ClientLoop) : Prop := ∃ t ∈ s.timers, t.alarm = .reconnect

instance (s : ClientLoop) : Decidable s.Waiting := List.decidableBEx _ _

inductive Event
  | client (m : Move)
  | start (how : Owners.Resolution) (d : Dial)

def act (s : ClientLoop) : Event → Option ClientLoop
  | .client m => s.step m
  | .start how d => if s.started then some (if s.Active then s else s.start how d) else none

/-- No further `start` while there is a reconnect timer alone, and no end of an attempt that did not fail taken for the
loss of the connection. -/
def Spaced (s : ClientLoop) : Event → Prop
  | .client m => s.Reclaims m
  | .start _ _ => s.Waiting → s.Active

instance (s : ClientLoop) : (e : Event) → Decidable (s.Spaced e)
  | .client m => inferInstanceAs (Decidable (s.Reclaims m))
  | .start _ _ => instDecidableForall

section
variable {s t : ClientLoop} {how : Owners.Resolution} {d : Dial}

lemma act_idle (settled : s.Settled) (spaced : s.Spaced (.start how d)) (idle : ¬ s.Active) :
    s.client.resolving = false ∧
      s.client.conn = none ∧ s.client.pending = [] ∧ reconnects s.timers = 0 ∧ Spent s.client := by
  simp only [Active,not_or,not_not,Bool.not_eq_true] at idle
  obtain ⟨conn,resolving,pending,closing⟩ := idle
  refine ⟨resolving,conn,pending,countP_eq_zero.2 fun timer armed kind => ?_,settled.resolve_left (not_not.2 pending)⟩
  have active := spaced ⟨timer,armed,of_decide_eq_true kind⟩
  simp [Active,conn,resolving,pending,closing] at active

lemma act_inv {e : Event} (inv : Inv s ∧ s.Settled) (spaced : s.Spaced e) (taken : s.act e = some t) : Inv t ∧ t.Settled := by
  cases e with
  | client m => exact ⟨step_inv inv.1 spaced taken,step_settled inv.2 taken⟩
  | start how d =>
    obtain ⟨_,rfl⟩ := enabled taken
    split
    · exact inv
    next idle =>
      obtain ⟨resolving,idle⟩ := act_idle inv.2 spaced idle
      exact ⟨start_inv how d inv.1 resolving idle,start_settled d how inv.2⟩
end

/-- A further `start` changes nothing where there is anything to find. `on_open` runs once for every established
connection, and none is replaced or closed but by its own close. -/
theorem start_idempotent {happyEyeballs autoReconnect : Bool} {connectTimeout heStagger : Int} {s t : ClientLoop}
    {events : List Event} {e : Event}
    (run : Exec (Guarded (Via act) Spaced)
      (create happyEyeballs autoReconnect connectTimeout heStagger) events s)
    (spaced : s.Spaced e) (taken : s.act e = some t) :
    (∀ how d, e = .start how d → s.Active ∨ s.Waiting → t = s) ∧
    (t.book.opens.Nodup ∧ ∀ a, e = .client (.connected a) → t.book.opens = a::s.book.opens) ∧
    ∀ w, s.client.conn = some w → (∀ d reason rest, e = .client (.notify d) → s.book.deferred ≠ (w,reason)::rest) →
      t.client.conn = some w ∧ ((s.book.conns w).state = .established → (∀ reason, e ≠ .client (.close w reason)) →
        (t.book.conns w).state = .established) := by
  obtain ⟨inv,settled⟩ := run.invariant (fun s => Inv s ∧ s.Settled)
    (fun _ _ _ head inv => act_inv inv head.1 head.2) ⟨create_inv ..,.inr (.inr le_rfl)⟩
  refine ⟨?_,⟨(act_inv ⟨inv,settled⟩ spaced taken).1.book.openedOnce,?_⟩,fun w held other => ?_⟩
  · rintro how d rfl busy
    obtain ⟨_,same⟩ := enabled taken
    rw [← same,if_pos (busy.elim id spaced)]
  · rintro a rfl
    obtain ⟨⟨alive,connecting⟩,rfl⟩ := enabled taken
    exact (connected_opens inv alive connecting).1
  cases e with
  | client m =>
    have kept := step_conn inv spaced taken held fun d reason rest same => other d reason rest (by rw [same])
    exact ⟨kept.1,fun up keeps => kept.2 up fun reason same => keeps reason (by rw [same])⟩
  | start how d =>
    obtain ⟨_,same⟩ := enabled taken
    rw [if_pos (.inl (by simp [held]))] at same
    exact same ▸ ⟨held,fun up _ => up⟩

def dialled : List Event := [.client (.start (.addrs 1) {}),.start (.addrs 1) {},.client (.connected 0)]

theorem dialled_idempotent : ∃ s t, Exec (Guarded (Via act) Spaced) (create false true 5 1) dialled s ∧
    s.act (.start (.addrs 1) {}) = some t ∧ s.book.opens = [0] ∧ t = s :=
  Exec.stepped_of_drive (P := fun s _ => s.book.opens = [0] ∧ s.Spaced (.start (.addrs 1) {}) ∧ s.Active) (by decide +kernel)
    fun _ _ run taken ⟨opens,spaced,active⟩ => ⟨opens,(start_idempotent run spaced taken).1 _ _ rfl (.inl active)⟩

/-- `start` while the client waits to reconnect: the connection that the call leads to is opened, and the
timer of before closes and destroys it. -/
theorem start_while_waiting : ∃ t, Exec (Via act) (create false true 5 1)
    [.client (.start (.addrs 1) {}),.client (.refused 0),.client (.notify { delay := 1 }),.start (.addrs 1) {},
      .client (.connected 1),.client (.tick 1),.client (.fire 1 {})] t ∧
      t.book.opens = [1] ∧ t.book.destroyed = [1,0] ∧ t.client.conn = some 2 :=
  Exec.run_of_drive (by decide +kernel) fun _ _ seen => seen
end ClientLoop
end AffiniX
