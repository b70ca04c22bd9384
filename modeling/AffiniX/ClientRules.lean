import AffiniX.ClientBook

/-! Rules for what the operations of a client keep, and for the loop over the candidates of a set. -/
namespace AffiniX.ClientLoop
open Transition

def Spent (c : TcpClient) : Prop := c.heWon ∨ c.heAddrs ≤ c.heNext

instance (c : TcpClient) : Decidable (Spent c) := instDecidableOr

section
lemma closeAll_kept (b : ConnBook) (conn : Option Nat) (as : List Nat) (reason : CloseReason) (x : Nat) :
    let after := as.foldl (fun b a => b.close conn a reason) b
    after.opens = b.opens ∧ (after.conns x).attempt = (b.conns x).attempt ∧ (after.conns x).set = (b.conns x).set := by
  induction as generalizing b with
  | nil => exact ⟨rfl,rfl,rfl⟩
  | cons a _ ih => simpa using ih (b.close conn a reason)
end
section
variable {s : ClientLoop} (d : Dial)

lemma heLaunch_of_spent (sockets : List Bool) (spent : Spent s.client) : heLaunch d sockets s = s := by
  cases sockets with
  | nil => exact if_pos spent
  | cons =>
    rw [heLaunch]
    exact if_pos spent

lemma armStagger_of_spent (spent : Spent s.client) : s.armStagger = s := by exact if_pos spent

lemma scheduleReconnect_eq (s : ClientLoop) : ∃ state timers,
    s.scheduleReconnect d = { s with client := { s.client with state := state }, timers := timers } := by
  unfold scheduleReconnect
  split
  · exact ⟨.reconnectWait,_,rfl⟩
  · exact ⟨s.client.state,s.timers,rfl⟩

lemma dropConn_eq (s : ClientLoop) : ∃ book, book.born = s.book.born ∧
    s.dropConn = { s with client := { s.client with conn := none }, book := book } := by
  unfold dropConn
  split
  next free => exact ⟨s.book,rfl,by rw [← free]⟩
  next a _ => exact ⟨(s.book.close s.client.conn a .localClose).destroy a,ConnBook.close_born ..,rfl⟩

lemma openConn_eq (s : ClientLoop) : ∃ conn state timers book,
    s.dropConn.openConn d =
      { s with client := { s.client with conn := conn, state := state }, timers := timers, book := book } := by
  obtain ⟨book,_,same⟩ := dropConn_eq s
  rw [same,openConn]
  split
  · exact ⟨_,_,_,_,rfl⟩
  · obtain ⟨_,_,same⟩ := scheduleReconnect_eq d { s with client := { s.client with conn := none }, book := book }
    exact ⟨_,_,_,_,same⟩

/-- `connect_next` is about the one connection: the attempts, the addresses and the resolution are left alone. -/
lemma connectNext_eq (sockets : List Bool) (s : ClientLoop) : ∃ conn state addrIdx timers book,
    connectNext d sockets s = { s with
      client := { s.client with conn := conn, state := state, addrIdx := addrIdx }, timers := timers, book := book } := by
  have retry (s : ClientLoop) : ∃ state timers, (s.setState .disconnected).scheduleReconnect d =
      { s with client := { s.client with state := state }, timers := timers } :=
    scheduleReconnect_eq d (s.setState .disconnected)
  induction sockets generalizing s with
  | nil =>
    rw [connectNext]
    split
    · obtain ⟨_,_,same⟩ := retry s
      exact ⟨_,_,_,_,_,same⟩
    · obtain ⟨_,_,_,_,same⟩ := openConn_eq d (s.setClient fun c => { c with addrIdx := c.addrIdx+1 })
      exact ⟨_,_,_,_,_,same⟩
  | cons ok rest ih =>
    rw [connectNext]
    split
    · obtain ⟨_,_,same⟩ := retry s
      exact ⟨_,_,_,_,_,same⟩
    cases ok with
    | false =>
      obtain ⟨_,_,_,_,_,same⟩ := ih (s.setClient fun c => { c with addrIdx := c.addrIdx+1 })
      exact ⟨_,_,_,_,_,same⟩
    | true =>
      obtain ⟨_,_,_,_,same⟩ := openConn_eq d (s.setClient fun c => { c with addrIdx := c.addrIdx+1 })
      exact ⟨_,_,_,_,_,same⟩

lemma heLaunch_rule {P N Q : ClientLoop → Prop} (spent : ∀ s, P s → Spent s.client → Q s)
    (next : ∀ s, P s → ¬ Spent s.client → N (s.setClient fun c => { c with heNext := c.heNext+1 }))
    (launch : ∀ s, N s → Q s.launchAttempt) (again : ∀ s, N s → P s) (stay : ∀ s, N s → Q s)
    (retry : ∀ s, N s → s.client.pending = [] → Spent s.client → Q ((s.setState .disconnected).scheduleReconnect d))
    (sockets : List Bool) (before : P s) : Q (heLaunch d sockets s) := by
  induction sockets generalizing s with
  | nil =>
    rw [heLaunch]
    split
    · exact spent s before ‹_›
    · exact launch _ (next s before ‹_›)
  | cons ok rest ih =>
    rw [heLaunch]
    split
    · exact spent s before ‹_›
    have taken := next s before ‹_›
    cases ok with
    | true => exact launch _ taken
    | false =>
      change Q (heAttemptDone d (heLaunch d rest) _)
      unfold heAttemptDone
      split
      · exact stay _ taken
      next idle =>
      split
      · exact ih (again _ taken)
      · exact retry _ taken (not_not.1 (not_or.1 idle).2) (.inr (Nat.le_of_not_lt ‹_›))
end

/-- Survives any change of the client but of its addresses, of the books but of `opens`, and timers taken out or armed
as the client does. -/
structure Closed (P : ClientLoop → Prop) : Prop where
  client : ∀ s c b, P s → c.addrs = s.client.addrs → b.opens = s.book.opens → P { s with client := c, book := b }
  fewer : ∀ s timers, P s → timers ⊆ s.timers → P { s with timers := timers }
  arm : ∀ s due group alarm, P s → (∀ n, alarm = .stagger n → n = s.sets) →
    (∀ n, alarm ≠ .deadline n) → P (s.arm due group alarm)
  set : ∀ s d, P s → P (s.heSet d)
  rest : ∀ s started now groups group, P s →
    P { s with started := started, now := now, groups := groups, group := group }

namespace Closed
variable {P : ClientLoop → Prop} {s : ClientLoop} (d : Dial)
variable (closed : Closed P)
include closed

lemma scheduleReconnect (before : P s) : P (s.scheduleReconnect d) := by
  unfold ClientLoop.scheduleReconnect
  split
  · exact closed.arm _ _ _ _ (closed.client s _ _ before rfl rfl) nofun nofun
  · exact before

lemma dropConn (before : P s) : P s.dropConn := by
  unfold ClientLoop.dropConn
  split
  · exact before
  · exact closed.client s _ _ before rfl (ConnBook.close_opens _ _ _ _)

lemma openConn (before : P s) : P (s.openConn d) := by
  unfold ClientLoop.openConn
  split
  · have made : P { s with
        client := { s.client with conn := some s.book.born, state := .connecting }
        book := s.book.construct false s.sets } :=
      closed.client s _ _ before rfl rfl
    exact closed.arm _ _ _ _ made nofun nofun
  · exact closed.scheduleReconnect d before

lemma connectNext (sockets : List Bool) (before : P s) : P (connectNext d sockets s) := by
  have retry (s : ClientLoop) (before : P s) : P ((s.setState .disconnected).scheduleReconnect d) :=
    closed.scheduleReconnect d (closed.client s _ _ before rfl rfl)
  induction sockets generalizing s with
  | nil =>
    rw [ClientLoop.connectNext]
    split
    · exact retry s before
    · exact closed.openConn d (closed.dropConn (closed.client s _ _ before rfl rfl))
  | cons ok _ ih =>
    rw [ClientLoop.connectNext]
    split
    · exact retry s before
    cases ok with
    | false => exact ih (closed.client s _ _ before rfl rfl)
    | true => exact closed.openConn d (closed.dropConn (closed.client s _ _ before rfl rfl))

lemma heLaunch (sockets : List Bool) (before : P s) : P (heLaunch d sockets s) :=
  heLaunch_rule d (fun _ before _ => before) (fun s before _ => closed.client s _ _ before rfl rfl)
    (fun s before => closed.client s _ _ before rfl rfl) (fun _ before => before)
    (fun _ before => before)
    (fun s before _ _ => closed.scheduleReconnect d (closed.client s _ _ before rfl rfl)) sockets before

lemma armStagger (before : P s) : P s.armStagger := by
  unfold ClientLoop.armStagger
  split
  · exact before
  refine closed.arm s _ _ _ before ?_ nofun
  rintro n ⟨⟩
  rfl

lemma beginConnect (before : P s) : P (s.beginConnect d) := by
  have first := closed.client s { s.client with addrIdx := 0 } s.book before rfl rfl
  unfold ClientLoop.beginConnect
  split
  · exact closed.armStagger (closed.heLaunch d _ (closed.set _ d first))
  · exact closed.connectNext d _ first

lemma afterGone (reason : CloseReason) (before : P s) : P (s.afterGone reason d) := by
  unfold ClientLoop.afterGone
  split
  · split
    · exact closed.connectNext d _ before
    · exact before
  split
  · exact closed.scheduleReconnect d before
  · exact before

lemma onConnGone (a : Nat) (reason : CloseReason) (before : P s) : P (s.onConnGone a reason d) := by
  have gone (c : TcpClient) (named : c.addrs = s.client.addrs) : P { s with client := c, book := s.book.destroy a } :=
    closed.client s c _ before named rfl
  unfold ClientLoop.onConnGone
  split
  · exact closed.afterGone d reason (gone _ rfl)
  split
  · refine closed.afterGone d reason ?_
    have out := gone { s.client with pending := s.client.pending.erase a } rfl
    unfold heAttemptDone
    split
    · exact out
    split
    · exact closed.heLaunch d _ out
    · exact closed.scheduleReconnect d (closed.client _ _ _ out rfl rfl)
  split
  · exact closed.afterGone d reason (gone _ rfl)
  · exact before

lemma ring (alarm : Alarm) (before : P s) : P (s.ring d alarm) := by
  cases alarm with
  | connectTimeout =>
    rw [ClientLoop.ring]
    split
    · exact closed.client s _ _ before rfl (ConnBook.close_opens _ _ _ _)
    · exact before
  | reconnect => exact closed.beginConnect d before
  | stagger => exact closed.armStagger (closed.heLaunch d _ before)
  | deadline =>
    exact closed.client s _ _ before rfl (closeAll_kept s.book s.client.conn s.client.pending .connectFailed 0).1

lemma step {t : ClientLoop} {m : Move} (named : ∀ s n, P s → P (s.setClient fun c => { c with addrs := n })) (before : P s)
    (taken : s.step m = some t) (other : ∀ a, m ≠ .connected a) : P t := by
  cases m with
  | tick =>
    cases taken
    exact closed.rest s _ _ _ _ before
  | start how d =>
    obtain ⟨_,same⟩ := Option.ite_none_left_eq_some.1 taken
    cases same
    have begun := closed.rest s true s.now (s.groups+1) (s.groups+1) before
    cases how with
    | addrs n => exact closed.beginConnect d (named _ n begun)
    | failed => exact begun
    | later => exact closed.client _ _ _ begun rfl rfl
  | resolved addrs d =>
    obtain ⟨_,rfl⟩ := enabled taken
    cases addrs with
    | none => exact closed.scheduleReconnect d (closed.client s _ _ before rfl rfl)
    | some n => exact closed.beginConnect d (named _ n (closed.client s { s.client with resolving := false } _ before rfl rfl))
  | connected a => exact absurd rfl (other a)
  | refused | close =>
    obtain ⟨_,rfl⟩ := enabled taken
    exact closed.client s _ _ before rfl (ConnBook.close_opens _ _ _ _)
  | message =>
    obtain ⟨_,rfl⟩ := enabled taken
    exact closed.client s _ _ before rfl rfl
  | notify d =>
    rw [ClientLoop.step] at taken
    split at taken
    · cases taken
    cases taken
    exact closed.onConnGone d _ _ (closed.client s _ _ before rfl rfl)
  | fire j d =>
    rw [ClientLoop.step] at taken
    split at taken
    · cases taken
    obtain ⟨_,rfl⟩ := enabled taken
    exact closed.ring d _ (closed.fewer s _ before List.eraseIdx_subset)
end Closed
end AffiniX.ClientLoop
