import AffiniX.SilentLosers

/-! The state that a client reports, and the connection it holds. -/
namespace AffiniX.ClientLoop
open Transition
section
section
variable (s : ClientLoop)

def RunsOut (d : Dial) : Prop := s.client.addrs ≤ s.client.addrIdx+(d.sockets.takeWhile (!·)).length

instance (d : Dial) : Decidable (s.RunsOut d) := Nat.decLe _ _

def Recovers (reason : CloseReason) (d : Dial) : Prop :=
  if reason = .connectFailed then
    (¬ s.client.happyEyeballs ∨ s.client.heAddrs = 0) ∧ (s.client.autoReconnect ∨ d.built ∨ s.RunsOut d)
  else s.client.autoReconnect = true

instance (reason : CloseReason) (d : Dial) : Decidable (s.Recovers reason d) :=
  inferInstanceAs (Decidable (if reason = .connectFailed then
    (¬ s.client.happyEyeballs ∨ s.client.heAddrs = 0) ∧ (s.client.autoReconnect ∨ d.built ∨ s.RunsOut d)
  else s.client.autoReconnect = true))

def Settles : Move → Prop
  | .notify d => ∀ e ∈ s.book.deferred.head?, s.Quiet e.1 e.2 ∧
    (s.client.conn = some e.1 → s.client.state = .connected → s.Recovers e.2 d)
  | _ => True

instance : (m : Move) → Decidable (s.Settles m)
  | .notify d => inferInstanceAs (Decidable (∀ e ∈ s.book.deferred.head?, s.Quiet e.1 e.2 ∧
    (s.client.conn = some e.1 → s.client.state = .connected → s.Recovers e.2 d)))
  | .tick _ | .start _ _ | .resolved _ _ | .connected _ | .refused _ | .close _ _ | .message _
  | .fire _ _ => .isTrue trivial
end

lemma Settles.reclaims {s : ClientLoop} {m : Move} (settles : s.Settles m) : s.Reclaims m := by
  cases m with
  | notify => exact fun e member => (settles e member).1
  | _ => trivial
end
section
variable {s : ClientLoop} (d : Dial)

def Off (s : ClientLoop) : Prop := s.client.state ≠ .connected

lemma scheduleReconnect_off (off : Off s ∨ s.client.autoReconnect) : Off (s.scheduleReconnect d) := by
  unfold scheduleReconnect
  split
  · nofun
  · exact off.resolve_right ‹_›

lemma openConn_off (off : Off s ∨ s.client.autoReconnect ∨ d.built) : Off (s.openConn d) := by
  unfold openConn
  split
  · nofun
  rcases off with off | auto | built
  · exact scheduleReconnect_off d (.inl off)
  · exact scheduleReconnect_off d (.inr auto)
  · contradiction

lemma dropConn_client (s : ClientLoop) : s.dropConn.client = { s.client with conn := none } := by
  unfold dropConn
  split
  next free => rw [← free]
  · rfl

lemma connectNext_off (sockets : List Bool) (off : Off s ∨ s.client.autoReconnect ∨ d.built ∨
    s.client.addrs ≤ s.client.addrIdx+(sockets.takeWhile (!·)).length) :
    Off (connectNext d sockets s) := by
  have found {s : ClientLoop} (off : Off s ∨ s.client.autoReconnect ∨ d.built) : Off (openConn (dropConn s) d) := by
    apply openConn_off
    unfold Off at *
    rw [dropConn_client]
    exact off
  induction sockets generalizing s with
  | nil =>
    rw [connectNext]
    split
    · exact scheduleReconnect_off d (.inl (by rintro ⟨⟩))
    next left => exact found (off.imp_right fun off => off.imp_right fun off => off.resolve_right left)
  | cons ok _ ih =>
    rw [connectNext]
    split
    · exact scheduleReconnect_off d (.inl (by rintro ⟨⟩))
    next left =>
    cases ok with
    | false =>
      refine ih (off.imp_right fun off => off.imp_right fun off => off.imp_right fun out => ?_)
      simp only [List.takeWhile_cons,Bool.not_false,if_true,List.length_cons] at out
      change s.client.addrs ≤ s.client.addrIdx+1+_
      omega
    | true => exact found (off.imp_right fun off => off.imp_right fun off => off.resolve_right left)

lemma heLaunch_off (sockets : List Bool) (off : Off s) : Off (heLaunch d sockets s) :=
  heLaunch_rule d (P := Off) (N := Off) (Q := Off) (fun _ off _ => off) (fun _ off _ => off)
    (fun _ _ => nofun) (fun _ off => off) (fun _ off => off)
    (fun _ _ _ _ => scheduleReconnect_off d (.inl nofun)) sockets off

lemma armStagger_off (off : Off s) : Off s.armStagger := by
  unfold armStagger
  split <;> exact off

lemma beginConnect_off (off : Off s) : Off (s.beginConnect d) := by
  unfold beginConnect
  split
  · exact armStagger_off (heLaunch_off d _ off)
  · exact connectNext_off d _ (.inl off)
end
section
variable {s t : ClientLoop} {m : Move}

def Holds (s : ClientLoop) : Prop := s.client.state = .connected → ∃ a, s.client.conn = some a ∧ a ∈ s.book.opens

lemma Off.holds (off : Off s) : Holds s := fun on => absurd on off

lemma Holds.off (holds : Holds s) (free : s.client.conn = none) : Off s := by
  intro on
  obtain ⟨a,held,_⟩ := holds on
  cases free.symm.trans held

lemma connGone_off {reason : CloseReason} {b : ConnBook} (d : Dial)
    (recovers : s.client.state = .connected → s.Recovers reason d) :
    Off (afterGone { s with client := { s.client with conn := none }, book := b } reason d) := by
  by_cases on : s.client.state = .connected
  · have back := recovers on
    unfold Recovers at back
    unfold afterGone
    split
    next failed =>
      rw [if_pos failed] at back
      rw [if_pos back.1]
      exact connectNext_off d _ (.inr back.2)
    next ended =>
    rw [if_neg ended] at back
    have moves : s.client.state ≠ .disconnected := by rw [on]; nofun
    rw [if_pos moves]
    exact scheduleReconnect_off d (.inr back)
  unfold afterGone
  split
  · split
    · exact connectNext_off d _ (.inl on)
    · exact on
  split
  · exact scheduleReconnect_off d (.inl on)
  · exact on

lemma heAttemptDone_off (d : Dial) (off : Off s) : Off (heAttemptDone d (heLaunch d d.sockets) s) := by
  unfold heAttemptDone
  split
  · exact off
  split
  · exact heLaunch_off d _ off
  · exact scheduleReconnect_off d (.inl nofun)

lemma onConnGone_holds {a : Nat} {reason : CloseReason} {rest : List (Nat × CloseReason)} (d : Dial)
    (inv : Inv s) (holds : Holds s) (quiet : s.Quiet a reason)
    (recovers : s.client.conn = some a → s.client.state = .connected → s.Recovers reason d) :
    Holds (onConnGone { s with book := { s.book with deferred := rest } } a reason d) := by
  by_cases held : s.client.conn = some a
  · unfold onConnGone
    rw [if_pos held]
    exact (connGone_off d (recovers held)).holds
  by_cases member : a ∈ s.client.pending
  · have free := inv.control.racing (.inl (List.ne_nil_of_mem member))
    rw [onConnGone_of_attempt d inv held member quiet]
    refine Off.holds (heAttemptDone_off d ?_)
    exact holds.off free.conn
  by_cases losing : a ∈ s.client.closing
  · rw [onConnGone_of_loser d inv held losing quiet]
    exact holds
  unfold onConnGone
  rw [if_neg held,if_neg member,if_neg losing]
  exact holds

lemma close_holds (holds : Holds s) (a : Nat) (reason : CloseReason) : Holds (s.close a reason) := by
  intro on
  obtain ⟨x,held,opened⟩ := holds on
  exact ⟨x,held,(ConnBook.close_opens _ _ _ _).symm ▸ opened⟩

lemma ring_holds {j : Nat} {u : ArmedTimer} (d : Dial) (inv : Inv s) (holds : Holds s)
    (armed : s.timers[j]? = some u) : Holds (ring { s with timers := s.timers.eraseIdx j } d u.alarm) := by
  cases named : u.alarm with
  | connectTimeout a =>
    rw [ring]
    split
    · exact close_holds holds a _
    · exact holds
  | reconnect =>
    obtain ⟨ready,_⟩ := fired_ready inv armed named
    refine Off.holds (beginConnect_off d ?_)
    exact holds.off ready.conn
  | stagger =>
    by_cases spent : Spent s.client
    · rw [ring,heLaunch_of_spent,armStagger_of_spent]
      · exact holds
      · exact spent
      · exact spent
    have free := inv.control.racing (.inr spent)
    refine Off.holds (armStagger_off (heLaunch_off d _ ?_))
    exact holds.off free.conn
  | deadline =>
    intro on
    obtain ⟨x,held,opened⟩ := holds on
    have kept := closeAll_kept s.book s.client.conn s.client.pending .connectFailed x
    exact ⟨x,held,kept.1 ▸ opened⟩

lemma step_holds (inv : Inv s) (holds : Holds s) (settles : s.Settles m) (taken : s.step m = some t) : Holds t := by
  cases m with
  | tick =>
    cases taken
    exact holds
  | start how d =>
    obtain ⟨fresh,same⟩ := Option.ite_none_left_eq_some.1 taken
    cases same
    have off := holds.off (inv.control.early (.inr (Bool.eq_false_iff.2 fresh))).1
    cases how with
    | addrs =>
      refine Off.holds (beginConnect_off d ?_)
      exact off
    | failed => exact holds
    | later => exact Off.holds nofun
  | resolved addrs d =>
    obtain ⟨resolving,rfl⟩ := enabled taken
    have off := holds.off (inv.control.early (.inl resolving)).1
    cases addrs with
    | none =>
      refine Off.holds (scheduleReconnect_off d (.inl ?_))
      nofun
    | some =>
      refine Off.holds (beginConnect_off d ?_)
      exact off
  | connected a =>
    obtain ⟨⟨alive,connecting⟩,rfl⟩ := enabled taken
    obtain ⟨opens,held,_⟩ := connected_opens inv alive connecting
    exact fun _ => ⟨a,held,opens ▸ List.mem_cons_self⟩
  | refused a =>
    obtain ⟨_,rfl⟩ := enabled taken
    exact close_holds holds a _
  | close a reason =>
    obtain ⟨_,rfl⟩ := enabled taken
    exact close_holds holds a reason
  | message =>
    obtain ⟨_,rfl⟩ := enabled taken
    exact holds
  | notify d =>
    rw [step] at taken
    split at taken
    · cases taken
    next a reason _ next =>
    cases taken
    obtain ⟨quiet,recovers⟩ := settles (a,reason) (by rw [next]; rfl)
    exact onConnGone_holds d inv holds quiet recovers
  | fire j d =>
    rw [step] at taken
    split at taken
    · cases taken
    next armed =>
    obtain ⟨_,rfl⟩ := enabled taken
    exact ring_holds d inv holds armed

structure Agrees (s : ClientLoop) : Prop where
  connected : s.client.state = .connected ↔ ∃ a, s.client.conn = some a ∧ a ∈ s.book.opens ∧ a ∉ s.book.destroyed
  quiet : s.client.state = .connected → reconnects s.timers = 0
  single : reconnects s.timers ≤ 1

lemma Inv.agrees (inv : Inv s) (holds : Holds s) : Agrees s where
  connected := by
    constructor
    · intro on
      obtain ⟨a,held,opened⟩ := holds on
      have alive := (inv.book.current a held).1
      refine ⟨a,held,opened,fun gone => ?_⟩
      cases alive.symm.trans ((inv.book.destroyed a).1 gone).2
    rintro ⟨a,held,opened,_⟩
    exact inv.shown.state a held opened
  quiet on := by
    obtain ⟨a,held,_⟩ := holds on
    exact not_not.1 fun waits => nomatch (inv.control.waits waits).1.symm.trans held
  single := inv.control.single

/-- The state of the client agrees with its connection if the end of an established one makes it retry and that of a
lost attempt does not. -/
theorem state_agrees {happyEyeballs autoReconnect : Bool} {connectTimeout heStagger : Int}
    {moves : List Move} (run : Exec (Guarded (Via step) Settles)
      (create happyEyeballs autoReconnect connectTimeout heStagger) moves s) : Agrees s := by
  have both : Inv s ∧ Holds s := by
    refine run.invariant (fun s => Inv s ∧ Holds s) ?_ ⟨create_inv _ _ _ _,nofun⟩
    rintro s m t ⟨settles,taken⟩ ⟨inv,holds⟩
    exact ⟨step_inv inv settles.reclaims taken,step_holds inv holds settles taken⟩
  exact both.1.agrees both.2

end

def peerEnds : List Move := [.start (.addrs 1) {},.connected 0,.close 0 .peerFin,.notify {}]

theorem peerEnds_agrees : ∃ s, Exec (Guarded (Via step) Settles)
    (create false true 5000 250) peerEnds s ∧
      (s.client.state = .reconnectWait ∧ s.client.conn = none ∧ reconnects s.timers = 1) ∧
      Agrees s :=
  Exec.seen_of_drive (by decide +kernel) fun _ run _ => state_agrees run

/-- Without retries a connection is reported after its end; with retries, losers arm one each while it is established.
-/
theorem state_disagrees :
    (∃ s, Exec (Guarded (Via step) fun _ _ => True)
      (create false false 5000 250) peerEnds s ∧ s.client.state = .connected ∧ s.client.conn = none) ∧
    (∃ s, Exec (Guarded (Via step) fun _ _ => True) (create true true 5000 250)
      [.start (.addrs 2) {},.connected 0,.close 0 .connectFailed,.notify {}] s ∧
        s.client.state = .connected ∧ s.client.conn = none ∧ reconnects s.timers = 0) ∧
    ∃ s, Exec (Guarded (Via step) fun _ _ => True)
      (create true true 5000 250) [.start (.addrs 3) {},.tick 250,.fire 1 {},.tick 250,.fire 1 {},
        .connected 0,.notify {},.notify {}] s ∧
        s.client.state = .reconnectWait ∧ s.client.conn = some 0 ∧ s.book.opens = [0] ∧
          s.book.destroyed = [2,1] ∧ reconnects s.timers = 2 :=
  ⟨Exec.end_of_drive (by decide +kernel),Exec.end_of_drive (by decide +kernel), Exec.end_of_drive (by decide +kernel)⟩

end AffiniX.ClientLoop
