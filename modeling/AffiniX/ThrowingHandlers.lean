import AffiniX.ConnectionLifecycle
import AffiniX.ReadStall

/-! Handlers that throw. `invoke_guarded` ends the dispatch: what the connection does after the handler is left out. -/
namespace AffiniX
open Transition Connection

/-- A connection with an idle timeout; `idle` is whether its timer is armed, until it closes. -/
structure Throwing (M : Type) where
  conn : Connection M
  idle : Bool := false

namespace Throwing
variable {M : Type}

def armsIdle (c : Connection M) : Event → Bool
  | .resume => c.point == .opening || c.point == .fds
  | .call .shutdownWrite => c.state == .established
  | .recvDone _ (.data _) a =>
    c.state == .established && !(a.hasFds || a.fdTrunc) || c.state == .shutdownWrite && !c.coro.on
  | .recvDone _ .again _ | .recvDone _ .canceled _ => c.state == .shutdownWrite && !c.coro.on
  | _ => false

def calling (c : Connection M) : Bool := match c.point with
  | .opening | .fds => true
  | .delivering _ | .writable => !c.coro.on
  | .idle | .fdError _ | .parsing | .frameError => false

inductive Move
  | conn (label : Event × Bool)
  | throw

def step (framer : Framer M) (s : Throwing M) : Move → Option (Throwing M)
  | .conn label => (s.conn.step framer label.2 label.1).map fun c => ⟨c,s.idle || armsIdle s.conn label.1⟩
  | .throw => if calling s.conn then some { s with conn := { s.conn with point := .idle } } else none

/-- A handler throws after the close, or it is `on_writable` and leaves the connection open; else what reading takes. -/
def Mild (framer : Framer M) (s : Throwing M) : Move → Prop
  | .conn label => Feeds framer s.conn label
  | .throw => s.conn.state = .closed ∨ s.conn.point = .writable ∧ s.conn.state = .established

instance (framer : Framer M) (s : Throwing M) : DecidablePred (Mild framer s)
  | .conn _ => inferInstanceAs (Decidable (Feeds _ _ _))
  | .throw => instDecidableOr

structure Inv (framer : Framer M) (s : Throwing M) : Prop where
  live : s.conn.Live framer
  lives : s.conn.Lives anything 0
  timed : s.conn.state = .established → s.conn.point = .opening ∨ s.idle

variable {framer : Framer M} {c d : Connection M} {s t : Throwing M}

lemma opening_of_apart (apart : Apart c d) (held : d.state = .established) :
    c.state = .established ∧ (c.point = .opening → d.point = .opening) := by
  refine ⟨apart.state_eq held (by decide),fun opening => ?_⟩
  rcases apart.point with same | ⟨settled,_⟩
  · exact same.trans opening
  rw [opening] at settled
  cases settled

lemma call_opening (accept : Bool) (u : Call) : (c.call accept u).state = .established →
    c.state = .established ∧ (c.point = .opening → (c.call accept u).point = .opening) := by
  unfold call
  cases u with
  | send _ | sendScatter _ => exact opening_of_apart (offer_apart c _)
  | shutdownWrite => exact opening_of_apart (shutdownWrite_apart c)
  | close reason => exact opening_of_apart (close_apart c reason)
  | unawaitRecv | unawaitSend => exact fun held => ⟨held,id⟩
  | awaitSend bytes =>
    dsimp only
    split
    · exact opening_of_apart (awaitSend_apart c bytes)
    · exact fun held => ⟨held,id⟩
  | awaitRecv =>
    have point : (c.awaitRecv accept).point = c.point := by
      unfold awaitRecv coroArm armRecv
      split_ifs <;> rfl
    dsimp only
    split
    · exact fun held => ⟨(awaitRecv_avoids c accept).held held,point.trans⟩
    · exact fun held => ⟨held,id⟩

lemma step_timed {label : Event × Bool} (taken : Step framer c label d)
    (timed : c.state = .established → c.point = .opening ∨ s.idle) (held : d.state = .established) :
    d.point = .opening ∨ (s.idle || armsIdle c label.1) := by
  obtain ⟨event,accept⟩ := label
  have armed' (held : c.state = .established) (idle : c.point = .idle) : s.idle || armsIdle c event := by
    have := timed held
    simp_all
  cases taken.move with
  | call u =>
    obtain ⟨before,stays⟩ := call_opening accept u held
    exact (timed before).imp stays fun idle => by simp [idle]
  | enableCoro opening => exact .inl opening
  | connected result _ connecting =>
    cases result with
    | ok => exact .inl rfl
    | canceled => cases connecting.symm.trans held
    | failed => exact absurd held (close_ended c _)
  | recvDone _ _ _ _ _ idle => exact .inr (armed' ((recvDone_avoids _ _ _ _ _ _).held held) idle)
  | sendDone _ result _ idle =>
    refine .inr (armed' ?_ idle)
    obtain apart | ⟨n,_,_,e,lifted,apart⟩ := sendDone_cases c result accept (idle ▸ rfl)
    · exact apart.state_eq held (by decide)
    · exact lifted.state.symm.trans ((rearmRecv_arms e accept).state.symm.trans (apart.state_eq held (by decide)))
  | flush idle => exact .inr (armed' ((flushWrite_apart c accept).state_eq held (by decide)) idle)
  | resume =>
    right
    rcases timed ((resume_avoids _ _ _).held held) with opening | idle
    · simp [armsIdle,opening]
    · simp [idle]

lemma step_inv {m : Move} (inv : s.Inv framer) (taken : s.step framer m = some t) (mild : Mild framer s m) :
    t.Inv framer := by
  obtain ⟨live,lives,timed⟩ := inv
  cases m with
  | conn =>
    obtain ⟨d,moved,rfl⟩ := Option.map_eq_some_iff.1 taken
    exact ⟨step_live ⟨mild,moved⟩ live,step_anything lives moved,step_timed moved timed⟩
  | throw =>
    obtain ⟨_,rfl⟩ := enabled taken
    rcases mild with closed | ⟨writable,held⟩
    · have ended : s.conn.state ≠ .established := by simp [closed]
      exact ⟨.of_ended ⟨live.paced.armed,live.paced.off,fun born => ⟨(live.paced.fresh born).1,nofun⟩⟩ ended,
        lives.congr rfl rfl rfl,fun held => absurd held ended⟩
    refine ⟨live.apart ⟨rfl,rfl,rfl,.inr ⟨writable ▸ rfl,rfl⟩,id,id,.inl rfl⟩,lives.congr rfl rfl rfl,?_⟩
    intro held
    exact .inr ((timed held).resolve_left (by simp [writable]))

/-- After a handler threw, the connection is closed and `on_close` was called, or it is established with a receive or
reads paused, and its idle timer armed. -/
theorem throw_leaves_reading {flow : FlowControl} {size : Nat} {moves : List Move}
    (run : Exec (Guarded (Via (step framer)) (Mild framer)) ⟨create flow size,false⟩ moves s)
    (mild : Mild framer s .throw) (thrown : s.step framer .throw = some t) :
    t.conn.state = .closed ∧ (∃ reason, .onClose reason ∈ t.conn.trace) ∨
      t.conn.state = .established ∧ (t.conn.readPaused ∨ t.conn.inb.recvs ≠ []) ∧ t.idle := by
  have inv := run.invariant (Inv framer) (fun _ _ _ moved inv => step_inv inv moved.2 moved.1)
    ⟨create_live flow size,create_anything flow size,nofun⟩
  have after := step_inv inv thrown mild
  obtain ⟨calls,rfl⟩ := enabled thrown
  rcases mild with closed | ⟨writable,held⟩
  · left
    refine ⟨closed,?_⟩
    obtain alive | ended := inv.lives.life
    · have before := alive.before
      rw [closed] at before
      exact absurd before (by decide)
    obtain ⟨_,reason,_,_,trace,_⟩ := ended.trace
    exact ⟨reason,by simp [trace]⟩
  right
  refine ⟨held,?_,(after.timed held).resolve_left nofun⟩
  by_cases paused : s.conn.readPaused
  · exact .inl paused
  have off : ¬ s.conn.coro.on := by simpa [calling,writable] using calls
  exact .inr (after.live.callback off held paused rfl)

theorem writable_throws : ∃ s t, Exec (Guarded (Via (step pairs)) (Mild pairs))
      ⟨create { writeHighWatermark := 4, writeLowWatermark := 2 } 65536,false⟩
      [.conn (.connected .ok,true),.conn (.resume,true),.conn (.call (.send [1,2,3,4]),true),
        .conn (.flush,true),.conn (.sendDone (.sent 4),true)] s ∧
    s.step pairs .throw = some t ∧ (t.conn.state = .closed ∧ (∃ reason, .onClose reason ∈ t.conn.trace) ∨
      t.conn.state = .established ∧ (t.conn.readPaused ∨ t.conn.inb.recvs ≠ []) ∧ t.idle) :=
  Exec.stepped_of_drive (by decide +kernel)
    fun _ _ run thrown mild => throw_leaves_reading run mild thrown

theorem thrown_silences :
    (∃ s : Throwing (UInt8 × UInt8), Exec (Via (step pairs)) ⟨create {} 65536,false⟩
        [.conn (.connected .ok,true),.throw] s ∧
      s.conn.state = .established ∧ s.conn.readPaused = false ∧ s.conn.inb.recvs = [] ∧ s.idle = false) ∧
    ∃ s : Throwing (UInt8 × UInt8), Exec (Via (step pairs)) ⟨create {} 65536,false⟩
        [.conn (.connected .ok,true),.conn (.resume,true),.conn (.recvDone 0 (.data [1,2]) {},true),
          .conn (.resume,true),.conn (.resume,true),.throw] s ∧
      s.conn.state = .established ∧ s.conn.readPaused = false ∧ s.conn.inb.recvs = [] :=
  ⟨Exec.run_of_drive (by decide +kernel) fun _ _ => id,Exec.run_of_drive (by decide +kernel) fun _ _ => id⟩

end Throwing
end AffiniX
