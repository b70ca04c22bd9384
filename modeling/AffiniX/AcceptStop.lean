import AffiniX.Transition

/-! A server that stops accepting. -/
namespace AffiniX
open Transition

inductive AcceptBackend
  | epoll
  | uring (multishot : Bool)
  | sim
deriving DecidableEq

inductive AcceptResult
  | fd (n : Nat)
  | canceled
  | error
deriving DecidableEq

structure AcceptDone where
  result : AcceptResult
  more : Bool
deriving DecidableEq

/-- `ready`: completions on their way to `on_accept`; `late`: descriptors it got, connections it made and accepts it
submitted after `stop_accepting`. -/
structure Acceptor where
  backend : AcceptBackend
  maxConnections : Nat
  listening : Bool := true
  armed : Bool := true
  ready : List AcceptDone := []
  conns : Nat := 0
  closed : List Nat := []
  lateFds : List Nat := []
  lateConns : List Nat := []
  lateSubmits : Nat := 0

namespace Acceptor
variable (s : Acceptor)

/-- `backend_cancel` of the accept: only a ring leaves its completion to the kernel. -/
def cancel : Acceptor := match s.backend with
  | .uring _ => s
  | .epoll | .sim => if s.armed then { s with armed := false, ready := s.ready++[⟨.canceled,false⟩] } else s

def stopAccepting : Acceptor := if s.listening then { s.cancel with listening := false } else s

def keeps (more : Bool) : Bool := match s.backend with
  | .epoll => true
  | .uring multishot => multishot && more
  | .sim => false

def submitAccept : Acceptor :=
  { s with armed := true, lateSubmits := if s.listening then s.lateSubmits else s.lateSubmits+1 }

/-- `applied` and `room` are the outcomes of `sock::apply` and of the pool. -/
def onAccept (c : AcceptDone) (applied room : Bool) : Acceptor :=
  let s := if c.more = false ∧ c.result ≠ .canceled then s.submitAccept else s
  match c.result with
  | .canceled | .error => s
  | .fd n =>
    let s := if s.listening then s else { s with lateFds := n::s.lateFds }
    if s.conns ≥ s.maxConnections ∨ applied = false ∨ room = false then { s with closed := n::s.closed }
    else { s with
      conns := s.conns+1
      lateConns := if s.listening then s.lateConns else n::s.lateConns }

inductive Move
  | complete (c : AcceptDone)
  | dispatch (applied room : Bool)
  | connGone
  | stop
deriving DecidableEq

def step : Move → Option Acceptor
  | .complete c => if s.armed then some { s with armed := s.keeps c.more, ready := s.ready++[c] } else none
  | .dispatch applied room =>
    match s.ready with
    | [] => none
    | c::rest => some ({ s with ready := rest }.onAccept c applied room)
  | .connGone => if s.conns ≠ 0 then some { s with conns := s.conns-1 } else none
  | .stop => some s.stopAccepting

/-- What a late completion must be: the cancellation, or one that leaves the accept armed and whose
descriptor is refused. -/
def Harmless : Move → Prop
  | .dispatch applied room => s.listening ∨ ∀ c ∈ s.ready.head?, c.result = .canceled ∨
      c.more ∧ (c.result = .error ∨ s.conns ≥ s.maxConnections ∨ applied = false ∨ room = false)
  | .complete _ | .connGone | .stop => True

instance (s : Acceptor) : DecidablePred s.Harmless
  | .dispatch _ _ => inferInstanceAs (Decidable (_ ∨ ∀ c ∈ s.ready.head?, _ ∨ _ ∧ (_ ∨ _)))
  | .complete _ | .connGone | .stop => .isTrue trivial

def Final : Prop := s.lateConns = [] ∧ s.lateSubmits = 0 ∧ s.lateFds ⊆ s.closed

lemma onAccept_final {s : Acceptor} {c : AcceptDone} {applied room : Bool} (final : s.Final)
    (harmless : s.listening ∨ c.result = .canceled ∨
    c.more ∧ (c.result = .error ∨ s.conns ≥ s.maxConnections ∨ applied = false ∨ room = false)) :
    (s.onAccept c applied room).Final := by
  obtain ⟨conns,submits,closes⟩ := final
  have grows (n : Nat) : n::s.lateFds ⊆ n::s.closed := List.cons_subset_cons n closes
  unfold onAccept submitAccept
  cases listens : s.listening with
  | true =>
    cases c.result <;> simp only [Final] <;> split_ifs <;> simp_all
  | false =>
    rcases harmless with now | canceled | ⟨more,refused⟩
    · rw [listens] at now
      cases now
    · simp [canceled,Final,conns,submits,closes]
    cases result : c.result with
    | fd =>
      have refused : s.conns ≥ s.maxConnections ∨ applied = false ∨ room = false := by simpa [result] using refused
      simp [Final,more,listens,refused,conns,submits,grows]
    | canceled => simp [Final,conns,submits,closes]
    | error => simp [Final,more,conns,submits,closes]

lemma step_final {s t : Acceptor} {m : Move} (final : s.Final) (harmless : s.Harmless m)
    (taken : s.step m = some t) : t.Final := by
  cases m with
  | complete | connGone =>
    obtain ⟨_,rfl⟩ := enabled taken
    exact final
  | dispatch =>
    cases ready : s.ready with
    | nil => simp [step,ready] at taken
    | cons c rest =>
      simp only [step,ready] at taken
      cases taken
      refine onAccept_final final (harmless.imp_right fun each => ?_)
      exact each c (by rw [ready]; rfl)
  | stop =>
    cases taken
    unfold stopAccepting cancel
    split
    · split
      · exact final
      all_goals split <;> exact final
    · exact final

/-- After `stop_accepting` no connection is made and no accept submitted, and the descriptors of late
completions are closed. -/
theorem stop_final {backend : AcceptBackend} {maxConnections : Nat} {moves : List Move} {s : Acceptor}
    (run : Exec (Guarded (Via step) Harmless) { backend, maxConnections } moves s) :
    s.Final :=
  run.invariant Final (fun _ _ _ head final => step_final final head.1 head.2) ⟨rfl,rfl,by simp⟩

theorem late_refused : ∃ s : Acceptor, Exec (Guarded (Via step) Harmless)
      { backend := .uring true, maxConnections := 0 }
      [.stop,.complete ⟨.fd 7,true⟩,.complete ⟨.canceled,false⟩,.dispatch true true,.dispatch true true] s ∧
    (s.lateFds = [7] ∧ s.closed = [7]) ∧ s.Final :=
  Exec.seen_of_drive (by decide) fun _ run _ => stop_final run

/-- A connection that was accepted before `stop_accepting` and is dispatched after it. -/
theorem late_accepted : ∃ s : Acceptor, Exec (Guarded (Via step) fun _ _ => True)
      { backend := .epoll, maxConnections := 1 } [.complete ⟨.fd 7,false⟩,.stop,.dispatch true true] s ∧
    s.lateConns = [7] ∧ s.lateSubmits = 1 ∧ s.closed = [] :=
  Exec.end_of_drive (by decide)

end Acceptor
end AffiniX
