import AffiniX.ConnectionWrite

/-! The life of a connection: it moves forward through its states, is torn down once, and does nothing to its descriptor
afterwards. -/
namespace AffiniX
open Transition List Nat

def ConnState.rank : ConnState → Nat
  | .connecting => 0
  | .established => 1
  | .shutdownWrite => 2
  | .closing => 3
  | .closed => 4

namespace Output
variable {M : Type}

def closes : Output M → Bool
  | .onClose _ | .notify _ | .detach | .closeFd => true
  | _ => false

def touches : Output M → Bool
  | .submitRecv | .submitSend | .cancelRecv | .shutdownWr | .detach | .closeFd => true
  | _ => false

def isOnClose : Output M → Bool
  | .onClose _ => true
  | _ => false

def isCloseFd : Output M → Bool
  | .closeFd => true
  | _ => false

def notified? : Output M → Option CloseReason
  | .notify reason => some reason
  | _ => none

def callback : Output M → Bool
  | .onOpen | .onMessages _ | .onFds _ | .onError _ | .onWritable => true
  | _ => false

def returns : Output M → Bool
  | .recvReturned _ | .sendReturned _ => true
  | _ => false
end Output
namespace Connection
variable {M : Type}

structure Alive (c : Connection M) : Prop where
  before : c.state.rank < ConnState.closing.rank
  fdOpen : c.fdOpen
  trace : ∀ o ∈ c.trace, o.closes = false

structure Ended (late : Output M → Bool) (c : Connection M) : Prop where
  state : c.state = .closed
  fdOpen : c.fdOpen = false
  trace : ∃ before reason woken after,
    c.trace = before++[.detach,.closeFd,.onClose reason]++woken++.notify reason::after ∧
      (∀ o ∈ before, o.closes = false) ∧ (∀ o ∈ woken, o.returns) ∧ ∀ o ∈ after, late o

structure Lives (late : Output M → Bool) (low : Nat) (c : Connection M) : Prop where
  rank : low ≤ c.state.rank
  life : c.Alive ∨ c.Ended late

section
variable {late : Output M → Bool} {low : Nat} {c d : Connection M} {o : Output M}

lemma Alive.emit (alive : c.Alive) (harmless : o.closes = false) : (c.emit o).Alive := by
  refine ⟨alive.before,alive.fdOpen,?_⟩
  intro p done
  obtain old | new := mem_append.1 done
  · exact alive.trace p old
  rw [mem_singleton.1 new]
  exact harmless

lemma Ended.emit (ended : c.Ended late) (allowed : late o) : (c.emit o).Ended late := by
  obtain ⟨before,reason,woken,after,trace,first,between,last⟩ := ended.trace
  refine ⟨ended.state,ended.fdOpen,before,reason,woken,after++[o],?_,first,between,?_⟩
  · simp [Connection.emit,trace]
  intro p done
  obtain old | new := mem_append.1 done
  · exact last p old
  rw [mem_singleton.1 new]
  exact allowed

namespace Lives
variable (lives : c.Lives late low)
include lives

lemma congr (state : d.state = c.state) (fdOpen : d.fdOpen = c.fdOpen)
    (trace : d.trace = c.trace) : d.Lives late low := by
  refine ⟨by rw [state]; exact lives.rank,?_⟩
  apply lives.life.imp
  · intro alive
    refine ⟨by rw [state]; exact alive.before,by rw [fdOpen]; exact alive.fdOpen,?_⟩
    rw [trace]
    exact alive.trace
  intro ended
  refine ⟨by rw [state]; exact ended.state,by rw [fdOpen]; exact ended.fdOpen,?_⟩
  rw [trace]
  exact ended.trace

lemma emit (harmless : o.closes = false) (allowed : late o) : (c.emit o).Lives late low :=
  ⟨lives.rank,lives.life.imp (fun alive => alive.emit harmless) fun ended => ended.emit allowed⟩

lemma emit_open (harmless : o.closes = false) (open' : c.state ≠ .closed) : (c.emit o).Lives late low := by
  refine ⟨lives.rank,lives.life.imp (fun alive => alive.emit harmless) ?_⟩
  exact fun ended => absurd ended.state open'

lemma close (reason : CloseReason) : (c.close reason).Lives late low := by
  unfold Connection.close
  split
  · exact lives
  next before =>
  obtain alive | ended := lives.life
  · have bound := lives.rank
    have low' := alive.before
    refine ⟨by simp only [teardown,ConnState.rank] at bound low' ⊢; omega,.inr ⟨rfl,rfl,?_⟩⟩
    refine ⟨c.trace,reason,(if c.coro.recvParked then [.recvReturned none] else [])++
      (if c.coro.sendParked.isSome then [.sendReturned .closed] else []),[],?_,alive.trace,?_,nofun⟩
    · simp [teardown,alive.fdOpen]
    intro o woken
    simp only [mem_append,mem_ite_nil_right,mem_singleton] at woken
    obtain ⟨_,rfl⟩ | ⟨_,rfl⟩ := woken <;> rfl
  · exact absurd (.inr ended.state) before
end Lives
end
section
variable {late : Output M → Bool} {low : Nat} {c : Connection M} (lives : c.Lives late low)
include lives

lemma noteWritePending_lives : c.noteWritePending.Lives late low := by
  unfold noteWritePending
  split
  · exact lives
  · exact lives.congr rfl rfl rfl

lemma offer_lives (parts : List Bytes) : (c.offer parts).1.Lives late low := by
  have sent := offer_sent c parts
  generalize (c.offer parts).1 = d at sent ⊢
  cases sent with
  | closed => exact (lives.close _).congr rfl rfl rfl
  | noted => exact lives.congr rfl rfl rfl
  | paused established => exact (lives.emit_open rfl (by simp [established])).congr rfl rfl rfl

lemma shutdownWrite_lives : c.shutdownWrite.Lives late low := by
  unfold shutdownWrite
  simp only
  split
  · exact lives
  next established =>
  have up := not_not.1 established
  have half : Lives late low { c with state := .shutdownWrite } := by
    obtain alive | ended := lives.life
    · have bound := lives.rank
      rw [up] at bound
      exact ⟨le_succ_of_le bound,.inl ⟨lt_succ_self 2,alive.fdOpen,alive.trace⟩⟩
    rw [ended.state] at up
    cases up
  split
  · exact half.emit_open rfl nofun
  · exact half

lemma Lives.arms {d : Connection M} (arms : Arms c d) : d.Lives late low := by
  cases arms with
  | noted => exact lives.congr rfl rfl rfl
  | submitted armed atLeast accept held =>
    refine Lives.emit_open (lives.congr rfl rfl rfl) rfl ?_
    intro closed
    obtain alive | ended := lives.life
    · have before := alive.before
      rw [closed] at before
      revert before
      decide
    obtain established | fdOpen := held
    · cases established.symm.trans ended.state
    · cases ended.fdOpen.symm.trans fdOpen

variable (accept : Bool)

lemma finishRecv_lives : (c.finishRecv accept).Lives late low :=
  .arms (c := { c with point := .idle }) (lives.congr rfl rfl rfl) (finishRecv_arms c accept)

lemma afterBatch_lives (last accept : Bool) : (c.afterBatch last accept).Lives late low := by
  unfold afterBatch
  simp only
  split
  · exact finishRecv_lives lives accept
  · split <;> exact lives.congr rfl rfl rfl

lemma afterSent_lives : c.afterSent.Lives late low := by
  unfold afterSent
  simp only
  split
  · exact lives.congr rfl rfl rfl
  · exact noteWritePending_lives (lives.congr rfl rfl rfl)

lemma flushWrite_lives : (flushWrite { c with writePending := false } accept).Lives late low := by
  have noted : Lives late low { c with writePending := false } := lives.congr rfl rfl rfl
  unfold flushWrite
  split
  · exact noted
  split
  · exact noted
  next live =>
  apply Lives.emit_open _ rfl
  · intro closed
    apply live
    change c.state = .closed at closed
    simp [closed]
  · exact noted.congr rfl rfl rfl

lemma finAfterDrain_lives : c.finAfterDrain.Lives late low := by
  unfold finAfterDrain
  split
  next half =>
    apply lives.emit_open rfl
    rw [half.1]
    decide
  · exact lives

lemma disarm_lives : c.disarm.Lives late low := by
  unfold disarm
  split
  · exact lives.congr rfl rfl rfl
  · exact lives

lemma awaitRecv_lives : (c.awaitRecv accept).Lives late low := by
  unfold awaitRecv
  split
  · exact lives
  split
  · refine .arms ?_ (coroArm_arms _ accept)
    exact lives.congr rfl rfl rfl
  · exact lives.congr rfl rfl rfl

lemma awaitSend_lives (bytes : Bytes) : (c.awaitSend bytes).Lives late low := by
  have offered := offer_lives lives [bytes]
  unfold awaitSend
  simp only
  split
  · exact offered.congr rfl rfl rfl
  · exact offered

lemma call_lives (u : Call) : (c.call accept u).Lives late low := by
  cases u with
  | send bytes => exact offer_lives lives [bytes]
  | sendScatter parts => exact offer_lives lives parts
  | shutdownWrite => exact shutdownWrite_lives lives
  | close reason => exact lives.close reason
  | awaitRecv =>
    simp only [call]
    split
    · exact awaitRecv_lives lives accept
    · exact lives
  | unawaitRecv | unawaitSend => exact lives.congr rfl rfl rfl
  | awaitSend bytes =>
    simp only [call]
    split
    · exact awaitSend_lives lives bytes
    · exact lives
end

def speaks (framer : Framer M) (c : Connection M) : Event → Bool
  | .resume =>
    match c.point with
    | .fdError _ => true
    | .parsing =>
      match framer c.inb.readBuf.readable with
      | .needMore _ => !c.coro.on && !c.inb.batch.isEmpty
      | .error _ => true
      | .message _ _ => !c.coro.on && c.inb.batch.length+1 = batchCapacity
    | _ => false
  | _ => false

section
variable {late : Output M → Bool} {low : Nat} {c : Connection M} (lives : c.Lives late low)
  (sessions : ∀ o : Output M, o.returns → late o)
include lives

lemma Lives.callback {o : Output M} (called : o.callback) (heard : c.state ≠ .closed ∨ late o) :
    (c.emit o).Lives late low := by
  have harmless : o.closes = false := by
    cases o <;> first | rfl | cases called
  exact heard.elim (lives.emit_open harmless) (lives.emit harmless)

include sessions

lemma dispatchBatch_lives (last accept : Bool)
    (heard : c.coro.on ∨ c.state ≠ .closed ∨ ∀ o : Output M, o.callback → late o) :
    (c.dispatchBatch last accept).Lives late low := by
  unfold dispatchBatch
  split
  · split
    · exact Lives.emit (lives.congr rfl rfl rfl) rfl (sessions _ rfl)
    split
    · apply afterBatch_lives
      exact lives.congr rfl rfl rfl
    · exact afterBatch_lives (lives.close _) last accept
  next off =>
  refine Lives.callback (c := { c with point := .delivering last }) (lives.congr rfl rfl rfl) rfl ?_
  exact (heard.resolve_left off).imp_right fun all => all _ rfl

lemma coroWritable_lives : c.coroWritable.Lives late low := by
  unfold coroWritable
  split
  · exact afterSent_lives lives
  next bytes _ =>
  have offered := offer_lives lives [bytes]
  simp only
  split
  · exact afterSent_lives offered
  · exact Lives.emit (offered.congr rfl rfl rfl) rfl (sessions _ rfl)

lemma signalWritable_lives : c.signalWritable.Lives late low := by
  unfold signalWritable
  split
  · exact coroWritable_lives lives sessions
  split
  next established =>
    refine Lives.callback (c := { c with point := .writable }) (lives.congr rfl rfl rfl) rfl (.inl ?_)
    rw [established]
    decide
  · exact afterSent_lives lives

lemma drained_lives (accept : Bool) : (c.drained accept).Lives late low := by
  unfold drained
  split
  · unfold release
    simp only
    apply signalWritable_lives _ sessions
    split
    · refine .arms ?_ (rearmRecv_arms _ accept)
      exact lives.congr rfl rfl rfl
    · exact lives.congr rfl rfl rfl
  · exact afterSent_lives lives

lemma sendDone_lives (result : SentResult) (accept : Bool) : (c.sendDone result accept).Lives late low := by
  unfold sendDone
  simp only
  split
  · exact lives.congr rfl rfl rfl
  unfold onSent
  cases result with
  | canceled => exact lives.congr rfl rfl rfl
  | error =>
    apply Lives.close
    exact lives.congr rfl rfl rfl
  | sent =>
    apply drained_lives _ sessions
    apply finAfterDrain_lives
    exact lives.congr rfl rfl rfl

lemma parse_lives (framer : Framer M) (accept : Bool)
    (heard : c.state ≠ .closed ∨ (∀ o : Output M, o.callback → late o) ∨
    c.point = .parsing ∧ c.speaks framer .resume = false) :
    (c.parse framer accept).Lives late low := by
  -- A batch that is about to be delivered is heard, or goes to a session.
  have batch (d : Connection M) (state : d.state = c.state) (on : d.coro.on = c.coro.on)
      (speaks : c.point = .parsing → c.speaks framer .resume = !c.coro.on) :
      d.coro.on ∨ d.state ≠ .closed ∨ ∀ o : Output M, o.callback → late o := by
    obtain open' | all | ⟨parsing,quiet⟩ := heard
    · exact .inr (.inl (state ▸ open'))
    · exact .inr (.inr all)
    rw [speaks parsing] at quiet
    exact .inl (by rw [on]; simpa using quiet)
  unfold parse
  split
  next need more =>
    dsimp only
    have kept : Lives late low { c with inb := { c.inb with parseNeed := need } } := lives.congr rfl rfl rfl
    split
    · exact finishRecv_lives kept accept
    next some' =>
    apply dispatchBatch_lives kept sessions
    apply batch _ rfl rfl
    intro parsing
    have filled : c.inb.batch.isEmpty = false := by simpa using some'
    simp [speaks,parsing,more,filled]
  next failed =>
    refine Lives.callback (c := { c with point := .frameError }) (lives.congr rfl rfl rfl) rfl ?_
    obtain open' | all | ⟨parsing,quiet⟩ := heard
    · exact .inl open'
    · exact .inr (all _ rfl)
    · simp [speaks,parsing,failed] at quiet
  next parsed =>
  dsimp only
  split
  next filled =>
    apply dispatchBatch_lives _ sessions
    · apply batch _ rfl rfl
      intro parsing
      have count : c.inb.batch.length+1 = batchCapacity := by simpa using filled
      simp [speaks,parsing,parsed,count]
    · exact lives.congr rfl rfl rfl
  · exact lives.congr rfl rfl rfl

lemma resume_lives (framer : Framer M) (accept : Bool)
    (heard : c.state ≠ .closed ∨ (∀ o : Output M, o.callback → late o) ∨ c.speaks framer .resume = false) :
    (c.resume framer accept).Lives late low := by
  unfold resume
  split
  · exact lives
  · refine .arms ?_ (rearmRecv_arms _ accept)
    exact lives.congr rfl rfl rfl
  next here =>
    refine Lives.callback (c := { c with point := .fds }) (lives.congr rfl rfl rfl) rfl ?_
    obtain open' | all | quiet := heard
    · exact .inl open'
    · exact .inr (all _ rfl)
    · simp [speaks,here] at quiet
  · exact lives.congr rfl rfl rfl
  next parsing =>
    exact parse_lives lives sessions framer accept (heard.imp_right (.imp_right fun quiet => ⟨parsing,quiet⟩))
  · exact afterBatch_lives lives _ accept
  · apply Lives.close
    exact lives.congr rfl rfl rfl
  · exact afterSent_lives lives

omit sessions in
lemma onRecv_lives (result : RecvResult) (ancillary : Ancillary) (accept : Bool) :
    (c.onRecv result ancillary accept).Lives late low := by
  have disarmed := disarm_lives lives
  unfold onRecv
  simp only
  generalize c.disarm = d at disarmed ⊢
  split
  · split
    · exact disarmed
    cases result with
    | eof | error => exact disarmed.close _
    | data | again | canceled => exact disarmed.arms (armDrainRecv_arms d accept)
  next established =>
  have open' : d.state ≠ .closed := by
    rw [not_not.1 established]
    decide
  cases result with
  | again | canceled => exact disarmed.arms (rearmRecv_arms d accept)
  | error | eof => exact disarmed.close _
  | data bytes =>
    have committed : (d.commitData bytes).Lives late low := disarmed.congr rfl rfl rfl
    dsimp only
    split
    · exact Lives.callback (c := { d.commitData bytes with point := .fdError ancillary.fds })
        (committed.congr rfl rfl rfl) rfl (.inl open')
    split
    · exact Lives.callback (c := { d.commitData bytes with point := .fds })
        (committed.congr rfl rfl rfl) rfl (.inl open')
    · exact committed.congr rfl rfl rfl

lemma step_lives {framer : Framer M} {label : Event × Bool} {c' : Connection M} (taken : Step framer c label c')
    (heard : c.state = .closed → (∀ o : Output M, o.callback → late o) ∨
    c.speaks framer label.1 = false) : c'.Lives late low := by
  obtain ⟨_,accept⟩ := label
  cases taken.move with
  | call u => exact call_lives lives accept u
  | enableCoro => exact lives.congr rfl rfl rfl
  | connected result _ connecting =>
    cases result with
    | ok =>
      have bound := lives.rank
      rw [connecting] at bound
      have started : Lives late low { c with state := .established, point := .opening } := by
        obtain alive | ended := lives.life
        · exact ⟨le_succ_of_le bound, .inl ⟨lt_succ_of_lt (lt_succ_self 1),alive.fdOpen,alive.trace⟩⟩
        rw [ended.state] at connecting
        cases connecting
      exact started.callback rfl (.inl nofun)
    | canceled => exact lives
    | failed => exact lives.close _
  | recvDone =>
    unfold recvDone
    dsimp only
    split
    · exact lives.congr rfl rfl rfl
    apply onRecv_lives
    exact lives.congr rfl rfl rfl
  | sendDone _ result => exact sendDone_lives lives sessions result accept
  | flush => exact flushWrite_lives lives accept
  | resume =>
    apply resume_lives lives sessions framer accept
    by_cases closed : c.state = .closed
    · exact .inr (heard closed)
    · exact .inl closed
end

def anything (_ : Output M) : Bool := true

lemma step_anything {framer : Framer M} {label : Event × Bool} {low : Nat} {c c' : Connection M}
    (lives : c.Lives anything low) (taken : Step framer c label c') : c'.Lives anything low :=
  step_lives lives (fun _ _ => rfl) taken fun _ => .inl fun _ _ => rfl

lemma create_anything (flow : FlowControl) (readBufferSize : Nat) :
    (create flow readBufferSize : Connection M).Lives anything 0 :=
  ⟨zero_le _,.inl ⟨succ_pos 2,rfl,nofun⟩⟩

lemma Lives.closed_iff {late : Output M → Bool} {low : Nat} {c : Connection M}
    (lives : c.Lives late low) : c.fdOpen = false ↔ c.state = .closed := by
  obtain alive | ended := lives.life
  · refine iff_of_false (by simp [alive.fdOpen]) ?_
    intro closed
    have before := alive.before
    rw [closed] at before
    exact absurd before (by decide)
  · exact iff_of_true ended.fdOpen ended.state
end Connection

/-- A connection in a running loop, which runs the notifications of the owner from its queue of
deferred calls: `ran` of those scheduled so far. -/
structure Driven (M : Type) where
  conn : Connection M
  ran : Nat

namespace Driven
open Connection
variable {M : Type}

def notices (w : Driven M) : List CloseReason := w.conn.trace.filterMap Output.notified?

inductive Turn
  | conn (event : Event) (accept : Bool)
  | defer
deriving DecidableEq

def step (framer : Framer M) (w : Driven M) : Turn → Option (Driven M)
  | .conn event accept => (w.conn.step framer accept event).map fun c => { w with conn := c }
  | .defer => if w.ran < w.notices.length then some { w with ran := w.ran+1 } else none

def Step (framer : Framer M) (w : Driven M) (turn : Turn) (w' : Driven M) : Prop := w.step framer turn = some w'

def start (flow : FlowControl) (readBufferSize : Nat) : Driven M := ⟨.create flow readBufferSize,0⟩

def detached (o : Output M) : Bool := !o.closes && !o.touches

lemma split_unique {α : Type*} {p : α → Prop} {x y : α} {xs ys before after : List α}
    (split : xs++x::ys = before++y::after) (kind : p y) (first : ∀ z ∈ xs, ¬ p z)
    (last : ∀ z ∈ ys, ¬ p z) : after = ys := by
  induction xs generalizing before with
  | nil =>
    cases before with
    | nil =>
      cases split
      rfl
    | cons =>
      obtain ⟨_,rest⟩ := List.cons.inj split
      rw [rest] at last
      exact absurd kind (last y (mem_append_right _ mem_cons_self))
  | cons z _ ih =>
    cases before with
    | nil =>
      obtain ⟨same,_⟩ := List.cons.inj split
      exact absurd (same ▸ kind) (first z mem_cons_self)
    | cons =>
      obtain ⟨_,rest⟩ := List.cons.inj split
      exact ih rest fun z inner => first z (mem_cons_of_mem _ inner)

structure Once (w : Driven M) : Prop where
  onClose : w.conn.trace.countP Output.isOnClose ≤ 1
  notices : w.notices.length ≤ 1
  closeFd : w.conn.trace.countP Output.isCloseFd ≤ 1
  closed : w.conn.state = .closed → w.conn.trace.countP Output.isOnClose = 1 ∧
    w.conn.trace.countP Output.isCloseFd = 1 ∧ w.notices.length = 1
  after : ∀ before after, w.conn.trace = before++.closeFd::after → ∀ o ∈ after, o.touches = false

lemma notices_of_harmless {os : List (Output M)} (quiet : ∀ o ∈ os, o.closes = false) :
    os.filterMap Output.notified? = [] := by
  rw [filterMap_eq_nil_iff]
  intro o done
  have harmless := quiet o done
  cases o <;> first | rfl | cases harmless

lemma Once.of_alive {w : Driven M} (alive : w.conn.Alive) : Once w := by
  have none {p : Output M → Bool} (inner : ∀ o, p o → o.closes) : w.conn.trace.countP p = 0 := by
    rw [countP_eq_zero]
    intro o done holds
    have harmless := alive.trace o done
    rw [inner o holds] at harmless
    cases harmless
  have notices := notices_of_harmless alive.trace
  constructor
  · rw [none (by rintro (_|_) <;> first | exact fun _ => rfl | exact nofun)]
    exact zero_le 1
  · rw [Driven.notices,notices]
    exact zero_le 1
  · rw [none (by rintro (_|_) <;> first | exact fun _ => rfl | exact nofun)]
    exact zero_le 1
  · intro closed
    have before := alive.before
    rw [closed] at before
    exact absurd before (by decide)
  intro _ _ split
  have harmless := alive.trace .closeFd (by
    rw [split]
    exact mem_append_right _ mem_cons_self)
  cases harmless

lemma not_closeFd {o : Output M} (harmless : o.closes = false) : ¬ o.isCloseFd := by
  cases o <;> simp_all [Output.closes,Output.isCloseFd]

lemma Once.of_ended {w : Driven M} (ended : w.conn.Ended detached) : Once w := by
  obtain ⟨before,reason,woken,after,trace,first,between,last⟩ := ended.trace
  have harmless : (∀ o ∈ woken, o.closes = false) ∧ ∀ o ∈ after, o.closes = false ∧ o.touches = false := by
    constructor
    · intro o inner
      have returned := between o inner
      cases o <;> first | rfl | cases returned
    intro o inner
    simpa [detached] using last o inner
  have count {p : Output M → Bool} {os : List (Output M)} (inner : ∀ o, p o → o.closes)
      (quiet : ∀ o ∈ os, o.closes = false) : os.countP p = 0 := by
    rw [countP_eq_zero]
    intro o done holds
    have harmless := quiet o done
    rw [inner o holds] at harmless
    cases harmless
  have onClose : w.conn.trace.countP Output.isOnClose = 1 := by
    have inner : ∀ o : Output M, o.isOnClose → o.closes := by
      rintro (_|_) <;> first | exact fun _ => rfl | exact nofun
    rw [trace]
    simp [countP_append,countP_cons,count inner first,count inner harmless.1,
      count inner fun o done => (harmless.2 o done).1,Output.isOnClose]
  have closeFd : w.conn.trace.countP Output.isCloseFd = 1 := by
    have inner : ∀ o : Output M, o.isCloseFd → o.closes := by
      rintro (_|_) <;> first | exact fun _ => rfl | exact nofun
    rw [trace]
    simp [countP_append,countP_cons,count inner first,count inner harmless.1,
      count inner fun o done => (harmless.2 o done).1,Output.isCloseFd]
  have notices : w.notices = [reason] := by
    unfold Driven.notices
    rw [trace]
    simp [filterMap_append,filterMap_cons,notices_of_harmless first,
      notices_of_harmless harmless.1,notices_of_harmless fun o done => (harmless.2 o done).1,
      Output.notified?]
  refine ⟨Nat.le_of_eq onClose,?_,Nat.le_of_eq closeFd,fun _ => ⟨onClose,closeFd,?_⟩,?_⟩
  · rw [notices]
    exact Nat.le_refl 1
  · rw [notices]
    rfl
  -- The one close of the descriptor is the teardown's.
  intro before' after' split
  have same : (before++[.detach])++.closeFd::(.onClose reason::woken++.notify reason::after) =
      before'++.closeFd::after' := by
    rw [← split,trace]
    simp
  have rest := split_unique (p := fun o => o.isCloseFd) same rfl ?_ ?_
  · rw [rest]
    intro o done
    simp only [cons_append,mem_cons,mem_append] at done
    obtain rfl | inner | rfl | inner := done
    · rfl
    · have returned := between o inner
      cases o <;> first | rfl | cases returned
    · rfl
    · exact (harmless.2 o inner).2
  · intro o inner
    obtain old | new := mem_append.1 inner
    · exact not_closeFd (first o old)
    rw [mem_singleton.1 new]
    exact nofun
  intro o inner
  simp only [cons_append,mem_cons,mem_append] at inner
  obtain rfl | inner | rfl | inner := inner
  · exact nofun
  · exact not_closeFd (harmless.1 o inner)
  · exact nofun
  · exact not_closeFd (harmless.2 o inner).1

section
variable {framer : Framer M} {w w' : Driven M} {turn : Turn}

lemma Once.of_lives {low : Nat} (lives : w.conn.Lives detached low) : Once w := lives.life.elim .of_alive .of_ended

lemma conn_lives {low : Nat} {label : Event × Bool} {c : Connection M} (taken : Connection.Step framer w.conn label c)
    (lives : w.conn.Lives detached low) : c.Lives detached low := by
  apply Connection.step_lives lives _ taken
  · refine fun _ => .inl ?_
    rintro (_|_) <;> first | exact fun _ => rfl | exact nofun
  · rintro (_|_) <;> first | exact fun _ => rfl | exact nofun

lemma step_lives {low : Nat} (moved : Step framer w turn w') (lives : w.conn.Lives detached low)
    (early : w.ran ≤ w.notices.length) : w'.conn.Lives detached low ∧ w'.ran ≤ w'.notices.length := by
  unfold Step step at moved
  split at moved
  next event accept =>
    obtain ⟨c,taken,rfl⟩ := Option.map_eq_some_iff.1 moved
    have stepped : Connection.Step framer w.conn (event,accept) c := taken
    refine ⟨conn_lives stepped lives,Nat.le_trans early ?_⟩
    obtain alive | ended := lives.life
    · rw [Driven.notices,notices_of_harmless alive.trace]
      exact Nat.zero_le _
    -- A closed connection stays closed, and its one notification is kept.
    have closed : w.conn.Lives detached ConnState.closed.rank := ⟨Nat.le_of_eq (by rw [ended.state]),.inr ended⟩
    have still := conn_lives stepped closed
    obtain alive | ended' := still.life
    · exact absurd (Nat.lt_of_le_of_lt still.rank alive.before) (by decide)
    have one := (Once.of_ended (w := { w with conn := c }) ended').closed ended'.state
    rw [one.2.2]
    exact (Once.of_ended ended).notices
  · split at moved
    · cases moved
      exact ⟨lives,‹_›⟩
    · cases moved

lemma run_lives {low : Nat} {turns : List Turn} (run : Exec (Step framer) w turns w')
    (lives : w.conn.Lives detached low) (early : w.ran ≤ w.notices.length) :
    w'.conn.Lives detached low ∧ w'.ran ≤ w'.notices.length :=
  run.invariant (fun w => w.conn.Lives detached low ∧ w.ran ≤ w.notices.length)
    (fun _ _ _ moved before => step_lives moved before.1 before.2) ⟨lives,early⟩

lemma start_lives (flow : FlowControl) (readBufferSize : Nat) :
    (start (M := M) flow readBufferSize).conn.Lives detached 0 :=
  ⟨zero_le _,.inl ⟨succ_pos 2,rfl,nofun⟩⟩

/-- A connection moves forward; its close handler and the notification run at most once, and have run when it is closed
and nothing is deferred. -/
theorem closes_once {flow : FlowControl} {readBufferSize : Nat} {first second : List Turn}
    (before : Exec (Step framer) (start flow readBufferSize) first w)
    (run : Exec (Step framer) w second w') :
    w.conn.state.rank ≤ w'.conn.state.rank ∧ w'.conn.trace.countP Output.isOnClose ≤ 1 ∧ w'.ran ≤ 1 ∧
      w'.conn.trace.countP Output.isCloseFd ≤ 1 ∧
      (w'.conn.state = .closed →
        w'.conn.trace.countP Output.isOnClose = 1 ∧ w'.conn.trace.countP Output.isCloseFd = 1 ∧
          (w'.ran = w'.notices.length → w'.ran = 1)) ∧
      ∀ before after, w'.conn.trace = before++.closeFd::after → ∀ o ∈ after, o.touches = false := by
  obtain ⟨lives,early⟩ := run_lives before (start_lives flow readBufferSize) (Nat.le_refl 0)
  obtain ⟨onward,late⟩ := run_lives run ⟨Nat.le_refl _,lives.life⟩ early
  have once := Once.of_lives onward
  refine ⟨onward.rank,once.onClose,Nat.le_trans late once.notices,once.closeFd,?_,once.after⟩
  intro closed
  obtain ⟨handler,descriptor,notice⟩ := once.closed closed
  exact ⟨handler,descriptor,fun drained => drained.trans notice⟩

end

def halfThenClosed : List Turn :=
  [.conn (.connected .ok) true,.conn .resume true,.conn (.call .shutdownWrite) true,
    .conn (.call (.close .localClose)) true]

theorem halfThenClosed_once : ∃ w w' : Driven Unit,
    Exec (Step fun _ => .needMore 1) (start {} 4096) halfThenClosed w ∧
      Exec (Step fun _ => .needMore 1) w [.defer] w' ∧
      w'.conn.state = .closed ∧ w'.conn.trace.countP Output.isOnClose = 1 ∧ w'.ran = 1 := by
  have closed : (drive (step fun _ : Bytes => ParseResult.needMore 1) (fun _ _ => True)
      (start (M := Unit) {} 4096) halfThenClosed).map (fun w => (w.conn.state,w.ran,w.notices)) =
        some (.closed,0,[.localClose]) := by decide +kernel
  obtain ⟨w,driven,values⟩ := Option.map_eq_some_iff.1 closed
  simp only [Prod.mk.injEq] at values
  obtain ⟨state,ran,notices⟩ := values
  have before : Exec (Step fun _ : Bytes => ParseResult.needMore 1) (start {} 4096) halfThenClosed w :=
    (Exec.of_drive driven).of_guarded
  have moved : Step (fun _ : Bytes => ParseResult.needMore 1) w .defer { w with ran := w.ran+1 } := by
    simp [Step,step,ran,notices]
  have run := Exec.cons w Turn.defer _ [] _ moved (.nil { w with ran := w.ran+1 })
  have once := (closes_once before run).2.2.2.2.1 state
  refine ⟨w,_,before,run,state,once.1,once.2.2 ?_⟩
  change w.ran+1 = w.notices.length
  rw [ran,notices]
  rfl

end Driven
end AffiniX
