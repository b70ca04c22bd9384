import AffiniX.RecvTargets

/-! What the steps have to do with `on_messages` and `on_error` in callback mode. -/
namespace AffiniX
open Transition
variable {M : Type}

def Output.messages : Output M → List M
  | .onMessages batch => batch
  | _ => []

def Output.fault : Output M → Option Error
  | .onError error => some error
  | _ => none

namespace Connection
def delivered (c : Connection M) : List M := c.trace.flatMap Output.messages

def reported (c : Connection M) : List Error := c.trace.filterMap Output.fault

structure Calm (c d : Connection M) : Prop where
  delivered : d.delivered = c.delivered
  reported : d.reported = c.reported
  received : d.inb.received = c.inb.received
  parsed : d.inb.parsed = c.inb.parsed
  on : d.coro.on = c.coro.on

namespace Calm
variable {c d e : Connection M}

lemma refl (c : Connection M) : Calm c c := ⟨rfl,rfl,rfl,rfl,rfl⟩

lemma trans (first : Calm c d) (second : Calm d e) : Calm c e where
  delivered := second.delivered.trans first.delivered
  reported := second.reported.trans first.reported
  received := second.received.trans first.received
  parsed := second.parsed.trans first.parsed
  on := second.on.trans first.on

lemma emit (calm : Calm c d) (o : Output M) (wordless : o.messages = []) (faultless : o.fault = none) :
    Calm c (d.emit o) := by
  apply calm.trans
  refine ⟨?_,?_,rfl,rfl,rfl⟩
  · simp [Connection.delivered,Connection.emit,wordless]
  · simp [Connection.reported,Connection.emit,faultless]

lemma readable (calm : Calm c d) (reads : c.Reads) (reads' : d.Reads) :
    d.inb.readBuf.readable = c.inb.readBuf.readable := by
  have whole := reads'.agrees.whole
  rw [calm.parsed,calm.received,← reads.agrees.whole] at whole
  exact List.append_cancel_left whole
end Calm
section
variable (c : Connection M)

lemma close_calm (reason : CloseReason) : Calm c (c.close reason) := by
  unfold close
  split
  · exact .refl c
  refine ⟨?_,?_,rfl,rfl,rfl⟩
  · unfold teardown delivered
    split_ifs <;> simp [Output.messages]
  unfold teardown reported
  split_ifs <;> simp [Output.fault]

lemma noteWritePending_calm : Calm c c.noteWritePending := by
  unfold noteWritePending
  split <;> exact ⟨rfl,rfl,rfl,rfl,rfl⟩

lemma out_calm (o : Outbound) : Calm c { c with out := o } := ⟨rfl,rfl,rfl,rfl,rfl⟩

lemma offer_calm (parts : List Bytes) : Calm c (c.offer parts).1 := by
  have sent := offer_sent c parts
  generalize (c.offer parts).1 = d at sent ⊢
  cases sent with
  | closed o => exact (close_calm c _).trans (out_calm _ o)
  | noted => exact ⟨rfl,rfl,rfl,rfl,rfl⟩
  | paused =>
    have calm : Calm c (c.emit .cancelRecv) := (Calm.refl c).emit _ rfl rfl
    exact ⟨calm.delivered,calm.reported,rfl,rfl,rfl⟩

lemma shutdownWrite_calm : Calm c c.shutdownWrite := by
  have half : Calm c { c with state := .shutdownWrite } := ⟨rfl,rfl,rfl,rfl,rfl⟩
  unfold shutdownWrite
  simp only
  split
  · exact .refl c
  split
  · exact half.emit _ rfl rfl
  · exact half

lemma call_calm (off : c.coro.on = false) (accept : Bool) (u : Call) :
    Calm c (c.call accept u) ∧ Apart c (c.call accept u) := by
  cases u with
  | send | sendScatter => exact ⟨offer_calm c _,offer_apart c _⟩
  | shutdownWrite => exact ⟨shutdownWrite_calm c,shutdownWrite_apart c⟩
  | close => exact ⟨close_calm c _,close_apart c _⟩
  | awaitRecv | awaitSend =>
    simp only [call,off,Bool.false_eq_true,if_false]
    exact ⟨.refl c,.refl c⟩
  | unawaitRecv => exact ⟨⟨rfl,rfl,rfl,rfl,rfl⟩,⟨rfl,rfl,rfl,.inl rfl,id,by rintro ⟨⟩,.inl rfl⟩⟩
  | unawaitSend => exact ⟨⟨rfl,rfl,rfl,rfl,rfl⟩,⟨rfl,rfl,rfl,.inl rfl,id,id,.inl rfl⟩⟩
end
variable (c : Connection M) (accept : Bool)
variable {c} in
lemma Arms.calm (arms : Arms c d) : Calm c d := by
  cases arms with
  | noted => exact ⟨rfl,rfl,rfl,rfl,rfl⟩
  | submitted =>
    have calm : Calm c (c.emit .submitRecv) := (Calm.refl c).emit _ rfl rfl
    exact ⟨calm.delivered,calm.reported,rfl,rfl,rfl⟩

lemma finishRecv_calm : Calm c (c.finishRecv accept) := by
  have idle : Calm c { c with point := .idle } := ⟨rfl,rfl,rfl,rfl,rfl⟩
  exact idle.trans (finishRecv_arms c accept).calm

lemma afterSent_calm : Calm c c.afterSent := by
  have idle : Calm c { c with point := .idle } := ⟨rfl,rfl,rfl,rfl,rfl⟩
  unfold afterSent
  simp only
  split
  · exact idle
  · exact idle.trans (noteWritePending_calm _)

lemma signalWritable_calm (off : c.coro.on = false) : Calm c c.signalWritable := by
  simp only [signalWritable,off,Bool.false_eq_true,if_false]
  split
  · have told : Calm c { c with point := .writable } := ⟨rfl,rfl,rfl,rfl,rfl⟩
    exact told.emit .onWritable rfl rfl
  · exact afterSent_calm c

lemma finAfterDrain_calm : Calm c c.finAfterDrain := by
  unfold finAfterDrain
  split
  · exact (Calm.refl c).emit _ rfl rfl
  · exact .refl c

lemma drained_calm (off : c.coro.on = false) : Calm c (c.drained accept) := by
  unfold drained
  split
  · unfold release
    simp only
    split
    · have lifted : Calm c { c with backpressured := false, readPaused := false } := ⟨rfl,rfl,rfl,rfl,rfl⟩
      have armed := lifted.trans (rearmRecv_arms _ accept).calm
      exact armed.trans (signalWritable_calm _ (armed.on.trans off))
    have calm : Calm c { c with backpressured := false } := ⟨rfl,rfl,rfl,rfl,rfl⟩
    exact calm.trans (signalWritable_calm _ off)
  · exact afterSent_calm c

lemma sendDone_calm (off : c.coro.on = false) (result : SentResult) : Calm c (c.sendDone result accept) := by
  have settled : Calm c { c with out := (c.out.transmit result.count).settle result } := out_calm c _
  unfold sendDone
  simp only
  split
  · exact out_calm c _
  cases result with
  | canceled => exact settled
  | error => exact settled.trans (close_calm _ _)
  | sent =>
    have fin := settled.trans (finAfterDrain_calm _)
    exact fin.trans (drained_calm _ accept (fin.on.trans off))

lemma flushWrite_calm : Calm c (flushWrite { c with writePending := false } accept) := by
  have noted : Calm c { c with writePending := false } := ⟨rfl,rfl,rfl,rfl,rfl⟩
  unfold flushWrite
  split
  · exact noted
  split
  · exact noted
  · exact (noted.trans (out_calm _ _)).emit _ rfl rfl
end Connection
namespace Point
def rests : Point → Bool
  | .idle | .opening | .writable | .delivering true => true
  | _ => false

lemma rests_of_settled {p : Point} (settled : p.settled) : p.rests := by
  cases p <;> first | rfl | cases settled

def plain : Point → Bool
  | .fds | .fdError _ => false
  | _ => true

lemma plain_of_rests {p : Point} (rests : p.rests) : p.plain := by
  cases p <;> first | rfl | cases rests

lemma ne_parsing_of_rests {p : Point} (rests : p.rests) : p ≠ .parsing := by
  rintro rfl
  cases rests
end Point
namespace Connection
def Event.ancillary? : Event → Option Ancillary
  | .recvDone _ _ ancillary => some ancillary
  | _ => none

def Plain (label : Event × Bool) : Prop :=
  label.1 ≠ .enableCoro ∧ ∀ a ∈ label.1.ancillary?, a.hasFds = false ∧ a.fdTrunc = false

instance (label : Event × Bool) : Decidable (Plain label) := instDecidableAnd

inductive Turn (framer : Framer M) (c d : Connection M) : Prop
  | aside (calm : Calm c d) (held : d.state = .established → c.state = .established)
      (born : d.state = .connecting → c.state = .connecting) (out : c.point ≠ .parsing)
      (goes : d.point = c.point ∨ c.point.rests ∧ d.point.settled)
  | ended (calm : Calm c d) (down : d.state ≠ .established)
      (born : d.state = .connecting → c.state = .connecting) (idle : d.point = .idle)
      (busy : ¬ c.point.rests)
  | next (calm : Calm c d) (busy : c.point = .delivering false) (held : c.state = .established)
      (same : d.state = .established) (parsing : d.point = .parsing) (cleared : d.inb.batch = [])
  | fed (bytes : Bytes) (some : bytes ≠ []) (idle : c.point = .idle) (held : c.state = .established)
      (same : d.state = .established) (parsing : d.point = .parsing) (cleared : d.inb.batch = [])
      (delivered : d.delivered = c.delivered) (reported : d.reported = c.reported)
      (received : d.inb.received = c.inb.received++bytes) (parsed : d.inb.parsed = c.inb.parsed)
      (on : d.coro.on = c.coro.on)
  | parse (accept : Bool) (parsing : c.point = .parsing) (taken : d = c.parse framer accept)

variable {framer : Framer M} {c d : Connection M} {accept : Bool}

lemma Turn.of_apart (calm : Calm c d) (apart : Apart c d) (out : c.point ≠ .parsing) : Turn framer c d := by
  refine .aside calm (fun held => apart.state_eq held (by decide)) (fun born => apart.state_eq born (by decide)) out ?_
  exact apart.point.imp_right fun settled => ⟨Point.rests_of_settled settled.1,settled.2⟩

lemma Turn.of_rest (calm : Calm c d) (state : d.state = c.state) (rests : c.point.rests)
    (settled : d.point.settled) : Turn framer c d :=
  .aside calm state.symm.trans state.symm.trans (Point.ne_parsing_of_rests rests) (.inr ⟨rests,settled⟩)

lemma Turn.before {b : Connection M} (calm : Calm b c) (state : c.state = b.state) (point : c.point = b.point)
    (idle : b.point = .idle) (turn : Turn framer c d) : Turn framer b d := by
  cases turn with
  | aside after held born out goes =>
    rw [state] at held born
    rw [point] at out goes
    exact .aside (calm.trans after) held born out goes
  | ended after down born idle' busy =>
    rw [state] at born
    rw [point] at busy
    exact .ended (calm.trans after) down born idle' busy
  | next after busy | parse _ busy => cases idle.symm.trans (point.symm.trans busy)
  | fed bytes some _ held same parsing cleared delivered reported received parsed on =>
    exact .fed bytes some idle (state.symm.trans held) same parsing cleared
      (delivered.trans calm.delivered) (reported.trans calm.reported) (calm.received ▸ received)
      (parsed.trans calm.parsed) (on.trans calm.on)

lemma close_point (reason : CloseReason) : (c.close reason).point = c.point := by
  unfold close
  split <;> rfl

lemma finishRecv_fixed (c : Connection M) (accept : Bool) : (c.finishRecv accept).state = c.state ∧
    (c.finishRecv accept).point = .idle :=
  ⟨(finishRecv_arms c accept).state,(finishRecv_arms c accept).point⟩

section
variable (off : c.coro.on = false)
include off

lemma onRecv_turn (idle : c.point = .idle) (result : RecvResult) (ancillary : Ancillary)
    (none : ancillary.hasFds = false ∧ ancillary.fdTrunc = false) (some : ∀ bytes, result = .data bytes → bytes ≠ [])
    : Turn framer c (c.onRecv result ancillary accept) := by
  have rests : c.point.rests := idle ▸ rfl
  have out := Point.ne_parsing_of_rests rests
  have settled : c.point.settled := idle ▸ rfl
  have close (reason : CloseReason) : Turn framer c (c.close reason) :=
    .of_apart (close_calm c reason) (close_apart c reason) out
  unfold onRecv disarm
  simp only [off,Bool.false_eq_true,if_false,false_or]
  by_cases held : c.state = .established
  · rw [if_neg (not_not.2 held)]
    have rearm : Turn framer c (c.rearmRecv accept) :=
      .of_rest (rearmRecv_arms c accept).calm (rearmRecv_arms c accept).state rests
        ((rearmRecv_arms c accept).point.symm ▸ settled)
    cases result with
    | again | canceled => exact rearm
    | error | eof => exact close _
    | data bytes =>
      simp only [none,Bool.false_eq_true,if_false]
      exact .fed bytes (some bytes rfl) idle held held rfl rfl rfl rfl rfl rfl rfl
  rw [if_pos held]
  have drain : Turn framer c (c.armDrainRecv accept) :=
    .of_rest (armDrainRecv_arms c accept).calm (armDrainRecv_arms c accept).state rests
      ((armDrainRecv_arms c accept).point.symm ▸ settled)
  split
  · exact .of_apart (.refl c) (.refl c) out
  cases result with
  | eof | error => exact close _
  | data | again | canceled => exact drain

lemma recvDone_turn (idle : c.point = .idle) {index : Nat}
    {target : Span} {result : RecvResult} (possible : result.possible target)
    (ancillary : Ancillary) (none : ancillary.hasFds = false ∧ ancillary.fdTrunc = false) :
    Turn framer c (c.recvDone index target result ancillary accept) := by
  have some : ∀ bytes, result = .data bytes → bytes ≠ [] := by
    rintro bytes rfl rfl
    simp [RecvResult.possible] at possible
  unfold recvDone
  simp only
  split
  · exact .of_rest ⟨rfl,rfl,rfl,rfl,rfl⟩ rfl (idle ▸ rfl) (idle ▸ rfl)
  -- What the kernel wrote is not part of the history before `on_recv` commits it.
  refine .before ?_ ?_ ?_ idle (onRecv_turn ?_ ?_ result ancillary none some)
  · exact ⟨rfl,rfl,rfl,rfl,rfl⟩
  · rfl
  · rfl
  · exact off
  · exact idle

lemma sendDone_turn (idle : c.point = .idle) (result : SentResult) : Turn framer c (c.sendDone result accept) := by
  have settled : c.point.settled := idle ▸ rfl
  have out := Point.ne_parsing_of_rests (Point.rests_of_settled settled)
  have calm := sendDone_calm c accept off result
  obtain apart | ⟨n,_,_,d,lifted,apart⟩ := sendDone_cases c result accept settled
  · exact .of_apart calm apart out
  have state : (d.rearmRecv accept).state = c.state := (rearmRecv_arms d accept).state.trans lifted.state
  have point : (d.rearmRecv accept).point = c.point := (rearmRecv_arms d accept).point.trans lifted.point
  refine .aside calm (fun held => state.symm.trans (apart.state_eq held (by decide)))
    (fun born => state.symm.trans (apart.state_eq born (by decide))) out ?_
  obtain same | ⟨_,after⟩ := apart.point
  · exact .inl (same.trans point)
  · exact .inr ⟨Point.rests_of_settled settled,after⟩

omit off in
lemma resume_turn (plain : c.point.plain) (busy : c.point ≠ .idle) : Turn framer c (c.resume framer accept) := by
  have idle : Calm c { c with point := .idle } := ⟨rfl,rfl,rfl,rfl,rfl⟩
  unfold resume
  cases at' : c.point with
  | idle => exact absurd at' busy
  | opening =>
    refine .of_rest (idle.trans (rearmRecv_arms _ accept).calm) (rearmRecv_arms _ accept).state (at' ▸ rfl) ?_
    rw [(rearmRecv_arms _ _).point]
    rfl
  | fdError | fds =>
    rw [at'] at plain
    cases plain
  | parsing => exact .parse accept at' rfl
  | delivering last =>
    cases last with
    | true =>
      obtain ⟨state,point⟩ := finishRecv_fixed c accept
      simp only [afterBatch,if_true]
      exact .of_rest (finishRecv_calm c accept) state (at' ▸ rfl) (point ▸ rfl)
    | false =>
      simp only [afterBatch,Bool.false_eq_true,if_false]
      split
      next down => exact .ended ⟨rfl,rfl,rfl,rfl,rfl⟩ down id rfl (by simp [at',Point.rests])
      next held => exact .next ⟨rfl,rfl,rfl,rfl,rfl⟩ at' (not_not.1 held) (not_not.1 held) rfl rfl
  | frameError =>
    have apart := close_apart { c with point := .idle } .frameError
    exact .ended (idle.trans (close_calm _ _)) (close_ended _ _)
      (fun born => apart.state_eq born (by decide)) (close_point _) (by simp [at',Point.rests])
  | writable => exact .of_apart (afterSent_calm c) (afterSent_apart c (at' ▸ rfl)) (by simp [at'])
end

lemma step_turn {label : Event × Bool} (taken : Step framer c label d) (simple : Plain label)
    (off : c.coro.on = false) (born : c.state ≠ .connecting) (plain : c.point.plain) : Turn framer c d := by
  obtain ⟨_,accept⟩ := label
  cases taken.move with
  | call u out =>
    obtain ⟨calm,apart⟩ := call_calm c off accept u
    exact .of_apart calm apart out
  | enableCoro => exact absurd rfl simple.1
  | connected _ _ connecting => exact absurd connecting born
  | recvDone _ _ _ ancillary _ idle possible =>
    exact recvDone_turn off idle possible ancillary (simple.2 ancillary rfl)
  | sendDone _ result _ idle => exact sendDone_turn off idle result
  | flush idle => exact .of_apart (flushWrite_calm c accept) (flushWrite_apart c accept) (by simp [idle])
  | resume busy => exact resume_turn plain busy
end Connection
end AffiniX
