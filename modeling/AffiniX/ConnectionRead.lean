import AffiniX.ConnectionWrite

/-! What the write side does to the read side: nothing, except that a completion which lifts the pause arms a receive.
-/
namespace AffiniX
open ByteMemory Transition

def Point.settled : Point → Bool
  | .idle | .writable => true
  | _ => false

namespace Outbound
lemma transmit_writeBuf (o : Outbound) (n : Nat) : (o.transmit n).writeBuf = o.writeBuf := by
  unfold transmit
  split <;> rfl

lemma settle_size (o : Outbound) (n : Nat) : ((o.transmit n).settle (.sent n)).writeBuf.size = o.writeBuf.size-n := by
  rw [settle,transmit_writeBuf]
  exact IoBuffer.consume_size _ n
end Outbound
namespace Connection
variable {M : Type}

structure Apart (c c' : Connection M) : Prop where
  inb : c'.inb = c.inb
  on : c'.coro.on = c.coro.on
  armed : c'.coro.armed = c.coro.armed
  point : c'.point = c.point ∨ c.point.settled ∧ c'.point.settled
  paused : c.readPaused → c'.readPaused
  parked : c'.coro.recvParked → c.coro.recvParked
  state : c'.state = c.state ∨ c'.state = .shutdownWrite ∨ c'.state = .closed

namespace Apart
lemma refl (c : Connection M) : Apart c c := ⟨rfl,rfl,rfl,.inl rfl,id,id,.inl rfl⟩

lemma trans {c d e : Connection M} (first : Apart c d) (second : Apart d e) : Apart c e where
  inb := second.inb.trans first.inb
  on := second.on.trans first.on
  armed := second.armed.trans first.armed
  point := by
    obtain same | ⟨before,_⟩ := first.point
    · rw [← same]
      exact second.point
    obtain same' | ⟨_,after⟩ := second.point
    · exact .inr ⟨before,same' ▸ ‹_›⟩
    · exact .inr ⟨before,after⟩
  paused := second.paused ∘ first.paused
  parked := first.parked ∘ second.parked
  state := by
    obtain same | ended := second.state
    · rw [same]
      exact first.state
    · exact .inr ended

lemma state_eq {c c' : Connection M} (apart : Apart c c') {s : ConnState} (at' : c'.state = s)
    (live : s ≠ .shutdownWrite ∧ s ≠ .closed) : c.state = s := by
  obtain same | ended | ended := apart.state
  · exact same ▸ at'
  · exact absurd (at'.symm.trans ended) live.1
  · exact absurd (at'.symm.trans ended) live.2
end Apart
section
variable (c : Connection M)

lemma close_apart (reason : CloseReason) : Apart c (c.close reason) := by
  unfold close
  split
  · exact .refl c
  · exact ⟨rfl,rfl,rfl,.inl rfl,id,nofun,.inr (.inr rfl)⟩

lemma close_ended (reason : CloseReason) : (c.close reason).state ≠ .established := by
  unfold close
  split
  next ended =>
    intro established
    rw [established] at ended
    revert ended
    decide
  · simp [teardown]

lemma noteWritePending_apart : Apart c c.noteWritePending := by
  unfold noteWritePending
  split
  · exact .refl c
  · exact ⟨rfl,rfl,rfl,.inl rfl,id,id,.inl rfl⟩

lemma out_apart (o : Outbound) : Apart c { c with out := o } := ⟨rfl,rfl,rfl,.inl rfl,id,id,.inl rfl⟩

lemma offer_apart (parts : List Bytes) : Apart c (c.offer parts).1 := by
  have sent := offer_sent c parts
  generalize (c.offer parts).1 = d at sent ⊢
  cases sent with
  | closed o => exact (close_apart c _).trans (out_apart _ o)
  | noted => exact ⟨rfl,rfl,rfl,.inl rfl,id,id,.inl rfl⟩
  | paused => exact ⟨rfl,rfl,rfl,.inl rfl,fun _ => rfl,id,.inl rfl⟩

lemma shutdownWrite_apart : Apart c c.shutdownWrite := by
  unfold shutdownWrite
  simp only
  split
  · exact .refl c
  · split <;> exact ⟨rfl,rfl,rfl,.inl rfl,id,id,.inr (.inl rfl)⟩

lemma awaitSend_apart (bytes : Bytes) : Apart c (c.awaitSend bytes) := by
  have offered := offer_apart c [bytes]
  unfold awaitSend
  simp only
  split
  · exact offered.trans ⟨rfl,rfl,rfl,.inl rfl,id,id,.inl rfl⟩
  · exact offered

lemma afterSent_apart (settled : c.point.settled) : Apart c c.afterSent := by
  have idle : Apart c { c with point := .idle } := ⟨rfl,rfl,rfl,.inr ⟨settled,rfl⟩,id,id,.inl rfl⟩
  unfold afterSent
  simp only
  split
  · exact idle
  · exact idle.trans (noteWritePending_apart _)

lemma coroWritable_apart (settled : c.point.settled) : Apart c c.coroWritable := by
  unfold coroWritable
  split
  · exact afterSent_apart c settled
  next bytes _ =>
  have offered := offer_apart c [bytes]
  have still : (c.offer [bytes]).1.point.settled := by
    obtain same | ⟨_,after⟩ := offered.point
    · exact same ▸ settled
    · exact after
  simp only
  split
  · exact offered.trans (afterSent_apart _ still)
  · exact offered.trans ⟨rfl,rfl,rfl,.inr ⟨still,rfl⟩,id,id,.inl rfl⟩

lemma signalWritable_apart (settled : c.point.settled) : Apart c c.signalWritable := by
  unfold signalWritable
  split
  · exact coroWritable_apart c settled
  split
  · exact ⟨rfl,rfl,rfl,.inr ⟨settled,rfl⟩,id,id,.inl rfl⟩
  · exact afterSent_apart c settled

lemma finAfterDrain_eq : ∃ trace, c.finAfterDrain = { c with trace := trace } := by
  unfold finAfterDrain
  split
  · exact ⟨_,rfl⟩
  · exact ⟨c.trace,rfl⟩

lemma flushWrite_apart (accept : Bool) : Apart c (flushWrite { c with writePending := false } accept) := by
  have noted : Apart c { c with writePending := false } := ⟨rfl,rfl,rfl,.inl rfl,id,id,.inl rfl⟩
  unfold flushWrite
  split
  · exact noted
  split
  · exact noted
  · exact noted.trans ⟨rfl,rfl,rfl,.inl rfl,id,id,.inl rfl⟩
end

def lifts (c : Connection M) (n : Nat) : Prop :=
  c.state ≠ .closed ∧ c.backpressured ∧ c.readPaused ∧ c.out.writeBuf.size-n ≤ c.flow.writeLowWatermark

instance (c : Connection M) (n : Nat) : Decidable (c.lifts n) := instDecidableAnd

structure Lifted (c d : Connection M) : Prop where
  inb : d.inb = c.inb
  coro : d.coro = c.coro
  state : d.state = c.state
  point : d.point = c.point
  running : d.readPaused = false

lemma drained_cases (c : Connection M) (accept : Bool) (settled : c.point.settled) : Apart c (c.drained accept) ∨
    c.backpressured ∧ c.readPaused ∧ c.out.writeBuf.size ≤ c.flow.writeLowWatermark ∧
    ∃ d, Lifted c d ∧ Apart (d.rearmRecv accept) (c.drained accept) := by
  unfold drained
  split
  next low =>
    unfold release
    simp only
    split
    next paused =>
      refine .inr ⟨low.1,paused,low.2,{ c with backpressured := false, readPaused := false },⟨rfl,rfl,rfl,rfl,rfl⟩,?_⟩
      apply signalWritable_apart
      rw [(rearmRecv_arms _ _).point]
      exact settled
    · have calm : Apart c { c with backpressured := false } := ⟨rfl,rfl,rfl,.inl rfl,id,id,.inl rfl⟩
      exact .inl (calm.trans (signalWritable_apart _ settled))
  · exact .inl (afterSent_apart c settled)

lemma sendDone_cases (c : Connection M) (result : SentResult) (accept : Bool) (settled : c.point.settled) :
    Apart c (c.sendDone result accept) ∨ ∃ n, result = .sent n ∧ c.lifts n ∧
    ∃ d, Lifted c d ∧ Apart (d.rearmRecv accept) (c.sendDone result accept) := by
  unfold sendDone
  simp only
  split
  · exact .inl (out_apart c _)
  next live =>
  cases result with
  | canceled => exact .inl (out_apart c _)
  | error => exact .inl ((out_apart c _).trans (close_apart _ _))
  | sent n =>
    simp only [onSent]
    obtain ⟨trace,fin⟩ := finAfterDrain_eq { c with out := (c.out.transmit n).settle (.sent n) }
    have entered : Apart c { c with out := (c.out.transmit n).settle (.sent n), trace := trace } :=
      ⟨rfl,rfl,rfl,.inl rfl,id,id,.inl rfl⟩
    rw [SentResult.count]
    rw [fin]
    obtain apart | ⟨pressed,paused,low,d,lifted,apart⟩ := drained_cases
      { c with out := (c.out.transmit n).settle (.sent n), trace := trace } accept settled
    · exact .inl (entered.trans apart)
    exact .inr ⟨n,rfl,⟨live,pressed,paused,Outbound.settle_size c.out n ▸ low⟩,d,
      ⟨lifted.inb,lifted.coro,lifted.state,lifted.point,lifted.running⟩,apart⟩

def bytewise : Framer UInt8
  | [] => .needMore 1
  | byte::_ => .message byte 1
end Connection
end AffiniX
