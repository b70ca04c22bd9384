import AffiniX.Connection

/-! The outbound byte stream of a connection: what each step can do to the write side,
and what follows for the bytes transmitted. -/
namespace AffiniX
open ByteMemory Transition List IoBuffer Prod
namespace IoBuffer
lemma appendAll_readable (b : IoBuffer) (parts : List Bytes) :
    (parts.foldl append b).readable = b.readable++parts.flatten := by
  induction parts generalizing b with
  | nil => exact (append_nil _).symm
  | cons _ _ ih => rw [foldl_cons,ih,append_readable,flatten_cons,append_assoc]

lemma appendAll_spec {b : IoBuffer} (valid : b.Valid) (parts : List Bytes) :
    (parts.foldl append b).readable = b.readable++parts.flatten ∧ (parts.foldl append b).Valid := by
  refine ⟨appendAll_readable b parts,?_⟩
  induction parts generalizing b with
  | nil => exact valid
  | cons p _ ih => exact ih (append_spec valid p).2

lemma consumeAll_valid {b : IoBuffer} (valid : b.Valid) (parts : List Bytes) :
    (parts.foldl (fun b p => b.consume p.length) b).Valid := by
  induction parts generalizing b with
  | nil => exact valid
  | cons p _ ih => exact ih (consume_valid valid p.length)
end IoBuffer
namespace Connection
variable {M : Type}

def outward (c : Connection M) : FlowControl × Outbound := (c.flow,c.out)

def sendSide (c : Connection M) : FlowControl × Outbound × Bool × Bool := (c.flow,c.out,c.backpressured,c.readPaused)

variable {d : Connection M}

lemma outward_of_sendSide {c : Connection M} (same : d.sendSide = c.sendSide) : d.outward = c.outward :=
  congrArg (fun p => (p.1,p.2.1)) same

lemma flow_of_outward {c : Connection M} (same : d.outward = c.outward) : d.flow = c.flow := congrArg fst same

lemma out_of_outward {c : Connection M} (same : d.outward = c.outward) : d.out = c.out := congrArg snd same

/-- What the read side does to the write side: nothing but to end a parked send. It opens nothing. -/
structure Avoids (c d : Connection M) : Prop where
  sendSide : d.sendSide = c.sendSide
  parked : d.coro.sendParked = c.coro.sendParked ∨ d.coro.sendParked = none
  held : d.state = .established → c.state = .established

lemma Avoids.trans {c e : Connection M} (first : Avoids c d) (second : Avoids d e) : Avoids c e :=
  ⟨second.sendSide.trans first.sendSide,second.parked.elim (fun same => same ▸ first.parked) .inr,
    first.held ∘ second.held⟩

lemma Avoids.of {c e : Connection M} (avoids : Avoids d e) (side : d.sendSide = c.sendSide)
    (parked : d.coro.sendParked = c.coro.sendParked) (state : d.state = c.state) : Avoids c e :=
  .trans ⟨side,.inl parked,state.symm.trans⟩ avoids

section
variable (c : Connection M) (accept last : Bool)

lemma close_avoids (reason : CloseReason) : Avoids c (c.close reason) := by
  unfold close
  split
  · exact ⟨rfl,.inl rfl,id⟩
  · exact ⟨rfl,.inr rfl,nofun⟩

lemma noteWritePending_avoids : Avoids c c.noteWritePending := by
  unfold noteWritePending
  split <;> exact ⟨rfl,.inl rfl,id⟩

lemma noteWritePending_outward : c.noteWritePending.outward = c.outward :=
  outward_of_sendSide (noteWritePending_avoids c).sendSide

lemma checkWriteWatermark_outward : c.checkWriteWatermark.outward = c.outward := by
  unfold checkWriteWatermark
  simp only
  split
  · split <;> rfl
  · rfl

lemma shutdownWrite_avoids : Avoids c c.shutdownWrite := by
  unfold shutdownWrite
  simp only
  split
  · exact ⟨rfl,.inl rfl,id⟩
  · split <;> exact ⟨rfl,.inl rfl,nofun⟩

variable {c} in
lemma Arms.avoids (arms : Arms c d) : Avoids c d := by
  cases arms <;> exact ⟨rfl,.inl rfl,id⟩

lemma rearmRecv_outward : (c.rearmRecv accept).outward = c.outward :=
  outward_of_sendSide (rearmRecv_arms c accept).avoids.sendSide

lemma finishRecv_avoids : Avoids c (c.finishRecv accept) := (finishRecv_arms c accept).avoids.of rfl rfl rfl

lemma afterBatch_avoids : Avoids c (c.afterBatch last accept) := by
  unfold afterBatch
  simp only
  split
  · exact finishRecv_avoids _ _
  · split <;> exact ⟨rfl,.inl rfl,id⟩

lemma dispatchBatch_avoids : Avoids c (c.dispatchBatch last accept) := by
  unfold dispatchBatch
  split
  · split
    · exact ⟨rfl,.inl rfl,id⟩
    split
    · exact (afterBatch_avoids _ _ _).of rfl rfl rfl
    · exact (close_avoids _ _).trans (afterBatch_avoids _ _ _)
  · exact ⟨rfl,.inl rfl,id⟩

lemma parse_avoids (framer : Framer M) : Avoids c (c.parse framer accept) := by
  unfold parse
  simp only
  split
  · split
    · exact (finishRecv_avoids _ _).of rfl rfl rfl
    · exact (dispatchBatch_avoids _ _ _).of rfl rfl rfl
  · exact ⟨rfl,.inl rfl,id⟩
  split
  · exact (dispatchBatch_avoids _ _ _).of rfl rfl rfl
  · exact ⟨rfl,.inl rfl,id⟩

lemma afterSent_avoids : Avoids c c.afterSent := by
  unfold afterSent
  simp only
  split
  · exact ⟨rfl,.inl rfl,id⟩
  · exact (noteWritePending_avoids _).of rfl rfl rfl

lemma finAfterDrain_avoids : Avoids c c.finAfterDrain := by
  unfold finAfterDrain
  split <;> exact ⟨rfl,.inl rfl,id⟩

lemma resume_avoids (framer : Framer M) : Avoids c (c.resume framer accept) := by
  unfold resume
  split
  · exact ⟨rfl,.inl rfl,id⟩
  · exact (rearmRecv_arms _ _).avoids.of rfl rfl rfl
  · exact ⟨rfl,.inl rfl,id⟩
  · exact ⟨rfl,.inl rfl,id⟩
  · exact parse_avoids _ _ _
  · exact afterBatch_avoids _ _ _
  · exact (close_avoids _ _).of rfl rfl rfl
  · exact afterSent_avoids _

lemma onRecv_avoids (result : RecvResult) (ancillary : Ancillary) : Avoids c (c.onRecv result ancillary accept) := by
  have disarmed : Avoids c c.disarm := by
    unfold disarm
    split <;> exact ⟨rfl,.inl rfl,id⟩
  unfold onRecv
  simp only
  refine disarmed.trans ?_
  generalize c.disarm = d
  split
  · split
    · exact ⟨rfl,.inl rfl,id⟩
    cases result with
    | eof | error => exact close_avoids _ _
    | _ => exact (armDrainRecv_arms _ _).avoids
  cases result with
  | data =>
    simp only
    split
    · exact ⟨rfl,.inl rfl,id⟩
    · split <;> exact ⟨rfl,.inl rfl,id⟩
  | eof | error => exact close_avoids _ _
  | _ => exact (rearmRecv_arms _ _).avoids

lemma recvDone_avoids (index : Nat) (target : Span) (result : RecvResult) (ancillary : Ancillary) :
    Avoids c (c.recvDone index target result ancillary accept) := by
  unfold recvDone
  simp only
  split
  · exact ⟨rfl,.inl rfl,id⟩
  · exact (onRecv_avoids _ _ _ _).of rfl rfl rfl

lemma awaitRecv_avoids : Avoids c (c.awaitRecv accept) := by
  unfold awaitRecv
  split
  · exact ⟨rfl,.inl rfl,id⟩
  split
  · exact (coroArm_arms _ _).avoids.of rfl rfl rfl
  · exact ⟨rfl,.inl rfl,id⟩

lemma onConnectResult_sendSide (result : ConnectResult) : (c.onConnectResult result).sendSide = c.sendSide := by
  cases result with
  | failed => exact (close_avoids _ _).sendSide
  | _ => rfl
end

/-- What a send can leave of a connection: it has closed it, or it has touched the write side alone, or
it has paused the reads as well. -/
inductive Sent (c : Connection M) : Connection M → Prop
  | closed (o : Outbound) : Sent c { c.close .writeOverflow with out := o }
  | noted (o : Outbound) (pending full : Bool) :
      Sent c { c with out := o, writePending := pending, backpressured := full }
  | paused (established : c.state = .established) (o : Outbound) (pending full : Bool) :
      Sent c { c with
        out := o, writePending := pending, backpressured := full, readPaused := true
        trace := c.trace++[.cancelRecv] }

lemma Sent.out {c d : Connection M} (sent : Sent c d) (o : Outbound) : Sent c { d with out := o } := by
  cases sent with
  | closed => exact .closed _
  | noted => exact .noted _ _ _
  | paused established => exact .paused established _ _ _

lemma offer_sent (c : Connection M) (parts : List Bytes) : Sent c (c.offer parts).1 := by
  have noted (d : Connection M) : ∃ pending, d.noteWritePending = { d with writePending := pending } := by
    unfold noteWritePending
    split
    · exact ⟨d.writePending,rfl⟩
    · exact ⟨true,rfl⟩
  apply Sent.out (d := (c.sendScatter parts).1)
  unfold sendScatter
  split
  · exact .noted _ _ _
  have established : c.state = .established := by simpa using ‹¬ c.state ≠ .established›
  split
  · unfold applyOverflowParts
    split
    · exact .closed _
    · exact .noted _ _ _
    · obtain ⟨_,same⟩ := noted { c with out := (c.out.evict parts).append parts }
      simp only [same]
      exact .noted _ _ _
    obtain ⟨_,same⟩ := noted { c.pauseReads with out := c.pauseReads.out.append parts }
    simp only [same]
    exact .paused established _ _ _
  obtain ⟨_,same⟩ := noted { c with out := c.out.append parts }
  simp only [same,checkWriteWatermark]
  split
  · split
    · exact .paused established _ _ _
    · exact .noted _ _ _
  · exact .noted _ _ _

inductive Offered (c : Connection M) (parts : List Bytes) : Outbound → Prop
  | refused : Offered c parts c.out
  | queued (established : c.state = .established)
      (room : c.out.writeBuf.size+(parts.map length).sum ≤ c.flow.writeHighWatermark ∨
        c.flow.onOverflow = .stopReading) :
      Offered c parts ((c.out.append parts).note parts)
  | evicted (established : c.state = .established)
      (full : c.flow.writeHighWatermark < c.out.writeBuf.size+(parts.map length).sum)
      (policy : c.flow.onOverflow = .dropOldest) :
      Offered c parts (((c.out.evict parts).append parts).note parts)

variable (c : Connection M)

lemma offer_offered (parts : List Bytes) : (c.offer parts).1.flow = c.flow ∧ Offered c parts (c.offer parts).1.out := by
  -- The call either leaves the write side alone, and is not noted, or queues all parts.
  have outcome : (c.sendScatter parts).1.outward = c.outward ∧ (c.sendScatter parts).2.taken = false ∨
      ∃ o, (c.sendScatter parts).1.outward = (c.flow,o) ∧ (c.sendScatter parts).2.taken = true ∧
        Offered c parts (o.note parts) := by
    unfold sendScatter
    split
    · exact .inl ⟨rfl,rfl⟩
    have established : c.state = .established := by simpa using ‹¬ c.state ≠ .established›
    split
    · unfold applyOverflowParts
      cases policy : c.flow.onOverflow with
      | disconnect => exact .inl ⟨outward_of_sendSide (close_avoids _ _).sendSide,rfl⟩
      | dropNewest => exact .inl ⟨rfl,rfl⟩
      | dropOldest => exact .inr ⟨_,noteWritePending_outward _,rfl, .evicted established ‹_› policy⟩
      | stopReading => exact .inr ⟨_,noteWritePending_outward _,rfl, .queued established (.inr policy)⟩
    refine .inr ⟨_,?_,rfl,.queued established (.inl (by omega))⟩
    exact (checkWriteWatermark_outward _).trans (noteWritePending_outward _)
  unfold offer
  obtain ⟨same,refused⟩ | ⟨o,queued,taken,offered⟩ := outcome
  · refine ⟨congrArg fst same,?_⟩
    simp only [refused,Bool.false_eq_true,if_false]
    rw [show (c.sendScatter parts).1.out = c.out from congrArg snd same]
    exact .refused
  refine ⟨congrArg fst queued,?_⟩
  simp only [taken,if_true]
  rw [show (c.sendScatter parts).1.out = o from congrArg snd queued]
  exact offered

lemma offer_out {c : Connection M} {parts : List Bytes} (established : c.state = .established)
    (room : c.out.writeBuf.size+(parts.map length).sum ≤ c.flow.writeHighWatermark) :
    (c.offer parts).1.out = (c.out.append parts).note parts := by
  have sent : c.sendScatter parts =
      (({ c with out := c.out.append parts }).noteWritePending.checkWriteWatermark,.queued) := by
    rw [sendScatter,if_neg (by simpa using established),if_neg (by omega)]
  have same := (checkWriteWatermark_outward _).trans (noteWritePending_outward { c with out := c.out.append parts })
  simp only [offer,sent,SendResult.taken,if_true]
  rw [out_of_outward same]

inductive OutStep (c : Connection M) : Event → Outbound → Prop
  | quiet (event : Event) : OutStep c event c.out
  | offered (u : Call) (parts : List Bytes) (o : Outbound) (payload : u.payload = some parts)
      (taken : Offered c parts o) : OutStep c (.call u) o
  | submitted (accept : Bool) (free : c.out.writeInflight = 0) (queued : c.out.writeBuf.size ≠ 0) :
      OutStep c .flush (c.out.submit accept)
  | skipped (result : SentResult) (op : SendOp) (flying : c.out.sendOp = some op) :
      OutStep c (.sendDone result) (c.out.transmit result.count)
  | finished (result : SentResult) (op : SendOp) (flying : c.out.sendOp = some op)
      (possible : result.possible op) (d : Connection M)
      (same : d.outward = (c.flow,(c.out.transmit result.count).settle result))
      (parts : List Bytes) (o : Outbound) (taken : Offered d parts o) :
      OutStep c (.sendDone result) o

lemma coroWritable_offered : c.coroWritable.flow = c.flow ∧ ∃ parts, Offered c parts c.coroWritable.out := by
  unfold coroWritable
  split
  · have same := outward_of_sendSide (afterSent_avoids c).sendSide
    exact ⟨flow_of_outward same,[],out_of_outward same ▸ .refused⟩
  next bytes _ =>
  obtain ⟨flow,offered⟩ := offer_offered c [bytes]
  simp only
  split
  · have same := outward_of_sendSide (afterSent_avoids (c.offer [bytes]).1).sendSide
    exact ⟨(flow_of_outward same).trans flow,[bytes],out_of_outward same ▸ offered⟩
  · exact ⟨flow,[bytes],offered⟩

lemma signalWritable_offered : c.signalWritable.flow = c.flow ∧ ∃ parts, Offered c parts c.signalWritable.out := by
  unfold signalWritable
  split
  · exact coroWritable_offered c
  split
  · exact ⟨rfl,[],.refused⟩
  have same := outward_of_sendSide (afterSent_avoids c).sendSide
  exact ⟨flow_of_outward same,[],out_of_outward same ▸ .refused⟩

lemma release_offered (accept : Bool) : (c.release accept).flow = c.flow ∧ ∃ (d : Connection M) (parts : List Bytes),
    d.outward = c.outward ∧ Offered d parts (c.release accept).out := by
  unfold release
  simp only
  generalize lifted : (if c.readPaused then _ else _) = d
  have same : d.outward = c.outward := by
    rw [← lifted]
    split
    · exact rearmRecv_outward _ _
    · rfl
  obtain ⟨flow,parts,offered⟩ := signalWritable_offered d
  exact ⟨flow.trans (flow_of_outward same),d,parts,same,offered⟩

lemma drained_offered (accept : Bool) : (c.drained accept).flow = c.flow ∧ ∃ (d : Connection M) (parts : List Bytes),
    d.outward = c.outward ∧ Offered d parts (c.drained accept).out := by
  unfold drained
  split
  · exact release_offered c accept
  have same := outward_of_sendSide (afterSent_avoids c).sendSide
  exact ⟨flow_of_outward same,c,[],rfl,out_of_outward same ▸ .refused⟩

lemma onSent_offered (result : SentResult) (accept : Bool) :
    (c.onSent result accept).flow = c.flow ∧ ∃ (d : Connection M) (parts : List Bytes),
    d.outward = (c.flow,c.out.settle result) ∧ Offered d parts (c.onSent result accept).out := by
  cases result with
  | canceled => exact ⟨rfl,_,[],rfl,.refused⟩
  | error =>
    have same : (c.onSent .error accept).outward = (c.flow,c.out.settle .error) :=
      outward_of_sendSide (close_avoids _ _).sendSide
    exact ⟨congrArg fst same,_,[],same,.refused⟩
  | sent n =>
    have fin := outward_of_sendSide (finAfterDrain_avoids { c with out := c.out.settle (.sent n) }).sendSide
    obtain ⟨flow,d,parts,same,offered⟩ := drained_offered { c with out := c.out.settle (.sent n) }.finAfterDrain accept
    exact ⟨flow.trans (congrArg fst fin),d,parts,same.trans fin,offered⟩

lemma step_sendSide {framer : Framer M} {c d : Connection M} {label : Event × Bool} (taken : Step framer c label d)
    (payload : label.1.payload = none) (flush : label.1 ≠ .flush) (done : ∀ result, label.1 ≠ .sendDone result) :
    d.sendSide = c.sendSide := by
  obtain ⟨_,accept⟩ := label
  cases taken.move with
  | call u =>
    cases u with
    | send | sendScatter | awaitSend => cases payload
    | shutdownWrite => exact (shutdownWrite_avoids c).sendSide
    | close reason => exact (close_avoids c reason).sendSide
    | awaitRecv =>
      simp only [call]
      split
      · exact (awaitRecv_avoids c accept).sendSide
      · rfl
    | unawaitRecv | unawaitSend => rfl
  | enableCoro => rfl
  | connected result => exact onConnectResult_sendSide c result
  | recvDone index target result ancillary => exact (recvDone_avoids c accept index target result ancillary).sendSide
  | sendDone _ result => exact absurd rfl (done result)
  | flush => exact absurd rfl flush
  | resume => exact (resume_avoids c accept framer).sendSide

lemma step_outStep {framer : Framer M} {c c' : Connection M} {label : Event × Bool}
    (taken : Step framer c label c') : c'.flow = c.flow ∧ OutStep c label.1 c'.out := by
  -- Steps of the read side keep flow and write side together.
  have quiet {d : Connection M} (same : d.sendSide = c.sendSide) : d.flow = c.flow ∧ OutStep c label.1 d.out := by
    have same := outward_of_sendSide same
    exact ⟨flow_of_outward same,out_of_outward same ▸ .quiet _⟩
  obtain ⟨_,accept⟩ := label
  cases taken.move with
  | call u =>
    have offer (parts : List Bytes) (payload : u.payload = some parts) :
        (c.offer parts).1.flow = c.flow ∧ OutStep c (.call u) (c.offer parts).1.out :=
      (offer_offered c parts).imp_right (.offered u parts _ payload)
    cases u with
    | send | sendScatter => exact offer _ rfl
    | awaitSend bytes =>
      simp only [call,awaitSend]
      split
      · split <;> exact offer [bytes] rfl
      · exact quiet rfl
    | _ => exact quiet (step_sendSide taken rfl (by simp) (by simp))
  | sendDone op result flying _ possible =>
    simp only [sendDone]
    split
    · exact ⟨rfl,.skipped result op flying⟩
    obtain ⟨flow,d,parts,same,offered⟩ := onSent_offered { c with out := c.out.transmit result.count } result accept
    exact ⟨flow,.finished result op flying possible d same parts _ offered⟩
  | flush =>
    simp only [flushWrite]
    split
    · exact quiet rfl
    next ready =>
    split
    · exact quiet rfl
    refine ⟨rfl,.submitted accept ?_ ?_⟩
    · by_contra busy
      exact ready (.inl busy)
    intro none
    exact ready (.inr (by simp [IoBuffer.empty,none]))
  | _ => exact quiet (step_sendSide taken rfl (by simp) (by simp))
end Connection
namespace Outbound
structure Streams (o : Outbound) : Prop where
  valid : o.writeBuf.Valid
  whole : o.transmitted++o.writeBuf.readable = o.accepted
  front : ∀ op, o.sendOp = some op → op.bytes <+: o.writeBuf.readable ∧ o.writeInflight ≠ 0

structure Abandoned (o : Outbound) : Prop where
  sendOp : o.sendOp = none
  inflight : o.writeInflight ≠ 0
  sound : o.transmitted <+: o.accepted

variable {o : Outbound}

lemma Streams.sound (streams : Streams o) : o.transmitted <+: o.accepted := ⟨_,streams.whole⟩

lemma Streams.queue (streams : Streams o) (parts : List Bytes) : Streams ((o.append parts).note parts) := by
  obtain ⟨grown,valid⟩ := IoBuffer.appendAll_spec streams.valid parts
  refine ⟨valid,?_,?_⟩
  · change o.transmitted++(parts.foldl IoBuffer.append o.writeBuf).readable = o.accepted++parts.flatten
    rw [grown,← append_assoc,streams.whole]
  intro op flying
  obtain ⟨front,inflight⟩ := streams.front op flying
  refine ⟨?_,inflight⟩
  change op.bytes <+: (parts.foldl IoBuffer.append o.writeBuf).readable
  rw [grown]
  exact front.trans (prefix_append _ _)

lemma Streams.submit (streams : Streams o) (accept : Bool)
    (queued : o.writeBuf.size ≠ 0) : Streams (o.submit accept) := by
  refine ⟨streams.valid,streams.whole,?_⟩
  intro op flying
  refine ⟨?_,queued⟩
  cases accept with
  | true =>
    cases flying
    exact prefix_rfl
  | false => exact (streams.front op flying).1

lemma transmit_eq {op : SendOp} (flying : o.sendOp = some op) (n : Nat) :
    o.transmit n = { o with sendOp := none, transmitted := o.transmitted++op.bytes.take n } := by
  rw [transmit,flying]

lemma Streams.settle (streams : Streams o) {op : SendOp} (flying : o.sendOp = some op) (result : SentResult)
    (possible : result.possible op) : Streams ((o.transmit result.count).settle result) := by
  obtain ⟨⟨_,front⟩,_⟩ := streams.front op flying
  have unsent (b : IoBuffer) (same : b.readable = o.writeBuf.readable.drop result.count) :
      (o.transmitted++op.bytes.take result.count)++b.readable = o.accepted := by
    have within : result.count ≤ op.bytes.length := by
      cases result with
      | sent => exact of_decide_eq_true possible
      | canceled | error => exact Nat.zero_le _
    have cut : op.bytes.take result.count = o.writeBuf.readable.take result.count := by
      rw [← front,take_append_of_le_length within]
    rw [same,cut,append_assoc,take_append_drop,streams.whole]
  rw [transmit_eq flying]
  cases result with
  | sent n => exact ⟨consume_valid streams.valid n,unsent _ (consume_readable _ n),nofun⟩
  | canceled | error => exact ⟨streams.valid,unsent _ rfl,nofun⟩
end Outbound
namespace Connection
variable {M : Type}
variable {c : Connection M}

lemma Offered.streams {parts : List Bytes} {o : Outbound} (offered : Offered c parts o)
    (keeps : c.flow.onOverflow ≠ .dropOldest) (streams : c.out.Streams) : o.Streams := by
  cases offered with
  | refused => exact streams
  | queued => exact streams.queue parts
  | evicted _ _ policy => exact absurd policy keeps

lemma Offered.abandoned {parts : List Bytes} {o : Outbound}
    (offered : Offered c parts o) (abandoned : c.out.Abandoned) : o.Abandoned := by
  obtain ⟨none,inflight,sound⟩ := abandoned
  cases offered with
  | refused => exact ⟨none,inflight,sound⟩
  | queued | evicted => exact ⟨none,inflight,sound.trans (prefix_append _ _)⟩

def Flows (c : Connection M) : Prop := c.flow.onOverflow ≠ .dropOldest ∧ (c.out.Streams ∨ c.out.Abandoned)

lemma create_flows (flow : FlowControl) (size : Nat) (keeps : flow.onOverflow ≠ .dropOldest) :
    (create flow size : Connection M).Flows :=
  ⟨keeps,.inl ⟨create_valid _ _,rfl,nofun⟩⟩

lemma step_flows {framer : Framer M} {c' : Connection M} {label : Event × Bool}
    (taken : Step framer c label c') (flows : c.Flows) : c'.Flows := by
  obtain ⟨keeps,state⟩ := flows
  obtain ⟨flow,moved⟩ := step_outStep taken
  refine ⟨flow ▸ keeps,?_⟩
  generalize c'.out = o,label.1 = event at moved
  cases state with
  | inl streams =>
    cases moved with
    | quiet => exact .inl streams
    | offered _ _ _ _ offered => exact .inl (offered.streams keeps streams)
    | submitted accept _ queued => exact .inl (streams.submit accept queued)
    | skipped _ op flying =>
      -- The completion is lost on a closed connection: its bytes stay queued for good.
      right
      obtain ⟨front,inflight⟩ := streams.front op flying
      rw [Outbound.transmit_eq flying]
      refine ⟨rfl,inflight,?_⟩
      rw [← streams.whole]
      exact prefix_append_right_inj _ |>.2 (( take_prefix _ _).trans front)
    | finished result _ flying possible d same _ _ offered =>
      left
      apply offered.streams
      · exact (congrArg (fun p => p.1.onOverflow) same).trans_ne keeps
      rw [show d.out = _ from congrArg snd same]
      exact streams.settle flying result possible
  | inr abandoned =>
    cases moved with
    | quiet => exact .inr abandoned
    | offered _ _ _ _ offered => exact .inr (offered.abandoned abandoned)
    | submitted _ free => exact absurd free abandoned.inflight
    | skipped _ op flying | finished _ op flying => exact absurd flying (by simp [abandoned.sendOp])

/-- Under a policy that does not evict, the transmitted bytes are a prefix of the accepted payloads, and at rest all of
them. -/
theorem transmitted_prefix_accepted {framer : Framer M} {flow : FlowControl} {size : Nat}
    {labels : List (Event × Bool)} {c : Connection M} (keeps : flow.onOverflow ≠ .dropOldest)
    (run : Exec (Step framer) (create flow size) labels c) :
    c.out.transmitted <+: c.out.accepted ∧
      (c.out.writeBuf.empty → c.out.writeInflight = 0 → c.out.transmitted = c.out.accepted) := by
  have flows := run.invariant Flows (fun _ _ _ taken => step_flows taken) (create_flows flow size keeps)
  obtain ⟨_,streams | abandoned⟩ := flows
  · refine ⟨streams.sound,?_⟩
    intro empty _
    have none : c.out.writeBuf.readable = [] := readable_eq_nil.2 (by simpa [IoBuffer.empty] using empty)
    have whole := streams.whole
    rwa [none,append_nil] at whole
  · exact ⟨abandoned.sound,fun _ idle => absurd idle abandoned.inflight⟩

def waiting : Framer Unit := fun _ => .needMore 1

def shortWrite : List (Event × Bool) :=
  [(.connected .ok,true),(.resume,true),(.call (.send [1,2,3]),true),(.flush,true),
    (.call (.sendScatter [[4],[5]]),true),(.sendDone (.sent 2),true),(.flush,true),
    (.sendDone (.sent 3),true)]

theorem shortWrite_transmits : ∃ c : Connection Unit,
    Exec (Step waiting) (create {} 65536) shortWrite c ∧ c.out.accepted = [1,2,3,4,5] ∧
      c.out.transmitted = c.out.accepted :=
  Exec.run_of_drive (P := fun c => c.out.accepted = [1,2,3,4,5] ∧ c.out.writeBuf.empty ∧
      c.out.writeInflight = 0) (by decide +kernel) fun _ run ⟨accepted,empty,free⟩ =>
    ⟨accepted,(transmitted_prefix_accepted (by decide) run).2 empty free⟩

end Connection
end AffiniX
