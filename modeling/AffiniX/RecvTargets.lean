import AffiniX.ConnectionRead

/-! The receive buffer and the backend's receives into it: at most one, behind the readable bytes. -/
namespace AffiniX
open ByteMemory Transition IoBuffer List Point
variable {M : Type}

structure Span.Behind (t : Span) (b : IoBuffer) : Prop where
  alloc : t.alloc = b.alloc
  offset : t.offset = b.tail
  length_le : t.length ≤ b.room

namespace Inbound
/-- The received stream is what the framer has retired followed by what is readable, and a
receive, if there is one, continues it. -/
structure Agrees (i : Inbound M) : Prop where
  valid : i.readBuf.Valid
  whole : i.parsed++i.readBuf.readable = i.received
  single : i.recvs.length ≤ 1
  behind : ∀ t ∈ i.recvs, t.Behind i.readBuf

variable {i : Inbound M}
variable (agrees : i.Agrees)
include agrees

lemma Agrees.congr {i' : Inbound M} (readBuf : i'.readBuf = i.readBuf) (parsed : i'.parsed = i.parsed)
    (received : i'.received = i.received) (recvs : i'.recvs = i.recvs) : i'.Agrees := by
  obtain ⟨valid,whole,single,behind⟩ := agrees
  refine ⟨readBuf ▸ valid,?_,recvs ▸ single,?_⟩
  · rw [readBuf,parsed,received]
    exact whole
  rw [readBuf,recvs]
  exact behind

lemma Agrees.submit (none : i.recvs = []) (n : Nat) (accept : Bool) : let b := i.readBuf.ensureWritable n
    ({ i with readBuf := b, recvs := if accept then i.recvs++[b.free] else i.recvs }).Agrees ∧ n ≤ b.room := by
  obtain ⟨valid,room⟩ := ensureWritable_spec agrees.valid n
  refine ⟨⟨valid,?_,?_,?_⟩,room⟩
  · rw [ensureWritable_readable]
    exact agrees.whole
  · cases accept <;> simp [none]
  intro t among
  cases accept with
  | true =>
    simp only [none,if_true,nil_append,mem_singleton] at among
    subst among
    exact ⟨rfl,rfl,Nat.le_refl _⟩
  | false => simp [none] at among

lemma Agrees.commit (none : i.recvs = []) (bytes : Bytes)
    (filled : slice i.readBuf.buf i.readBuf.tail bytes.length = bytes) (fits : bytes.length ≤ i.readBuf.room) :
    ({ i with readBuf := i.readBuf.commit bytes.length, received := i.received++bytes }).Agrees := by
  have whole := room_add_tail agrees.valid
  refine ⟨⟨agrees.valid.headroom_lt,agrees.valid.headroom_le,?_⟩,?_,by simp [none],by simp [none]⟩
  · simp only [IoBuffer.commit,IoBuffer.tail] at *
    omega
  simp only [IoBuffer.commit,IoBuffer.readable,slice_add]
  change i.parsed++(i.readBuf.readable++slice i.readBuf.buf i.readBuf.tail bytes.length) = _
  rw [filled,← append_assoc,agrees.whole]

lemma Agrees.retire (n : Nat)
    (left : i.recvs ≠ [] → n < i.readBuf.size) (batch : List M) (need : Nat) :
    ({ i with batch := batch
              parsed := i.parsed++i.readBuf.readable.take n
              readBuf := i.readBuf.consume n
              parseNeed := need }).Agrees := by
  refine ⟨consume_valid agrees.valid n,?_,agrees.single,?_⟩
  · simp only [consume_readable]
    rw [append_assoc,take_append_drop,agrees.whole]
  intro t among
  obtain ⟨alloc,offset,_⟩ := agrees.behind t among
  have short := left (ne_nil_of_mem among)
  have tail := consume_tail short
  refine ⟨alloc,offset.trans tail.symm,?_⟩
  have cap : (i.readBuf.consume n).cap = i.readBuf.cap := rfl
  simp only [IoBuffer.room,IoBuffer.tail] at *
  omega

lemma Agrees.fill {t : Span} (among : t ∈ i.recvs) (bytes : Bytes) (within : bytes.length ≤ t.length) :
    ({ i with recvs := [], readBuf := i.readBuf.write t.alloc t.offset bytes }).Agrees ∧
      slice (i.readBuf.write t.alloc t.offset bytes).buf
          (i.readBuf.write t.alloc t.offset bytes).tail bytes.length = bytes ∧
        bytes.length ≤ (i.readBuf.write t.alloc t.offset bytes).room := by
  obtain ⟨alloc,offset,length⟩ := agrees.behind t among
  rw [IoBuffer.write,if_pos alloc,offset]
  refine ⟨⟨⟨agrees.valid.headroom_lt,agrees.valid.headroom_le,agrees.valid.fits⟩,?_,Nat.zero_le _,
    forall_mem_nil _⟩,slice_store _ _ _,Nat.le_trans within length⟩
  have same : slice (store i.readBuf.buf i.readBuf.tail bytes) i.readBuf.start i.readBuf.size =
      i.readBuf.readable := slice_store_of_disjoint _ _ _ _ _ (.inl (Nat.le_refl _))
  simp only [IoBuffer.readable] at same ⊢
  rw [same]
  exact agrees.whole
end Inbound
namespace Connection
structure Reads (c : Connection M) : Prop where
  agrees : c.inb.Agrees
  armed : c.coro.on → c.inb.recvs ≠ [] → c.coro.armed
  quiet : ¬ c.coro.on → ¬ c.point.settled → c.inb.recvs = []
  spacious : ¬ c.coro.on → c.state = .established → c.inb.recvs ≠ [] → max c.inb.parseNeed 4096 ≤ c.inb.readBuf.room
  fresh : c.state = .connecting → c.inb.recvs = []

variable {c c' : Connection M} {framer : Framer M}

lemma Reads.of_none (agrees : c.inb.Agrees) (none : c.inb.recvs = []) : c.Reads :=
  ⟨agrees,fun _ some => absurd none some,fun _ _ => none,fun _ _ some => absurd none some, fun _ => none⟩

lemma Reads.congr (reads : c.Reads) (inb : c'.inb = c.inb) (on : c'.coro.on = c.coro.on)
    (armed : c'.coro.armed = c.coro.armed) (point : c'.point = c.point) (state : c'.state = c.state) : c'.Reads := by
  obtain ⟨agrees,flag,quiet,spacious,fresh⟩ := reads
  refine ⟨inb ▸ agrees,?_,?_,?_,?_⟩
  · rw [inb,on,armed]
    exact flag
  · rw [inb,on,point]
    exact quiet
  · rw [inb,on,state]
    exact spacious
  rw [inb,state]
  exact fresh

lemma Reads.apart (reads : c.Reads) (apart : Apart c c') : c'.Reads := by
  obtain ⟨agrees,armed,quiet,spacious,fresh⟩ := reads
  refine ⟨apart.inb ▸ agrees,?_,?_,?_,?_⟩
  · rw [apart.inb,apart.on,apart.armed]
    exact armed
  · rw [apart.inb,apart.on]
    intro off busy
    obtain same | ⟨_,settled⟩ := apart.point
    · exact quiet off (same ▸ busy)
    · exact absurd settled busy
  · rw [apart.inb,apart.on]
    intro off established
    exact spacious off (apart.state_eq established (by decide))
  rw [apart.inb]
  intro connecting
  exact fresh (apart.state_eq connecting (by decide))

lemma Reads.moveTo (reads : c.Reads) (p : Point)
    (quiet : ¬ c.coro.on → ¬ p.settled → c.inb.recvs = []) : Reads { c with point := p } :=
  ⟨reads.agrees,reads.armed,quiet,reads.spacious,reads.fresh⟩

section
variable {c : Connection M} (accept : Bool)

lemma armRecv_reads (agrees : c.inb.Agrees) (none : c.inb.recvs = []) (settled : ¬ c.coro.on → c.point.settled)
    (armed : c.coro.on → c.coro.armed) : (c.armRecv accept).Reads := by
  unfold armRecv
  split
  · exact .of_none agrees none
  next open' =>
  obtain ⟨submitted,room⟩ := agrees.submit none (max c.inb.parseNeed 4096) accept
  refine ⟨submitted,fun on _ => armed on,fun off busy => absurd (settled off) busy, fun _ _ _ => room,?_⟩
  intro connecting
  refine absurd (.inr ?_) open'
  rw [show c.state = .connecting from connecting]
  decide

lemma armDrainRecv_reads (agrees : c.inb.Agrees) (none : c.inb.recvs = []) (settled : c.point.settled)
    (off : ¬ c.coro.on) (half : c.state = .shutdownWrite) : (c.armDrainRecv accept).Reads := by
  unfold armDrainRecv
  split
  · obtain ⟨submitted,_⟩ := agrees.submit none 4096 accept
    refine ⟨submitted,fun on => absurd on off,fun _ busy => absurd settled busy,?_,?_⟩
    · intro _ established
      cases half.symm.trans established
    intro connecting
    cases half.symm.trans connecting
  · exact .of_none agrees none

lemma coroArm_reads (reads : c.Reads) (on : c.coro.on) : (c.coroArm accept).Reads := by
  unfold coroArm
  split
  · exact reads
  next unarmed =>
  have none : c.inb.recvs = [] := by
    by_contra some
    exact unarmed (reads.armed on some)
  exact armRecv_reads accept reads.agrees none (fun off => absurd on off) fun _ => rfl

lemma rearmRecv_reads (reads : c.Reads) (none : ¬ c.coro.on → c.inb.recvs = [])
    (settled : c.point.settled) : (c.rearmRecv accept).Reads := by
  unfold rearmRecv
  split
  next on => exact coroArm_reads accept reads on
  next off => exact armRecv_reads accept reads.agrees (none off) (fun _ => settled) fun on => absurd on off
end
section
variable {c : Connection M} (accept : Bool)

lemma finishRecv_reads (reads : c.Reads) (none : ¬ c.coro.on → c.inb.recvs = []) : (c.finishRecv accept).Reads := by
  unfold finishRecv
  simp only
  split
  next arms =>
    have off : ¬ c.coro.on := by simpa using arms.2
    exact armRecv_reads accept reads.agrees (none off) (fun _ => rfl) fun on => absurd on off
  · split
    next drains =>
      have off : ¬ c.coro.on := by simpa using drains.2
      exact armDrainRecv_reads accept reads.agrees (none off) rfl off drains.1
    · exact reads.moveTo .idle fun _ busy => absurd rfl busy

lemma afterBatch_reads (reads : c.Reads) (none : ¬ c.coro.on → c.inb.recvs = []) (last : Bool) :
    (c.afterBatch last accept).Reads := by
  have cleared : Reads { c with inb := { c.inb with batch := [] } } :=
    ⟨reads.agrees.congr rfl rfl rfl rfl,reads.armed,reads.quiet,reads.spacious,reads.fresh⟩
  unfold afterBatch
  simp only
  split
  · exact finishRecv_reads accept reads none
  split
  · exact cleared.moveTo .idle fun off _ => none off
  · exact cleared.moveTo .parsing fun off _ => none off

lemma dispatchBatch_reads (reads : c.Reads) (none : ¬ c.coro.on → c.inb.recvs = []) (last : Bool) :
    (c.dispatchBatch last accept).Reads := by
  unfold dispatchBatch
  split
  next on =>
    split
    · exact ⟨reads.agrees,reads.armed,fun off => absurd on off,fun off => absurd on off,reads.fresh⟩
    split
    · apply afterBatch_reads
      · exact reads.congr rfl rfl rfl rfl rfl
      · exact none
    have apart := close_apart c .heldOverflow
    apply afterBatch_reads
    · exact reads.apart apart
    rw [apart.on,apart.inb]
    exact none
  · have delivering := reads.moveTo (.delivering last) fun off _ => none off
    exact delivering.congr rfl rfl rfl rfl rfl
end

def drains (framer : Framer M) (b : IoBuffer) : Bool := match framer b.readable with
  | .message _ consumed => b.size ≤ consumed
  | .needMore _ | .error _ => false

section
variable (accept : Bool)

lemma parse_reads (reads : c.Reads) (none : ¬ c.coro.on → c.inb.recvs = [])
    (left : c.inb.recvs ≠ [] → ¬ drains framer c.inb.readBuf) : (c.parse framer accept).Reads := by
  unfold parse
  simp only
  split
  next need _ =>
    have noted : Reads { c with inb := { c.inb with parseNeed := need } } :=
      ⟨reads.agrees.congr rfl rfl rfl rfl,reads.armed,fun off _ => none off,fun off _ some => absurd (none off) some,
        reads.fresh⟩
    split
    · exact finishRecv_reads accept noted none
    · exact dispatchBatch_reads accept noted none true
  · have stopped := reads.moveTo .frameError fun off _ => none off
    exact stopped.congr rfl rfl rfl rfl rfl
  next message consumed parsed =>
  have short : c.inb.recvs ≠ [] → consumed < c.inb.readBuf.size := by
    intro some
    have kept := left some
    simp only [drains,parsed] at kept
    simpa using kept
  have retired : Reads { c with inb := { c.inb with
      batch := c.inb.batch++[message]
      parsed := c.inb.parsed++c.inb.readBuf.readable.take consumed
      readBuf := c.inb.readBuf.consume consumed
      parseNeed := 0 } } :=
    ⟨reads.agrees.retire consumed short _ 0,reads.armed,fun off _ => none off,
      fun off _ some => absurd (none off) some,reads.fresh⟩
  split
  · exact dispatchBatch_reads accept retired none false
  · exact retired

lemma onRecv_reads (agrees : c.inb.Agrees)
    (none : c.inb.recvs = []) (settled : c.point.settled) (result : RecvResult) (ancillary : Ancillary)
    (filled : ∀ bytes, result = .data bytes → slice c.inb.readBuf.buf c.inb.readBuf.tail bytes.length = bytes ∧
    bytes.length ≤ c.inb.readBuf.room) : (c.onRecv result ancillary accept).Reads := by
  have same : c.disarm.inb = c.inb ∧ c.disarm.point = c.point := by
    unfold disarm
    split <;> exact ⟨rfl,rfl⟩
  rw [← same.1] at agrees none filled
  rw [← same.2] at settled
  unfold onRecv
  simp only
  generalize c.disarm = d at agrees none filled settled
  have reads : d.Reads := .of_none agrees none
  split
  · split
    · exact reads
    next half =>
    rw [not_or,not_not] at half
    cases result with
    | eof | error => exact reads.apart (close_apart _ _)
    | _ => exact armDrainRecv_reads accept agrees none settled half.1 half.2
  cases result with
  | again | canceled => exact rearmRecv_reads accept reads (fun _ => none) settled
  | error | eof => exact reads.apart (close_apart _ _)
  | data bytes =>
    obtain ⟨there,fits⟩ := filled bytes rfl
    have committed := agrees.commit none bytes there fits
    simp only
    split
    · exact .of_none committed none
    split
    · exact .of_none committed none
    · exact .of_none (committed.congr rfl rfl rfl rfl) none

lemma recvDone_reads (reads : c.Reads) {index : Nat} {target : Span} (pending : c.inb.recvs[index]? = some target)
    (idle : c.point = .idle) (result : RecvResult) (possible : result.possible target) (ancillary : Ancillary) :
    (c.recvDone index target result ancillary accept).Reads := by
  have among := List.mem_of_getElem? pending
  have gone : c.inb.recvs.eraseIdx index = [] := by
    have single := reads.agrees.single
    have within := (List.getElem?_eq_some_iff.1 pending).1
    apply List.eq_nil_of_length_eq_zero
    rw [List.length_eraseIdx_of_lt within]
    omega
  have untouched : ({ c.inb with recvs := [] }).Agrees :=
    ⟨reads.agrees.valid,reads.agrees.whole,Nat.zero_le _,forall_mem_nil _⟩
  unfold recvDone
  simp only [gone]
  cases result with
  | data bytes =>
    -- What the kernel wrote lies behind the readable bytes and is not yet part of them.
    simp only [RecvResult.possible,decide_eq_true_eq] at possible
    obtain ⟨agrees,there,fits⟩ := reads.agrees.fill among bytes possible.2
    split
    · exact .of_none agrees rfl
    apply onRecv_reads accept agrees rfl (idle ▸ rfl)
    rintro _ ⟨⟩
    exact ⟨there,fits⟩
  | _ =>
    split
    · exact .of_none untouched rfl
    apply onRecv_reads accept untouched rfl (idle ▸ rfl)
    rintro _ ⟨⟩

/-- What a step must not do to an outstanding receive: lift the pause at a backend that takes a second one, or parse the
last buffered bytes. -/
def KeepsTarget (framer : Framer M) (c : Connection M) (label : Event × Bool) : Prop :=
  (∀ n ∈ label.1.sent?, c.lifts n → c.state = .established → c.coro.on = false → label.2 = true → c.inb.recvs = []) ∧
  (label.1 = .resume → c.point = .parsing → c.inb.recvs ≠ [] → drains framer c.inb.readBuf = false)

instance (framer : Framer M) (c : Connection M) (label : Event × Bool) :
    Decidable (KeepsTarget framer c label) := instDecidableAnd

lemma awaitRecv_reads (reads : c.Reads) (on : c.coro.on) : (c.awaitRecv accept).Reads := by
  unfold awaitRecv
  split
  · exact reads
  split
  · have parked : Reads { c with coro := { c.coro with recvParked := true } } := reads.congr rfl rfl rfl rfl rfl
    exact coroArm_reads accept parked on
  · exact reads.congr rfl rfl rfl rfl rfl

lemma call_reads (reads : c.Reads) (u : Call) : (c.call accept u).Reads := by
  cases u with
  | send bytes => exact reads.apart (offer_apart c [bytes])
  | sendScatter parts => exact reads.apart (offer_apart c parts)
  | shutdownWrite => exact reads.apart (shutdownWrite_apart c)
  | close reason => exact reads.apart (close_apart c reason)
  | awaitRecv =>
    simp only [call]
    split
    · exact awaitRecv_reads accept reads ‹_›
    · exact reads
  | unawaitRecv | unawaitSend => exact reads.congr rfl rfl rfl rfl rfl
  | awaitSend bytes =>
    simp only [call]
    split
    · exact reads.apart (awaitSend_apart c bytes)
    · exact reads

lemma lifted_reads {d : Connection M} (reads : c.Reads) (lifted : Lifted c d) (settled : c.point.settled)
    (alone : c.state = .established → c.coro.on = false → accept = true → c.inb.recvs = []) :
    (d.rearmRecv accept).Reads := by
  obtain ⟨inb,coro,state,point,_⟩ := lifted
  have kept : d.Reads := reads.congr inb (by rw [coro]) (by rw [coro]) point state
  unfold rearmRecv
  split
  · exact coroArm_reads accept kept ‹_›
  next off =>
  have off' : c.coro.on = false := by
    rw [coro] at off
    simpa using off
  by_cases none : c.inb.recvs = []
  · exact armRecv_reads accept kept.agrees (inb ▸ none) (fun _ => point ▸ settled) fun on => absurd on off
  -- The refused receive asks for no more room than there is, so the buffer stays.
  unfold armRecv
  split
  · exact kept
  next open' =>
  have established : c.state = .established := by
    rw [not_or,not_not] at open'
    exact state ▸ open'.2
  have refused : accept = false := by
    by_contra taken
    exact none (alone established off' (by simpa using taken))
  have room := kept.spacious off (state ▸ established) (inb ▸ none)
  have same : submitRecv d (max d.inb.parseNeed 4096) false = d.emit .submitRecv := by
    simp only [submitRecv,ensureWritable_of_room room]
    rfl
  rw [refused,same]
  exact kept.congr rfl rfl rfl rfl rfl

lemma resume_reads (reads : c.Reads)
    (keeps : c.point = .parsing → c.inb.recvs ≠ [] → drains framer c.inb.readBuf = false) :
    (c.resume framer accept).Reads := by
  have none (busy : ¬ c.point.settled) : ¬ c.coro.on → c.inb.recvs = [] := fun off => reads.quiet off busy
  unfold resume
  split
  · exact reads
  next opening =>
    exact rearmRecv_reads accept (reads.moveTo .idle fun _ busy => absurd rfl busy)
      (none (by simp [opening,settled])) rfl
  next atError =>
    have moved := reads.moveTo .fds fun off _ => none (by simp [atError,settled]) off
    exact moved.congr rfl rfl rfl rfl rfl
  next atFds =>
    have begun := reads.moveTo .parsing fun off _ => none (by simp [atFds,settled]) off
    exact ⟨begun.agrees.congr rfl rfl rfl rfl,begun.armed,begun.quiet,begun.spacious,begun.fresh⟩
  next parsing =>
    refine parse_reads accept reads (none (by simp [parsing,settled])) ?_
    intro some drained
    rw [keeps parsing some] at drained
    exact absurd drained Bool.false_ne_true
  next last delivering => exact afterBatch_reads accept reads (none (by simp [delivering,settled])) last
  · exact (reads.moveTo .idle fun _ busy => absurd rfl busy).apart (close_apart _ _)
  next writable => exact reads.apart (afterSent_apart c (writable ▸ rfl))
end

lemma step_reads {label : Event × Bool}
    (taken : Guarded (Step framer) (KeepsTarget framer) c label c') (reads : c.Reads) : c'.Reads := by
  obtain ⟨keeps,taken⟩ := taken
  obtain ⟨event,accept⟩ := label
  cases taken.move with
  | call u _ => exact call_reads accept reads u
  | enableCoro opening =>
    have none (off : ¬ c.coro.on) : c.inb.recvs = [] := reads.quiet off (by simp [opening,settled])
    refine ⟨reads.agrees,?_,fun off => absurd rfl off,fun off => absurd rfl off,reads.fresh⟩
    intro _ some
    by_cases on : c.coro.on
    · exact reads.armed on some
    · exact absurd (none on) some
  | connected result _ connecting =>
    cases result with
    | ok => exact .of_none reads.agrees (reads.fresh connecting)
    | canceled => exact reads
    | failed => exact reads.apart (close_apart c _)
  | recvDone index target result ancillary pending idle possible =>
    exact recvDone_reads accept reads pending idle result possible ancillary
  | sendDone op result _ idle _ =>
    have settled : c.point.settled := idle ▸ rfl
    obtain apart | ⟨n,rfl,lifts,d,lifted,apart⟩ := sendDone_cases c result accept settled
    · exact reads.apart apart
    · exact (lifted_reads accept reads lifted settled (keeps.1 n rfl lifts)).apart apart
  | flush _ _ _ => exact reads.apart (flushWrite_apart c accept)
  | resume _ => exact resume_reads accept reads (keeps.2 rfl)

lemma create_reads (flow : FlowControl) (size : Nat) : (create flow size : Connection M).Reads :=
  .of_none ⟨create_valid _ _,rfl,Nat.zero_le _,nofun⟩ rfl

end Connection
end AffiniX
