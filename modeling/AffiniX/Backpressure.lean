import AffiniX.ConnectionRead

/-! The pause of the read side under write pressure. -/
namespace AffiniX
open Transition List Outbound

/-- Reads pause and nothing resumes them: the pressure is not recorded, or nothing queued could end it. -/
def FlowControl.strands (flow : FlowControl) (pressed : Bool) (size total : Nat) : Bool :=
  !pressed && (flow.onOverflow == .stopReading && flow.writeHighWatermark < size+total ||
    flow.autoPauseReads && flow.writeHighWatermark == 0 && size+total == 0)

namespace Outbound
lemma append_size (o : Outbound) (parts : List Bytes) :
    (o.append parts).writeBuf.size = o.writeBuf.size+(parts.map List.length).sum := by
  unfold append
  simp only
  induction parts generalizing o with
  | nil => rfl
  | cons p _ ih =>
    have rest := ih { o with writeBuf := o.writeBuf.append p }
    simp only [IoBuffer.append_size] at rest
    rw [foldl_cons,rest,map_cons,sum_cons,Nat.add_assoc]

lemma evict_size (o : Outbound) (parts : List Bytes) :
    (o.evict parts).writeBuf.size = o.writeBuf.size-(parts.map List.length).sum := by
  unfold evict
  simp only
  induction parts generalizing o with
  | nil => rfl
  | cons p _ ih =>
    have rest := ih { o with writeBuf := o.writeBuf.consume p.length }
    simp only [IoBuffer.consume_size] at rest
    rw [foldl_cons,rest,map_cons,sum_cons,Nat.sub_sub]
end Outbound
namespace Connection
variable {M : Type}

def strands (c : Connection M) : Event → Bool
  | .call u =>
    match u.payload with
    | none => false
    | some parts =>
      c.state == .established && c.flow.strands c.backpressured c.out.writeBuf.size (parts.map List.length).sum
  | .sendDone (.sent n) =>
    match c.coro.sendParked with
    | none => false
    | some bytes =>
      c.state == .established && c.backpressured && c.out.writeBuf.size-n ≤ c.flow.writeLowWatermark &&
        c.flow.strands false (c.out.writeBuf.size-n) bytes.length
  | _ => false

def Accounted (c : Connection M) : Prop := c.readPaused → c.backpressured ∧ c.out.writeBuf.size ≠ 0

section
variable {c d : Connection M}
section
variable (accounted : c.Accounted)
include accounted

lemma Accounted.of_eq (paused : d.readPaused = c.readPaused) (pressed : d.backpressured = c.backpressured)
    (size : d.out.writeBuf.size = c.out.writeBuf.size) : d.Accounted := by
  unfold Accounted
  rw [paused,pressed,size]
  exact accounted

lemma Accounted.congr (same : d.sendSide = c.sendSide) : d.Accounted := by
  simp only [sendSide,Prod.mk.injEq] at same
  obtain ⟨_,out,pressed,paused⟩ := same
  exact accounted.of_eq paused pressed (by rw [out])

lemma checkWriteWatermark_accounted (filled : c.flow.autoPauseReads → c.backpressured = false →
    c.flow.writeHighWatermark ≤ c.out.writeBuf.size → c.out.writeBuf.size ≠ 0) :
    c.checkWriteWatermark.Accounted := by
  unfold checkWriteWatermark
  simp only
  split
  next high =>
    have calm : c.backpressured = false := by simpa using high.1
    split
    next pauses => exact fun _ => ⟨rfl,filled pauses calm high.2⟩
    · intro paused
      have recorded := (accounted paused).1
      rw [calm] at recorded
      cases recorded
  · exact accounted

lemma sendScatter_accounted (parts : List Bytes) (steady : c.state = .established →
    c.flow.strands c.backpressured c.out.writeBuf.size (parts.map List.length).sum = false) :
    (c.sendScatter parts).1.Accounted := by
  unfold sendScatter
  split
  · exact accounted
  next established =>
  have steady := steady (not_not.1 established)
  have grown := Outbound.append_size c.out parts
  split
  next beyond =>
    unfold applyOverflowParts
    cases policy : c.flow.onOverflow with
    | disconnect => exact accounted.congr (close_avoids c _).sendSide
    | dropNewest => exact accounted
    | dropOldest =>
      refine Accounted.congr ?_ (noteWritePending_avoids _).sendSide
      intro paused
      refine ⟨(accounted paused).1,?_⟩
      have kept := Outbound.append_size (c.out.evict parts) parts
      rw [Outbound.evict_size] at kept
      simp only [kept]
      omega
    | stopReading =>
      refine Accounted.congr ?_ (noteWritePending_avoids _).sendSide
      intro _
      have pressed : c.backpressured = true := by simpa [FlowControl.strands,policy,beyond] using steady
      refine ⟨pressed,?_⟩
      change (c.out.append parts).writeBuf.size ≠ 0
      omega
  · have queued : Accounted { c with out := c.out.append parts } := by
      intro paused
      have before := accounted paused
      refine ⟨before.1,?_⟩
      simp only [grown]
      omega
    have side := (noteWritePending_avoids { c with out := c.out.append parts }).sendSide
    simp only [sendSide,Prod.mk.injEq] at side
    obtain ⟨flow,out,pressed,_⟩ := side
    apply checkWriteWatermark_accounted (queued.congr (noteWritePending_avoids _).sendSide)
    rw [flow,out,pressed,grown]
    intro pauses calm
    simp only [FlowControl.strands,calm,pauses] at steady
    simp at steady
    omega

lemma offer_accounted (parts : List Bytes) (steady : c.state = .established →
    c.flow.strands c.backpressured c.out.writeBuf.size (parts.map List.length).sum = false) :
    (c.offer parts).1.Accounted := by
  have sent := sendScatter_accounted accounted parts steady
  unfold offer
  simp only
  split <;> exact sent

lemma signalWritable_accounted (steady : ∀ bytes ∈ c.coro.sendParked, c.state = .established →
    c.flow.strands c.backpressured c.out.writeBuf.size bytes.length = false) :
    c.signalWritable.Accounted := by
  unfold signalWritable
  split
  · unfold coroWritable
    split
    · exact accounted.congr (afterSent_avoids c).sendSide
    next bytes parked =>
    have offered : (c.offer [bytes]).1.Accounted := by
      apply offer_accounted accounted
      simpa using steady bytes parked
    simp only
    split
    · exact offered.congr (afterSent_avoids _).sendSide
    · exact offered
  · split
    · exact accounted
    · exact accounted.congr (afterSent_avoids c).sendSide
end

lemma drained_accounted (accept : Bool) (recorded : c.readPaused → c.backpressured)
    (steady : ∀ bytes ∈ c.coro.sendParked, c.state = .established → c.backpressured →
    c.out.writeBuf.size ≤ c.flow.writeLowWatermark → c.flow.strands false c.out.writeBuf.size bytes.length = false) :
    (c.drained accept).Accounted := by
  unfold drained
  split
  next low =>
    unfold release
    simp only
    split
    · have side := (rearmRecv_arms { c with backpressured := false, readPaused := false } accept).avoids.sendSide
      simp only [sendSide,Prod.mk.injEq] at side
      obtain ⟨flow,out,pressed,paused⟩ := side
      apply signalWritable_accounted
      · intro again
        rw [paused] at again
        cases again
      rw [(rearmRecv_arms _ _).sendParked,(rearmRecv_arms _ _).state,flow,out,pressed]
      exact fun bytes parked established => steady bytes parked established low.1 low.2
    next running =>
    apply signalWritable_accounted
    · exact fun paused => absurd paused running
    · exact fun bytes parked established => steady bytes parked established low.1 low.2
  next high =>
  refine Accounted.congr ?_ (afterSent_avoids c).sendSide
  intro paused
  have pressed := recorded paused
  refine ⟨pressed,?_⟩
  intro _
  exact high ⟨pressed,by omega⟩

lemma sendDone_accounted (accounted : c.Accounted) (result : SentResult) (accept : Bool)
    (steady : c.strands (.sendDone result) = false) : (c.sendDone result accept).Accounted := by
  have same : (c.out.transmit result.count).writeBuf.size = c.out.writeBuf.size := by
    rw [transmit_writeBuf]
  have skipped : Accounted { c with out := c.out.transmit result.count } := accounted.of_eq rfl rfl same
  unfold sendDone
  simp only
  split
  · exact skipped
  cases result with
  | canceled => exact accounted.of_eq rfl rfl same
  | error =>
    have entered : Accounted { c with out := (c.out.transmit 0).settle .error } := accounted.of_eq rfl rfl same
    exact entered.congr (close_avoids _ _).sendSide
  | sent n =>
    simp only [onSent,SentResult.count]
    obtain ⟨trace,fin⟩ := finAfterDrain_eq { c with out := (c.out.transmit n).settle (.sent n) }
    rw [fin]
    apply drained_accounted
    · exact fun paused => (accounted paused).1
    intro bytes parked established pressed low
    simp only [settle_size] at low ⊢
    have parked : c.coro.sendParked = some bytes := parked
    simp only [strands,parked,low,decide_true,Bool.and_true,Bool.and_eq_false_iff] at steady
    obtain (other | calm) | fine := steady
    · exact absurd established (by simpa using other)
    · exact absurd pressed (by simp [calm])
    · exact fine

lemma step_accounted {framer : Framer M} {label : Event × Bool} (taken : Step framer c label d)
    (steady : c.strands label.1 = false) (accounted : c.Accounted) : d.Accounted := by
  obtain ⟨_,accept⟩ := label
  cases taken.move with
  | call u =>
    have offered (parts : List Bytes) (payload : u.payload = some parts) : (c.offer parts).1.Accounted := by
      apply offer_accounted accounted
      intro established
      simpa [strands,payload,established] using steady
    cases u with
    | send | sendScatter => exact offered _ rfl
    | awaitSend bytes =>
      have offered := offered [bytes] rfl
      simp only [call,awaitSend]
      split
      · split <;> exact offered
      · exact accounted
    | _ => exact accounted.congr (step_sendSide taken rfl (by simp) (by simp))
  | sendDone _ result => exact sendDone_accounted accounted result accept steady
  | flush =>
    unfold flushWrite
    split
    · exact accounted
    split
    · exact accounted
    · exact accounted.of_eq rfl rfl rfl
  | _ => exact accounted.congr (step_sendSide taken rfl (by simp) (by simp))
end

/-- A completion that brings the queue of a paused connection to the low watermark arms reads again and tells the
handler or the parked sender. -/
structure Released (c c' : Connection M) : Prop where
  callback : c.coro.on = false → c'.readPaused = false ∧ c'.backpressured = false ∧
    c'.trace = c.trace++[.submitRecv,.onWritable]
  session : c.coro.on → c'.coro.armed ∧ c.trace++(if c.coro.armed then [] else [.submitRecv]) <+: c'.trace
  unparked : c.coro.on → c.coro.sendParked = none → c'.readPaused = false ∧ c'.backpressured = false
  parked : c.coro.on → c.coro.sendParked.isSome → ∃ result, c'.trace.getLast? = some (.sendReturned result)

variable {c : Connection M}

lemma close_trace (c : Connection M) (reason : CloseReason) : c.trace <+: (c.close reason).trace := by
  unfold close teardown
  split
  · exact prefix_rfl
  simp only [append_assoc]
  exact prefix_append _ _

lemma offer_trace (c : Connection M) (parts : List Bytes) : c.trace <+: (c.offer parts).1.trace := by
  have sent := offer_sent c parts
  generalize (c.offer parts).1 = d at sent ⊢
  cases sent with
  | closed => exact close_trace c _
  | noted => exact prefix_rfl
  | paused => exact prefix_append _ _

lemma offer_backpressured {parts : List Bytes} (refused : (c.offer parts).2 = .backpressured) :
    c.flow.onOverflow = .stopReading ∧ c.flow.writeHighWatermark < c.out.writeBuf.size+(parts.map List.length).sum := by
  change (c.sendScatter parts).2 = .backpressured at refused
  unfold sendScatter at refused
  split at refused
  · cases refused
  split at refused
  next beyond =>
    refine ⟨?_,beyond⟩
    unfold applyOverflowParts at refused
    split at refused
    · cases refused
    · cases refused
    · cases refused
    · assumption
  · cases refused

lemma sendDone_of_lifts {n : Nat} (accept : Bool) (established : c.state = .established)
    (lifts : c.lifts n) : c.sendDone (.sent n) accept =
      signalWritable (rearmRecv { c with
        out := (c.out.transmit n).settle (.sent n)
        backpressured := false
        readPaused := false } accept) := by
  obtain ⟨_,pressed,paused,low⟩ := lifts
  simp only [sendDone,SentResult.count,onSent,finAfterDrain,established,
    reduceCtorEq,false_and,if_false,drained,settle_size,low,pressed,and_self,if_true,release,paused]

lemma rearmRecv_session {d : Connection M} (accept : Bool) (on : d.coro.on) (established : d.state = .established)
    (running : d.readPaused = false) : (d.rearmRecv accept).coro.on ∧ (d.rearmRecv accept).coro.armed ∧
    (d.rearmRecv accept).trace = d.trace++(if d.coro.armed then [] else [.submitRecv]) := by
  unfold rearmRecv coroArm armRecv
  cases armed : d.coro.armed with
  | true => simp [on,armed]
  | false => simp [on,established,running,submitRecv,emit]

lemma afterSent_kept (d : Connection M) : d.afterSent.coro = d.coro ∧ d.afterSent.trace = d.trace := by
  unfold afterSent noteWritePending
  simp only
  split_ifs <;> exact ⟨rfl,rfl⟩

lemma resumed {d : Connection M} (accept : Bool) (established : d.state = .established)
    (running : d.readPaused = false) (calm : d.backpressured = false)
    (steady : ∀ bytes ∈ d.coro.sendParked, d.flow.strands false d.out.writeBuf.size bytes.length = false) :
    Released d (d.rearmRecv accept).signalWritable := by
  have parked := (rearmRecv_arms d accept).sendParked
  have side := (rearmRecv_arms d accept).avoids.sendSide
  simp only [sendSide,Prod.mk.injEq,running,calm] at side
  obtain ⟨flow,out,calm',running'⟩ := side
  have session (on : d.coro.on) : (d.rearmRecv accept).signalWritable = (d.rearmRecv accept).coroWritable :=
    if_pos (rearmRecv_session accept on established running).1
  constructor
  · intro off
    simp [rearmRecv,off,armRecv,running,established,signalWritable,submitRecv,emit,calm]
  · intro on
    obtain ⟨_,armed,trace⟩ := rearmRecv_session accept on established running
    rw [session on,← trace]
    unfold coroWritable
    split
    · obtain ⟨coro,same⟩ := afterSent_kept (d.rearmRecv accept)
      rw [coro,same]
      exact ⟨armed,prefix_rfl⟩
    next bytes _ =>
    have armed' := (offer_apart (d.rearmRecv accept) [bytes]).armed.trans armed
    have longer := offer_trace (d.rearmRecv accept) [bytes]
    simp only
    split
    · obtain ⟨coro,same⟩ := afterSent_kept ((d.rearmRecv accept).offer [bytes]).1
      rw [coro,same]
      exact ⟨armed',longer⟩
    · exact ⟨armed',longer.trans (prefix_append _ _)⟩
  · intro on none'
    rw [session on]
    unfold coroWritable
    rw [parked,none']
    have side := (afterSent_avoids (d.rearmRecv accept)).sendSide
    simp only [sendSide,Prod.mk.injEq] at side
    exact ⟨side.2.2.2.trans running',side.2.2.1.trans calm'⟩
  intro on some'
  rw [session on]
  obtain ⟨bytes,waits⟩ := Option.isSome_iff_exists.1 some'
  unfold coroWritable
  rw [parked,waits]
  simp only
  split
  next refused =>
    -- A retry that meets the watermark would pause the reads behind the record's back.
    obtain ⟨policy,beyond⟩ := offer_backpressured refused
    rw [flow] at policy
    rw [flow,out] at beyond
    have fits := steady bytes waits
    simp [FlowControl.strands,policy] at fits
    simp at beyond
    omega
  · exact ⟨_,List.getLast?_concat⟩

lemma sendDone_released {n : Nat} (accept : Bool) (established : c.state = .established) (lifts : c.lifts n)
    (steady : c.strands (.sendDone (.sent n)) = false) : Released c (c.sendDone (.sent n) accept) := by
  rw [sendDone_of_lifts accept established lifts]
  obtain ⟨_,pressed,_,low⟩ := lifts
  have released := resumed (d := { c with
    out := (c.out.transmit n).settle (.sent n)
    backpressured := false
    readPaused := false }) accept established rfl rfl (by
      intro bytes parked
      have parked : c.coro.sendParked = some bytes := parked
      rw [settle_size]
      simpa [strands,parked,established,pressed,low] using steady)
  exact ⟨released.callback,released.session,released.unparked,released.parked⟩

/-- A pause is on record while it lasts, with bytes queued, and the completion that reaches the low watermark ends it.
-/
theorem pause_released {framer : Framer M} {flow : FlowControl} {readBufferSize : Nat}
    {labels : List (Event × Bool)}
    (run : Exec (Guarded (Step framer) fun c label => c.strands label.1 = false)
      (create flow readBufferSize) labels c) :
    (c.readPaused → c.backpressured ∧ c.out.writeBuf.empty = false) ∧
      ∀ n accept c', Step framer c (.sendDone (.sent n),accept) c' →
        c.strands (.sendDone (.sent n)) = false → c.state = .established → c.readPaused →
        c.out.writeBuf.size-n ≤ c.flow.writeLowWatermark → Released c c' := by
  have accounted : c.Accounted := run.invariant Accounted (fun _ _ _ taken => step_accounted taken.2 taken.1) nofun
  constructor
  · intro paused
    obtain ⟨pressed,filled⟩ := accounted paused
    exact ⟨pressed,by simpa [IoBuffer.empty] using filled⟩
  intro n accept c' taken steady established paused low
  have lifts : c.lifts n := ⟨by rw [established]; decide,(accounted paused).1,paused,low⟩
  cases taken.move with
  | sendDone _ _ _ _ _ => exact sendDone_released accept established lifts steady

def fillAndDrain : List (Event × Bool) :=
  [(.connected .ok,true),(.resume,true),(.call (.send [1,2,3,4]),true),(.flush,true)]

def narrow : FlowControl := { writeHighWatermark := 4, writeLowWatermark := 2 }

theorem fillAndDrain_released : ∃ c c' : Connection Unit,
    Exec (Guarded (Step waiting) fun c label => c.strands label.1 = false) (create narrow 65536)
      fillAndDrain c ∧ c.readPaused ∧ c.backpressured ∧
      Step waiting c (.sendDone (.sent 3),true) c' ∧ c'.readPaused = false ∧
      c'.trace = c.trace++[.submitRecv,.onWritable] := by
  have driven : ∃ c, Exec (Guarded (Step waiting) fun c label => c.strands label.1 = false)
      (create narrow 65536) fillAndDrain c ∧ c.readPaused ∧ c.state = .established ∧ c.coro.on = false ∧
        c.strands (.sendDone (.sent 3)) = false ∧ c.out.writeBuf.size-3 ≤ c.flow.writeLowWatermark ∧
        (c.step waiting true (.sendDone (.sent 3))).isSome := Exec.end_of_drive (by decide +kernel)
  obtain ⟨c,run,paused,established,callback,steady,low,may⟩ := driven
  obtain ⟨c',taken⟩ := Option.isSome_iff_exists.1 may
  have held := pause_released run
  have released := held.2 3 true c' taken steady established paused low
  obtain ⟨going,_,trace⟩ := released.callback callback
  exact ⟨c,c',run,paused,(held.1 paused).1,taken,going,trace⟩

def overflowThenDrain : List (Event × Bool) :=
  [(.connected .ok,true),(.resume,true),(.call (.send [1,2,3,4,5]),true),(.flush,true), (.sendDone (.sent 5),true)]

def emptyPayload : List (Event × Bool) := [(.connected .ok,true),(.resume,true),(.call (.send []),true)]

/-- Both leave an established connection paused with nothing queued and nothing in flight. -/
theorem overflow_stays_paused :
    (∃ c : Connection Unit, Exec (Step waiting)
      (create { narrow with onOverflow := .stopReading } 65536) overflowThenDrain c ∧
      c.state = .established ∧ c.point = .idle ∧ c.readPaused ∧ c.backpressured = false ∧
      c.out.writeBuf.empty ∧ c.out.writeInflight = 0) ∧
    ∃ c : Connection Unit, Exec (Step waiting) (create { narrow with writeHighWatermark := 0 } 65536) emptyPayload c ∧
      c.state = .established ∧ c.point = .idle ∧ c.readPaused ∧
      c.out.writeBuf.empty ∧ c.out.writeInflight = 0 :=
  ⟨Exec.run_of_drive (by decide +kernel) fun _ _ => id,Exec.run_of_drive (by decide +kernel) fun _ _ => id⟩

end Connection
end AffiniX
