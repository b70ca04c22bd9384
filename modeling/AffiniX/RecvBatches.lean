import AffiniX.HalfClose
import AffiniX.ReadStall

/-! What a session sees through the batch that `co_await recv()` returned. -/
namespace AffiniX
open ByteMemory Transition
namespace Connection
variable {M : Type} {c d e : Connection M} {accept : Bool}

structure Stays (c d : Connection M) : Prop where
  buf : d.inb.readBuf.buf = c.inb.readBuf.buf
  alloc : d.inb.readBuf.alloc = c.inb.readBuf.alloc
  on : d.coro.on = c.coro.on

def Roomy (c : Connection M) : Prop := max c.inb.parseNeed 4096 ≤ c.inb.readBuf.room

instance (c : Connection M) : Decidable c.Roomy := inferInstanceAs (Decidable (_ ≤ _))

namespace Stays
lemma refl (c : Connection M) : Stays c c := ⟨rfl,rfl,rfl⟩

lemma trans (first : Stays c d) (second : Stays d e) : Stays c e :=
  ⟨second.buf.trans first.buf,second.alloc.trans first.alloc,second.on.trans first.on⟩

lemma of_apart (apart : Apart c d) : Stays c d := by
  refine ⟨?_,?_,apart.on⟩ <;> rw [apart.inb]
end Stays

lemma armRecv_stays (roomy : c.Roomy) : Stays c (c.armRecv accept) := by
  unfold armRecv
  split
  · exact .refl c
  have still := IoBuffer.ensureWritable_of_room roomy
  refine ⟨?_,?_,rfl⟩
  · exact congrArg IoBuffer.buf still
  · exact congrArg IoBuffer.alloc still

lemma coroArm_stays (roomy : c.Roomy) : Stays c (c.coroArm accept) := by
  unfold coroArm
  split
  · exact .refl c
  have noted : Stays c { c with coro := { c.coro with armed := true } } := ⟨rfl,rfl,rfl⟩
  refine noted.trans (armRecv_stays ?_)
  exact roomy

lemma rearmRecv_stays (roomy : c.Roomy) : Stays c (c.rearmRecv accept) := by
  unfold rearmRecv
  split
  · exact coroArm_stays roomy
  · exact armRecv_stays roomy

lemma awaitRecv_stays (roomy : c.Roomy) : Stays c (c.awaitRecv accept) := by
  unfold awaitRecv
  split
  · exact .refl c
  split
  · have parked : Stays c { c with coro := { c.coro with recvParked := true } } := ⟨rfl,rfl,rfl⟩
    refine parked.trans (coroArm_stays ?_)
    exact roomy
  · exact ⟨rfl,rfl,rfl⟩

lemma finishRecv_stays (on : c.coro.on = true) : Stays c (c.finishRecv accept) := by
  unfold finishRecv
  rw [if_neg (by simp [on]),if_neg (by simp [on])]
  exact ⟨rfl,rfl,rfl⟩

lemma afterBatch_stays (on : c.coro.on = true) (last : Bool) : Stays c (c.afterBatch last accept) := by
  unfold afterBatch
  dsimp only
  split
  · exact finishRecv_stays on
  · split <;> exact ⟨rfl,rfl,rfl⟩

lemma dispatchBatch_stays (on : c.coro.on = true) (last : Bool) : Stays c (c.dispatchBatch last accept) := by
  unfold dispatchBatch
  rw [if_pos on]
  split
  · exact ⟨rfl,rfl,rfl⟩
  split
  · have kept : Stays c { c with coro := { c.coro with held := c.coro.held++c.inb.batch } } := ⟨rfl,rfl,rfl⟩
    refine kept.trans (afterBatch_stays ?_ last)
    exact on
  have closed : Stays c (c.close .heldOverflow) := .of_apart (close_apart c _)
  exact closed.trans (afterBatch_stays (closed.on.trans on) last)

lemma parse_stays (framer : Framer M) (on : c.coro.on = true) : Stays c (c.parse framer accept) := by
  unfold parse
  split
  next need _ =>
    have noted : Stays c { c with inb := { c.inb with parseNeed := need } } := ⟨rfl,rfl,rfl⟩
    dsimp only
    split
    · refine noted.trans (finishRecv_stays ?_)
      exact on
    refine noted.trans (dispatchBatch_stays ?_ true)
    exact on
  · exact ⟨rfl,rfl,rfl⟩
  next message consumed _ =>
  dsimp only
  have pushed : Stays c { c with inb := { c.inb with
      batch := c.inb.batch++[message]
      parsed := c.inb.parsed++c.inb.readBuf.readable.take consumed
      readBuf := c.inb.readBuf.consume consumed
      parseNeed := 0 } } := ⟨rfl,rfl,rfl⟩
  split
  · refine pushed.trans (dispatchBatch_stays ?_ false)
    exact on
  · exact pushed

lemma disarm_stays (c : Connection M) : Stays c c.disarm := by
  unfold disarm
  split
  · exact ⟨rfl,rfl,rfl⟩
  · exact .refl c

lemma onRecv_stays {result : RecvResult} {ancillary : Ancillary} (on : c.coro.on = true)
    (none' : ∀ bytes, result ≠ .data bytes) (roomy : result = .again ∨ result = .canceled → c.Roomy) :
    Stays c (c.onRecv result ancillary accept) := by
  have disarmed := disarm_stays c
  have same : c.disarm.inb = c.inb := by
    unfold disarm
    split <;> rfl
  unfold onRecv
  dsimp only
  split
  · rw [if_pos (.inl (disarmed.on.trans on))]
    exact disarmed
  cases result with
  | data bytes => exact absurd rfl (none' bytes)
  | eof | error => exact disarmed.trans (.of_apart (close_apart _ _))
  | again =>
    refine disarmed.trans (rearmRecv_stays ?_)
    unfold Roomy
    rw [same]
    exact roomy (.inl rfl)
  | canceled =>
    refine disarmed.trans (rearmRecv_stays ?_)
    unfold Roomy
    rw [same]
    exact roomy (.inr rfl)

lemma sendDone_stays {result : SentResult} (idle : c.point = .idle) (roomy : c.Roomy) :
    Stays c (c.sendDone result accept) := by
  have settled : c.point.settled = true := by
    rw [idle]
    rfl
  rcases sendDone_cases c result accept settled with apart | ⟨n,_,_,d,lifted,apart⟩
  · exact .of_apart apart
  have same : Stays c d := by
    constructor
    · rw [lifted.inb]
    · rw [lifted.inb]
    · rw [lifted.coro]
  have roomy' : d.Roomy := by
    unfold Roomy
    rw [lifted.inb]
    exact roomy
  exact same.trans ((rearmRecv_stays roomy').trans (.of_apart apart))
end Connection

structure MsgView (M : Type) where
  msg : M
  body : Span
deriving DecidableEq

/-- A batch that `recv()` returned: whether the span refers to the storage of `batch_`, and what was
seen through it then. -/
structure LentBatch (M : Type) where
  inBatch : Bool
  views : List (Option (MsgView M))
  bodies : List (Option Bytes)

structure RecvBatches (M : Type) where
  conn : Connection M
  cells : Nat → Option (MsgView M)
  held : List (Option (MsgView M))
  lent : Option (LentBatch M)

namespace RecvBatches
open Connection
variable {M : Type}

def create (flow : FlowControl) (readBufferSize : Nat) : RecvBatches M :=
  ⟨.create flow readBufferSize,fun _ => none,[],none⟩

def body (c : Connection M) (v : Option (MsgView M)) : Option Bytes :=
  v.bind fun v =>
    if v.body.alloc = c.inb.readBuf.alloc then some (slice c.inb.readBuf.buf v.body.offset v.body.length)
    else none

def seen (w : RecvBatches M) (l : LentBatch M) : List (Option (MsgView M)) × List (Option Bytes) :=
  let views := if l.inBatch then slice w.cells 0 l.views.length else l.views
  (views,views.map (body w.conn))

def lend (w : RecvBatches M) (inBatch : Bool) (views : List (Option (MsgView M))) : RecvBatches M :=
  { w with lent := some ⟨inBatch,views,views.map (body w.conn)⟩ }

section
variable (framer : Framer M)

/-- One turn of the parse loop, after which the connection is `c`. `place`: offset and length of a body in its frame. -/
def turn (place : M → Nat × Nat) (w : RecvBatches M) (c : Connection M) : RecvBatches M := let b := w.conn.inb
  let (cells,n,dispatches) := match framer b.readBuf.readable with
    | .message m _ =>
      (Function.update w.cells b.batch.length
        (some ⟨m,b.readBuf.alloc,b.readBuf.start+(place m).1,(place m).2⟩),b.batch.length+1,
        decide (b.batch.length+1 = batchCapacity))
    | .needMore _ => (w.cells,b.batch.length,decide (b.batch.length ≠ 0))
    | .error _ => (w.cells,b.batch.length,false)
  let next := { w with conn := c, cells := cells }
  if dispatches ∧ w.conn.coro.on then
    if w.conn.coro.recvParked then next.lend true (slice cells 0 n)
    else if w.conn.coro.held.length+n ≤ coroHeldCap then { next with held := w.held++slice cells 0 n }
    else next
  else next

def observe (place : M → Nat × Nat) (w : RecvBatches M) (label : Event × Bool) (c : Connection M) : RecvBatches M :=
  match label.1 with
  | .call .awaitRecv =>
    if w.conn.coro.on ∧ w.conn.state ≠ .closed ∧ ¬ w.conn.coro.held.isEmpty then
      { w with conn := c, held := [] }.lend false w.held
    else { w with conn := c }
  | .resume => if w.conn.point = .parsing then w.turn framer place c else { w with conn := c }
  | _ => { w with conn := c }

def step (framer : Framer M) (place : M → Nat × Nat) (w : RecvBatches M) (label : Event × Bool) :
    Option (RecvBatches M) :=
  (w.conn.step framer label.2 label.1).map (w.observe framer place label)

def found (bytes : Bytes) : Bool := match framer bytes with
  | .message _ _ => true
  | .needMore _ | .error _ => false

def failed (bytes : Bytes) : Bool := match framer bytes with
  | .error _ => true
  | .message _ _ | .needMore _ => false

/-- What a read that completes may bring while a batch is lent: a whole message for a session that
awaits the next batch, and no descriptors. -/
def Brings (c : Connection M) (index : Nat) (ancillary : Ancillary) : RecvResult → Prop
  | .data bytes => c.state = .established ∧ c.coro.recvParked = true ∧ ancillary.hasFds = false ∧
      ancillary.fdTrunc = false ∧ found framer (c.arrived index bytes).readable = true
  | .again | .canceled => c.Roomy
  | .eof | .error => True

instance (c : Connection M) (index : Nat) (ancillary : Ancillary) (result : RecvResult) :
    Decidable (Brings framer c index ancillary result) :=
  match result with
  | .data _ => instDecidableAnd
  | .again | .canceled => inferInstanceAs (Decidable c.Roomy)
  | .eof | .error => .isTrue trivial

def arms (c : Connection M) : Event → Bool
  | .call .awaitRecv | .sendDone _ => true
  | .resume => c.point == .opening
  | _ => false

def completed : Event → Option (Nat × RecvResult × Ancillary)
  | .recvDone index result ancillary => some (index,result,ancillary)
  | _ => none

/-- While a batch is lent, reads find room behind the readable bytes, and a message is parsed for a session that
awaits, unless the batch was held. -/
def Keeps (w : RecvBatches M) (label : Event × Bool) : Prop :=
  ∀ l ∈ w.lent, (arms w.conn label.1 = true → w.conn.Roomy) ∧
    (∀ r ∈ completed label.1, Brings framer w.conn r.1 r.2.2 r.2.1) ∧
    (label.1 = .resume ∧ w.conn.point = .parsing →
      (found framer w.conn.inb.readBuf.readable = true → l.inBatch = true → w.conn.coro.recvParked = true) ∧
      (failed framer w.conn.inb.readBuf.readable = true → w.conn.inb.batch.isEmpty = true))

instance (w : RecvBatches M) (label : Event × Bool) : Decidable (Keeps framer w label) :=
  inferInstanceAs (Decidable (∀ l ∈ w.lent, _ ∧ _))
end
variable {framer : Framer M} {place : M → Nat × Nat} {w w' : RecvBatches M} {label : Event × Bool}
  {c : Connection M} {l : LentBatch M}

def Intact (w : RecvBatches M) (l : LentBatch M) : Prop := w.seen l = (l.views,l.bodies)

def Due (framer : Framer M) (w : RecvBatches M) : Prop :=
  w.conn.point = .parsing ∧ w.conn.coro.recvParked = true ∧
    (w.conn.inb.batch ≠ [] ∨ found framer w.conn.inb.readBuf.readable = true)

structure Inv (framer : Framer M) (w : RecvBatches M) : Prop where
  on : ∀ l ∈ w.lent, w.conn.coro.on = true
  kept : ∀ l ∈ w.lent, w.Intact l ∨ w.Due framer

lemma create_inv (flow : FlowControl) (size : Nat) : Inv framer (create flow size : RecvBatches M) := ⟨nofun,nofun⟩

lemma body_stays (stays : Stays w.conn c) : body c = body w.conn := by
  funext v
  unfold body
  rw [stays.buf,stays.alloc]

lemma Intact.stays {cells : Nat → Option (MsgView M)} {held : List (Option (MsgView M))}
    {lent : Option (LentBatch M)} (intact : w.Intact l) (stays : Stays w.conn c)
    (same : l.inBatch = true → cells = w.cells) : Intact ⟨c,cells,held,lent⟩ l := by
  unfold Intact seen at *
  rw [body_stays stays]
  cases from' : l.inBatch with
  | false =>
    rw [from'] at intact
    exact intact
  | true =>
    rw [from'] at intact
    rw [same from']
    exact intact

lemma lend_inv {views : List (Option (MsgView M))} {inBatch : Bool} (on : w.conn.coro.on = true)
    (there : inBatch = true → slice w.cells 0 views.length = views) : Inv framer (w.lend inBatch views) := by
  refine ⟨fun _ _ => on,?_⟩
  intro l last
  cases last
  left
  unfold Intact seen lend
  cases inBatch with
  | false => rfl
  | true =>
    rw [if_pos rfl,there rfl]

lemma slice_lent (m : Nat → Option (MsgView M)) (n : Nat) : slice m 0 (slice m 0 n).length = slice m 0 n := by
  rw [slice_length]

lemma Inv.still (inv : Inv framer w) (stays : ∀ l ∈ w.lent, Stays w.conn c) (idle : ∀ l ∈ w.lent, ¬ w.Due framer)
    (held : List (Option (MsgView M))) : Inv framer { w with conn := c, held := held } := by
  refine ⟨fun l last => (stays l last).on.trans (inv.on l last),?_⟩
  intro l last
  rcases inv.kept l last with intact | due
  · exact .inl (intact.stays (stays l last) fun _ => rfl)
  · exact absurd due (idle l last)

lemma Inv.outside (inv : Inv framer w) (outside : w.conn.point ≠ .parsing)
    (stays : ∀ l ∈ w.lent, Stays w.conn c) : Inv framer { w with conn := c } :=
  inv.still stays (fun _ _ due => outside due.1) w.held

lemma turn_inv_quiet {n : Nat} (inv : Inv framer w) (stays : ∀ l ∈ w.lent, Stays w.conn c)
    (on : w.conn.coro.on = true → c.coro.on = true)
    (missing : found framer w.conn.inb.readBuf.readable = false)
    (dispatches : Bool) (ended : ∀ l ∈ w.lent, dispatches = false → w.conn.inb.batch = []) :
    Inv framer (if dispatches ∧ w.conn.coro.on then
    if w.conn.coro.recvParked then { w with conn := c }.lend true (slice w.cells 0 n)
      else if w.conn.coro.held.length+n ≤ coroHeldCap then
        { w with conn := c, held := w.held++slice w.cells 0 n }
      else { w with conn := c }
    else { w with conn := c }) := by
  split
  next hands =>
    split
    · apply lend_inv
      · exact on hands.2
      intro _
      exact slice_lent _ _
    next nobody =>
    have idle : ∀ l ∈ w.lent, ¬ w.Due framer := fun _ _ due => nobody due.2.1
    split <;> exact inv.still stays idle _
  next kept =>
  refine inv.still stays ?_ _
  intro l last due
  have none' : dispatches = false := by
    cases hands : dispatches with
    | false => rfl
    | true => exact absurd ⟨hands,inv.on l last⟩ kept
  rcases due.2.2 with some' | some'
  · exact some' (ended l last none')
  rw [missing] at some'
  contradiction

lemma parse_on (framer : Framer M) (accept : Bool) (on : c.coro.on = true) : (c.parse framer accept).coro.on = true :=
  (parse_stays framer on).on.trans on

variable {accept : Bool}
section
variable (inv : Inv framer w)
include inv

lemma turn_inv (parsing : w.conn.point = .parsing) (keeps : Keeps framer w (.resume,accept)) :
    Inv framer (w.turn framer place (w.conn.parse framer accept)) := by
  have stays : ∀ l ∈ w.lent, Stays w.conn (w.conn.parse framer accept) := fun l last =>
    parse_stays framer (inv.on l last)
  have on : w.conn.coro.on = true → (w.conn.parse framer accept).coro.on = true := parse_on framer accept
  cases result : framer w.conn.inb.readBuf.readable with
  | needMore =>
    have missing : found framer w.conn.inb.readBuf.readable = false := by simp [found,result]
    unfold turn
    simp only [result]
    refine turn_inv_quiet inv stays on missing _ ?_
    intro l _ none'
    simpa using none'
  | error =>
    have missing : found framer w.conn.inb.readBuf.readable = false := by simp [found,result]
    unfold turn
    simp only [result]
    refine turn_inv_quiet inv stays on missing false ?_
    intro l last _
    have failure : failed framer w.conn.inb.readBuf.readable = true := by simp [failed,result]
    simpa using ((keeps l last).2.2 ⟨rfl,parsing⟩).2 failure
  | message m consumed =>
    have here : found framer w.conn.inb.readBuf.readable = true := by simp [found,result]
    -- The message goes over what a batch of `batch_` showed, so its session awaits the next one.
    have awaits : ∀ l ∈ w.lent, l.inBatch = true → w.conn.coro.recvParked = true := fun l last =>
      ((keeps l last).2.2 ⟨rfl,parsing⟩).1 here
    unfold turn
    simp only [result]
    split
    next hands =>
      split
      · apply lend_inv
        · exact on hands.2
        intro _
        exact slice_lent _ _
      next nobody =>
      have held : ∀ l ∈ w.lent, l.inBatch = false ∧ w.Intact l := by
        intro l last
        refine ⟨?_,(inv.kept l last).resolve_right fun due => nobody due.2.1⟩
        cases from' : l.inBatch with
        | false => rfl
        | true => exact absurd (awaits l last from') nobody
      have still (views : List (Option (MsgView M))) (cells : Nat → Option (MsgView M)) :
          Inv framer ⟨w.conn.parse framer accept,cells,views,w.lent⟩ := by
        refine ⟨fun l last => on (inv.on l last),?_⟩
        intro l last
        obtain ⟨from',intact⟩ := held l last
        refine .inl (intact.stays (stays l last) ?_)
        intro batch
        rw [from'] at batch
        contradiction
      split <;> exact still _ _
    next kept =>
    refine ⟨fun l last => on (inv.on l last),?_⟩
    intro l last
    have small : ¬ w.conn.inb.batch.length+1 = batchCapacity := by
      intro full
      exact kept ⟨by simpa using full,inv.on l last⟩
    have after : w.conn.parse framer accept = { w.conn with inb := { w.conn.inb with
        batch := w.conn.inb.batch++[m]
        parsed := w.conn.inb.parsed++w.conn.inb.readBuf.readable.take consumed
        readBuf := w.conn.inb.readBuf.consume consumed
        parseNeed := 0 } } := by
      unfold parse
      simp only [result]
      rw [if_neg (by simpa using small)]
    have due (parked : w.conn.coro.recvParked = true) (cells : Nat → Option (MsgView M)) :
        Due framer ⟨w.conn.parse framer accept,cells,w.held,w.lent⟩ := by
      rw [after]
      exact ⟨parsing,parked,.inl (by simp)⟩
    cases from' : l.inBatch with
    | true => exact .inr (due (awaits l last from') _)
    | false =>
      rcases inv.kept l last with intact | before
      · refine .inl (intact.stays (stays l last) ?_)
        intro batch
        rw [from'] at batch
        contradiction
      · exact .inr (due before.2.1 _)

lemma recvDone_inv {index : Nat} {target : Span} {result : RecvResult} {ancillary : Ancillary}
    (idle : w.conn.point = .idle) (pending : w.conn.inb.recvs[index]? = some target)
    (keeps : Keeps framer w (.recvDone index result ancillary,accept)) :
    Inv framer { w with conn := w.conn.recvDone index target result ancillary accept } := by
  have outside : w.conn.point ≠ .parsing := by
    rw [idle]
    exact nofun
  by_cases data : ∃ bytes, result = .data bytes
  · obtain ⟨bytes,rfl⟩ := data
    have lands (l : LentBatch M) (last : l ∈ w.lent) :
        (w.conn.recvDone index target (.data bytes) ancillary accept).coro.on = true ∧
          Due framer { w with conn := w.conn.recvDone index target (.data bytes) ancillary accept } := by
      have brings : Brings framer w.conn index ancillary (.data bytes) := (keeps l last).2.1 _ rfl
      obtain ⟨established,parked,noFds,whole,message⟩ := brings
      have on := inv.on l last
      simp only [arrived,pending] at message
      simp only [Due,recvDone,onRecv,disarm,commitData,beginParse,established,on,parked,noFds,whole]
      simp [message]
    refine ⟨fun l last => (lands l last).1,fun l last => .inr (lands l last).2⟩
  apply inv.outside outside
  intro l last
  have brings : Brings framer w.conn index ancillary result := (keeps l last).2.1 _ rfl
  have on := inv.on l last
  have none' : ∀ bytes, result ≠ .data bytes := fun bytes same => data ⟨bytes,same⟩
  have landed : Stays w.conn { w.conn with inb := { w.conn.inb with recvs := w.conn.inb.recvs.eraseIdx index } } :=
    ⟨rfl,rfl,rfl⟩
  have same : w.conn.recvDone index target result ancillary accept = if w.conn.state = .closed then
        { w.conn with inb := { w.conn.inb with recvs := w.conn.inb.recvs.eraseIdx index } }
      else
        onRecv { w.conn with inb := { w.conn.inb with recvs := w.conn.inb.recvs.eraseIdx index } }
          result ancillary accept := by
    cases result with
    | data bytes => exact absurd rfl (none' bytes)
    | _ => rfl
  rw [same]
  split
  · exact landed
  refine landed.trans (onRecv_stays on none' ?_)
  rintro (rfl | rfl)
  · exact brings
  · exact brings

lemma resume_inv (outside : w.conn.point ≠ .parsing) (keeps : Keeps framer w (.resume,accept)) :
    Inv framer { w with conn := w.conn.resume framer accept } := by
  apply inv.outside outside
  intro l last
  have on := inv.on l last
  cases point : w.conn.point with
  | idle =>
    unfold resume
    rw [point]
    exact .refl _
  | opening =>
    have begun : Stays w.conn { w.conn with point := .idle } := ⟨rfl,rfl,rfl⟩
    unfold resume
    rw [point]
    refine begun.trans (rearmRecv_stays ?_)
    exact (keeps l last).1 (by simp [arms,point])
  | fdError | fds =>
    unfold resume
    rw [point]
    exact ⟨rfl,rfl,rfl⟩
  | parsing => exact absurd point outside
  | delivering batch =>
    unfold resume
    rw [point]
    exact afterBatch_stays on batch
  | frameError =>
    have begun : Stays w.conn { w.conn with point := .idle } := ⟨rfl,rfl,rfl⟩
    unfold resume
    rw [point]
    exact begun.trans (.of_apart (close_apart _ _))
  | writable =>
    have settled : w.conn.point.settled = true := by
      rw [point]
      rfl
    unfold resume
    rw [point]
    exact .of_apart (afterSent_apart _ settled)

lemma call_inv (outside : w.conn.point ≠ .parsing) (u : Call) (keeps : Keeps framer w (.call u,accept)) :
    Inv framer (w.observe framer place (.call u,accept) (w.conn.call accept u)) := by
  cases u with
  | send | sendScatter => exact inv.outside outside fun _ _ => .of_apart (offer_apart _ _)
  | shutdownWrite => exact inv.outside outside fun _ _ => .of_apart (shutdownWrite_apart _)
  | close => exact inv.outside outside fun _ _ => .of_apart (close_apart _ _)
  | unawaitRecv | unawaitSend => exact inv.outside outside fun _ _ => ⟨rfl,rfl,rfl⟩
  | awaitSend =>
    apply inv.outside outside
    intro l last
    simp only [call]
    rw [if_pos (inv.on l last)]
    exact .of_apart (awaitSend_apart _ _)
  | awaitRecv =>
    unfold observe
    dsimp only
    split
    next held =>
      obtain ⟨on,open',some'⟩ := held
      apply lend_inv
      · simp only [call,awaitRecv]
        rw [if_pos on,if_neg open',if_neg some']
        exact on
      · simp
    · apply inv.outside outside
      intro l last
      simp only [call]
      rw [if_pos (inv.on l last)]
      exact awaitRecv_stays ((keeps l last).1 rfl)

lemma step_inv (keeps : Keeps framer w label) (taken : w.step framer place label = some w') : Inv framer w' := by
  obtain ⟨c,moved,same⟩ := Option.map_eq_some_iff.1 taken
  rw [← same]
  obtain ⟨event,accept⟩ := label
  have moved : Step framer w.conn (event,accept) c := moved
  cases moved.move with
  | call u stopped => exact call_inv inv stopped u keeps
  | enableCoro opening =>
    refine inv.outside (by simp [opening]) ?_
    exact fun l last => ⟨rfl,rfl,(inv.on l last).symm⟩
  | connected result idle =>
    refine inv.outside (by simp [idle]) ?_
    intro _ _
    cases result with
    | ok | canceled => exact ⟨rfl,rfl,rfl⟩
    | failed => exact .of_apart (close_apart _ _)
  | recvDone _ _ _ _ pending idle => exact recvDone_inv inv idle pending keeps
  | sendDone _ _ _ idle =>
    refine inv.outside (by simp [idle]) ?_
    exact fun l last => sendDone_stays idle ((keeps l last).1 rfl)
  | flush idle =>
    refine inv.outside (by simp [idle]) ?_
    exact fun _ _ => .of_apart (flushWrite_apart _ _)
  | resume =>
    unfold observe
    dsimp only
    split
    next parsing =>
      have turned : w.conn.resume framer accept = w.conn.parse framer accept := by
        unfold resume
        rw [parsing]
      rw [turned]
      exact turn_inv inv parsing keeps
    next outside => exact resume_inv inv outside keeps
end

def tagged : Framer (UInt8 × Nat)
  | kind::length::rest =>
    if length.toNat ≤ rest.length then .message (kind,length.toNat) (length.toNat+2)
    else .needMore (length.toNat+2)
  | _ => .needMore 2

end RecvBatches
end AffiniX
