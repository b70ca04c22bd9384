import AffiniX.IoBuffer
import AffiniX.Transition

/-! A framed connection on its event loop, with its write side, its parse loop and coroutine sessions. -/
namespace AffiniX
open Transition

inductive ConnState
  | connecting
  | established
  | shutdownWrite
  | closing
  | closed
deriving DecidableEq

inductive CloseReason
  | peerFin
  | localClose
  | frameError
  | idleTimeout
  | writeOverflow
  | error
  | connectFailed
  | shutdown
  | heldOverflow
deriving DecidableEq

inductive WriteOverflow
  | disconnect
  | dropNewest
  | dropOldest
  | stopReading
deriving DecidableEq

inductive SendResult
  | sent
  | queued
  | backpressured
  | dropped
  | closed
deriving DecidableEq

def SendResult.taken : SendResult → Bool
  | .queued | .backpressured => true
  | .sent | .dropped | .closed => false

structure FlowControl where
  writeHighWatermark : Nat := 2^20
  writeLowWatermark : Nat := 256*2^10
  onOverflow : WriteOverflow := .disconnect
  autoPauseReads : Bool := true
deriving DecidableEq

inductive ErrorCategory
  | ok
  | sys
  | net
  | frame
  | config
  | itc
  | internal
  | cancelled
deriving DecidableEq

structure Error where
  code : UInt16
  category : ErrorCategory
deriving DecidableEq

/-- The error that reports lost ancillary descriptors, with the number of `Err::Truncated`. -/
def truncated : Error := ⟨17,.net⟩

inductive ParseResult (M : Type)
  | message (message : M) (consumed : Nat)
  | needMore (need : Nat)
  | error (error : Error)

abbrev Framer (M : Type) := Bytes → ParseResult M

inductive Output (M : Type)
  | onOpen
  | onMessages (batch : List M)
  | onFds (fds : List Nat)
  | onError (error : Error)
  | onWritable
  | onClose (reason : CloseReason)
  | recvReturned (batch : Option (List M))
  | sendReturned (result : SendResult)
  | notify (reason : CloseReason)
  | submitRecv
  | submitSend
  | cancelRecv
  | shutdownWr
  | detach
  | closeFd
deriving DecidableEq

structure SendOp where
  span : Span
  bytes : Bytes

inductive SentResult
  | sent (n : Nat)
  | canceled
  | error
deriving DecidableEq

def SentResult.count : SentResult → Nat
  | .sent n => n
  | .canceled | .error => 0

def SentResult.possible (op : SendOp) : SentResult → Bool
  | .sent n => n ≤ op.bytes.length
  | _ => true

/-- The write side. `accepted` and `transmitted` are the history of the stream. -/
structure Outbound where
  writeBuf : IoBuffer
  writeInflight : Nat
  sendOp : Option SendOp
  accepted : Bytes
  transmitted : Bytes

namespace Outbound
def append (o : Outbound) (parts : List Bytes) : Outbound :=
  { o with writeBuf := parts.foldl IoBuffer.append o.writeBuf }

variable (o : Outbound)

def evict (parts : List Bytes) : Outbound :=
  { o with writeBuf := parts.foldl (fun b p => b.consume p.length) o.writeBuf }

def note (parts : List Bytes) : Outbound := { o with accepted := o.accepted++parts.flatten }

def submit (accept : Bool) : Outbound := let b := o.writeBuf
  { o with
    writeInflight := b.size
    sendOp := if accept then some ⟨⟨b.alloc,b.start,b.size⟩,b.readable⟩ else o.sendOp }

def transmit (n : Nat) : Outbound := match o.sendOp with
  | none => o
  | some op => { o with sendOp := none, transmitted := o.transmitted++op.bytes.take n }

def settle : SentResult → Outbound
  | .sent n => { o with writeInflight := 0, writeBuf := o.writeBuf.consume n }
  | .canceled | .error => { o with writeInflight := 0 }
end Outbound

/-- The read side. `recvs` are the receives that the backend has; `received` and `parsed` are the history of the stream.
-/
structure Inbound (M : Type) where
  readBuf : IoBuffer
  parseNeed : Nat
  batch : List M
  recvs : List Span
  received : Bytes
  parsed : Bytes

structure CoroState (M : Type) where
  on : Bool
  armed : Bool
  recvParked : Bool
  sendParked : Option Bytes
  held : List M
  delivered : List M

/-- At `parsing` the parse loop is about to look at the buffer; at the other points but `idle` user code runs. -/
inductive Point
  | idle
  | opening
  | fdError (fds : List Nat)
  | fds
  | parsing
  | delivering (last : Bool)
  | frameError
  | writable
deriving DecidableEq

structure Connection (M : Type) where
  flow : FlowControl
  state : ConnState
  fdOpen : Bool
  backpressured : Bool
  readPaused : Bool
  writePending : Bool
  out : Outbound
  inb : Inbound M
  coro : CoroState M
  point : Point
  trace : List (Output M)

namespace Connection
variable {M : Type}

def coroHeldCap : Nat := 256

def batchCapacity : Nat := 64

def create (flow : FlowControl) (readBufferSize : Nat) : Connection M where
  flow := flow
  state := .connecting
  fdOpen := true
  backpressured := false
  readPaused := false
  writePending := false
  out := ⟨.create (64*2^10) 64,0,none,[],[]⟩
  inb := ⟨.create readBufferSize 64,0,[],[],[],[]⟩
  coro := ⟨false,false,false,none,[],[]⟩
  point := .idle
  trace := []

variable (c : Connection M)

def emit (o : Output M) : Connection M := { c with trace := c.trace++[o] }

/-- Nothing that user code calls on this connection from `on_close`, or from a session resumed
here, finds it open, so closing is one step. -/
def teardown (reason : CloseReason) : Connection M :=
  { c with
    fdOpen := false
    state := .closed
    coro := { c.coro with recvParked := false, sendParked := none }
    trace := c.trace++(if c.fdOpen then [.detach,.closeFd] else [])++[.onClose reason]++
      (if c.coro.recvParked then [.recvReturned none] else [])++
      (if c.coro.sendParked.isSome then [.sendReturned .closed] else [])++[.notify reason] }

def close (reason : CloseReason) : Connection M := if c.state = .closing ∨ c.state = .closed then c
  else teardown { c with state := .closing } reason

def noteWritePending : Connection M := if c.state = .closed then c else { c with writePending := true }

def pauseReads : Connection M := { c with readPaused := true }.emit .cancelRecv

def checkWriteWatermark : Connection M :=
  if !c.backpressured ∧ c.flow.writeHighWatermark ≤ c.out.writeBuf.size then
    let c := { c with backpressured := true }
    if c.flow.autoPauseReads then c.pauseReads else c
  else c

def applyOverflowParts (parts : List Bytes) : Connection M × SendResult := match c.flow.onOverflow with
  | .disconnect => (c.close .writeOverflow,.closed)
  | .dropNewest => (c,.dropped)
  | .dropOldest => (noteWritePending { c with out := (c.out.evict parts).append parts },.queued)
  | .stopReading =>
    let c := c.pauseReads
    (noteWritePending { c with out := c.out.append parts },.backpressured)

def sendScatter (parts : List Bytes) : Connection M × SendResult := if c.state ≠ .established then (c,.closed)
  else if c.flow.writeHighWatermark < c.out.writeBuf.size+(parts.map List.length).sum then
    c.applyOverflowParts parts
  else
    let c := { c with out := c.out.append parts }
    (c.noteWritePending.checkWriteWatermark,.queued)

/-- `send` and `apply_overflow` do for one payload what the calls above do for several. -/
def send (bytes : Bytes) : Connection M × SendResult := c.sendScatter [bytes]

def offer (parts : List Bytes) : Connection M × SendResult := let (c,result) := c.sendScatter parts
  ({ c with out := if result.taken then c.out.note parts else c.out },result)

def shutdownWrite (c : Connection M) : Connection M := if c.state ≠ .established then c
  else
    let c := { c with state := .shutdownWrite }
    if c.out.writeInflight = 0 ∧ c.out.writeBuf.empty ∧ c.fdOpen then c.emit .shutdownWr else c

def submitRecv (c : Connection M) (atLeast : Nat) (accept : Bool) : Connection M :=
  let b := c.inb.readBuf.ensureWritable atLeast
  { c with inb := { c.inb with
      readBuf := b
      recvs := if accept then c.inb.recvs++[b.free] else c.inb.recvs } }.emit .submitRecv

section
variable (accept : Bool)

def armRecv : Connection M := if c.readPaused ∨ c.state ≠ .established then c
  else c.submitRecv (max c.inb.parseNeed 4096) accept

def armDrainRecv : Connection M := if c.fdOpen then c.submitRecv 4096 accept else c

def coroArm : Connection M := if c.coro.armed then c
  else armRecv { c with coro := { c.coro with armed := true } } accept

def rearmRecv : Connection M := if c.coro.on then c.coroArm accept else c.armRecv accept

def start : Connection M := { c with state := .established, point := .opening }.emit .onOpen

/-- The end of `on_recv`: callback mode reads on, a half-closed connection waits for the FIN. -/
def finishRecv : Connection M := let c := { c with point := .idle }
  if c.state = .established ∧ !c.coro.on then c.armRecv accept
  else if c.state = .shutdownWrite ∧ !c.coro.on then c.armDrainRecv accept
  else c

def afterBatch (last accept : Bool) : Connection M := if last then c.finishRecv accept
  else
    let c := { c with inb := { c.inb with batch := [] } }
    if c.state ≠ .established then { c with point := .idle } else { c with point := .parsing }

def dispatchBatch (last accept : Bool) : Connection M :=
  if c.coro.on then
    if c.coro.recvParked then
      { c with coro := { c.coro with recvParked := false }, point := .delivering last }.emit
        (.recvReturned (some c.inb.batch))
    else if c.coro.held.length+c.inb.batch.length ≤ coroHeldCap then
      afterBatch { c with coro := { c.coro with held := c.coro.held++c.inb.batch } } last accept
    else (c.close .heldOverflow).afterBatch last accept
  else { c with point := .delivering last }.emit (.onMessages c.inb.batch)

def parse (framer : Framer M) (c : Connection M) (accept : Bool) : Connection M :=
  match framer c.inb.readBuf.readable with
  | .needMore need =>
    let c := { c with inb := { c.inb with parseNeed := need } }
    if c.inb.batch.isEmpty then c.finishRecv accept else c.dispatchBatch true accept
  | .error error => { c with point := .frameError }.emit (.onError error)
  | .message message consumed =>
    let c := { c with inb := { c.inb with
      batch := c.inb.batch++[message]
      parsed := c.inb.parsed++c.inb.readBuf.readable.take consumed
      readBuf := c.inb.readBuf.consume consumed
      parseNeed := 0 } }
    if c.inb.batch.length = batchCapacity then c.dispatchBatch false accept else c

def beginParse : Connection M := { c with inb := { c.inb with batch := [] }, point := .parsing }

def deliverFds (fds : List Nat) : Connection M := { c with point := .fds }.emit (.onFds fds)

inductive RecvResult
  | data (bytes : Bytes)
  | eof
  | again
  | canceled
  | error
deriving DecidableEq

structure Ancillary where
  hasFds : Bool := false
  fdTrunc : Bool := false
  fds : List Nat := []
deriving DecidableEq

def commitData (bytes : Bytes) : Connection M :=
  { c with inb := { c.inb with
      readBuf := c.inb.readBuf.commit bytes.length
      received := c.inb.received++bytes } }

def disarm : Connection M := if c.coro.on then { c with coro := { c.coro with armed := false } } else c

def onRecv (result : RecvResult) (ancillary : Ancillary) (accept : Bool) : Connection M := let c := c.disarm
  if c.state ≠ .established then
    if c.coro.on ∨ c.state ≠ .shutdownWrite then c
    else
      match result with
      | .eof => c.close .peerFin
      | .error => c.close .error
      | .data _ | .again | .canceled => c.armDrainRecv accept
  else
    match result with
    | .again | .canceled => c.rearmRecv accept
    | .error => c.close .error
    | .eof => c.close .peerFin
    | .data bytes =>
      let c := c.commitData bytes
      if ancillary.fdTrunc then
        { c with point := .fdError ancillary.fds }.emit (.onError truncated)
      else if ancillary.hasFds then c.deliverFds ancillary.fds
      else c.beginParse

def flushWrite : Connection M := if c.out.writeInflight ≠ 0 ∨ c.out.writeBuf.empty then c
  else if c.state ≠ .established ∧ c.state ≠ .shutdownWrite then c
  else { c with out := c.out.submit accept }.emit .submitSend

def afterSent : Connection M := let c := { c with point := .idle }
  if c.out.writeBuf.empty then c else c.noteWritePending

def coroWritable : Connection M := match c.coro.sendParked with
  | none => c.afterSent
  | some bytes =>
    let (c,result) := c.offer [bytes]
    if result = .backpressured then c.afterSent
    else
      { c with coro := { c.coro with sendParked := none }, point := .writable }.emit (.sendReturned result)

def signalWritable : Connection M := if c.coro.on then c.coroWritable
  else if c.state = .established then { c with point := .writable }.emit .onWritable
  else c.afterSent

def release : Connection M := let c := { c with backpressured := false }
  signalWritable (if c.readPaused then rearmRecv { c with readPaused := false } accept else c)

def finAfterDrain : Connection M :=
  if c.state = .shutdownWrite ∧ c.out.writeBuf.empty ∧ c.fdOpen then c.emit .shutdownWr else c

def drained : Connection M :=
  if c.backpressured ∧ c.out.writeBuf.size ≤ c.flow.writeLowWatermark then c.release accept
  else c.afterSent

def onSent (result : SentResult) (accept : Bool) : Connection M := let c := { c with out := c.out.settle result }
  match result with
  | .canceled => c
  | .error => c.close .error
  | .sent _ => c.finAfterDrain.drained accept

def awaitRecv : Connection M := if c.state = .closed then c
  else if c.coro.held.isEmpty then
    coroArm { c with coro := { c.coro with recvParked := true } } accept
  else { c with coro := { c.coro with delivered := c.coro.held, held := [] } }

def awaitSend (bytes : Bytes) : Connection M := let (c,result) := c.offer [bytes]
  if result = .backpressured then { c with coro := { c.coro with sendParked := some bytes } } else c

inductive Call
  | send (bytes : Bytes)
  | sendScatter (parts : List Bytes)
  | shutdownWrite
  | close (reason : CloseReason)
  | awaitRecv
  | unawaitRecv
  | awaitSend (bytes : Bytes)
  | unawaitSend
deriving DecidableEq

def Call.payload : Call → Option (List Bytes)
  | .send bytes | .awaitSend bytes => some [bytes]
  | .sendScatter parts => some parts
  | _ => none

def call : Call → Connection M
  | .send bytes => (c.offer [bytes]).1
  | .sendScatter parts => (c.offer parts).1
  | .shutdownWrite => c.shutdownWrite
  | .close reason => c.close reason
  | .awaitRecv => if c.coro.on then c.awaitRecv accept else c
  | .unawaitRecv => { c with coro := { c.coro with recvParked := false } }
  | .awaitSend bytes => if c.coro.on then c.awaitSend bytes else c
  | .unawaitSend => { c with coro := { c.coro with sendParked := none } }
end

def resume (framer : Framer M) (c : Connection M) (accept : Bool) : Connection M := match c.point with
  | .idle => c
  | .opening => rearmRecv { c with point := .idle } accept
  | .fdError fds => c.deliverFds fds
  | .fds => c.beginParse
  | .parsing => c.parse framer accept
  | .delivering last => c.afterBatch last accept
  | .frameError => close { c with point := .idle } .frameError
  | .writable => c.afterSent

inductive ConnectResult
  | ok
  | canceled
  | failed
deriving DecidableEq

def onConnectResult : ConnectResult → Connection M
  | .ok => c.start
  | .canceled => c
  | .failed => c.close .connectFailed

inductive Event
  | call (call : Call)
  | enableCoro
  | connected (result : ConnectResult)
  | recvDone (index : Nat) (result : RecvResult) (ancillary : Ancillary)
  | sendDone (result : SentResult)
  | flush
  | resume
deriving DecidableEq

def Event.sent? : Event → Option Nat
  | .sendDone (.sent n) => some n
  | _ => none

def Event.payload : Event → Option (List Bytes)
  | .call u => u.payload
  | _ => none

/-- Completions of a closed connection find its sink released and are skipped; the kernel has
written or sent the bytes all the same. -/
def recvDone (index : Nat) (target : Span) (result : RecvResult)
    (ancillary : Ancillary) (accept : Bool) : Connection M :=
  let c := { c with inb := { c.inb with
    recvs := c.inb.recvs.eraseIdx index
    readBuf := match result with
      | .data bytes => c.inb.readBuf.write target.alloc target.offset bytes
      | _ => c.inb.readBuf } }
  if c.state = .closed then c else c.onRecv result ancillary accept

def sendDone (result : SentResult) (accept : Bool) : Connection M :=
  let c := { c with out := c.out.transmit result.count }
  if c.state = .closed then c else c.onSent result accept

def RecvResult.possible (target : Span) : RecvResult → Bool
  | .data bytes => 0 < bytes.length ∧ bytes.length ≤ target.length
  | _ => true

/-- One step. `accept` is the backend's answer to the submission that the step may make. -/
def step (framer : Framer M) (c : Connection M) (accept : Bool) : Event → Option (Connection M)
  | .call u => if c.point = .parsing then none else some (c.call accept u)
  | .enableCoro => if c.point = .opening then some { c with coro := { c.coro with on := true } } else none
  | .connected result => if c.point = .idle ∧ c.state = .connecting then some (c.onConnectResult result) else none
  | .recvDone index result ancillary =>
    match c.inb.recvs[index]? with
    | none => none
    | some target =>
      if c.point = .idle ∧ result.possible target then
        some (c.recvDone index target result ancillary accept)
      else none
  | .sendDone result =>
    match c.out.sendOp with
    | none => none
    | some op => if c.point = .idle ∧ result.possible op then some (c.sendDone result accept) else none
  | .flush =>
    if c.point = .idle ∧ c.writePending ∧ c.state ≠ .closed then
      some (flushWrite { c with writePending := false } accept)
    else none
  | .resume => if c.point = .idle then none else some (c.resume framer accept)

def Step (framer : Framer M) (c : Connection M) (label : Event × Bool) (c' : Connection M) : Prop :=
  c.step framer label.2 label.1 = some c'

def drive (framer : Framer M) (ok : Connection M → Event × Bool → Prop)
    [∀ c label, Decidable (ok c label)] (c : Connection M) (labels : List (Event × Bool)) :
    Option (Connection M) :=
  Transition.drive (fun c label => c.step framer label.2 label.1) ok c labels

lemma drive_exec {framer : Framer M} {ok : Connection M → Event × Bool → Prop} [∀ c label, Decidable (ok c label)]
    {c c' : Connection M} {labels : List (Event × Bool)} (driven : c.drive framer ok labels = some c') :
    Transition.Exec (Transition.Guarded (Step framer) ok) c labels c' :=
  Transition.Exec.of_drive driven

inductive Move (framer : Framer M) (c : Connection M) (accept : Bool) : Event → Connection M → Prop
  | call (u : Call) (stopped : c.point ≠ .parsing) : Move framer c accept (.call u) (c.call accept u)
  | enableCoro (opening : c.point = .opening) :
      Move framer c accept .enableCoro { c with coro := { c.coro with on := true } }
  | connected (result : ConnectResult) (idle : c.point = .idle) (connecting : c.state = .connecting) :
      Move framer c accept (.connected result) (c.onConnectResult result)
  | recvDone (index : Nat) (target : Span) (result : RecvResult) (ancillary : Ancillary)
      (pending : c.inb.recvs[index]? = some target) (idle : c.point = .idle)
      (possible : result.possible target) :
      Move framer c accept (.recvDone index result ancillary) (c.recvDone index target result ancillary accept)
  | sendDone (op : SendOp) (result : SentResult) (flying : c.out.sendOp = some op)
      (idle : c.point = .idle) (possible : result.possible op) :
      Move framer c accept (.sendDone result) (c.sendDone result accept)
  | flush (idle : c.point = .idle) (pending : c.writePending) (live : c.state ≠ .closed) :
      Move framer c accept .flush (flushWrite { c with writePending := false } accept)
  | resume (busy : c.point ≠ .idle) : Move framer c accept .resume (c.resume framer accept)

lemma Step.move {framer : Framer M} {c c' : Connection M} {label : Event × Bool}
    (taken : Step framer c label c') : Move framer c label.2 label.1 c' := by
  obtain ⟨event,_⟩ := label
  unfold Step at taken
  cases event with
  | call u =>
    obtain ⟨stopped,taken⟩ := Option.ite_none_left_eq_some.1 taken
    cases taken
    exact .call u stopped
  | enableCoro =>
    obtain ⟨opening,rfl⟩ := enabled taken
    exact .enableCoro opening
  | connected result =>
    obtain ⟨⟨idle,connecting⟩,rfl⟩ := enabled taken
    exact .connected result idle connecting
  | recvDone index result ancillary =>
    simp only [step] at taken
    split at taken
    · cases taken
    obtain ⟨⟨idle,possible⟩,rfl⟩ := enabled taken
    exact .recvDone index _ result ancillary ‹_› idle possible
  | sendDone result =>
    simp only [step] at taken
    split at taken
    · cases taken
    obtain ⟨⟨idle,possible⟩,rfl⟩ := enabled taken
    exact .sendDone _ result ‹_› idle possible
  | flush =>
    obtain ⟨⟨idle,pending,live⟩,rfl⟩ := enabled taken
    exact .flush idle pending live
  | resume =>
    obtain ⟨busy,taken⟩ := Option.ite_none_left_eq_some.1 taken
    cases taken
    exact .resume busy

/-- What arming the read side comes to: nothing, or a receive on a connection that is not closed. -/
inductive Arms (c : Connection M) : Connection M → Prop
  | noted (armed : Bool) : Arms c { c with coro := { c.coro with armed := armed } }
  | submitted (armed : Bool) (atLeast : Nat) (accept : Bool) (open' : c.state = .established ∨ c.fdOpen) :
      Arms c (submitRecv { c with coro := { c.coro with armed := armed } } atLeast accept)

section
variable (c : Connection M) (accept : Bool)

lemma armRecv_arms (armed : Bool) : Arms c (armRecv { c with coro := { c.coro with armed := armed } } accept) := by
  unfold armRecv
  split
  · exact .noted armed
  next runs => exact .submitted armed _ _ (.inl (not_not.1 (not_or.1 runs).2))

lemma armDrainRecv_arms : Arms c (c.armDrainRecv accept) := by
  unfold armDrainRecv
  split
  next fdOpen => exact .submitted c.coro.armed _ _ (.inr fdOpen)
  · exact .noted c.coro.armed

lemma coroArm_arms : Arms c (c.coroArm accept) := by
  unfold coroArm
  split
  · exact .noted c.coro.armed
  · exact armRecv_arms c accept true

lemma rearmRecv_arms : Arms c (c.rearmRecv accept) := by
  unfold rearmRecv
  split
  · exact coroArm_arms c accept
  · exact armRecv_arms c accept c.coro.armed

lemma finishRecv_arms : Arms { c with point := .idle } (c.finishRecv accept) := by
  unfold finishRecv
  simp only
  split
  · exact armRecv_arms { c with point := .idle } accept c.coro.armed
  split
  · exact armDrainRecv_arms _ accept
  · exact .noted c.coro.armed
end
namespace Arms
variable {c d : Connection M} (arms : Arms c d)
include arms

lemma state : d.state = c.state := by cases arms <;> rfl

lemma point : d.point = c.point := by cases arms <;> rfl

lemma on : d.coro.on = c.coro.on := by cases arms <;> rfl

lemma sendParked : d.coro.sendParked = c.coro.sendParked := by cases arms <;> rfl
end Arms
end Connection
end AffiniX
