import AffiniX.IoBuffer
import AffiniX.Transition

/-! The epoll backend as a state machine: the submission calls, and `wait` taken apart into its system calls with the
kernel's answer to each. -/
namespace AffiniX
open Function

abbrev Fd := Nat

abbrev UserData := UInt64

structure Interest where
  readable : Bool := false
  writable : Bool := false
deriving DecidableEq

structure Events where
  input : Bool := false
  output : Bool := false
  error : Bool := false
  hup : Bool := false
  rdhup : Bool := false
deriving DecidableEq

def Events.errorish (ev : Events) : Bool := ev.error || ev.hup || ev.rdhup

namespace Epoll
/-- The operation that a completion reports, which the source leaves to the tag. One-shot
operations of a descriptor are numbered. -/
inductive Origin
  | watch (fd : Fd)
  | recv (fd : Fd) (serial : Nat) (data : Bytes)
  | send (fd : Fd) (serial : Nat) (written : Nat)
  | connect (fd : Fd) (serial : Nat)
  | accepted (fd peer : Fd)
  | acceptCancelled (fd : Fd)
deriving DecidableEq

structure Completion where
  user : UserData
  result : Int
  origin : Origin
deriving DecidableEq

def readyRead : Int := 1

def readyWrite : Int := 2

def readyErr : Int := 4

def readyHangup : Int := 8

def ecanceled : Int := 125

def acceptsPerWait : Nat := 32

def int32 (n : Nat) : Int := (BitVec.ofNat 32 n).toInt

structure SendReq where
  user : UserData
  bytes : Bytes
  off : Nat
  serial : Nat
deriving DecidableEq

structure FdState where
  registered : Bool := false
  interest : Interest := {}
  watchUd : UserData := 0
  recvArmed : Bool := false
  recvUd : UserData := 0
  recvLen : Nat := 0
  recvSerial : Nat := 0
  sendq : List SendReq := []
  acceptArmed : Bool := false
  acceptUd : UserData := 0
  connectPending : Bool := false
  connectUd : UserData := 0
  connectSerial : Nat := 0
  /-- The readiness that the kernel has been asked for and has not reported since. -/
  owed : Interest := {}
deriving DecidableEq

namespace FdState
variable (st : FdState)

def updateEvents : FdState :=
  if st.registered then
    { st with owed :=
        ⟨st.interest.readable || st.recvArmed || st.acceptArmed,
          st.interest.writable || !st.sendq.isEmpty || st.connectPending⟩ }
  else st

def awaitReadable : FdState := { st with owed := { st.owed with readable := true } }

def awaitWritable : FdState := { st with owed := { st.owed with writable := true } }

def register (add : Bool) : FdState × Bool := if st.registered then (st,true)
  else if add then ({ st with registered := true },true)
  else (st,false)

def request (add : Bool) : FdState × Bool := let (st,ok) := st.register add
  if ok then (st.updateEvents,true) else (st,false)
end FdState

/-- One end of a connection in the kernel: `stream` is all the peer sent, `inbox` what is unread, `wire` what was handed
over for sending. -/
structure Socket where
  stream : Bytes := []
  inbox : Bytes := []
  fin : Bool := false
  wire : Bytes := []
deriving DecidableEq

inductive RecvReply
  | chunk (n : Nat)
  | eof
  | again
  | intr
  | error (errno : Nat)
deriving DecidableEq

inductive SendReply
  | wrote (n : Nat)
  | again
  | intr
  | error (errno : Nat)
deriving DecidableEq

inductive ConnectReply
  | ok
  | inProgress
  | error (errno : Nat)
deriving DecidableEq

/-- The error numbers that the source treats as failures; the others are `intr` and `again`. -/
def failure (errno : Nat) : Bool := errno ≠ 0 && errno ≠ 4 && errno ≠ 11

def SendReply.possible : SendReply → Bool
  | .error errno => failure errno
  | .wrote _ | .again | .intr => true

def ConnectReply.possible : ConnectReply → Bool
  | .error errno => errno ≠ 0 && errno ≠ 115
  | .ok | .inProgress => true

def cut (n left : Nat) : Nat := max (min 1 left) (min n left)

inductive Stage
  | errorish
  | readable
  | accepting (count : Nat)
  | receiving (data : Bytes)
  | writable
  | sending
  | watchWritable
deriving DecidableEq

/-- Where `wait` stands. A dispatch that serves a left-over event has no `rest`. -/
inductive Phase
  | idle
  | pending
  | poll
  | events (rest : List (Fd × Events))
  | dispatch (fd : Fd) (ev : Events) (stage : Stage) (rest : Option (List (Fd × Events)))
deriving DecidableEq
end Epoll

open Epoll

/-- The backend and its kernel. `reaped` is what waits returned; `serials` counts the one-shot operations of a
descriptor, of which `refused` failed at once and `discarded` ended with its detachment. -/
structure Epoll where
  fds : Fd → Option FdState
  ready : List Completion
  pendingEvents : List (Fd × Events)
  cap : Nat
  out : List Completion
  phase : Phase
  sockets : Fd → Socket
  reaped : List Completion
  serials : Fd → Nat
  refused : Fd → List Nat
  discarded : Fd → List Nat
  acceptedFds : Fd → List Fd

namespace Epoll
def create : Epoll where
  fds := fun _ => none
  ready := []
  pendingEvents := []
  cap := 0
  out := []
  phase := .idle
  sockets := fun _ => {}
  reaped := []
  serials := fun _ => 0
  refused := fun _ => []
  discarded := fun _ => []
  acceptedFds := fun _ => []

variable (s : Epoll)
section
variable (fd : Fd)

def state : FdState := (s.fds fd).getD {}

def setFd (st : FdState) : Epoll := { s with fds := update s.fds fd (some st) }

def setSocket (sock : Socket) : Epoll := { s with sockets := update s.sockets fd sock }

def countOp : Epoll := { s with serials := update s.serials fd (s.serials fd+1) }

def queueAll (cs : List Completion) : Epoll := { s with ready := s.ready++cs }

def queueCompletion (c : Completion) : Epoll := s.queueAll [c]

def push (c : Completion) : Epoll := { s with out := s.out++[c] }

def full : Bool := s.cap ≤ s.out.length

def postpone (ev : Events) : Epoll := { s with pendingEvents := s.pendingEvents++[(fd,ev)] }

def emit (c : Completion) (fd : Fd) (ev : Events) : Epoll := if s.full then s.postpone fd ev else s.push c

def attach (interest : Interest) (user : UserData) (add : Bool) : Epoll × Bool :=
  let (st,ok) := { s.state fd with interest := interest, watchUd := user }.request add
  (s.setFd fd st,ok)

def modify (interest : Interest) (user : UserData) : Epoll × Bool := match s.fds fd with
  | none => (s,false)
  | some st => (s.setFd fd { st with interest := interest, watchUd := user }.updateEvents,true)

def FdState.outstanding (st : FdState) : List Nat :=
  (if st.recvArmed then [st.recvSerial] else [])++st.sendq.map (·.serial)++
    (if st.connectPending then [st.connectSerial] else [])

def detach : Epoll := match s.fds fd with
  | none => s
  | some st =>
    { s with
      fds := update s.fds fd none
      discarded := update s.discarded fd (s.discarded fd++st.outstanding) }

/-- Operation `serial` waits in the state `st`, even if the registration fails. -/
def enter (st : FdState) (serial : Nat) (add : Bool) : Epoll × Bool := let (st,ok) := st.request add
  let s := s.setFd fd st
  if ok then (s,true)
  else ({ s with refused := update s.refused fd (s.refused fd++[serial]) },false)
end
section
variable (user : UserData)
variable (fd : Fd)

def submitRecv (len : Nat) (add : Bool) : Epoll × Bool := let st := s.state fd
  if st.recvArmed then (s.setFd fd st,false)
  else
    (s.countOp fd).enter fd { st with
      recvArmed := true, recvUd := user, recvLen := len, recvSerial := s.serials fd } (s.serials fd) add

/-- The kernel has taken `sent` bytes at once: the send is complete, or its tail is queued. -/
def sendTail (st : FdState) (bytes : Bytes) (serial sent : Nat) (add : Bool) : Epoll × Bool :=
  let sock := s.sockets fd
  let s := s.setSocket fd { sock with wire := sock.wire++bytes.take sent }
  if sent = bytes.length then
    ((s.setFd fd st).queueCompletion ⟨user,int32 sent,.send fd serial sent⟩,true)
  else s.enter fd { st with sendq := [⟨user,bytes.drop sent,0,serial⟩] } serial add

/-- `submit_sendv`: behind earlier sends, or at once as far as the kernel takes it. At most 64
parts are offered to the kernel. -/
def submitSendv (iov : List Bytes) (reply : SendReply) (add : Bool) : Epoll × Bool := let st := s.state fd
  let serial := s.serials fd
  let s := s.countOp fd
  let bytes := iov.flatten
  if !st.sendq.isEmpty then
    let req : SendReq := ⟨user,bytes,0,serial⟩
    (s.setFd fd { st with sendq := st.sendq++[req] }.updateEvents,true)
  else
    match reply with
    | .wrote n => s.sendTail user fd st bytes serial (cut n (iov.take 64).flatten.length) add
    | .again => s.sendTail user fd st bytes serial 0 add
    | .intr => ((s.setFd fd st).queueCompletion ⟨user,-4,.send fd serial 0⟩,true)
    | .error errno => ((s.setFd fd st).queueCompletion ⟨user,-errno,.send fd serial 0⟩,true)

def submitSend (bytes : Bytes) (reply : SendReply) (add : Bool) : Epoll × Bool :=
  s.submitSendv user fd [bytes] reply add

def submitAccept (add : Bool) : Epoll × Bool :=
  let (st,ok) := { s.state fd with acceptArmed := true, acceptUd := user }.request add
  (s.setFd fd st,ok)

def submitConnect (reply : ConnectReply) (add : Bool) : Epoll × Bool := let st := s.state fd
  let serial := s.serials fd
  let s := s.countOp fd
  match reply with
  | .ok => ((s.setFd fd st).queueCompletion ⟨user,0,.connect fd serial⟩,true)
  | .error errno => ((s.setFd fd st).queueCompletion ⟨user,-errno,.connect fd serial⟩,true)
  | .inProgress =>
    s.enter fd { st with
      connectPending := true, connectUd := user, connectSerial := serial } serial add

def FdState.cancelled (st : FdState) (user : UserData) (fd : Fd) : List Completion :=
  let done (origin : Origin) : Completion := ⟨user,-ecanceled,origin⟩
  (if st.recvArmed ∧ st.recvUd = user then [done (.recv fd st.recvSerial [])] else [])++
    (st.sendq.filter (·.user == user)).map (fun req => done (.send fd req.serial req.off))++
    (if st.acceptArmed ∧ st.acceptUd = user then [done (.acceptCancelled fd)] else [])++
    (if st.connectPending ∧ st.connectUd = user then [done (.connect fd st.connectSerial)] else [])

def FdState.without (st : FdState) (user : UserData) : FdState :=
  { st with
    recvArmed := st.recvArmed && st.recvUd != user
    sendq := st.sendq.filter (·.user != user)
    acceptArmed := st.acceptArmed && st.acceptUd != user
    connectPending := st.connectPending && st.connectUd != user }

def cancelAt : Epoll := match s.fds fd with
  | none => s
  | some st =>
    let done := st.cancelled user fd
    let st := st.without user
    (s.setFd fd (if done.isEmpty then st else st.updateEvents)).queueAll done
end

def finishWait : Epoll := { s with reaped := s.reaped++s.out, out := [], phase := .idle }

def beginWait (cap : Nat) : Epoll :=
  let s := { s with cap := cap, out := s.ready.take cap, ready := s.ready.drop cap }
  if s.full then s.finishWait else { s with phase := .pending }

def report (events : List (Fd × Events)) : Epoll :=
  let told (fd : Fd) (bit : Events → Bool) : Bool := events.any fun e => e.1 == fd && bit e.2
  { s with
    fds := fun fd => (s.fds fd).map fun st =>
      { st with owed := ⟨st.owed.readable && !told fd (·.input),st.owed.writable && !told fd (·.output)⟩ }
    phase := .events events }

def nextPending : Epoll := if s.full then s.finishWait
  else
    match s.pendingEvents with
    | [] => { s with phase := .poll }
    | (fd,ev)::rest =>
      let s := { s with pendingEvents := rest }
      if (s.fds fd).isSome then { s with phase := .dispatch fd ev .errorish none } else s

def nextEvent : List (Fd × Events) → Epoll
  | [] => s.finishWait
  | (fd,ev)::rest =>
    let s := { s with phase := .events rest }
    if (s.fds fd).isNone then s
    else if s.full then s.postpone fd ev
    else { s with phase := .dispatch fd ev .errorish (some rest) }

def leave (rest : Option (List (Fd × Events))) : Epoll :=
  { s with phase := match rest with
      | none => .pending
      | some events => .events events }

section
variable (fd : Fd)
section
variable (st : FdState)

def onErrorish (ev : Events) (err : Nat) : Epoll :=
  if st.recvArmed then
    if s.full then (s.setFd fd st.updateEvents).postpone fd ev
    else
      (s.setFd fd { st with recvArmed := false }.updateEvents).emit ⟨st.recvUd,-err,.recv fd st.recvSerial []⟩ fd ev
  else if st.interest ≠ {} then
    s.emit ⟨st.watchUd,(if ev.error then readyErr else 0)+
      (if ev.hup || ev.rdhup then readyHangup else 0),.watch fd⟩ fd ev
  else s

def readStage (ev : Events) : Stage := if !ev.input then .writable
  else if st.acceptArmed then .accepting 0
  else if st.recvArmed then .receiving []
  else .writable

def watchReadable (ev : Events) : Epoll :=
  if ev.input && st.interest.readable then
    s.emit ⟨st.watchUd,readyRead,.watch fd⟩ fd { input := true }
  else s

def noteAccepted (fd peer : Fd) : Epoll :=
  { s with acceptedFds := update s.acceptedFds fd (s.acceptedFds fd++[peer]) }

def onAccept (count : Nat) : Option Fd → Epoll × Stage
  | none => (s,.writable)
  | some peer =>
    let s := s.noteAccepted fd peer
    if s.full then (s.postpone fd { input := true },.writable)
    else
      (s.emit ⟨st.acceptUd,peer,.accepted fd peer⟩ fd { input := true },
        if count+1 < acceptsPerWait then .accepting (count+1) else .writable)

def reportRecv (result : Int) (data : Bytes) : Epoll :=
  if s.full then (s.setFd fd st.updateEvents).postpone fd { input := true }
  else
    (s.setFd fd { st with recvArmed := false }.updateEvents).emit
      ⟨st.recvUd,result,.recv fd st.recvSerial data⟩ fd { input := true }

/-- One turn of the drain loop of `on_readable`; `data` has been read so far. -/
def onRecv (data : Bytes) (reply : RecvReply) : Epoll × Stage :=
  if st.recvLen ≤ data.length then
    (s.reportRecv fd st (int32 data.length) data,.writable)
  else
    match reply with
    | .chunk n =>
      let sock := s.sockets fd
      let k := cut n (min (st.recvLen-data.length) sock.inbox.length)
      (s.setSocket fd { sock with inbox := sock.inbox.drop k }, .receiving (data++sock.inbox.take k))
    | .eof => (s.reportRecv fd st (int32 data.length) data,.writable)
    | .again =>
      if data.isEmpty then (s.setFd fd st.awaitReadable,.writable)
      else (s.reportRecv fd st (int32 data.length) data,.writable)
    | .intr => (s,.receiving data)
    | .error errno => (s.reportRecv fd st (-errno) [],.writable)

def onConnected (err : Nat) : Epoll :=
  if st.connectPending then
    (s.setFd fd { st with connectPending := false }.updateEvents).emit
      ⟨st.connectUd,-err,.connect fd st.connectSerial⟩ fd { output := true }
  else s

def onSend (req : SendReq) (queue : List SendReq) : SendReply → Epoll × Stage
  | .intr => (s,.sending)
  | .again => (s.setFd fd st.awaitWritable,.watchWritable)
  | .error errno =>
    ((s.setFd fd { st with sendq := queue }.updateEvents).emit
      ⟨req.user,-errno,.send fd req.serial req.off⟩ fd { output := true },.sending)
  | .wrote n =>
    let w := cut n (req.bytes.length-req.off)
    let sock := s.sockets fd
    let s := s.setSocket fd { sock with wire := sock.wire++(req.bytes.drop req.off).take w }
    if req.off+w = req.bytes.length then
      ((s.setFd fd { st with sendq := queue }.updateEvents).emit
        ⟨req.user,int32 req.bytes.length,.send fd req.serial req.bytes.length⟩ fd { output := true },
        .sending)
    else (s.setFd fd { st with sendq := { req with off := req.off+w }::queue },.sending)

def watchWritable : Epoll :=
  if st.interest.writable then s.emit ⟨st.watchUd,readyWrite,.watch fd⟩ fd { output := true } else s
end

inductive Answer
  | errorish (err : Nat)
  | readable
  | accept (peer : Option Fd)
  | recv (reply : RecvReply)
  | writable (err : Nat)
  | send (reply : SendReply)
  | sent
  | watch
deriving DecidableEq

/-- What `recv` can answer: bytes while there are any, then the FIN. -/
def RecvReply.possible (sock : Socket) : RecvReply → Bool
  | .chunk _ => !sock.inbox.isEmpty
  | .eof => sock.inbox.isEmpty && sock.fin
  | .again => sock.inbox.isEmpty && !sock.fin
  | .intr => true
  | .error errno => failure errno

def goto (ev : Events) (stage : Stage) (rest : Option (List (Fd × Events))) : Epoll :=
  { s with phase := .dispatch fd ev stage rest }

def dispatchStep (ev : Events) (stage : Stage) (rest : Option (List (Fd × Events))) (answer : Answer) : Option Epoll :=
  match stage, answer with
  | .errorish, .errorish err =>
    some ((if ev.errorish then s.onErrorish fd (s.state fd) ev err else s).goto fd ev .readable rest)
  | .readable, .readable => some ((s.watchReadable fd (s.state fd) ev).goto fd ev (readStage (s.state fd) ev) rest)
  | .accepting count, .accept peer =>
    let next := s.onAccept fd (s.state fd) count peer
    some (next.1.goto fd ev next.2 rest)
  | .receiving data, .recv reply =>
    if reply.possible (s.sockets fd) then
      let next := s.onRecv fd (s.state fd) data reply
      some (next.1.goto fd ev next.2 rest)
    else none
  | .writable, .writable err =>
    if ev.output then some ((s.onConnected fd (s.state fd) err).goto fd ev .sending rest)
    else some (s.leave rest)
  | .sending, .send reply =>
    match (s.state fd).sendq with
    | [] => none
    | req::queue =>
      if reply.possible then
        let next := s.onSend fd (s.state fd) req queue reply
        some (next.1.goto fd ev next.2 rest)
      else none
  | .sending, .sent => if (s.state fd).sendq.isEmpty then some (s.goto fd ev .watchWritable rest) else none
  | .watchWritable, .watch => some ((s.watchWritable fd (s.state fd)).leave rest)
  | _, _ => none
end

/-- What drives the backend: its users, the kernel's network, and the turns of `wait`. `add` is
the kernel's answer to a registration. -/
inductive Action
  | attach (fd : Fd) (interest : Interest) (user : UserData) (add : Bool)
  | modify (fd : Fd) (interest : Interest) (user : UserData)
  | detach (fd : Fd)
  | submitRecv (user : UserData) (fd : Fd) (len : Nat) (add : Bool)
  | submitSendv (user : UserData) (fd : Fd) (iov : List Bytes) (reply : SendReply) (add : Bool)
  | submitAccept (user : UserData) (fd : Fd) (add : Bool)
  | submitConnect (user : UserData) (fd : Fd) (reply : ConnectReply) (add : Bool)
  | cancel (user : UserData) (order : List Fd)
  | arrive (fd : Fd) (bytes : Bytes)
  | fin (fd : Fd)
  | wait (cap : Nat)
  | pending
  | poll (events : List (Fd × Events))
  | event
  | dispatch (answer : Answer)
deriving DecidableEq

def call : Action → Option Epoll
  | .attach fd interest user add => some (s.attach fd interest user add).1
  | .modify fd interest user => some (s.modify fd interest user).1
  | .detach fd => some (s.detach fd)
  | .submitRecv user fd len add => some (s.submitRecv user fd len add).1
  | .submitSendv user fd iov reply add =>
    if reply.possible then some (s.submitSendv user fd iov reply add).1 else none
  | .submitAccept user fd add => some (s.submitAccept user fd add).1
  | .submitConnect user fd reply add => if reply.possible then some (s.submitConnect user fd reply add).1 else none
  -- The map of descriptors is walked in an order of its own, here any one.
  | .cancel user order => some (order.foldl (fun s fd => s.cancelAt user fd) s)
  | .wait cap => if 0 < cap then some (s.beginWait cap) else none
  | _ => none

def network : Action → Option Epoll
  | .arrive fd bytes =>
    let sock := s.sockets fd
    if sock.fin then none
    else some (s.setSocket fd { sock with stream := sock.stream++bytes, inbox := sock.inbox++bytes })
  | .fin fd => some (s.setSocket fd { s.sockets fd with fin := true })
  | _ => none

def step (a : Action) : Option Epoll := match s.network a with
  | some s => some s
  | none =>
    match s.phase, a with
    | .idle, a => s.call a
    | .pending, .pending => some s.nextPending
    | .poll, .poll events => if events.length ≤ 64 then some (s.report events) else none
    | .events rest, .event => some (s.nextEvent rest)
    | .dispatch fd ev stage rest, .dispatch answer => s.dispatchStep fd ev stage rest answer
    | _, _ => none

def Step (a : Action) (s' : Epoll) : Prop := s.step a = some s'

lemma int32_of_lt {n : Nat} (small : n < 2^31) : int32 n = n := by
  unfold int32
  rw [BitVec.toInt_eq_toNat_of_lt]
  · rw [BitVec.toNat_ofNat,Nat.mod_eq_of_lt]
    omega
  rw [BitVec.toNat_ofNat]
  omega

@[simp] lemma state_setFd (f fd : Fd) (st : FdState) : (s.setFd fd st).state f = if f = fd then st else s.state f := by
  simp only [state,setFd,update_apply]
  split <;> rfl

lemma state_of_fds {s : Epoll} {fd : Fd} {st : FdState} (known : s.fds fd = some st) : s.state fd = st := by
  simp [state,known]

inductive Turn (s : Epoll) : Action → Epoll → Prop
  | network {a : Action} {s' : Epoll} : s.network a = some s' → Turn s a s'
  | call {a : Action} {s' : Epoll} : s.phase = .idle → s.call a = some s' → Turn s a s'
  | pending : s.phase = .pending → Turn s .pending s.nextPending
  | poll {events : List (Fd × Events)} : s.phase = .poll → events.length ≤ 64 →
      Turn s (.poll events) (s.report events)
  | event {rest : List (Fd × Events)} : s.phase = .events rest → Turn s .event (s.nextEvent rest)
  | errorish {fd ev rest err} : s.phase = .dispatch fd ev .errorish rest →
      Turn s (.dispatch (.errorish err))
        ((if ev.errorish then s.onErrorish fd (s.state fd) ev err else s).goto fd ev .readable rest)
  | readable {fd ev rest} : s.phase = .dispatch fd ev .readable rest →
      Turn s (.dispatch .readable) ((s.watchReadable fd (s.state fd) ev).goto fd ev (readStage (s.state fd) ev) rest)
  | accept {fd ev count rest peer} : s.phase = .dispatch fd ev (.accepting count) rest →
      Turn s (.dispatch (.accept peer)) ((s.onAccept fd (s.state fd) count peer).1.goto fd ev
          (s.onAccept fd (s.state fd) count peer).2 rest)
  | recv {fd ev data rest reply} : s.phase = .dispatch fd ev (.receiving data) rest → reply.possible (s.sockets fd) →
      Turn s (.dispatch (.recv reply)) ((s.onRecv fd (s.state fd) data reply).1.goto fd ev
          (s.onRecv fd (s.state fd) data reply).2 rest)
  | unwritable {fd ev rest err} : s.phase = .dispatch fd ev .writable rest → ev.output = false →
      Turn s (.dispatch (.writable err)) (s.leave rest)
  | writable {fd ev rest err} : s.phase = .dispatch fd ev .writable rest → ev.output = true →
      Turn s (.dispatch (.writable err)) ((s.onConnected fd (s.state fd) err).goto fd ev .sending rest)
  | send {fd ev rest req queue reply} : s.phase = .dispatch fd ev .sending rest →
      (s.state fd).sendq = req::queue → reply.possible →
      Turn s (.dispatch (.send reply)) ((s.onSend fd (s.state fd) req queue reply).1.goto fd ev
          (s.onSend fd (s.state fd) req queue reply).2 rest)
  | sent {fd ev rest} : s.phase = .dispatch fd ev .sending rest → (s.state fd).sendq = [] →
      Turn s (.dispatch .sent) (s.goto fd ev .watchWritable rest)
  | watch {fd ev rest} : s.phase = .dispatch fd ev .watchWritable rest →
      Turn s (.dispatch .watch) ((s.watchWritable fd (s.state fd)).leave rest)

lemma dispatchStep_turn {s s' : Epoll} {fd : Fd} {ev : Events} {stage : Stage}
    {rest : Option (List (Fd × Events))} {answer : Answer} (at' : s.phase = .dispatch fd ev stage rest)
    (moved : s.dispatchStep fd ev stage rest answer = some s') : Turn s (.dispatch answer) s' := by
  unfold dispatchStep at moved
  split at moved
  · cases moved
    exact .errorish at'
  · cases moved
    exact .readable at'
  · cases moved
    exact .accept at'
  · split at moved
    next possible =>
      cases moved
      exact .recv at' possible
    · cases moved
  · split at moved
    next output =>
      cases moved
      exact .writable at' output
    next quiet =>
    cases moved
    exact .unwritable at' (Bool.eq_false_iff.2 quiet)
  · split at moved
    · cases moved
    next queued =>
    obtain ⟨possible,rfl⟩ := Transition.enabled moved
    exact .send at' queued possible
  · split at moved
    next none' =>
      cases moved
      exact .sent at' (List.isEmpty_iff.1 none')
    · cases moved
  · cases moved
    exact .watch at'
  · cases moved

lemma step_turn {s s' : Epoll} {a : Action} (moved : s.step a = some s') : Turn s a s' := by
  unfold step at moved
  split at moved
  next came =>
    cases moved
    exact .network came
  · split at moved
    · exact .call ‹_› moved
    · cases moved
      exact .pending ‹_›
    · split at moved
      · cases moved
        exact .poll ‹_› ‹_›
      · cases moved
    · cases moved
      exact .event ‹_›
    · exact dispatchStep_turn ‹_› moved
    · cases moved
end Epoll
end AffiniX
