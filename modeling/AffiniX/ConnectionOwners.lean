import AffiniX.Connection
import AffiniX.HandleTable

/-! Who destroys a connection and when. -/
namespace AffiniX
open Function

inductive ClientState
  | disconnected
  | connecting
  | connected
  | reconnectWait
deriving DecidableEq

/-- What `owner_` and `notify_` of a connection point to. -/
inductive Owner (σ κ : Type)
  | server (sv : σ)
  | client (k : κ)
deriving DecidableEq

/-- `attempt` marks a connection that was given the client's `attempt_handlers_`. -/
structure ConnObject (σ κ : Type) where
  id : Handle
  state : ConnState
  owner : Owner σ κ
  attempt : Bool
  coro : Bool := false

structure TcpServer where
  maxConnections : Nat
  idleReadTimeout : Bool
  conns : List (Handle × Nat) := []

/-- Of the resolved addresses only their number is kept: `he_addrs_` holds the same ones in
another order. -/
structure TcpClient where
  happyEyeballs : Bool
  autoReconnect : Bool
  addrs : Nat := 0
  addrIdx : Nat := 0
  heAddrs : Nat := 0
  heNext : Nat := 0
  heWon : Bool := false
  resolving : Bool := false
  state : ClientState := .disconnected
  conn : Option Nat := none
  pending : List Nat := []
  closing : List Nat := []

namespace Owners
inductive Timer (κ : Type)
  | idle (id : Handle)
  | connectTimeout (id : Handle)
  | reconnect (k : κ)
  | stagger (k : κ)
  | heDeadline (k : κ)
  | app
deriving DecidableEq

inductive Task (σ κ : Type)
  | app
  | gone (owner : Owner σ κ) (id : Handle) (reason : CloseReason)

/-- The stages of `poll_once`; `outside` is between two calls of it and `ending` is the
destructor of the event manager. -/
inductive Stage
  | outside
  | mailbox
  | timers
  | dispatch
  | deferred
  | flush
  | bookkeeping
  | ending
deriving DecidableEq

/-- Where `on_completion` stands: at `deliver_fds`, at the parse loop, after a full batch, after `on_error`, or at the
end. -/
inductive CompletionPoint
  | fds
  | parse
  | full
  | failed
  | done
deriving DecidableEq

inductive ClosePoint
  | handled
  | sendWaiter
  | notify
  | notified
deriving DecidableEq

inductive Frame (σ κ : Type)
  | app
  | onCompletion (a : Nat) (point : CompletionPoint)
  | start (a : Nat)
  | close (a : Nat) (reason : CloseReason) (point : ClosePoint)
  | notifyShutdown (sv : σ) (i : Nat)
  | heTimeout (k : κ) (i : Nat)
  | heWin (k : κ) (losers : List Nat)
  | setState (k : κ) (state : ClientState)
  | resolve (k : κ)
  | scheduleReconnect (k : κ)
  | armReconnect (k : κ)
  | armStagger (k : κ)
  | submitConnect (k : κ)
  | submitAttempt (a : Nat)
  | replaceConn (k : κ)
  | afterGone (k : κ) (reason : CloseReason)
  | destroyAll (objects : List Nat) (closed : Bool)
  | destroyClosed (objects : List Nat)
  | destroyConn (k : κ) (closed : Bool)
deriving DecidableEq

/-- How `on_recv` goes on: with descriptors, a batch that is delivered, held or too large to hold, or the parser's
verdict. -/
inductive Reading
  | fds
  | batch (full : Bool)
  | held (full : Bool)
  | overflow
  | failed
  | needMore
deriving DecidableEq

structure Inputs where
  sockets : List Bool := []
  built : Bool := true
  parked : Bool := false
  reading : Reading := .needMore

inductive Op
  | connected
  | connectError
  | recvAgain
  | recvFin
  | recvError
  | recvData
  | sent
  | writable
  | retryOverflow
  | sendError
  | canceled
  | flushWrite
deriving DecidableEq

inductive Resolution
  | addrs (n : Nat)
  | failed
  | later

inductive ApiCall (σ κ : Type)
  | close (a : Nat) (reason : CloseReason)
  | overflow (a : Nat)
  | shutdownWrite (a : Nat)
  | enableCoro (a : Nat)
  | startClient (k : κ) (how : Resolution) (i : Inputs)
  | notifyShutdown (sv : σ)
  | halfCloseAll (sv : σ)
  | defer
  | after

inductive Move (σ κ : Type)
  | run
  | stop
  | poll
  | next
  | app
  | resolved (k : κ) (addrs : Option Nat) (i : Inputs)
  | fire (j : Nat) (i : Inputs)
  | complete (id : Handle) (op : Op)
  | accept (sv : σ) (built : Bool)
  | deferred (i : Inputs)
  | postpone
  | call (c : ApiCall σ κ)
  | ret
  | throws
  | resume (i : Inputs)
  | destroy
  | deleteServer (sv : σ)
  | deleteClient (k : κ)

inductive Container (σ κ : Type)
  | conns (sv : σ)
  | pending (k : κ)
deriving DecidableEq

def Frame.member {σ κ : Type} : Frame σ κ → Option Nat
  | .onCompletion a _ | .start a | .close a _ _ => some a
  | _ => none

def Frame.loop {σ κ : Type} : Frame σ κ → Option (Container σ κ)
  | .notifyShutdown sv _ => some (.conns sv)
  | .heTimeout k _ => some (.pending k)
  | _ => none
end Owners

structure Shard (σ κ : Type) where
  running : Bool
  stage : Owners.Stage
  stack : List (Owners.Frame σ κ)
  deferNext : List (Owners.Task σ κ)
  deferRun : List (Owners.Task σ κ)
  timers : List (Owners.Timer κ)
  sinks : HandleTable Nat
  objects : Nat → Option (ConnObject σ κ)
  born : Nat
  server : σ → TcpServer
  client : κ → TcpClient

namespace Shard
open Owners Transition
variable {σ κ : Type}

def create (firstGen : Nat) (server : σ → Nat × Bool) (client : κ → Bool × Bool) : Shard σ κ where
  running := false
  stage := .outside
  stack := []
  deferNext := []
  deferRun := []
  timers := []
  sinks := HandleTable.create firstGen 0
  objects := fun _ => none
  born := 0
  server := fun sv => { maxConnections := (server sv).1, idleReadTimeout := (server sv).2 }
  client := fun k => { happyEyeballs := (client k).1, autoReconnect := (client k).2 }

variable (s : Shard σ κ)

def live (a : Nat) : Prop := s.objects a ≠ none

instance (s : Shard σ κ) (a : Nat) : Decidable (s.live a) :=
  decidable_of_iff ((s.objects a).isSome) Option.isSome_iff_ne_none

def members : Container σ κ → List Nat
  | .conns sv => (s.server sv).conns.map Prod.snd
  | .pending k => (s.client k).pending

def push (frames : List (Frame σ κ)) : Shard σ κ := { s with stack := frames++s.stack }

def after (t : Timer κ) : Shard σ κ := { s with timers := s.timers++[t] }

def setObject (a : Nat) (c : ConnObject σ κ) : Shard σ κ := { s with objects := update s.objects a (some c) }

/-- `pool_.construct` and the constructor of `Connection`, which registers the sink. -/
def construct (owner : Owner σ κ) (attempt : Bool) : Shard σ κ :=
  { s with
    sinks := (s.sinks.emplace s.born).2
    objects := update s.objects s.born (some
      { id := (s.sinks.emplace s.born).1, state := .connecting, owner := owner, attempt := attempt })
    born := s.born+1 }

def destroy (a : Nat) : Shard σ κ := { s with objects := update s.objects a none }

def hasId (id : Handle) (a : Nat) : Bool := (s.objects a).any fun c => c.id = id

def armIdleTimer [DecidableEq κ] (c : ConnObject σ κ) : Shard σ κ := match c.owner with
  | .server sv =>
    if (s.server sv).idleReadTimeout then
      { s with timers := s.timers.filter (· ≠ .idle c.id)++[.idle c.id] }
    else s
  | .client _ => s

variable [DecidableEq σ] [DecidableEq κ]
variable (s : Shard σ κ)

def setServer (sv : σ) (f : TcpServer → TcpServer) : Shard σ κ :=
  { s with server := update s.server sv (f (s.server sv)) }

def setClient (k : κ) (f : TcpClient → TcpClient) : Shard σ κ :=
  { s with client := update s.client k (f (s.client k)) }

/-- Whether `on_close` is the application's: `he_lost` forwards the close of an attempt only
once it is the client's connection. -/
def closeReaches (c : ConnObject σ κ) : Bool := match c.owner with
  | .server _ => true
  | .client k => !c.attempt || (s.client k).conn.any (s.hasId c.id)

def close (s : Shard σ κ) (a : Nat) (reason : CloseReason) : Shard σ κ := match s.objects a with
  | none => s
  | some c =>
    if c.state = .closing ∨ c.state = .closed then s
    else
      { s.setObject a { c with state := .closing } with
        timers := s.timers.filter (· ≠ .idle c.id)
        stack := (if s.closeReaches c then [.app,.close a reason .handled]
          else [.close a reason .handled])++s.stack }

def findPending (k : κ) (id : Handle) : Option Nat := (s.client k).pending.find? (s.hasId id)

/-- `he_win` up to its loop over the losers, which `heWin` frames go on with. -/
def heWin (s : Shard σ κ) (k : κ) (id : Handle) : Shard σ κ := match s.findPending k id with
  | none => s
  | some w =>
    if (s.client k).heWon then s.close w .localClose
    else
      (s.setClient k fun c => { c with heWon := true, conn := some w, pending := [] }).push
        [.heWin k ((s.client k).pending.erase w)]

def start (s : Shard σ κ) (a : Nat) : Shard σ κ := match s.objects a with
  | none => s
  | some c =>
    let s := (s.setObject a { c with state := .established }).push [.start a]
    match c.owner with
    | .server _ => s.push [.app]
    | .client k => if c.attempt then s.heWin k c.id else s.push [.setState k .connected,.app]

def openConn (k : κ) (built : Bool) : Shard σ κ :=
  if built then
    ((s.construct (.client k) false).setClient k fun c => { c with conn := some s.born }).push
      [.setState k .connecting,.submitConnect k]
  else s.push [.scheduleReconnect k]

/-- `connect_next` with a socket: a connection that is still there is closed before it is
destroyed. -/
def replaceOrOpen (k : κ) (built : Bool) : Shard σ κ := match (s.client k).conn with
  | some a => (s.push [.replaceConn k]).close a .localClose
  | none => s.openConn k built

def connectNext (k : κ) (built : Bool) : List Bool → Shard σ κ → Shard σ κ
  | sockets, s =>
    if (s.client k).addrs ≤ (s.client k).addrIdx then
      s.push [.setState k .disconnected,.scheduleReconnect k]
    else
      let s := s.setClient k fun c => { c with addrIdx := c.addrIdx+1 }
      match sockets with
      | false::rest => connectNext k built rest s
      | _ => s.replaceOrOpen k built

def heAttemptDone (k : κ) (launch : Shard σ κ → Shard σ κ) (s : Shard σ κ) : Shard σ κ :=
  if (s.client k).heWon ∨ (s.client k).pending ≠ [] then s
  else if (s.client k).heNext < (s.client k).heAddrs then launch s
  else s.push [.setState k .disconnected,.scheduleReconnect k]

def heLaunch (k : κ) : List Bool → Shard σ κ → Shard σ κ
  | sockets, s =>
    if (s.client k).heWon ∨ (s.client k).heAddrs ≤ (s.client k).heNext then s
    else
      let s := s.setClient k fun c => { c with heNext := c.heNext+1 }
      match sockets with
      | false::rest => heAttemptDone k (heLaunch k rest) s
      | _ =>
        ((s.construct (.client k) true).setClient k fun c =>
          { c with pending := c.pending++[s.born] }).push [.setState k .connecting,.submitAttempt s.born]

def heBegin (k : κ) (i : Inputs) : Shard σ κ :=
  heLaunch k i.sockets (((s.setClient k fun c =>
    { c with heWon := false, heNext := 0, heAddrs := c.addrs }).after (.heDeadline k)).push [.armStagger k])

def beginConnect (k : κ) (i : Inputs) : Shard σ κ :=
  if (s.client k).happyEyeballs ∧ 1 < (s.client k).addrs then
    heBegin (s.setClient k fun c => { c with addrIdx := 0 }) k i
  else connectNext k i.built i.sockets (s.setClient k fun c => { c with addrIdx := 0 })

def destroyConn (k : κ) : Shard σ κ := match (s.client k).conn with
  | none => s
  | some a => (s.destroy a).setClient k fun c => { c with conn := none }

def serverGone (sv : σ) (id : Handle) : Shard σ κ := match (s.server sv).conns.find? (·.1 = id) with
  | none => s
  | some found => (s.setServer sv fun v => { v with conns := v.conns.filter (·.1 ≠ id) }).destroy found.2

/-- `TcpClient::on_conn_gone` with `reclaim_attempt`, whose search ends where it erases. -/
def clientGone (k : κ) (id : Handle) (reason : CloseReason) (i : Inputs) : Shard σ κ :=
  if (s.client k).conn.any (s.hasId id) then (s.destroyConn k).push [.afterGone k reason]
  else
    match s.findPending k id with
    | some a =>
      heAttemptDone k (heLaunch k i.sockets) (((s.destroy a).setClient k fun c =>
        { c with pending := c.pending.erase a }).push [.afterGone k reason])
    | none =>
      match (s.client k).closing.find? (s.hasId id) with
      | some a =>
        ((s.destroy a).setClient k fun c => { c with closing := c.closing.erase a }).push [.afterGone k reason]
      | none => s

def onConnGone (owner : Owner σ κ) (id : Handle) (reason : CloseReason) (i : Inputs) : Shard σ κ := match owner with
  | .server sv => s.serverGone sv id
  | .client k => s.clientGone k id reason i

/-- The loop of `notify_shutdown` from position `i` on, to the next handler call. -/
def notifyShutdown (s : Shard σ κ) (sv : σ) (i : Nat) : Shard σ κ :=
  if i < (s.server sv).conns.length then s.push [.app,.notifyShutdown sv (i+1)] else s

/-- The loop of `he_timeout` from position `i` on, to the next close. -/
def heTimeout (s : Shard σ κ) (k : κ) (i : Nat) : Shard σ κ := match (s.client k).pending[i]? with
  | some a => (s.push [.heTimeout k (i+1)]).close a .connectFailed
  | none => s

def shutdownWrite (s : Shard σ κ) (a : Nat) : Shard σ κ := match s.objects a with
  | none => s
  | some c =>
    if c.state = .established then (s.setObject a { c with state := .shutdownWrite }).armIdleTimer c
    else s

def startClient (k : κ) (how : Resolution) (i : Inputs) : Shard σ κ :=
  if (s.client k).conn.isSome ∨ (s.client k).resolving ∨ (s.client k).pending ≠ [] ∨ (s.client k).closing ≠ [] then s
  else
    match how with
    | .addrs n => beginConnect (s.setClient k fun c => { c with addrs := n }) k i
    | .failed => s
    | .later => s.push [.setState k .connecting,.resolve k]

def resolve (id : Handle) : Option Nat :=
  (s.sinks.get id).filter fun a => (s.objects a).any fun c => c.state ≠ .closed

def onCompletion (s : Shard σ κ) (a : Nat) (c : ConnObject σ κ) (op : Op) : Shard σ κ :=
  let entered := s.push [.onCompletion a .done]
  let reads := c.state = .established ∨ c.state = .shutdownWrite ∧ ¬ c.coro
  match op with
  | .connected => if c.state = .connecting then entered.start a else entered
  | .connectError => if c.state = .connecting then entered.close a .connectFailed else entered
  | .recvFin => if reads then entered.close a .peerFin else entered
  | .recvError => if reads then entered.close a .error else entered
  | .recvData => if c.state = .established then s.push [.onCompletion a .fds] else entered
  | .sendError => entered.close a .error
  | .writable => entered.push [.app]
  | .retryOverflow => if c.state = .established then entered.close a .writeOverflow else entered
  | .recvAgain | .sent | .canceled | .flushWrite => entered

/-- `on_recv` from a point of it to the next call it makes. -/
def onRecv (a : Nat) (c : ConnObject σ κ) (point : CompletionPoint) (reading : Reading) : Shard σ κ :=
  match point with
  | .fds =>
    if reading = .fds then s.push [.app,.onCompletion a .fds]
    else (s.armIdleTimer c).push [.onCompletion a .parse]
  | .parse =>
    match reading with
    | .batch full => s.push [.app,.onCompletion a (if full then .full else .done)]
    | .held full => s.push [.onCompletion a (if full then .full else .done)]
    | .overflow => (s.push [.onCompletion a .full]).close a .heldOverflow
    | .failed => s.push [.app,.onCompletion a .failed]
    | .needMore | .fds => s
  | .full => if c.state = .established then s.push [.onCompletion a .parse] else s
  | .failed => (s.push [.onCompletion a .done]).close a .frameError
  | .done => s

/-- `teardown` to the next call it makes. The owner is told at the end of the iteration, or at once if no loop runs. -/
def teardown (a : Nat) (c : ConnObject σ κ) (reason : CloseReason) (point : ClosePoint) (i : Inputs) : Shard σ κ :=
  match point with
  | .handled =>
    ({ s.setObject a { c with state := .closed } with sinks := s.sinks.release c.id }).push
      (if i.parked then [.app,.close a reason .sendWaiter] else [.close a reason .sendWaiter])
  | .sendWaiter => s.push (if i.parked then [.app,.close a reason .notify] else [.close a reason .notify])
  | .notify =>
    if s.running then { s with deferNext := s.deferNext++[.gone c.owner c.id reason] }
    else (s.push [.close a reason .notified]).onConnGone c.owner c.id reason i
  | .notified => s

/-- Goes on with the call on top of the stack, which `s` no longer has. A call that reads
members of an object that is gone has no meaning. -/
def resume (i : Inputs) : Frame σ κ → Option (Shard σ κ)
  | .app => none
  | .onCompletion _ .done => some s
  | .onCompletion a point => (s.objects a).map fun c => s.onRecv a c point i.reading
  | .start a => (s.objects a).map fun c => s.armIdleTimer c
  | .close _ _ .notified => some s
  | .close a reason point => (s.objects a).map fun c => s.teardown a c reason point i
  | .notifyShutdown sv j => some (s.notifyShutdown sv j)
  | .heTimeout k j => some (s.heTimeout k j)
  | .heWin k [] => some
      ({ s with timers := s.timers.filter fun t => t ≠ Timer.stagger k ∧ t ≠ Timer.heDeadline k }.push
        [.setState k .connected,.app])
  | .heWin k (a::losers) => some
      (((s.setClient k fun c => { c with closing := c.closing++[a] }).push [.heWin k losers]).close a .localClose)
  | .setState k state => some
      (if (s.client k).state = state then s
        else (s.setClient k fun c => { c with state := state }).push [.app])
  | .resolve k => some (s.setClient k fun c => { c with resolving := true })
  | .scheduleReconnect k => some
      (if (s.client k).autoReconnect then s.push [.setState k .reconnectWait,.armReconnect k] else s)
  | .armReconnect k => some (s.after (.reconnect k))
  | .armStagger k => some
      (if (s.client k).heWon ∨ (s.client k).heAddrs ≤ (s.client k).heNext then s
        else s.after (.stagger k))
  | .submitConnect k => do
      let a ← (s.client k).conn
      let c ← s.objects a
      return s.after (.connectTimeout c.id)
  | .submitAttempt a => (s.objects a).map fun _ => s
  | .replaceConn k => some ((s.destroyConn k).openConn k i.built)
  | .afterGone k reason => some
      (if reason = .connectFailed then
        if ¬ (s.client k).happyEyeballs ∨ (s.client k).heAddrs = 0 then
          connectNext k i.built i.sockets s
        else s
      else if (s.client k).state ≠ .disconnected then s.push [.scheduleReconnect k]
      else s)
  | .destroyAll [] _ => some s
  | .destroyAll (a::rest) false => some ((s.push [.destroyAll (a::rest) true]).close a .shutdown)
  | .destroyAll (a::rest) true => some ((s.destroy a).push [.destroyAll rest false])
  | .destroyClosed objects => some (objects.foldl destroy s)
  | .destroyConn k false => some
      (match (s.client k).conn with
      | none => s
      | some a => (s.push [.destroyConn k true]).close a .shutdown)
  | .destroyConn k true => some (s.destroyConn k)

def apiCall : ApiCall σ κ → Option (Shard σ κ)
  | .close a reason => if s.live a then some (s.close a reason) else none
  | .overflow a => (s.objects a).map fun c => if c.state = .established then s.close a .writeOverflow else s
  | .shutdownWrite a => if s.live a then some (s.shutdownWrite a) else none
  | .enableCoro a => (s.objects a).map fun c => s.setObject a { c with coro := true }
  | .startClient k how i => some (s.startClient k how i)
  | .notifyShutdown sv => some (s.notifyShutdown sv 0)
  | .halfCloseAll sv => some ((s.members (.conns sv)).foldl shutdownWrite s)
  | .defer => some { s with deferNext := s.deferNext++[.app] }
  | .after => some (s.after .app)

def fireTimer (i : Inputs) : Timer κ → Shard σ κ
  | .idle id =>
    match s.resolve id with
    | none => s
    | some a => s.close a .idleTimeout
  | .connectTimeout id =>
    match s.resolve id with
    | none => s
    | some a => if (s.objects a).any fun c => c.state = .connecting then s.close a .connectFailed else s
  | .reconnect k => s.beginConnect k i
  | .stagger k => heLaunch k i.sockets (s.push [.armStagger k])
  | .heDeadline k => (s.setClient k fun c => { c with heNext := c.heAddrs }).heTimeout k 0
  | .app => s.push [.app]

def onAccept (sv : σ) (built : Bool) : Shard σ κ :=
  if built ∧ (s.server sv).conns.length < (s.server sv).maxConnections then
    ((s.construct (.server sv) false).setServer sv fun v =>
      { v with conns := (s.sinks.nextHandle,s.born)::v.conns.filter (·.1 ≠ s.sinks.nextHandle) }).start
        s.born
  else s

def runTask (i : Inputs) : Task σ κ → Shard σ κ
  | .app => s.push [.app]
  | .gone owner id reason => s.onConnGone owner id reason i

def resolved (k : κ) (addrs : Option Nat) (i : Inputs) : Shard σ κ := match addrs with
  | none => (s.setClient k fun c => { c with resolving := false }).push
      [.app,.setState k .disconnected,.scheduleReconnect k]
  | some n => beginConnect (s.setClient k fun c => { c with resolving := false, addrs := n }) k i

def nextStage : Option (Shard σ κ) := match s.stage with
  | .mailbox => some { s with stage := .timers }
  | .timers => some { s with stage := .dispatch }
  | .dispatch => some { s with stage := .deferred, deferRun := s.deferNext, deferNext := [] }
  | .deferred => if s.deferRun.isEmpty then some { s with stage := .flush } else none
  | .flush => some { s with stage := .bookkeeping }
  | .bookkeeping => some { s with stage := .outside, sinks := s.sinks.reclaim }
  | .outside | .ending => none

def begin : Owners.Move σ κ → Option (Shard σ κ)
  | .run => if s.stage = .outside ∧ ¬ s.running then some { s with running := true } else none
  | .stop => if s.stage = .outside ∧ s.running then some { s with running := false } else none
  | .poll => if s.stage = .outside then some { s with stage := .mailbox } else none
  | .next => s.nextStage
  | .app => if s.stage = .ending ∨ s.stage = .outside ∧ s.running then none else some (s.push [.app])
  | .resolved k addrs i => if s.stage = .mailbox ∨ s.stage = .timers then some (s.resolved k addrs i) else none
  | .fire j i =>
    if s.stage = .timers then
      s.timers[j]?.map fun t => fireTimer { s with timers := s.timers.eraseIdx j } i t
    else none
  | .complete id op =>
    if s.stage = .dispatch ∨ s.stage = .flush ∧ op = .flushWrite then do
      let a ← s.sinks.get id
      let c ← s.objects a
      return s.onCompletion a c op
    else none
  | .accept sv built => if s.stage = .dispatch then some (s.onAccept sv built) else none
  | .deferred i =>
    if s.stage = .deferred then
      s.deferRun.head?.map fun t => runTask { s with deferRun := s.deferRun.tail } i t
    else none
  | .postpone =>
    if s.stage = .deferred then some { s with deferNext := s.deferNext++s.deferRun, deferRun := [] }
    else none
  | .destroy => if s.stage = .outside ∧ ¬ s.running then some { s with stage := .ending } else none
  | .deleteServer sv =>
    if s.stage = .ending then some ((s.setServer sv fun v => { v with conns := [] }).push
      [.destroyAll (s.members (.conns sv)) false])
    else none
  | .deleteClient k =>
    if s.stage = .ending then some ((s.setClient k fun c => { c with pending := [], closing := [] }).push
      [.destroyAll (s.client k).pending false,.destroyClosed (s.client k).closing,.destroyConn k false])
    else none
  | .call _ | .ret | .throws | .resume _ => none

def step (m : Owners.Move σ κ) : Option (Shard σ κ) := match s.stack with
  | [] => s.begin m
  | .app::rest =>
    match m with
    | .call c => s.apiCall c
    | .ret => some { s with stack := rest }
    | .throws =>
      if s.stage = .outside ∨ s.stage = .bookkeeping ∨ s.stage = .ending then none
      else some { s with stack := [] }
    | _ => none
  | f::rest =>
    match m with
    | .resume i => resume { s with stack := rest } i f
    | _ => none
end Shard
end AffiniX
