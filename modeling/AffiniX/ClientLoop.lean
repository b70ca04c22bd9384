import AffiniX.ConnectionOwners

/-! One `TcpClient` on a running event manager. The owner of a closed connection is told at the end of the iteration, so a
close is an event of its own. -/
namespace AffiniX
open Function

/-- A connection of a client. `set` is the attempt set it was launched for. -/
structure ClientConn where
  attempt : Bool
  set : Nat
  state : ConnState
  alive : Bool
deriving DecidableEq

structure ConnBook where
  conns : Nat → ClientConn
  born : Nat
  deferred : List (Nat × CloseReason)
  opens : List Nat
  handled : List Nat
  destroyed : List Nat

namespace ConnBook
def create : ConnBook := ⟨fun _ => ⟨false,0,.closed,false⟩,0,[],[],[],[]⟩

variable (b : ConnBook)

def construct (attempt : Bool) (set : Nat) : ConnBook :=
  { b with
    conns := update b.conns b.born ⟨attempt,set,.connecting,true⟩
    born := b.born+1 }

/-- Whether `on_close` is the application's, which `he_lost` decides for an attempt. -/
def reaches (conn : Option Nat) (a : Nat) : Bool := !(b.conns a).attempt || conn = some a

def close (conn : Option Nat) (a : Nat) (reason : CloseReason) : ConnBook :=
  if (b.conns a).alive ∧ (b.conns a).state ≠ .closed then
    { b with
      conns := update b.conns a { b.conns a with state := .closed }
      deferred := b.deferred++[(a,reason)]
      handled := if b.reaches conn a then a::b.handled else b.handled }
  else b

def destroy (a : Nat) : ConnBook :=
  { b with
    conns := update b.conns a { b.conns a with alive := false }
    destroyed := a::b.destroyed }

def establish (a : Nat) : ConnBook := { b with conns := update b.conns a { b.conns a with state := .established } }
end ConnBook

inductive Alarm
  | connectTimeout (a : Nat)
  | reconnect
  | stagger (set : Nat)
  | deadline (set : Nat)
deriving DecidableEq

structure ArmedTimer where
  due : Int
  group : Nat
  alarm : Alarm

/-- What a connect gets from the outside: sockets, room in the pool, what remains of the deadline, the delay of a retry.
-/
structure Dial where
  sockets : List Bool := []
  built : Bool := true
  remaining : Option Int := none
  delay : Int := 0

/-- `sets` counts the calls of `he_begin`, and `begun` keeps when each began and its budget. -/
structure ClientLoop where
  client : TcpClient
  connectTimeout : Int
  heStagger : Int
  started : Bool
  now : Int
  groups : Nat
  group : Nat
  heGroup : Option Nat
  timers : List ArmedTimer
  book : ConnBook
  sets : Nat
  begun : Nat → Int × Int

namespace ClientLoop
def create (happyEyeballs autoReconnect : Bool) (connectTimeout heStagger : Int) : ClientLoop where
  client := { happyEyeballs := happyEyeballs, autoReconnect := autoReconnect }
  connectTimeout := connectTimeout
  heStagger := heStagger
  started := false
  now := 0
  groups := 0
  group := 0
  heGroup := none
  timers := []
  book := .create
  sets := 0
  begun := fun _ => (0,0)

variable (s : ClientLoop)

def setClient (f : TcpClient → TcpClient) : ClientLoop := { s with client := f s.client }

def setState (state : ClientState) : ClientLoop := s.setClient fun c => { c with state := state }

def arm (due : Int) (group : Nat) (alarm : Alarm) : ClientLoop := { s with timers := s.timers++[⟨due,group,alarm⟩] }

section
variable (d : Dial)

def connectBudget : Int := match d.remaining with
  | none => s.connectTimeout
  | some left => min s.connectTimeout left

def scheduleReconnect : ClientLoop :=
  if s.client.autoReconnect then (s.setState .reconnectWait).arm (s.now+d.delay) s.group .reconnect
  else s

def close (s : ClientLoop) (a : Nat) (reason : CloseReason) : ClientLoop :=
  { s with book := s.book.close s.client.conn a reason }

def dropConn : ClientLoop := match s.client.conn with
  | none => s
  | some a => { s with
      client := { s.client with conn := none }
      book := (s.book.close s.client.conn a .localClose).destroy a }

def openConn : ClientLoop :=
  if d.built then
    { s with
      client := { s.client with conn := some s.book.born, state := .connecting }
      book := s.book.construct false s.sets
      timers := s.timers++[⟨s.now+s.connectBudget d,s.group,.connectTimeout s.book.born⟩] }
  else s.scheduleReconnect d

def connectNext (d : Dial) : List Bool → ClientLoop → ClientLoop
  | sockets, s =>
    if s.client.addrs ≤ s.client.addrIdx then (s.setState .disconnected).scheduleReconnect d
    else
      let s := s.setClient fun c => { c with addrIdx := c.addrIdx+1 }
      match sockets with
      | false::rest => connectNext d rest s
      | _ => s.dropConn.openConn d

def heAttemptDone (launch : ClientLoop → ClientLoop) (s : ClientLoop) : ClientLoop :=
  if s.client.heWon ∨ s.client.pending ≠ [] then s
  else if s.client.heNext < s.client.heAddrs then launch s
  else (s.setState .disconnected).scheduleReconnect d

def launchAttempt : ClientLoop :=
  { s with
    client := { s.client with pending := s.client.pending++[s.book.born], state := .connecting }
    book := s.book.construct true s.sets }

/-- `he_launch`: `false` is a candidate that got no socket or no memory. -/
def heLaunch (d : Dial) : List Bool → ClientLoop → ClientLoop
  | sockets, s =>
    if s.client.heWon ∨ s.client.heAddrs ≤ s.client.heNext then s
    else
      let s := s.setClient fun c => { c with heNext := c.heNext+1 }
      match sockets with
      | false::rest => heAttemptDone d (heLaunch d rest) s
      | _ => s.launchAttempt

def armStagger : ClientLoop := if s.client.heWon ∨ s.client.heAddrs ≤ s.client.heNext then s
  else s.arm (s.now+s.heStagger) (s.heGroup.getD 0) (.stagger s.sets)

/-- `he_begin` up to its first launch: the timers get a new group and the old one is forgotten. -/
def heSet : ClientLoop :=
  { s with
    client := { s.client with heWon := false, heNext := 0, heAddrs := s.client.addrs }
    groups := s.groups+1
    heGroup := some (s.groups+1)
    sets := s.sets+1
    begun := update s.begun (s.sets+1) (s.now,s.connectBudget d)
    timers := s.timers++[⟨s.now+s.connectBudget d,s.groups+1,.deadline (s.sets+1)⟩] }

def heBegin : ClientLoop := (heLaunch d d.sockets (s.heSet d)).armStagger

def beginConnect : ClientLoop :=
  if s.client.happyEyeballs ∧ 1 < s.client.addrs then
    heBegin (s.setClient fun c => { c with addrIdx := 0 }) d
  else connectNext d d.sockets (s.setClient fun c => { c with addrIdx := 0 })

def cancelHeGroup : ClientLoop := match s.heGroup with
  | none => s
  | some g => { s with timers := s.timers.filter (·.group ≠ g), heGroup := none }

def opened (a : Nat) : ClientLoop := { s.setState .connected with book := { s.book with opens := a::s.book.opens } }

def loseAll (losers : List Nat) : ClientLoop :=
  { s with
    client := { s.client with closing := s.client.closing++losers }
    book := losers.foldl (fun b l => b.close s.client.conn l .localClose) s.book }

def heWin (a : Nat) : ClientLoop :=
  if a ∈ s.client.pending then
    if s.client.heWon then s.close a .localClose
    else
      (((s.setClient fun c => { c with heWon := true, conn := some a, pending := [] }).loseAll
        (s.client.pending.erase a)).cancelHeGroup).opened a
  else s

def heTimeout : ClientLoop :=
  { s with
    client := { s.client with heNext := s.client.heAddrs }
    book := s.client.pending.foldl (fun b a => b.close s.client.conn a .connectFailed) s.book }

def afterGone (reason : CloseReason) (d : Dial) : ClientLoop :=
  if reason = .connectFailed then
    if ¬ s.client.happyEyeballs ∨ s.client.heAddrs = 0 then connectNext d d.sockets s else s
  else if s.client.state ≠ .disconnected then s.scheduleReconnect d
  else s

def onConnGone (a : Nat) (reason : CloseReason) (d : Dial) : ClientLoop :=
  if s.client.conn = some a then
    afterGone { s with client := { s.client with conn := none }, book := s.book.destroy a } reason d
  else if a ∈ s.client.pending then
    (heAttemptDone d (heLaunch d d.sockets) { s with
      client := { s.client with pending := s.client.pending.erase a }
      book := s.book.destroy a }).afterGone reason d
  else if a ∈ s.client.closing then
    afterGone { s with
      client := { s.client with closing := s.client.closing.erase a }
      book := s.book.destroy a } reason d
  else s

def ring : Alarm → ClientLoop
  | .connectTimeout a => if (s.book.conns a).state = .connecting then s.close a .connectFailed else s
  | .reconnect => s.beginConnect d
  | .stagger _ => (heLaunch d d.sockets s).armStagger
  | .deadline _ => s.heTimeout
end

/-- `start` is the call of `make_client`, `message` any call of a handler while the connection is established. -/
inductive Move
  | tick (d : Nat)
  | start (how : Owners.Resolution) (d : Dial)
  | resolved (addrs : Option Nat) (d : Dial)
  | connected (a : Nat)
  | refused (a : Nat)
  | close (a : Nat) (reason : CloseReason)
  | message (a : Nat)
  | notify (d : Dial)
  | fire (j : Nat) (d : Dial)

def start (how : Owners.Resolution) (d : Dial) : ClientLoop :=
  let s := { s with started := true, groups := s.groups+1, group := s.groups+1 }
  match how with
  | .addrs n => beginConnect (s.setClient fun c => { c with addrs := n }) d
  | .failed => s
  | .later => s.setClient fun c => { c with state := .connecting, resolving := true }

def resolved (addrs : Option Nat) (d : Dial) : ClientLoop := match addrs with
  | none => (s.setClient fun c => { c with resolving := false, state := .disconnected }).scheduleReconnect d
  | some n => beginConnect (s.setClient fun c => { c with resolving := false, addrs := n }) d

def connected (a : Nat) : ClientLoop := if (s.book.conns a).attempt then heWin { s with book := s.book.establish a } a
  else opened { s with book := s.book.establish a } a

def step : Move → Option ClientLoop
  | .tick d => some { s with now := s.now+d }
  | .start how d => if s.started then none else some (s.start how d)
  | .resolved addrs d => if s.client.resolving then some (s.resolved addrs d) else none
  | .connected a =>
    if (s.book.conns a).alive ∧ (s.book.conns a).state = .connecting then some (s.connected a)
    else none
  | .refused a =>
    if (s.book.conns a).alive ∧ (s.book.conns a).state = .connecting then
      some (s.close a .connectFailed)
    else none
  | .close a reason => if (s.book.conns a).alive then some (s.close a reason) else none
  | .message a =>
    if (s.book.conns a).alive ∧ (s.book.conns a).state = .established then
      some { s with book := { s.book with handled := a::s.book.handled } }
    else none
  | .notify d =>
    match s.book.deferred with
    | [] => none
    | (a,reason)::rest => some (onConnGone { s with book := { s.book with deferred := rest } } a reason d)
  | .fire j d =>
    match s.timers[j]? with
    | none => none
    | some t => if t.due ≤ s.now then some (ring { s with timers := s.timers.eraseIdx j } d t.alarm) else none
end ClientLoop
end AffiniX
