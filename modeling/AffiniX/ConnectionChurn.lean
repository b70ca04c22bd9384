import AffiniX.ConnectionOwners
import AffiniX.TimerRetirement

/-! What connections take from their event manager and give back: a sink, a timer group, timers, and a slot of a pool.
-/
namespace AffiniX
open Function

instance (s : Timers) (i : NodeRef) : Decidable (s.Scheduled i) :=
  inferInstanceAs (Decidable ((s.wheel.link i).isSome = true ∨ (s.node i).inHeap = true))

namespace Churn
/-- How far the close of a connection is; `active` is every state before `Closing`. -/
inductive Life
  | active
  | closing
  | closed
deriving DecidableEq

structure Conn (σ κ : Type) where
  id : Handle
  group : Handle
  idleTimer : Handle := .none
  life : Life := .active
  owner : Owner σ κ
  /-- The end of `teardown` has been reached: the owner has been told, or is going to be. -/
  told : Bool := false
deriving DecidableEq

structure Client where
  group : Handle := .none
  heGroup : Handle := .none
  conn : Option Nat := none
  pending : List Nat := []
  closing : List Nat := []
deriving DecidableEq

inductive Maker (κ : Type)
  | conn (a : Nat)
  | client (k : κ)
deriving DecidableEq
end Churn

open Churn

/-- `pool`: slots in use; `deferred`: notifications on their way; `maker` knows the `made` groups. -/
structure Churn (σ κ : Type) where
  timers : Timers
  sinks : HandleTable Nat
  objects : Nat → Option (Conn σ κ)
  born : Nat
  pool : Owner σ κ → Nat
  conns : σ → List (Handle × Nat)
  client : κ → Client
  deferred : List (Owner σ κ × Handle)
  maker : Nat → Option (Maker κ)
  made : Nat

namespace Churn
variable {σ κ : Type}

def create (timers : Timers) (sinks : HandleTable Nat) : Churn σ κ where
  timers := timers
  sinks := sinks
  objects := fun _ => none
  born := 0
  pool := fun _ => 0
  conns := fun _ => []
  client := fun _ => {}
  deferred := []
  maker := fun _ => none
  made := 0

variable (s : Churn σ κ)

def setObject (a : Nat) (c : Conn σ κ) : Churn σ κ := { s with objects := update s.objects a (some c) }

def makeTimerGroup (s : Churn σ κ) (m : Maker κ) : Churn σ κ :=
  { s with
    timers := s.timers.makeTimerGroup.2
    maker := update s.maker s.timers.makeTimerGroup.1.idx (some m)
    made := s.made+1 }

def cancelGroup (s : Churn σ κ) (g : Handle) : Churn σ κ := { s with timers := (s.timers.cancelGroup g).2 }

def hasId (id : Handle) (a : Nat) : Bool := (s.objects a).any fun c => c.id = id

def close (a : Nat) (c : Conn σ κ) : Churn σ κ :=
  (s.cancelGroup c.group).setObject a { c with life := .closing, group := .none }

/-- `arm_idle_timer`: the new timer takes the place of the one armed before. -/
def armIdleTimer (a : Nat) (c : Conn σ κ) (delay : Int64) : Churn σ κ :=
  let timers := if c.idleTimer.valid then (s.timers.cancel c.idleTimer).2 else s.timers
  let armed := timers.after delay c.group
  { s with timers := armed.2 }.setObject a { c with idleTimer := armed.1 }

/-- A one-shot timer fires: the idle timer of a connection closes it, what a client's does comes as steps of its own. -/
def fire (id : Handle) : Option (Churn σ κ) :=
  let fired (g : Option Handle) : Timers :=
    Timers.fireTimer (fun _ => Timers.cancelling g) (s.timers.unlinkTimer id.idx) id.idx
  if s.timers.timers.holds id ∧ s.timers.Scheduled id.idx then
    match (s.timers.node id.idx).groupLink.bind s.maker with
    | none => none
    | some (.client _) => some { s with timers := fired none }
    | some (.conn a) =>
      match s.objects a with
      | some c =>
        if c.life = .active then
          some ({ s with timers := fired (some c.group) }.setObject a { c with life := .closing, group := .none })
        else some { s with timers := fired none }
      | none => some { s with timers := fired none }
  else none

def bookkeeping (s : Churn σ κ) : Churn σ κ := { s with timers := s.timers.bookkeeping, sinks := s.sinks.reclaim }

variable [DecidableEq σ] [DecidableEq κ]
variable (s : Churn σ κ)

def setClient (k : κ) (f : Client → Client) : Churn σ κ := { s with client := update s.client k (f (s.client k)) }

def setConns (sv : σ) (entries : List (Handle × Nat)) : Churn σ κ := { s with conns := update s.conns sv entries }

def construct (owner : Owner σ κ) : Churn σ κ :=
  { s.makeTimerGroup (.conn s.born) with
    sinks := (s.sinks.emplace s.born).2
    objects := update s.objects s.born (some
      { id := (s.sinks.emplace s.born).1, group := s.timers.makeTimerGroup.1, owner := owner })
    born := s.born+1
    pool := update s.pool owner (s.pool owner+1) }

def destroy (a : Nat) : Churn σ κ := match s.objects a with
  | none => s
  | some c =>
    { s.cancelGroup c.group with
      objects := update s.objects a none
      pool := update s.pool c.owner (s.pool c.owner-1) }

def serverGone (sv : σ) (id : Handle) : Churn σ κ := match (s.conns sv).find? (·.1 = id) with
  | none => s
  | some found => (s.setConns sv ((s.conns sv).filter (·.1 ≠ id))).destroy found.2

/-- `TcpClient::on_conn_gone`, without the attempts that it may go on to make. -/
def clientGone (k : κ) (id : Handle) : Churn σ κ := match (s.client k).conn.filter (s.hasId id) with
  | some a => (s.setClient k fun c => { c with conn := none }).destroy a
  | none =>
    match (s.client k).pending.find? (s.hasId id) with
    | some a => (s.setClient k fun c => { c with pending := c.pending.erase a }).destroy a
    | none =>
      match (s.client k).closing.find? (s.hasId id) with
      | some a => (s.setClient k fun c => { c with closing := c.closing.erase a }).destroy a
      | none => s

def onConnGone (owner : Owner σ κ) (id : Handle) : Churn σ κ := match owner with
  | .server sv => s.serverGone sv id
  | .client k => s.clientGone k id

def heWin (k : κ) (w : Nat) : Churn σ κ :=
  (s.cancelGroup (s.client k).heGroup).setClient k fun c =>
    { c with
      heGroup := .none
      conn := some w
      pending := []
      closing := c.closing++c.pending.erase w }

inductive Move (σ κ : Type)
  | accept (sv : σ)
  | armIdleTimer (a : Nat) (delay : Int64)
  | close (a : Nat)
  | releaseSink (a : Nat)
  | notify (a : Nat) (running : Bool)
  | gone
  | startClient (k : κ)
  | connect (k : κ)
  | replace (k : κ)
  | armTimer (k : κ) (delay : Int64)
  | heBegin (k : κ)
  | heLaunch (k : κ)
  | armHeTimer (k : κ) (delay : Int64)
  | heWin (k : κ) (w : Nat)
  | fire (id : Handle)
  | bookkeeping
deriving DecidableEq

def step : Move σ κ → Option (Churn σ κ)
  | .accept sv => some ((s.construct (.server sv)).setConns sv
      ((s.sinks.nextHandle,s.born)::(s.conns sv).filter (·.1 ≠ s.sinks.nextHandle)))
  -- From `start` and `on_recv` this is also reached after a handler has closed the connection.
  | .armIdleTimer a delay => do
      let c ← s.objects a
      match c.owner with
      | .server _ => return s.armIdleTimer a c delay
      | .client _ => none
  | .close a => do
      let c ← s.objects a
      if c.life = .active then return s.close a c else none
  | .releaseSink a => do
      let c ← s.objects a
      if c.life = .closing then
        return { s with sinks := s.sinks.release c.id }.setObject a { c with life := .closed }
      else none
  | .notify a running => do
      let c ← s.objects a
      if c.life = .closed ∧ ¬ c.told then
        if running then
          return { s with deferred := s.deferred++[(c.owner,c.id)] }.setObject a { c with told := true }
        else return s.onConnGone c.owner c.id
      else none
  | .gone =>
      match s.deferred with
      | [] => none
      | (owner,id)::rest => some ({ s with deferred := rest }.onConnGone owner id)
  | .startClient k =>
      let c := s.client k
      if c.conn = none ∧ c.pending = [] ∧ c.closing = [] then
        some ((s.makeTimerGroup (.client k)).setClient k fun c => { c with group := s.timers.makeTimerGroup.1 })
      else none
  | .connect k =>
      if (s.client k).conn = none then
        some ((s.construct (.client k)).setClient k fun c => { c with conn := some s.born })
      else none
  -- `connect_next` closes the connection that is still there and then destroys it.
  | .replace k => do
      let a ← (s.client k).conn
      let c ← s.objects a
      if c.told then return (s.setClient k fun c => { c with conn := none }).destroy a else none
  | .armTimer k delay =>
      if (s.client k).group.valid then
        some { s with timers := (s.timers.after delay (s.client k).group).2 }
      else none
  | .heBegin k => some ((s.makeTimerGroup (.client k)).setClient k fun c =>
      { c with heGroup := s.timers.makeTimerGroup.1 })
  | .heLaunch k => some ((s.construct (.client k)).setClient k fun c => { c with pending := c.pending++[s.born] })
  | .armHeTimer k delay =>
      if (s.client k).heGroup.valid then
        some { s with timers := (s.timers.after delay (s.client k).heGroup).2 }
      else none
  | .heWin k w => if w ∈ (s.client k).pending then some (s.heWin k w) else none
  | .fire id => s.fire id
  | .bookkeeping => some s.bookkeeping
end Churn
end AffiniX
