import AffiniX.IndexedHeap
import AffiniX.HandleTable
import AffiniX.TimerWheel

/-! The timers of an event manager: the wheel, the heap of precise and far deadlines, the groups, and one loop
iteration, whose input is what callbacks call. -/
namespace AffiniX
open Function TimerWheel HandleTable

inductive RepeatMode
  | fixedRate
  | fixedDelay
deriving DecidableEq

structure TimerCtx where
  id : Handle
  scheduled : Int
  now : Int
  missed : Nat
deriving DecidableEq

/-- A timer node; its pointers are the wheel's `link`, the heap's `index` and the slot of its group. -/
structure TimerNode where
  expiry : Int
  expiryTick : Nat
  period : Int
  mode : RepeatMode
  groupLink : Option Nat
  group : Handle
  id : Handle
  cancelled : Bool
  inHeap : Bool
  precise : Bool
deriving DecidableEq

def TimerNode.blank : TimerNode := ⟨0,0,0,.fixedRate,none,Handle.none,Handle.none,false,false,false⟩

@[simps] def TimerNode.setInHeap (n : TimerNode) (flag : Bool) : TimerNode := {n with inHeap := flag}

def TimerNode.ungroup (n : TimerNode) : TimerNode := {n with groupLink := none}

structure TimerStats where
  armed : Nat
  fired : Nat
  coalesced : Nat
  cancelled : Nat
  groupsCancelled : Nat
deriving DecidableEq

/-- The timer state. The last three fields are for the specification: the firings, the timer whose callback runs, and
whether one was rescheduled that its firing was about to finish with. -/
structure Timers where
  now : Int
  wheel : TimerWheel
  heap : IndexedHeap NodeRef
  timers : HandleTable TimerNode
  groups : HandleTable (List NodeRef)
  dead : List Handle
  stats : TimerStats
  fired : List TimerCtx
  firing : Option Handle
  misused : Bool

inductive TimerCall
  | after (delay : Int64) (group : Handle)
  | atTime (instant : Int64) (group : Handle)
  | every (period initialDelay : Int64) (mode : RepeatMode) (group : Handle)
  | cancel (id : Handle)
  | reschedule (id : Handle) (delay : Int64)
  | makeTimerGroup
  | cancelGroup (group : Handle)
deriving DecidableEq

inductive TimerReply
  | id (handle : Handle)
  | bool (ok : Bool)
  | count (n : Nat)
deriving DecidableEq

namespace Timers
def create (tick : Int) (firstGen : Nat) (now : Int) : Timers where
  now := now
  wheel := TimerWheel.create tick
  heap := ⟨0,fun _ => 0,fun _ => IndexedHeap.absent⟩
  timers := HandleTable.create firstGen TimerNode.blank
  groups := HandleTable.create firstGen []
  dead := []
  stats := ⟨0,0,0,0,0⟩
  fired := []
  firing := none
  misused := false

def node (s : Timers) (i : NodeRef) : TimerNode := s.timers.node i

def modify (s : Timers) (i : NodeRef) (f : TimerNode → TimerNode) : Timers := {s with timers := s.timers.modify i f}

variable (s : Timers)
section
variable (i : NodeRef)

def expiryKey : Int := (s.node i).expiry

def expiryTick (s : Timers) (i : NodeRef) : Nat := (s.node i).expiryTick

def setExpiry (t : Int) : Timers := s.modify i (fun n => {n with expiry := t, expiryTick := s.wheel.tickOf t})

def heapPush : Timers := {s with timers := s.timers.modify i (·.setInHeap true), heap := s.heap.push 4 s.expiryKey i}

def heapRemove : Timers :=
  if (s.node i).inHeap then
    {s with timers := s.timers.modify i (·.setInHeap false), heap := s.heap.remove 4 s.expiryKey i}
  else s

def insertTimer : Timers := let s := s.modify i (·.setInHeap false)
  if fits (s.expiryTick i) s.wheel.nowTick && !(s.node i).precise then
    {s with wheel := s.wheel.insert s.expiryTick i}
  else s.heapPush i

def unlinkTimer : Timers := if (s.node i).inHeap then s.heapRemove i else {s with wheel := s.wheel.unlink i}

def glistUnlink : Timers := match (s.node i).groupLink with
  | some g =>
    {s with
      timers := s.timers.modify i TimerNode.ungroup
      groups := s.groups.modify g (fun members => members.erase i)}
  | none => s
end

def construct (n : TimerNode) : Timers := let i := s.timers.nextIdx
  {s with
    timers := (s.timers.emplace n).2
    wheel := {s.wheel with link := update s.wheel.link i none}
    heap := {s.heap with index := update s.heap.index i IndexedHeap.absent}}

def joinGroup (i : NodeRef) (g : Handle) : Timers :=
  if g.valid && s.groups.holds g then
    {s with
      timers := s.timers.modify i (fun n => {n with groupLink := some g.idx, group := g})
      groups := s.groups.modify g.idx (fun members => members ++ [i])}
  else s

def arm (expiry period : Int) (mode : RepeatMode) (g : Handle) (precise : Bool) : Handle × Timers :=
  let id := s.timers.nextHandle
  let s := s.construct {TimerNode.blank with
    id := id, expiry := expiry, expiryTick := s.wheel.tickOf expiry, period := period
    mode := mode, precise := precise}
  let s := (s.joinGroup id.idx g).insertTimer id.idx
  (id,{s with stats := {s.stats with armed := s.stats.armed+1}})

def after (d : Int64) (g : Handle) : Handle × Timers := s.arm (s.now + d.toInt) 0 .fixedRate g false

def atTime (t : Int64) (g : Handle) : Handle × Timers := s.arm t.toInt 0 .fixedRate g true

def every (period initialDelay : Int64) (mode : RepeatMode) (g : Handle) : Handle × Timers :=
  let d := if initialDelay ≠ 0 then initialDelay else period
  s.arm (s.now + d.toInt) period.toInt mode g false

def cancel (id : Handle) : Bool × Timers := match s.timers.get id with
  | none => (false,s)
  | some n =>
    if n.cancelled then (false,s)
    else
      let s := s.modify id.idx (fun n => {n with cancelled := true})
      let s := (s.unlinkTimer id.idx).glistUnlink id.idx
      let s := s.modify id.idx (fun n => {n with group := Handle.none})
      (true,{s with
        dead := s.dead ++ [id]
        stats := {s.stats with cancelled := s.stats.cancelled+1}})

/-- A timer that its firing has to finish with: a fired one-shot, or one inside its callback that is not queued again.
-/
def finishing (id : Handle) (n : TimerNode) : Bool :=
  decide (id ∈ s.dead) || (decide (s.firing = some id) && !(decide (n.period > 0) && decide (n.mode = .fixedRate)))

def reschedule (id : Handle) (d : Int64) : Bool × Timers := match s.timers.get id with
  | none => (false,s)
  | some n =>
    if n.cancelled then (false,s)
    else
      let s := {s with misused := s.misused || s.finishing id n}
      let s := s.unlinkTimer id.idx
      let s := s.setExpiry id.idx (s.now + d.toInt)
      (true,s.insertTimer id.idx)

def makeTimerGroup : Handle × Timers := ((s.groups.emplace []).1,{s with groups := (s.groups.emplace []).2})

def cancelMember (i : NodeRef) : Timers :=
  let s := (s.glistUnlink i).modify i (fun n => {n with group := Handle.none, cancelled := true})
  let s := s.unlinkTimer i
  {s with dead := s.dead ++ [(s.node i).id]}

/-- The loop in `cancelGroup`. A round takes the front member off the list, so the
list's length on entry bounds the rounds. -/
def cancelMembers (g : Nat) : Nat → Timers → Timers
  | 0, s => s
  | fuel+1, s =>
    match s.groups.node g with
    | [] => s
    | i::_ => cancelMembers g fuel (s.cancelMember i)

def cancelGroup (g : Handle) : Nat × Timers := match s.groups.get g with
  | none => (0,s)
  | some members =>
    let s := cancelMembers g.idx members.length s
    (members.length,{s with stats := {s.stats with
      groupsCancelled := s.stats.groupsCancelled + (if members.length ≠ 0 then 1 else 0)
      cancelled := s.stats.cancelled + members.length}})

def call : TimerCall → TimerReply × Timers
  | .after d g => (.id (s.after d g).1,(s.after d g).2)
  | .atTime t g => (.id (s.atTime t g).1,(s.atTime t g).2)
  | .every p d mode g => (.id (s.every p d mode g).1,(s.every p d mode g).2)
  | .cancel id => (.bool (s.cancel id).1,(s.cancel id).2)
  | .reschedule id d => (.bool (s.reschedule id d).1,(s.reschedule id d).2)
  | .makeTimerGroup => (.id s.makeTimerGroup.1,s.makeTimerGroup.2)
  | .cancelGroup g => (.count (s.cancelGroup g).1,(s.cancelGroup g).2)

def calls (cs : List TimerCall) : Timers := cs.foldl (fun s c => (s.call c).2) s

/-- The loop `while (next <= now_) { next += period; ++missed; }`. Every round moves
`next` by at least a nanosecond. -/
def catchUp (period now : Int) : Nat → Int → Nat → Int × Nat
  | 0, next, missed => (next,missed)
  | fuel+1, next, missed =>
    if next ≤ now then catchUp period now fuel (next + period) ((missed+1) % 2^32)
    else (next,missed)

def nextExpiry (n : TimerNode) (now : Int) : Int × Nat :=
  catchUp n.period now (now - n.expiry).toNat (n.expiry + n.period) 0

def startCallback (n : TimerNode) (missed : Nat) : Timers :=
  {s with
    stats := {s.stats with fired := s.stats.fired+1}
    fired := s.fired ++ [⟨n.id,n.expiry,s.now,missed⟩]
    firing := some n.id}

/-- The part of `fire_timer` before the callback: a fixed-rate timer is queued again. -/
def beforeCallback (i : NodeRef) : Timers := let n := s.node i
  if n.period > 0 ∧ n.mode = .fixedRate then
    let (next,missed) := nextExpiry n s.now
    let s := {s with stats := {s.stats with coalesced := s.stats.coalesced + missed}}
    ((s.setExpiry i next).insertTimer i).startCallback n missed
  else s.startCallback n 0

def retire (i : NodeRef) : Timers := let n := s.node i
  let s := s.glistUnlink i
  {s with dead := s.dead ++ [n.id]}

def afterCallback (i : NodeRef) (repeats : Bool) : Timers := let n := s.node i
  let s := if repeats && decide (n.mode = .fixedDelay) && !n.cancelled then
      (s.setExpiry i (s.now + n.period)).insertTimer i
    else s
  let s := if !repeats && !n.cancelled then s.retire i else s
  {s with firing := none}

/-- Firing a node, where the `k`th callback of the iteration makes the calls `callbacks k`. -/
def fireTimer (callbacks : Nat → List TimerCall) (s : Timers) (i : NodeRef) : Timers :=
  if (s.node i).cancelled then {s with dead := s.dead ++ [(s.node i).id]}
  else
    ((s.beforeCallback i).calls (callbacks s.fired.length)).afterCallback i (decide ((s.node i).period > 0))

def host : Host Timers where
  wheel := Timers.wheel
  setWheel := fun s w => {s with wheel := w}
  expiryTick := Timers.expiryTick

/-- The heap's `expire` loop, which need not end: `none` is a run that `fuel` rounds do not finish. -/
def heapExpire (callbacks : Nat → List TimerCall) : Nat → Timers → Option Timers
  | 0, _ => none
  | fuel+1, s =>
    if s.heap.size ≠ 0 ∧ s.expiryKey (s.heap.cell 0) ≤ s.now then
      let i := s.heap.cell 0
      heapExpire callbacks fuel (fireTimer callbacks (s.heapRemove i) i)
    else some s

def expireTimers (callbacks : Nat → List TimerCall) (fuel : Nat) (s : Timers) : Option Timers :=
  heapExpire callbacks fuel (advance host (fireTimer callbacks) (s.wheel.floorTick s.now) s)

def bookkeeping : Timers :=
  {s with
    timers := (s.dead.foldl release s.timers).reclaim
    groups := s.groups.reclaim
    dead := []}

/-- One iteration at the clock reading `reading`: the mailbox stage, the timers, and the other stages. -/
def pollOnce (fuel : Nat) (reading : Int) (early : List TimerCall)
    (callbacks : Nat → List TimerCall) (late : List TimerCall) (s : Timers) : Option Timers :=
  let s := {s with now := reading, fired := []}
  (expireTimers callbacks fuel (s.calls early)).map fun s => (s.calls late).bookkeeping
end Timers
end AffiniX
