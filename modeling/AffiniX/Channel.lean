import AffiniX.Mailbox
import AffiniX.MpscThreads
import AffiniX.SpscRing

/-! A channel attached to an event manager. Only a push that finds `drain_posted` clear posts a drain, and the drain
clears it before it looks at the ring. -/
namespace AffiniX
open Transition Option SpscRing

inductive ChannelKind
  | spsc
  | mpsc
deriving DecidableEq

inductive Job
  | drain
  | other
deriving DecidableEq

inductive Sender (α : Type*)
  | pushing (ctx : Context) (rest : List α) (n : Nat)
  | exchange (ctx : Context)
  | posting (point : Posting Job)

inductive Channel.Draining (α : Type*)
  | clear
  | batch
  | chunk (filled : List α)

/-- The rings, the flag, the mailbox and the threads; `now` is cached, `chunks` are the batches of the callback. -/
structure Channel (ι α : Type*) where
  kind : ChannelKind
  spsc : Sides α
  mpsc : MpscRing.Threads ι α
  drainPosted : Bool
  mailbox : Mailbox Job
  senders : ι → Option (Sender α)
  now : Int
  loop : Option (Channel.Draining α)
  chunks : List (List α)

namespace Channel
variable {ι α : Type*}

inductive Move (ι α : Type*)
  | send (i : ι) (call : Put α) (ctx : Context)
  | sender (i : ι) (spurious : Bool)
  | post (ctx : Context)
  | poll (now : Int)
  | take
  | drain
  | die

def create (kind : ChannelKind) (n : Nat) (blank : α) (mailbox : Mailbox Job) : Channel ι α where
  kind := kind
  spsc := .create (if kind = .spsc then n else 1) blank
  mpsc := .create (if kind = .mpsc then n else 1) blank
  drainPosted := false
  mailbox := mailbox
  senders := fun _ => none
  now := 0
  loop := none
  chunks := []

def empty (c : Channel ι α) : Prop := match c.kind with
  | .spsc => c.spsc.ring.head = c.spsc.ring.tail
  | .mpsc => c.mpsc.ring.empty = true

def accepted (c : Channel ι α) : List α := match c.kind with
  | .spsc => c.spsc.accepted
  | .mpsc => c.mpsc.values

def delivered (c : Channel ι α) : List α := match c.kind with
  | .spsc => c.spsc.handed
  | .mpsc => c.chunks.flatten

variable [DecidableEq ι]
variable (c : Channel ι α)

def setSender (i : ι) (p : Option (Sender α)) : Channel ι α := { c with senders := Function.update c.senders i p }

/-- `push` and `push_bulk` start on the ring of the channel's kind. -/
def send (i : ι) (call : Put α) (ctx : Context) : Option (Channel ι α) := match c.kind with
  | .spsc => (c.spsc.step (.put call)).map fun ring => { c with spsc := ring }.setSender i (some (.pushing ctx [] 0))
  | .mpsc =>
    match call.items with
    | [] => some c
    | v::rest => (c.mpsc.step (.push i v)).map fun ring =>
        { c with mpsc := ring }.setSender i (some (.pushing ctx rest 0))

def rings (ctx : Context) (n : Nat) : Option (Sender α) := if 0 < n then some (.exchange ctx) else none

def pushStep (i : ι) (spurious : Bool) (ctx : Context) (rest : List α) (n : Nat) : Option (Channel ι α) :=
  match c.kind with
  | .spsc =>
    match c.spsc.producer with
    | some (.returned m) => some ({ c with spsc := { c.spsc with producer := none } }.setSender i (rings ctx m))
    | _ => (c.spsc.step .producer).map fun ring => { c with spsc := ring }
  | .mpsc =>
    match c.mpsc.producers i with
    | some .pushed =>
      match rest with
      | [] => some ({ c with mpsc := c.mpsc.setProducer i none }.setSender i (rings ctx (n+1)))
      | v::rest => some ({ c with mpsc := c.mpsc.setProducer i (some (.loadPos v)) }.setSender i
          (some (.pushing ctx rest (n+1))))
    | some (.full _) => some ({ c with mpsc := c.mpsc.setProducer i none }.setSender i (rings ctx n))
    | _ => (c.mpsc.step (.producer i spurious)).map fun ring => { c with mpsc := ring }

/-- One step of a thread in `push` or `poke`. The result of the post is not looked at. -/
def senderStep (i : ι) (spurious : Bool) : Option (Channel ι α) := match c.senders i with
  | none => none
  | some (.pushing ctx rest n) => c.pushStep i spurious ctx rest n
  | some (.exchange ctx) =>
    if c.drainPosted then some (c.setSender i none)
    else some ({ c with drainPosted := true }.setSender i (some (.posting (.open' ⟨.drain,ctx⟩))))
  | some (.posting point) =>
    let next := c.mailbox.postStep point
    some ({ c with mailbox := next.1 }.setSender i (match next.2 with
      | .returned _ => none
      | point => some (.posting point)))

/-- `drain_mailbox` takes an item. One whose deadline has passed is dropped. -/
def take : Option (Channel ι α) := match c.loop, c.mailbox.dead, c.mailbox.queue with
  | none, false, item::queue =>
    let c := { c with mailbox := { c.mailbox with queue := queue } }
    if item.ctx.deadline.expired c.now then some c
    else
      match item.fn with
      | .drain => some { c with loop := some .clear }
      | .other => some c
  | _, _, _ => none

def drainStep : Option (Channel ι α) := match c.loop with
  | none => none
  | some .clear =>
    match c.kind with
    | .spsc => (c.spsc.step (.get (.drainContiguous 1024))).map fun ring =>
        { c with drainPosted := false, spsc := ring, loop := some .batch }
    | .mpsc => (c.mpsc.step .pop).map fun ring =>
        { c with drainPosted := false, mpsc := ring, loop := some (.chunk []) }
  | some .batch =>
    match c.spsc.consumer with
    | some (.returned _) => some { c with spsc := { c.spsc with consumer := none }, loop := none }
    | _ => (c.spsc.step .consumer).map fun ring => { c with spsc := ring }
  | some (.chunk filled) =>
    match c.mpsc.consumer with
    | some (.popped v) =>
      let c := { c with mpsc := { c.mpsc with consumer := some .loadSeq } }
      if (filled++[v]).length = 64 then
        some { c with chunks := c.chunks++[filled++[v]], loop := some (.chunk []) }
      else some { c with loop := some (.chunk (filled++[v])) }
    | some .none =>
      some { c with
        mpsc := { c.mpsc with consumer := none }, loop := none
        chunks := if filled = [] then c.chunks else c.chunks++[filled] }
    | _ => (c.mpsc.step .consumer).map fun ring => { c with mpsc := ring }

def step : Move ι α → Option (Channel ι α)
  | .send i call ctx =>
    match c.senders i with
    | none => c.send i call ctx
    | some _ => none
  | .sender i spurious => c.senderStep i spurious
  | .post ctx =>
    if c.mailbox.dead ∨ c.mailbox.full then some c
    else some { c with mailbox := { c.mailbox with queue := c.mailbox.queue++[⟨.other,ctx⟩] } }
  | .poll now => some { c with now := now }
  | .take => c.take
  | .drain => c.drainStep
  | .die => some { c with mailbox := { c.mailbox with dead := true } }

def Step (move : Move ι α) (c' : Channel ι α) : Prop := c.step move = some c'

inductive Turn (c : Channel ι α) : Move ι α → Channel ι α → Prop
  | startSpsc (i call ctx ring) (kind : c.kind = .spsc) (idle : c.senders i = none)
      (taken : c.spsc.Step (.put call) ring) : Turn c (.send i call ctx)
        ({ c with spsc := ring }.setSender i (some (.pushing ctx [] 0)))
  | startMpsc (i call ctx v rest ring) (kind : c.kind = .mpsc) (idle : c.senders i = none)
      (taken : c.mpsc.Step (.push i v) ring) : Turn c (.send i call ctx)
        ({ c with mpsc := ring }.setSender i (some (.pushing ctx rest 0)))
  | pushSpsc (i spurious ctx rest n ring) (kind : c.kind = .spsc)
      (at' : c.senders i = some (.pushing ctx rest n)) (taken : c.spsc.Step .producer ring)
      (busy : ∀ m, c.spsc.producer ≠ some (.returned m)) :
      Turn c (.sender i spurious) { c with spsc := ring }
  | pushedSpsc (i spurious ctx rest n m) (kind : c.kind = .spsc)
      (at' : c.senders i = some (.pushing ctx rest n)) (done : c.spsc.producer = some (.returned m)) :
      Turn c (.sender i spurious) ({ c with spsc := { c.spsc with producer := none } }.setSender i (rings ctx m))
  | pushMpsc (i spurious ctx rest n ring) (kind : c.kind = .mpsc) (at' : c.senders i = some (.pushing ctx rest n))
      (taken : c.mpsc.Step (.producer i spurious) ring) (busy : c.mpsc.producers i ≠ some .pushed) :
      Turn c (.sender i spurious) { c with mpsc := ring }
  | nextMpsc (i spurious ctx v rest n) (kind : c.kind = .mpsc)
      (at' : c.senders i = some (.pushing ctx (v::rest) n)) (done : c.mpsc.producers i = some .pushed) :
      Turn c (.sender i spurious) ({ c with
        mpsc := c.mpsc.setProducer i (some (.loadPos v)) }.setSender i (some (.pushing ctx rest (n+1))))
  | lastMpsc (i spurious ctx n) (kind : c.kind = .mpsc)
      (at' : c.senders i = some (.pushing ctx [] n)) (done : c.mpsc.producers i = some .pushed) :
      Turn c (.sender i spurious) ({ c with mpsc := c.mpsc.setProducer i none }.setSender i (rings ctx (n+1)))
  | fullMpsc (i spurious ctx rest n v) (kind : c.kind = .mpsc)
      (at' : c.senders i = some (.pushing ctx rest n)) (done : c.mpsc.producers i = some (.full v)) :
      Turn c (.sender i spurious) ({ c with mpsc := c.mpsc.setProducer i none }.setSender i (rings ctx n))
  | rung (i spurious ctx) (at' : c.senders i = some (.exchange ctx)) (posted : c.drainPosted = true) :
      Turn c (.sender i spurious) (c.setSender i none)
  | ring (i spurious ctx) (at' : c.senders i = some (.exchange ctx)) (clear : c.drainPosted = false) :
      Turn c (.sender i spurious) ({ c with drainPosted := true }.setSender i (some (.posting (.open' ⟨.drain,ctx⟩))))
  | post (i spurious point) (at' : c.senders i = some (.posting point)) :
      Turn c (.sender i spurious) ({ c with mailbox := (c.mailbox.postStep point).1 }.setSender i
        (match (c.mailbox.postStep point).2 with
        | .returned _ => none
        | point => some (.posting point)))
  | idle (move) (quiet : move ≠ .take) : Turn c move c
  | other (ctx) : Turn c (.post ctx)
      { c with mailbox := { c.mailbox with queue := c.mailbox.queue++[⟨.other,ctx⟩] } }
  | poll (now) : Turn c (.poll now) { c with now := now }
  | drop (item queue) (free : c.loop = none) (front : c.mailbox.queue = item::queue)
      (kept : item.ctx.deadline.expired c.now = true ∨ item.fn = .other) :
      Turn c .take { c with mailbox := { c.mailbox with queue := queue } }
  | run (item queue) (free : c.loop = none) (front : c.mailbox.queue = item::queue)
      (job : item.fn = .drain) : Turn c .take
        { c with mailbox := { c.mailbox with queue := queue }, loop := some .clear }
  | clearSpsc (ring) (kind : c.kind = .spsc) (at' : c.loop = some .clear)
      (taken : c.spsc.Step (.get (.drainContiguous 1024)) ring) : Turn c .drain
        { c with drainPosted := false, spsc := ring, loop := some .batch }
  | clearMpsc (ring) (kind : c.kind = .mpsc) (at' : c.loop = some .clear)
      (taken : c.mpsc.Step .pop ring) : Turn c .drain
        { c with drainPosted := false, mpsc := ring, loop := some (.chunk []) }
  | batch (ring) (at' : c.loop = some .batch) (taken : c.spsc.Step .consumer ring)
      (busy : ∀ m, c.spsc.consumer ≠ some (.returned m)) : Turn c .drain { c with spsc := ring }
  | batched (m) (at' : c.loop = some .batch) (done : c.spsc.consumer = some (.returned m)) :
      Turn c .drain { c with spsc := { c.spsc with consumer := none }, loop := none }
  | pop (filled ring) (at' : c.loop = some (.chunk filled)) (taken : c.mpsc.Step .consumer ring)
      (busy : c.mpsc.consumer ≠ some .none ∧ ∀ v, c.mpsc.consumer ≠ some (.popped v)) :
      Turn c .drain { c with mpsc := ring }
  | popped (filled v chunks filled') (at' : c.loop = some (.chunk filled)) (done : c.mpsc.consumer = some (.popped v))
      (given : chunks.flatten++filled' = c.chunks.flatten++filled++[v]) : Turn c .drain { c with
          mpsc := { c.mpsc with consumer := some .loadSeq }, chunks := chunks
          loop := some (.chunk filled') }
  | empty (filled chunks) (at' : c.loop = some (.chunk filled)) (done : c.mpsc.consumer = some .none)
      (given : chunks.flatten = c.chunks.flatten++filled) : Turn c .drain
        { c with mpsc := { c.mpsc with consumer := none }, loop := none, chunks := chunks }
  | die : Turn c .die { c with mailbox := { c.mailbox with dead := true } }

variable {c c' : Channel ι α} {i : ι}

lemma pushStep_turn {spurious : Bool} {ctx : Context} {rest : List α}
    {n : Nat} (at' : c.senders i = some (.pushing ctx rest n))
    (taken : c.pushStep i spurious ctx rest n = some c') : Turn c (.sender i spurious) c' := by
  unfold pushStep at taken
  split at taken
  next kind =>
    split at taken
    next m done =>
      cases taken
      exact .pushedSpsc i spurious ctx rest n m kind at' done
    next busy =>
    obtain ⟨ring,moved,rfl⟩ := map_eq_some_iff.1 taken
    exact .pushSpsc i spurious ctx rest n ring kind at' moved busy
  next kind =>
  split at taken
  next done =>
    split at taken
    · cases taken
      exact .lastMpsc i spurious ctx n kind at' done
    next v rest =>
    cases taken
    exact .nextMpsc i spurious ctx v rest n kind at' done
  next v done =>
    cases taken
    exact .fullMpsc i spurious ctx rest n v kind at' done
  next busy _ =>
  obtain ⟨ring,moved,rfl⟩ := map_eq_some_iff.1 taken
  exact .pushMpsc i spurious ctx rest n ring kind at' moved busy

lemma send_turn {call : Put α} {ctx : Context} (idle : c.senders i = none) (taken : c.send i call ctx = some c') :
    Turn c (.send i call ctx) c' := by
  unfold send at taken
  split at taken
  next kind =>
    obtain ⟨ring,moved,rfl⟩ := map_eq_some_iff.1 taken
    exact .startSpsc i call ctx ring kind idle moved
  next kind =>
  split at taken
  · cases taken
    exact .idle _ nofun
  obtain ⟨ring,moved,rfl⟩ := map_eq_some_iff.1 taken
  exact .startMpsc i call ctx _ _ ring kind idle moved

lemma senderStep_turn {spurious : Bool}
    (taken : c.senderStep i spurious = some c') : Turn c (.sender i spurious) c' := by
  unfold senderStep at taken
  split at taken
  · cases taken
  · exact pushStep_turn ‹_› taken
  next ctx at' =>
    split at taken
    · cases taken
      exact .rung i spurious ctx at' ‹_›
    next clear =>
    cases taken
    exact .ring i spurious ctx at' (by simpa using clear)
  next point at' =>
  cases taken
  exact .post i spurious point at'

lemma take_turn (taken : c.take = some c') : Turn c .take c' := by
  unfold take at taken
  split at taken
  next item queue free _ front =>
    simp only at taken
    split at taken
    · cases taken
      exact .drop item queue free front (.inl ‹_›)
    split at taken
    · cases taken
      exact .run item queue free front ‹_›
    cases taken
    exact .drop item queue free front (.inr ‹_›)
  · cases taken

lemma drainStep_turn (taken : c.drainStep = some c') : Turn c .drain c' := by
  unfold drainStep at taken
  split at taken
  · cases taken
  next at' =>
    split at taken
    next kind =>
      obtain ⟨ring,moved,rfl⟩ := map_eq_some_iff.1 taken
      exact .clearSpsc ring kind at' moved
    next kind =>
    obtain ⟨ring,moved,rfl⟩ := map_eq_some_iff.1 taken
    exact .clearMpsc ring kind at' moved
  next at' =>
    split at taken
    · cases taken
      exact .batched _ at' ‹_›
    next busy =>
    obtain ⟨ring,moved,rfl⟩ := map_eq_some_iff.1 taken
    exact .batch ring at' moved busy
  next filled at' =>
  split at taken
  next v done =>
    split at taken
    · cases taken
      exact .popped filled v _ [] at' done (by simp)
    cases taken
    exact .popped filled v _ _ at' done (by simp)
  next done =>
    cases taken
    refine .empty filled _ at' done ?_
    split
    next none' => rw [none',List.append_nil]
    · simp
  next popped empty =>
  obtain ⟨ring,moved,rfl⟩ := map_eq_some_iff.1 taken
  exact .pop filled ring at' moved ⟨empty,popped⟩

lemma step_turn {move : Move ι α} (taken : Step c move c') : Turn c move c' := by
  cases move with
  | send =>
    simp only [Step,step] at taken
    split at taken
    · exact send_turn ‹_› taken
    · cases taken
  | sender => exact senderStep_turn taken
  | post ctx =>
    simp only [Step,step] at taken
    split at taken
    · cases taken
      exact .idle _ nofun
    cases taken
    exact .other ctx
  | poll now =>
    cases taken
    exact .poll now
  | take => exact take_turn taken
  | drain => exact drainStep_turn taken
  | die =>
    cases taken
    exact .die
end Channel
end AffiniX
