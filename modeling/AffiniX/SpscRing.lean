import AffiniX.BoundedFifo
import AffiniX.MpscRing
import AffiniX.WrapCounter

/-! The ring of one producer and one consumer, at the granularity of its atomic loads and
stores and of the single cells that are written and read between them. -/
namespace AffiniX
open Function List

structure SpscRing (α : Type*) where
  cap : Size
  buf : Size → α
  head : Size
  tail : Size

namespace SpscRing
open Transition
variable {α : Type*}

def create (cap : Size) (blank : α) : SpscRing α := ⟨cap,fun _ => blank,0,0⟩

variable (r : SpscRing α)

def mask : Size := r.cap-1

def index (pos : Size) : Size := pos &&& r.mask

inductive Put (α : Type*)
  | tryPushOne (v : α)
  | tryPushBulk (vs : List α)

def Put.items : Put α → List α
  | .tryPushOne v => [v]
  | .tryPushBulk vs => vs

/-- Where the producer is in a push. `write` has stored the first `i` of `n` items; with all
of them stored, its step is the store of the tail. -/
inductive Putting (α : Type*)
  | loadTail (call : Put α)
  | loadHead (call : Put α) (t : Size)
  | write (call : Put α) (n : Nat) (t : Size) (i : Nat)
  | returned (n : Nat)

def putStep : Putting α → SpscRing α × Putting α
  | .loadTail call => (r,.loadHead call r.tail)
  | .loadHead (.tryPushOne v) t => if r.cap ≤ t-r.head then (r,.returned 0) else (r,.write (.tryPushOne v) 1 t 0)
  | .loadHead (.tryPushBulk vs) t =>
    let room := (r.cap-(t-r.head)).toNat
    (r,.write (.tryPushBulk vs) (if vs.length < room then vs.length else room) t 0)
  | .write call n t i =>
    match (call.items.take n)[i]? with
    | some v => ({ r with buf := update r.buf (r.index (t+word i)) v },.write call n t (i+1))
    | none => ({ r with tail := t+word n },.returned n)
  | .returned n => (r,.returned n)

inductive Get
  | drain (max : Size)
  | drainContiguous (max : Size)

def cell (h : Size) (i : Nat) : Get → Size
  | .drain _ => r.index (h+word i)
  | .drainContiguous _ => r.index h+word i

/-- `read` has handed out the first `i` of `n` items; with all of them out, its step is the store of the head. -/
inductive Getting
  | loadHead (call : Get)
  | loadTail (call : Get) (h : Size)
  | read (call : Get) (h n : Size) (i : Nat)
  | returned (n : Size)

def getStep : Getting → SpscRing α × Getting
  | .loadHead call => (r,.loadTail call r.head)
  | .loadTail (.drain max) h =>
    let avail := r.tail-h
    (r,.read (.drain max) h (if avail < max then avail else max) 0)
  | .loadTail (.drainContiguous max) h =>
    let avail := r.tail-h
    if avail = 0 then (r,.returned 0)
    else
      let contiguous := r.cap-r.index h
      let n := if avail < contiguous then avail else contiguous
      (r,.read (.drainContiguous max) h (if max < n then max else n) 0)
  | .read call h n i => if i < n.toNat then (r,.read call h n (i+1)) else ({ r with head := h+n },.returned n)
  | .returned n => (r,.returned n)

/-- `accepted`: items of returned pushes; `handed`: those the consumer got, the first `released` of them in batches that
are over. -/
structure Sides (α : Type*) where
  ring : SpscRing α
  producer : Option (Putting α)
  consumer : Option Getting
  accepted : List α
  handed : List α
  released : Nat

inductive Move (α : Type*)
  | put (call : Put α)
  | producer
  | get (call : Get)
  | consumer

namespace Sides
def create (n : Nat) (blank : α) : Sides α where
  ring := .create (word (2^n)) blank
  producer := none
  consumer := none
  accepted := []
  handed := []
  released := 0

def published : Putting α → Putting α → List α
  | .write call _ _ _, .returned n => call.items.take n
  | _, _ => []

def given (r : SpscRing α) : Getting → Getting → List α
  | .read call h _ i, .read _ _ _ _ => [r.buf (r.cell h i call)]
  | _, _ => []

def freed : Getting → Getting → Nat
  | .read _ _ n _, .returned _ => n.toNat
  | _, _ => 0

def step (s : Sides α) : Move α → Option (Sides α)
  | .put call =>
    match s.producer with
    | none => some { s with producer := some (.loadTail call) }
    | some _ => none
  | .producer =>
    match s.producer with
    | none => none
    | some (.returned _) => some { s with producer := none }
    | some p =>
      let next := s.ring.putStep p
      some { s with
        ring := next.1, producer := some next.2, accepted := s.accepted++published p next.2 }
  | .get call =>
    match s.consumer with
    | none => some { s with consumer := some (.loadHead call) }
    | some _ => none
  | .consumer =>
    match s.consumer with
    | none => none
    | some (.returned _) => some { s with consumer := none }
    | some p =>
      let next := s.ring.getStep p
      some { s with
        ring := next.1, consumer := some next.2, handed := s.handed++given s.ring p next.2
        released := s.released+freed p next.2 }

def Step (s : Sides α) (move : Move α) (s' : Sides α) : Prop := s.step move = some s'

inductive Turn (s : Sides α) : Move α → Sides α → Prop
  | call (call : Put α) (idle : s.producer = none) : Turn s (.put call) { s with producer := some (.loadTail call) }
  | loadTail (call : Put α) (at' : s.producer = some (.loadTail call)) :
      Turn s .producer { s with producer := some (.loadHead call s.ring.tail) }
  | full (v : α) (t : Size) (at' : s.producer = some (.loadHead (.tryPushOne v) t)) :
      Turn s .producer { s with producer := some (.returned 0) }
  | one (v : α) (t : Size) (at' : s.producer = some (.loadHead (.tryPushOne v) t))
      (room : t-s.ring.head < s.ring.cap) :
      Turn s .producer { s with producer := some (.write (.tryPushOne v) 1 t 0) }
  | bulk (vs : List α) (t : Size) (n : Nat) (at' : s.producer = some (.loadHead (.tryPushBulk vs) t))
      (short : n ≤ vs.length) (room : n ≤ (s.ring.cap-(t-s.ring.head)).toNat) :
      Turn s .producer { s with producer := some (.write (.tryPushBulk vs) n t 0) }
  | write (call : Put α) (n : Nat) (t : Size) (i : Nat) (v : α)
      (at' : s.producer = some (.write call n t i)) (item : (call.items.take n)[i]? = some v) :
      Turn s .producer { s with
        ring := { s.ring with buf := update s.ring.buf (s.ring.index (t+word i)) v }
        producer := some (.write call n t (i+1)) }
  | publish (call : Put α) (n : Nat) (t : Size) (i : Nat)
      (at' : s.producer = some (.write call n t i)) (whole : (call.items.take n).length ≤ i) :
      Turn s .producer { s with
        ring := { s.ring with tail := t+word n }
        producer := some (.returned n), accepted := s.accepted++call.items.take n }
  | finish (n : Nat) (at' : s.producer = some (.returned n)) : Turn s .producer { s with producer := none }
  | ask (call : Get) (idle : s.consumer = none) : Turn s (.get call) { s with consumer := some (.loadHead call) }
  | loadHead (call : Get) (at' : s.consumer = some (.loadHead call)) :
      Turn s .consumer { s with consumer := some (.loadTail call s.ring.head) }
  | empty (max h : Size) (at' : s.consumer = some (.loadTail (.drainContiguous max) h)) (level : s.ring.tail-h = 0) :
      Turn s .consumer { s with consumer := some (.returned 0) }
  | drain (max h n : Size) (at' : s.consumer = some (.loadTail (.drain max) h)) (avail : n ≤ s.ring.tail-h) :
      Turn s .consumer { s with consumer := some (.read (.drain max) h n 0) }
  | drainContiguous (max h n : Size) (at' : s.consumer = some (.loadTail (.drainContiguous max) h))
      (avail : n ≤ s.ring.tail-h) (contiguous : n ≤ s.ring.cap-s.ring.index h)
      (whole : s.ring.tail-h ≤ s.ring.cap-s.ring.index h → s.ring.tail-h ≤ max → n = s.ring.tail-h) :
      Turn s .consumer { s with consumer := some (.read (.drainContiguous max) h n 0) }
  | read (call : Get) (h n : Size) (i : Nat) (at' : s.consumer = some (.read call h n i)) (more : i < n.toNat) :
      Turn s .consumer { s with
        consumer := some (.read call h n (i+1))
        handed := s.handed++[s.ring.buf (s.ring.cell h i call)] }
  | release (call : Get) (h n : Size) (i : Nat) (at' : s.consumer = some (.read call h n i)) (done : n.toNat ≤ i) :
      Turn s .consumer { s with
        ring := { s.ring with head := h+n }
        consumer := some (.returned n), released := s.released+n.toNat }
  | leave (n : Size) (at' : s.consumer = some (.returned n)) : Turn s .consumer { s with consumer := none }

lemma step_turn {s s' : Sides α} {move : Move α} (taken : Step s move s') : Turn s move s' := by
  unfold Step at taken
  cases move with
  | put call =>
    simp only [step] at taken
    split at taken
    · cases taken
      exact .call call ‹_›
    · cases taken
  | producer =>
    simp only [step] at taken
    cases at' : s.producer with
    | none => simp [at'] at taken
    | some p =>
      rw [at'] at taken
      cases p with
      | returned n =>
        cases taken
        exact .finish n at'
      | loadTail call =>
        simp only [putStep,published,append_nil] at taken
        cases taken
        exact .loadTail call at'
      | loadHead call t =>
        cases call with
        | tryPushOne v =>
          simp only [putStep] at taken
          split at taken
          · simp only [published,append_nil] at taken
            cases taken
            exact .full v t at'
          next room =>
          simp only [published,append_nil] at taken
          cases taken
          exact .one v t at' (BitVec.not_le.1 room)
        | tryPushBulk vs =>
          simp only [putStep,published,append_nil] at taken
          cases taken
          refine .bulk vs t _ at' ?_ ?_ <;> split <;> omega
      | write call n t i =>
        simp only [putStep] at taken
        split at taken
        next v item =>
          simp only [published,append_nil] at taken
          cases taken
          exact .write call n t i v at' item
        next item =>
        cases taken
        exact .publish call n t i at' (getElem?_eq_none_iff.1 item)
  | get call =>
    simp only [step] at taken
    split at taken
    · cases taken
      exact .ask call ‹_›
    · cases taken
  | consumer =>
    simp only [step] at taken
    cases at' : s.consumer with
    | none => simp [at'] at taken
    | some p =>
      rw [at'] at taken
      cases p with
      | returned n =>
        cases taken
        exact .leave n at'
      | loadHead call =>
        simp only [getStep,given,freed,append_nil,Nat.add_zero] at taken
        cases taken
        exact .loadHead call at'
      | loadTail call h =>
        cases call with
        | drain max =>
          simp only [getStep,given,freed,append_nil,Nat.add_zero] at taken
          cases taken
          refine .drain max h _ at' ?_
          split
          · exact BitVec.le_refl _
          · exact BitVec.not_lt.1 ‹_›
        | drainContiguous max =>
          simp only [getStep] at taken
          split at taken
          next level =>
            simp only [given,freed,append_nil,Nat.add_zero] at taken
            cases taken
            exact .empty max h at' level
          · simp only [given,freed,append_nil,Nat.add_zero] at taken
            cases taken
            refine .drainContiguous max h _ at' ?_ ?_ ?_ <;> simp only [BitVec.le_def,BitVec.lt_def]
            · split <;> split <;> omega
            · split <;> split <;> omega
            intro _ _
            apply BitVec.eq_of_toNat_eq
            split <;> split <;> omega
      | read call h n i =>
        simp only [getStep] at taken
        split at taken
        next more =>
          simp only [given,freed,Nat.add_zero] at taken
          cases taken
          exact .read call h n i at' more
        next done =>
        simp only [given,freed,append_nil] at taken
        cases taken
        exact .release call h n i at' (Nat.le_of_not_lt done)
end Sides
end SpscRing
end AffiniX
