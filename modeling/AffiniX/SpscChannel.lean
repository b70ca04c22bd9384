import AffiniX.ChannelFlag
import AffiniX.SpscFifo

/-! Whether items can be left in the ring of one producer. -/
namespace AffiniX
open Transition WrapCounter
namespace SpscRing
def Getting.looking : Getting → Bool
  | .loadHead _ | .loadTail _ _ => true
  | _ => false

def Getting.call : Getting → Option Get
  | .loadHead call | .loadTail call _ | .read call _ _ _ => some call
  | .returned _ => none

namespace Sides
variable {α : Type*} {n : Nat} {s t : Sides α}

def seen (s : Sides α) : Nat :=
  s.released+match s.consumer with
    | some (.read _ _ m _) => m.toNat
    | _ => 0

def whole (s : Sides α) (limit : Size) (h : Size) : Prop :=
  s.ring.tail-h ≤ s.ring.cap-s.ring.index h ∧ s.ring.tail-h ≤ limit

instance (limit h : Size) : Decidable (s.whole limit h) := instDecidableAnd

lemma Sound.avail (sound : s.Sound n) (small : n < 64) {call : Get} {h : Size}
    (at' : s.consumer = some (.loadTail call h)) : (s.ring.tail-h).toNat = s.accepted.length-s.released := by
  have gets := sound.gets
  rw [at'] at gets
  have span := sound.span
  have fits := pow_lt_word small
  rw [gets.1,← sound.head,sound.held,word_toNat (by omega)]

lemma Sound.consumer_seen (sound : s.Sound n) (small : n < 64) {limit : Size}
    (calls : ∀ p call, s.consumer = some p → p.call = some call → call = .drainContiguous limit)
    (taken : s.Step .consumer t) (busy : ∀ m, s.consumer ≠ some (.returned m)) :
    (∃ p, t.consumer = some p ∧ p.looking) ∨ t.seen = s.seen ∧ s.consumer.all (!·.looking) ∨
    ∃ call h, s.consumer = some (.loadTail call h) ∧ (s.whole limit h → t.seen = s.accepted.length) := by
  have order := sound.order
  cases step_turn taken with
  | loadHead => exact .inl ⟨_,rfl,rfl⟩
  | empty _ h at' level =>
    have avail := sound.avail small at'
    rw [level] at avail
    refine .inr (.inr ⟨_,h,at',fun _ => ?_⟩)
    change s.released+0 = s.accepted.length
    change 0 = _ at avail
    omega
  | drain _ _ _ at' => cases calls _ _ at' rfl
  | drainContiguous _ h m at' _ _ whole =>
    cases calls _ _ at' rfl
    refine .inr (.inr ⟨_,h,at',fun covers => ?_⟩)
    have exact' := congrArg BitVec.toNat (whole covers.1 covers.2)
    rw [sound.avail small at'] at exact'
    change s.released+m.toNat = s.accepted.length
    omega
  | read _ _ _ _ at' =>
    refine .inr (.inl ⟨?_,?_⟩)
    · unfold seen
      rw [at']
    rw [at']
    rfl
  | release _ _ _ _ at' =>
    refine .inr (.inl ⟨?_,?_⟩)
    · unfold seen
      rw [at']
      rfl
    rw [at']
    rfl
  | leave m at' => exact absurd at' (busy m)

lemma producer_accepted (taken : s.Step .producer t) : t.consumer = s.consumer ∧ t.released = s.released ∧
    (t.accepted = s.accepted ∨ ∃ m, 0 < m ∧ t.producer = some (.returned m)) := by
  cases step_turn taken with
  | publish _ m =>
    refine ⟨rfl,rfl,?_⟩
    by_cases none' : m = 0
    · subst none'
      exact .inl (List.append_nil _)
    · exact .inr ⟨m,Nat.pos_of_ne_zero none',rfl⟩
  | _ => exact ⟨rfl,rfl,.inl rfl⟩

lemma consumer_accepted (taken : s.Step .consumer t) : t.accepted = s.accepted ∧ t.producer = s.producer ∧
    ∀ p call, t.consumer = some p → p.call = some call → ∃ q, s.consumer = some q ∧ q.call = some call := by
  cases step_turn taken with
  | loadHead call at' | drain max h m at' | drainContiguous max h m at' | read call h m i at' =>
    refine ⟨rfl,rfl,?_⟩
    rintro p call' ⟨⟩ ⟨⟩
    exact ⟨_,at',rfl⟩
  | empty | release =>
    refine ⟨rfl,rfl,?_⟩
    rintro p call' ⟨⟩ ⟨⟩
  | leave => exact ⟨rfl,rfl,nofun⟩
end Sides
end SpscRing
namespace Channel
variable {ι α : Type*} {c t : Channel ι α} {n : Nat} {i : ι}
variable {ctx : Context} {rest : List α} {k : Nat} {ring : SpscRing.Sides α}

lemma ringing_returned {m : Nat} (kind : c.kind = .spsc) (at' : c.senders i = some (.pushing ctx rest k))
    (done : c.spsc.producer = some (.returned m)) (some' : 0 < m) : c.ringing i = true := by
  unfold ringing
  rw [at',kind,done]
  exact decide_eq_true some'

lemma ringing_spsc (kind : c.kind = .spsc) (rings : c.ringing i = true) : (∃ ctx, c.senders i = some (.exchange ctx)) ∨
    ∃ m, 0 < m ∧ c.spsc.producer = some (.returned m) ∧ ∃ ctx rest k, c.senders i = some (.pushing ctx rest k) := by
  unfold ringing at rings
  split at rings
  · exact .inl ⟨_,‹_›⟩
  · rw [kind] at rings
    simp only at rings
    split at rings
    · exact .inr ⟨_,of_decide_eq_true rings,‹_›,_,_,_,‹_›⟩
    · cases rings
  · cases rings

/-- Nothing accepted is out of sight, unless a push still rings, a drain is asked for or one is about to look. -/
structure Spsc (n : Nat) (c : Channel ι α) : Prop where
  kind : c.kind = .spsc
  sound : c.spsc.Sound n
  loop : ∀ filled, c.loop ≠ some (.chunk filled)
  idle : c.loop ≠ some .batch → c.spsc.consumer = none
  calls : ∀ p call, c.spsc.consumer = some p → p.call = some call → call = .drainContiguous 1024
  due : c.spsc.seen = c.spsc.accepted.length ∨ (∃ i, c.ringing i = true) ∨ c.drainPosted = true ∨
    ∃ p, c.spsc.consumer = some p ∧ p.looking = true

section
variable (inv : c.Spsc n)
include inv

lemma Spsc.frame (kind : t.kind = c.kind) (spsc : t.spsc = c.spsc)
    (loop : t.loop = c.loop ∨ c.loop = none ∧ t.loop = some .clear)
    (flag : c.drainPosted = true → t.drainPosted = true)
    (kept : ∀ i, c.ringing i = true → t.drainPosted = true ∨ t.ringing i = true) : t.Spsc n := by
  refine ⟨kind.trans inv.kind,spsc ▸ inv.sound,?_,?_,?_,?_⟩
  · rcases loop with same | ⟨_,clear⟩
    · rw [same]
      exact inv.loop
    rw [clear]
    exact nofun
  · intro free
    rw [spsc]
    rcases loop with same | ⟨before,_⟩
    · exact inv.idle (same ▸ free)
    · exact inv.idle (before ▸ nofun)
  · rw [spsc]
    exact inv.calls
  rw [spsc]
  rcases inv.due with level | ⟨i,rings⟩ | posted | looking
  · exact .inl level
  · rcases kept i rings with posted | rings
    · exact .inr (.inr (.inl posted))
    · exact .inr (.inl ⟨i,rings⟩)
  · exact .inr (.inr (.inl (flag posted)))
  · exact .inr (.inr (.inr looking))

lemma Spsc.push (small : n < 64) (at' : c.senders i = some (.pushing ctx rest k)) (taken : c.spsc.Step .producer ring)
    (busy : ∀ m, c.spsc.producer ≠ some (.returned m)) : Spsc n { c with spsc := ring } := by
  have sound := SpscRing.Sides.step_sound small taken inv.sound
  obtain ⟨consumer,released,accepted⟩ := SpscRing.Sides.producer_accepted taken
  have seen : ring.seen = c.spsc.seen := by
    unfold SpscRing.Sides.seen
    rw [consumer,released]
  refine ⟨inv.kind,sound,inv.loop,?_,?_,?_⟩
  · exact fun free => consumer.trans (inv.idle free)
  · exact fun p call there => inv.calls p call (consumer ▸ there)
  change ring.seen = ring.accepted.length ∨ _
  rcases accepted with same | ⟨m,some',returned⟩
  · rcases inv.due with level | ⟨j,rings⟩ | posted | ⟨p,there,looking⟩
    · exact .inl (by rw [seen,same,level])
    · rcases ringing_spsc inv.kind rings with ⟨ctx',there⟩ | ⟨m,_,done,_⟩
      · exact .inr (.inl ⟨j,ringing_exchange there⟩)
      · exact absurd done (busy m)
    · exact .inr (.inr (.inl posted))
    · exact .inr (.inr (.inr ⟨p,consumer.trans there,looking⟩))
  · exact .inr (.inl ⟨i,ringing_returned inv.kind at' returned some'⟩)

lemma Spsc.clear (small : n < 64) (taken : c.spsc.Step (.get (.drainContiguous 1024)) ring) :
    Spsc n { c with drainPosted := false, spsc := ring, loop := some .batch } := by
  have sound := SpscRing.Sides.step_sound small taken inv.sound
  cases SpscRing.Sides.step_turn taken with
  | ask _ free =>
    refine ⟨inv.kind,sound,nofun,fun free => absurd rfl free,?_,.inr (.inr (.inr ⟨_,rfl,rfl⟩))⟩
    rintro p call ⟨⟩ ⟨⟩
    rfl

lemma Spsc.batch (small : n < 64) (at' : c.loop = some .batch) (taken : c.spsc.Step .consumer ring)
    (busy : ∀ m, c.spsc.consumer ≠ some (.returned m))
    (whole : ∀ call h, c.spsc.consumer = some (.loadTail call h) →
    c.spsc.whole 1024 h ∨ c.drainPosted = true ∨ ∃ i, c.ringing i = true) :
    Spsc n { c with spsc := ring } := by
  have sound := SpscRing.Sides.step_sound small taken inv.sound
  obtain ⟨accepted,producer,calls⟩ := SpscRing.Sides.consumer_accepted taken
  have rings (j : ι) (before : c.ringing j = true) : ringing { c with spsc := ring } j = true :=
    (ringing_congr (c := c) (t := { c with spsc := ring }) rfl rfl producer rfl).trans before
  refine ⟨inv.kind,sound,inv.loop,fun free => absurd at' free,?_,?_⟩
  · intro p call there called
    obtain ⟨q,here,same⟩ := calls p call there called
    exact inv.calls q call here same
  change ring.seen = ring.accepted.length ∨ _
  rw [accepted]
  rcases inv.sound.consumer_seen small inv.calls taken busy with
    looking | ⟨seen,blind⟩ | ⟨call,h,here,all⟩
  · exact .inr (.inr (.inr looking))
  · rcases inv.due with level | ⟨j,before⟩ | posted | ⟨p,there,looking⟩
    · exact .inl (seen.trans level)
    · exact .inr (.inl ⟨j,rings j before⟩)
    · exact .inr (.inr (.inl posted))
    rw [there] at blind
    simp [looking] at blind
  rcases whole call h here with covers | posted | ⟨j,before⟩
  · exact .inl (all covers)
  · exact .inr (.inr (.inl posted))
  · exact .inr (.inl ⟨j,rings j before⟩)

lemma Spsc.batched {m : Size} (done : c.spsc.consumer = some (.returned m)) :
    Spsc n { c with spsc := { c.spsc with consumer := none }, loop := none } := by
  have gets := inv.sound.gets
  rw [done] at gets
  refine ⟨inv.kind,inv.sound.getting none gets,nofun,fun _ => rfl,nofun,?_⟩
  rcases inv.due with level | ⟨j,before⟩ | posted | ⟨p,there,looking⟩
  · refine .inl ?_
    unfold SpscRing.Sides.seen at level
    rw [done] at level
    exact level
  · exact .inr (.inl ⟨j,(ringing_congr rfl rfl rfl rfl).trans before⟩)
  · exact .inr (.inr (.inl posted))
  rw [done] at there
  cases there
  cases looking
end

def Whole (c : Channel ι α) : Prop := match c.spsc.consumer with
  | some (.loadTail _ h) => c.spsc.whole 1024 h ∨ c.drainPosted = true ∨ ∃ i, c.ringing i = true
  | _ => True

variable [DecidableEq ι]

lemma Spsc.start (inv : c.Spsc n) (small : n < 64) {call : SpscRing.Put α}
    (idle : c.senders i = none) (taken : c.spsc.Step (.put call) ring) :
    Spsc n ({ c with spsc := ring }.setSender i (some (.pushing ctx [] 0))) := by
  have sound := SpscRing.Sides.step_sound small taken inv.sound
  cases SpscRing.Sides.step_turn taken with
  | call _ free =>
    refine ⟨inv.kind,sound,inv.loop,inv.idle,inv.calls,?_⟩
    rcases inv.due with level | ⟨j,rings⟩ | posted | looking
    · exact .inl level
    · rcases ringing_spsc inv.kind rings with ⟨ctx',there⟩ | ⟨m,_,done,_⟩
      · have other : j ≠ i := by
          rintro rfl
          rw [idle] at there
          cases there
        exact .inr (.inl ⟨j,ringing_exchange ((setSender_other other).trans there)⟩)
      rw [free] at done
      cases done
    · exact .inr (.inr (.inl posted))
    · exact .inr (.inr (.inr looking))

lemma Spsc.pushed (inv : c.Spsc n) {m : Nat}
    (at' : c.senders i = some (.pushing ctx rest k)) (done : c.spsc.producer = some (.returned m)) :
    Spsc n ({ c with spsc := { c.spsc with producer := none } }.setSender i (rings ctx m)) := by
  refine ⟨inv.kind,inv.sound.putting none trivial,inv.loop,inv.idle,inv.calls,?_⟩
  rcases inv.due with level | ⟨j,rings⟩ | posted | looking
  · exact .inl level
  · rcases ringing_spsc inv.kind rings with ⟨ctx',there⟩ | ⟨m',some',done',_⟩
    · have other : j ≠ i := by
        rintro rfl
        rw [at'] at there
        cases there
      exact .inr (.inl ⟨j,ringing_exchange ((setSender_other other).trans there)⟩)
    rw [done] at done'
    cases done'
    exact .inr (.inl ⟨i,ringing_of_rings some'⟩)
  · exact .inr (.inr (.inl posted))
  · exact .inr (.inr (.inr looking))

lemma step_spsc (small : n < 64) {move : Move ι α} (taken : Step c move t)
    (whole : move = .drain → c.Whole) (inv : c.Spsc n) : t.Spsc n := by
  have wrong (other : c.kind = .mpsc) : t.Spsc n := absurd (inv.kind.symm.trans other) (by decide)
  cases step_turn taken with
  | startSpsc _ _ _ _ _ idle moved => exact inv.start small idle moved
  | startMpsc i call ctx v rest ring kind | pushMpsc i spurious ctx rest k ring kind
  | nextMpsc i spurious ctx v rest k kind | lastMpsc i spurious ctx k kind
  | fullMpsc i spurious ctx rest k v kind | clearMpsc ring kind => exact wrong kind
  | pushSpsc _ _ _ _ _ _ _ at' moved busy => exact inv.push small at' moved busy
  | pushedSpsc _ _ _ _ _ _ _ at' done => exact inv.pushed at' done
  | rung _ _ _ _ posted => exact inv.frame rfl rfl (.inl rfl) id fun _ _ => .inl posted
  | ring => exact inv.frame rfl rfl (.inl rfl) (fun _ => rfl) fun _ _ => .inl rfl
  | post i _ _ at' =>
    refine inv.frame rfl rfl (.inl rfl) id fun j rings => .inr ?_
    have other : j ≠ i := by
      rintro rfl
      rw [ringing,at'] at rings
      cases rings
    rw [ringing_congr]
    · exact rings
    · rfl
    · exact setSender_other other
    · rfl
    · rfl
  | idle => exact inv
  | other | poll | drop | die => exact inv.frame rfl rfl (.inl rfl) id fun _ rings => .inr rings
  | run _ _ free => exact inv.frame rfl rfl (.inr ⟨free,rfl⟩) id fun _ rings => .inr rings
  | clearSpsc _ _ _ moved => exact inv.clear small moved
  | batch _ at' moved busy =>
    refine inv.batch small at' moved busy fun call h looking => ?_
    have whole := whole rfl
    unfold Whole at whole
    rwa [looking] at whole
  | batched _ _ done => exact inv.batched done
  | pop filled ring at' | popped filled v chunks filled' at' | empty filled chunks at' =>
    exact absurd at' (inv.loop filled)
end Channel
end AffiniX
