import AffiniX.ChannelFlag
import AffiniX.MpscSound

/-! Whether items can be left in the ring of many producers. -/
namespace AffiniX.Channel
open Transition WrapCounter MpscRing Threads
variable {ι α : Type*} {c t : Channel ι α} {n : Nat} {i : ι}
variable {ctx : Context} {filled rest : List α} {k : Nat} {p : Option (Sender α)}
  {ring : MpscRing.Threads ι α} {v : α}

lemma ringing_pushing (kind : c.kind = .mpsc) (at' : c.senders i = some (.pushing ctx rest k))
    (stocked : 0 < k ∨ c.mpsc.producers i = some .pushed) : c.ringing i = true := by
  unfold ringing
  rw [at',kind]
  rcases stocked with some' | pushed
  · simp [some']
  · simp [pushed]

lemma ringing_mpsc (kind : c.kind = .mpsc) (rings : c.ringing i = true) : (∃ ctx, c.senders i = some (.exchange ctx))
    ∨ ∃ ctx rest k, c.senders i = some (.pushing ctx rest k) ∧ (0 < k ∨ c.mpsc.producers i = some .pushed) := by
  unfold ringing at rings
  split at rings
  · exact .inl ⟨_,‹_›⟩
  · rw [kind] at rings
    simp only [Bool.or_eq_true,decide_eq_true_eq] at rings
    refine .inr ⟨_,_,_,‹_›,rings.imp_right fun pushed => ?_⟩
    split at pushed
    · assumption
    · cases pushed
  · cases rings

variable [DecidableEq ι]

def inChunk (c : Channel ι α) : List α := match c.loop with
  | some (.chunk filled) => filled++c.mpsc.inHand
  | _ => []

def Popping (c : Channel ι α) : Prop := ∃ filled, c.loop = some (.chunk filled) ∧ c.mpsc.consumer ≠ some .none

structure Mpsc (n : Nat) (c : Channel ι α) : Prop where
  kind : c.kind = .mpsc
  sound : c.mpsc.Sound n
  loop : c.loop ≠ some .batch
  idle : (∀ filled, c.loop ≠ some (.chunk filled)) → c.mpsc.consumer = none
  busy : ∀ i, c.mpsc.producers i ≠ none → ∃ ctx rest k, c.senders i = some (.pushing ctx rest k)
  given : c.mpsc.past.popped = c.chunks.flatten++c.inChunk
  due : c.mpsc.past.published c.mpsc.past.released = true → (∃ i, c.ringing i = true) ∨ c.drainPosted = true ∨ c.Popping

lemma Mpsc.frame (inv : c.Mpsc n) (kind : t.kind = c.kind) (mpsc : t.mpsc = c.mpsc)
    (chunks : t.chunks = c.chunks) (loop : t.loop = c.loop ∨ c.loop = none ∧ t.loop = some .clear)
    (flag : c.drainPosted = true → t.drainPosted = true)
    (busy : ∀ i ctx rest k, c.senders i = some (.pushing ctx rest k) → t.senders i = some (.pushing ctx rest k))
    (kept : ∀ i, c.ringing i = true → t.drainPosted = true ∨ t.ringing i = true) : t.Mpsc n := by
  refine ⟨kind.trans inv.kind,mpsc ▸ inv.sound,?_,?_,?_,?_,?_⟩
  · rcases loop with same | ⟨_,clear⟩
    · rw [same]
      exact inv.loop
    rw [clear]
    exact nofun
  · intro free
    rw [mpsc]
    rcases loop with same | ⟨before,_⟩
    · exact inv.idle (same ▸ free)
    · exact inv.idle (before ▸ nofun)
  · intro i there
    rw [mpsc] at there
    obtain ⟨ctx,rest,k,at'⟩ := inv.busy i there
    exact ⟨ctx,rest,k,busy i ctx rest k at'⟩
  · rw [mpsc,chunks,inv.given]
    unfold inChunk
    rcases loop with same | ⟨before,clear⟩
    · rw [same,mpsc]
    · rw [before,clear]
  rw [mpsc]
  intro published
  rcases inv.due published with ⟨i,rings⟩ | posted | ⟨filled,chunk,popping⟩
  · exact (kept i rings).elim (fun posted => .inr (.inl posted)) fun rings => .inl ⟨i,rings⟩
  · exact .inr (.inl (flag posted))
  refine .inr (.inr ⟨filled,?_,mpsc ▸ popping⟩)
  rcases loop with same | ⟨before,_⟩
  · exact same.trans chunk
  rw [before] at chunk
  cases chunk

lemma setSender_pushing {q : Option (Sender α)} (at' : c.senders i = q)
    (before : ∀ ctx rest k, q ≠ some (.pushing ctx rest k)) (j : ι) (ctx : Context) (rest : List α)
    (k : Nat) (there : c.senders j = some (.pushing ctx rest k)) :
    (c.setSender i p).senders j = some (.pushing ctx rest k) := by
  have other : j ≠ i := by
    rintro rfl
    exact before ctx rest k (at'.symm.trans there)
  exact (setSender_other other).trans there

section
variable (inv : c.Mpsc n)
include inv

lemma Mpsc.turn (sound : ring.Sound n) (consumer : ring.consumer = c.mpsc.consumer)
    (released : ring.past.released = c.mpsc.past.released)
    (popped : ring.past.popped = c.mpsc.past.popped)
    (others : ∀ j, j ≠ i → ring.producers j = c.mpsc.producers j)
    (busy : ring.producers i ≠ none → ∃ ctx rest k, p = some (.pushing ctx rest k))
    (published : ring.past.published = c.mpsc.past.published ∨ ringing ({ c with mpsc := ring }.setSender i p) i = true)
    (kept : c.ringing i = true → ringing ({ c with mpsc := ring }.setSender i p) i = true) :
    Mpsc n ({ c with mpsc := ring }.setSender i p) := by
  refine ⟨inv.kind,sound,inv.loop,?_,?_,?_,?_⟩
  · exact fun free => consumer.trans (inv.idle free)
  · intro j there
    by_cases own : j = i
    · subst own
      rw [setSender_self]
      exact busy there
    obtain ⟨ctx,rest,k,at'⟩ := inv.busy j (others j own ▸ there)
    exact ⟨ctx,rest,k,(setSender_other own).trans at'⟩
  · refine popped.trans (inv.given.trans (congrArg (c.chunks.flatten++·) ?_))
    unfold inChunk
    change _ = match c.loop with
      | some (.chunk filled) => filled++ring.inHand
      | _ => []
    unfold inHand
    rw [consumer]
  intro there
  change ring.past.published ring.past.released = true at there
  rcases published with same | rings
  · rw [same,released] at there
    rcases inv.due there with ⟨j,rings⟩ | posted | ⟨filled,chunk,popping⟩
    · refine .inl ⟨j,?_⟩
      by_cases own : j = i
      · subst own
        exact kept rings
      rw [ringing_congr]
      · exact rings
      · rfl
      · exact setSender_other own
      · rfl
      · exact others j own
    · exact .inr (.inl posted)
    refine .inr (.inr ⟨filled,chunk,?_⟩)
    change ring.consumer ≠ _
    rw [consumer]
    exact popping
  · exact .inl ⟨i,rings⟩

lemma Mpsc.start (positive : 0 < n) (small : n < 64) (idle : c.senders i = none)
    (taken : c.mpsc.Step (.push i v) ring) :
    Mpsc n ({ c with mpsc := ring }.setSender i (some (.pushing ctx rest 0))) := by
  have sound := Threads.step_sound positive small taken trivial inv.sound
  cases Threads.step_turn taken with
  | call =>
    refine inv.turn sound ?_ ?_ ?_ ?_ ?_ ?_ ?_
    · rfl
    · rfl
    · rfl
    · exact fun j other => Threads.setProducer_other other
    · exact fun _ => ⟨ctx,rest,0,rfl⟩
    · exact .inl rfl
    intro rings
    rw [ringing,idle] at rings
    cases rings

lemma Mpsc.push (positive : 0 < n) (small : n < 64) {spurious : Bool} (at' : c.senders i = some (.pushing ctx rest k))
    (taken : c.mpsc.Step (.producer i spurious) ring) (busy : c.mpsc.producers i ≠ some .pushed)
    (timely : c.mpsc.Timely (.producer i spurious)) : Mpsc n { c with mpsc := ring } := by
  have sound := step_sound positive small taken timely inv.sound
  obtain ⟨consumer,released,popped,others,published⟩ := producer_published taken
  have same : { c with mpsc := ring } = { c with mpsc := ring }.setSender i (some (.pushing ctx rest k)) := by
    unfold setSender
    rw [← at',Function.update_eq_self]
  rw [same]
  refine inv.turn sound consumer released popped others (fun _ => ⟨ctx,rest,k,rfl⟩) ?_ ?_
  · refine published.imp_right fun pushed => ?_
    exact ringing_pushing inv.kind setSender_self (.inr pushed)
  intro rings
  rcases ringing_mpsc inv.kind rings with ⟨ctx',there⟩ | ⟨ctx',rest',k',there,stocked⟩
  · rw [at'] at there
    cases there
  rw [at'] at there
  cases there
  exact ringing_pushing inv.kind setSender_self (.inl (stocked.resolve_right busy))

lemma Mpsc.next {q : MpscRing.Push α} (there : c.mpsc.producers i = some q)
    (done : q.holds = false) (p' : Option (MpscRing.Push α))
    (fits : p' = none ∨ ∃ v, p' = some (.loadPos v))
    (busy : p' ≠ none → ∃ ctx rest k, p = some (.pushing ctx rest k))
    (kept : c.ringing i = true → ringing ({ c with mpsc := c.mpsc.setProducer i p' }.setSender i p) i = true) :
    Mpsc n ({ c with mpsc := c.mpsc.setProducer i p' }.setSender i p) := by
  have sound : (c.mpsc.setProducer i p').Sound n := by
    refine inv.sound.roam there ?_ p' ?_ ?_
    · rintro _ ⟨⟩
      exact done
    · rcases fits with rfl | ⟨v,rfl⟩
      · exact nofun
      rintro _ ⟨⟩
      rfl
    · rcases fits with rfl | ⟨v,rfl⟩ <;> trivial
  refine inv.turn sound ?_ ?_ ?_ ?_ ?_ ?_ kept
  · rfl
  · rfl
  · rfl
  · exact fun j other => setProducer_other other
  · rw [setProducer_self]
    exact busy
  · exact .inl rfl

lemma Mpsc.full (at' : c.senders i = some (.pushing ctx rest k)) (done : c.mpsc.producers i = some (.full v)) :
    Mpsc n ({ c with mpsc := c.mpsc.setProducer i none }.setSender i (rings ctx k)) := by
  refine inv.next done rfl none (.inl rfl) (fun some' => absurd rfl some') ?_
  intro ringing
  rcases ringing_mpsc inv.kind ringing with ⟨ctx',there⟩ | ⟨ctx',rest',k',there,stocked⟩
  · rw [at'] at there
    cases there
  rw [at'] at there
  cases there
  rcases stocked with some' | pushed
  · exact ringing_of_rings some'
  rw [done] at pushed
  cases pushed

lemma Mpsc.clear (positive : 0 < n) (small : n < 64) (at' : c.loop = some .clear) (taken : c.mpsc.Step .pop ring) :
    Mpsc n { c with drainPosted := false, mpsc := ring, loop := some (.chunk []) } := by
  have sound := Threads.step_sound positive small taken trivial inv.sound
  cases Threads.step_turn taken with
  | ask free =>
    refine ⟨inv.kind,sound,nofun,fun free => absurd rfl (free []),inv.busy,?_,?_⟩
    · refine inv.given.trans (congrArg (c.chunks.flatten++·) ?_)
      unfold inChunk
      rw [at']
      rfl
    · exact fun _ => .inr (.inr ⟨[],rfl,nofun⟩)

lemma Mpsc.pop (positive : 0 < n) (small : n < 64)
    (at' : c.loop = some (.chunk filled)) (taken : c.mpsc.Step .consumer ring)
    (busy : c.mpsc.consumer ≠ some .none ∧ ∀ v, c.mpsc.consumer ≠ some (.popped v)) :
    Mpsc n { c with mpsc := ring } := by
  have sound := step_sound positive small taken trivial inv.sound
  obtain ⟨producers,⟨new,popped,hand⟩,_,front⟩ := inv.sound.consumer_popped taken busy
  refine ⟨inv.kind,sound,inv.loop,fun free => absurd at' (free filled),?_,?_,?_⟩
  · intro j there
    exact inv.busy j (producers ▸ there)
  · change ring.past.popped = c.chunks.flatten++_
    rw [popped,inv.given]
    unfold inChunk
    simp only [at']
    rw [hand,List.append_assoc,List.append_assoc]
  intro published
  by_cases ended : ring.consumer = some .none
  · exact absurd published (front ended)
  · exact .inr (.inr ⟨filled,at',ended⟩)

lemma Mpsc.popped {filled' : List α} {chunks : List (List α)}
    (at' : c.loop = some (.chunk filled)) (done : c.mpsc.consumer = some (.popped v))
    (given : chunks.flatten++filled' = c.chunks.flatten++filled++[v]) :
    Mpsc n { c with
      mpsc := { c.mpsc with consumer := some .loadSeq }, chunks := chunks
      loop := some (.chunk filled') } := by
  have takes := inv.sound.takes
  rw [done] at takes
  have sound : Sound n { c.mpsc with consumer := some .loadSeq } :=
    inv.sound.look _ c.mpsc.ring.deqPos c.mpsc.past.popped takes inv.sound.popped
  refine ⟨inv.kind,sound,nofun,fun free => absurd rfl (free filled'),inv.busy,?_,?_⟩
  · refine inv.given.trans ?_
    unfold inChunk inHand
    simp only [at',done,List.append_nil]
    rw [given,List.append_assoc]
  · exact fun _ => .inr (.inr ⟨filled',rfl,nofun⟩)

lemma Mpsc.empty {chunks : List (List α)} (at' : c.loop = some (.chunk filled)) (done : c.mpsc.consumer = some .none)
    (given : chunks.flatten = c.chunks.flatten++filled) :
    Mpsc n { c with mpsc := { c.mpsc with consumer := none }, loop := none, chunks := chunks } := by
  have takes := inv.sound.takes
  rw [done] at takes
  have sound : Sound n { c.mpsc with consumer := none } :=
    inv.sound.look _ c.mpsc.ring.deqPos c.mpsc.past.popped takes inv.sound.popped
  refine ⟨inv.kind,sound,nofun,fun _ => rfl,inv.busy,?_,?_⟩
  · refine inv.given.trans ?_
    unfold inChunk inHand
    simp only [at',done,List.append_nil]
    exact given.symm
  intro published
  rcases inv.due published with ⟨j,rings⟩ | posted | ⟨_,_,popping⟩
  · exact .inl ⟨j,rings⟩
  · exact .inr (.inl posted)
  · exact absurd done popping
end

lemma step_mpsc (positive : 0 < n) (small : n < 64) {move : Move ι α} (taken : Step c move t)
    (timely : ∀ i spurious, move = .sender i spurious → c.mpsc.Timely (.producer i spurious))
    (inv : c.Mpsc n) : t.Mpsc n := by
  have wrong (other : c.kind = .spsc) : t.Mpsc n := absurd (inv.kind.symm.trans other) (by decide)
  cases step_turn taken with
  | startSpsc i call ctx ring kind | pushSpsc i spurious ctx rest k ring kind
  | pushedSpsc i spurious ctx rest k m kind | clearSpsc ring kind => exact wrong kind
  | startMpsc _ _ _ _ _ _ _ idle moved => exact inv.start positive small idle moved
  | pushMpsc i spurious _ _ _ _ _ at' moved busy =>
    exact inv.push positive small at' moved busy (timely i spurious rfl)
  | nextMpsc _ _ ctx v rest k _ _ done =>
    refine inv.next done rfl _ (.inr ⟨v,rfl⟩) (fun _ => ⟨ctx,rest,k+1,rfl⟩) fun _ => ?_
    exact ringing_pushing inv.kind setSender_self (.inl (Nat.succ_pos k))
  | lastMpsc _ _ _ k _ _ done =>
    refine inv.next done rfl none (.inl rfl) (fun some' => absurd rfl some') fun _ => ?_
    exact ringing_of_rings (Nat.succ_pos k)
  | fullMpsc _ _ _ _ _ _ _ at' done => exact inv.full at' done
  | rung _ _ _ at' posted =>
    refine inv.frame rfl rfl rfl (.inl rfl) id ?_ fun _ _ => .inl posted
    exact fun j => setSender_pushing at' nofun j
  | ring _ _ _ at' =>
    refine inv.frame rfl rfl rfl (.inl rfl) (fun _ => rfl) ?_ fun _ _ => .inl rfl
    exact fun j => setSender_pushing at' nofun j
  | post i _ _ at' =>
    refine inv.frame rfl rfl rfl (.inl rfl) id ?_ fun j rings => .inr ?_
    · exact fun j => setSender_pushing at' nofun j
    have other : j ≠ i := by
      rintro rfl
      rw [ringing,at'] at rings
      cases rings
    rw [ringing_congr]
    · exact rings
    · rfl
    · exact setSender_other other
    · rfl
    · rfl
  | idle => exact inv
  | other | poll | drop | die => exact inv.frame rfl rfl rfl (.inl rfl) id (fun _ _ _ _ => id) fun _ => .inr
  | run _ _ free => exact inv.frame rfl rfl rfl (.inr ⟨free,rfl⟩) id (fun _ _ _ _ => id) fun _ => .inr
  | clearMpsc _ _ at' moved => exact inv.clear positive small at' moved
  | batch ring at' | batched m at' => exact absurd at' inv.loop
  | pop _ _ at' moved busy => exact inv.pop positive small at' moved busy
  | popped _ _ _ _ at' done given => exact inv.popped at' done given
  | empty _ _ at' done given => exact inv.empty at' done given
end AffiniX.Channel
