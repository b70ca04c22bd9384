import AffiniX.MpscSound

/-! The ring of many producers and one consumer is a bounded queue: a push takes effect when
it claims its position, a pop when it takes the value. -/
namespace AffiniX.MpscRing.Threads
open Transition WrapCounter Function List
variable {ι α : Type*} [DecidableEq ι] {n : Nat} {s t : Threads ι α}

def queue (s : Threads ι α) : BoundedFifo α := ⟨s.values,s.past.popped⟩

lemma Sound.step_queue (sound : s.Sound n) {move : Move ι α} (taken : Step s move t)
    (timely : s.Timely move) : ∃ ops, Exec (BoundedFifo.Step (2^n)) s.queue ops t.queue := by
  cases step_turn taken with
  | claim i _ v _ at' same =>
    simp only [Timely,at'] at timely
    have room := (sound.claim at' same (timely same)).span
    change (s.past.claimed++[(i,v)]).length ≤ s.past.released+2^n at room
    have popped := sound.released_le
    rw [length_append,length_singleton] at room
    have pushed := BoundedFifo.Step.push s.queue v (by
      change (s.past.claimed.map Prod.snd).length < s.past.popped.length+2^n
      rw [length_map]
      omega)
    refine ⟨[.push v],.cons _ _ _ _ _ ?_ (.nil _)⟩
    change BoundedFifo.Step _ _ _ ⟨(s.past.claimed++[(i,v)]).map Prod.snd,s.past.popped⟩
    rw [map_append]
    exact pushed
  | take _ at' =>
    have front := (sound.take at').1
    rw [← getElem?_map] at front
    rw [sound.index]
    exact ⟨[.pop _],.cons _ _ _ _ _ (.pop s.queue _ front) (.nil _)⟩
  | _ => exact ⟨[],.nil _⟩

structure Linear (n : Nat) (s : Threads ι α) : Prop where
  queue : ∃ ops, Exec (BoundedFifo.Step (2^n)) ⟨[],[]⟩ ops s.queue
  order : s.past.popped <+: s.values
  bound : s.past.claimed.length ≤ s.past.popped.length+2^n
  /-- A producer's values are claimed in the order of its calls, the last one perhaps not
  yet published. -/
  own : ∀ i, s.past.claimedBy i = s.past.accepted i++s.pending i ∧ (s.pending i).length ≤ 1
  /-- A value stays in its cell until it is popped. -/
  kept : ∀ k, s.past.popped.length ≤ k → s.past.published k → s.values[k]? = some (s.ring.data (s.ring.index (word k)))
  /-- No claimed position is forgotten. -/
  claimed : ∀ k < s.past.claimed.length, s.past.published k ∨ ∃ i, s.Holding i ∧ s.past.read i = k
  /-- A push is refused only by a full ring. -/
  refused : ∀ i spurious t, s.Timely (.producer i spurious) → Step s (.producer i spurious) t →
    (∃ v, t.producers i = some (.full v)) → s.past.claimed.length = s.past.released+2^n

lemma Sound.refused (sound : s.Sound n) (positive : 0 < n) (small : n < 64) {i : ι} {spurious : Bool}
    (timely : s.Timely (.producer i spurious)) (taken : Step s (.producer i spurious) t) {v : α}
    (full : t.producers i = some (.full v)) : s.past.claimed.length = s.past.released+2^n := by
  cases step_turn taken with
  | full _ _ _ _ at' behind =>
    have fits := sound.fits i
    rw [at'] at fits
    simp only [Timely,at'] at timely
    have near := timely behind
    have whole : 2^n < 2^64 := Nat.pow_lt_pow_right (by decide) small
    rw [sound.cap,BitVec.toNat_ofNat,Nat.mod_eq_of_lt whole] at near
    rw [sound.index] at behind
    exact sound.full positive small fits.1 fits.2 behind near
  | _ =>
    rw [setProducer_self] at full
    cases full

theorem mpsc_linear (positive : 0 < n) (small : n < 64) {blank : α} {moves : List (Move ι α)}
    (run : Exec (Guarded Step Timely) (create n blank) moves s) : s.Linear n := by
  have sound : s.Sound n := run.invariant (Sound n)
    (fun _ _ _ taken => step_sound positive small taken.2 taken.1) (create_sound small blank)
  have refined := run.refines queue (Sound n) (fun _ _ _ taken => step_sound positive small taken.2 taken.1)
    (fun _ _ _ taken sound => sound.step_queue taken.2 taken.1) (create_sound small blank)
  obtain ⟨ops,queued⟩ := refined
  have legal := BoundedFifo.run_legal queued
  refine ⟨⟨ops,queued⟩,legal.order,?_,?_,?_,?_,?_⟩
  · have bound := legal.bound
    change (s.past.claimed.map Prod.snd).length ≤ _ at bound
    rwa [length_map] at bound
  · exact fun i => ⟨sound.order i,pending_length⟩
  · intro k unpopped published
    rw [sound.index,values,getElem?_map]
    exact sound.values k (Nat.le_trans sound.released_le unpopped) published
  · intro k inside
    cases published : s.past.published k with
    | true => exact .inl rfl
    | false => exact .inr (sound.held k inside published)
  rintro i spurious t timely taken ⟨v,full⟩
  exact sound.refused positive small timely taken full

theorem outOfOrder_linear : ∃ moves s,
    Exec (Guarded Step Timely) (create 1 0 : Threads (Fin 2) Nat) moves s ∧ s.past.popped = [10,11] ∧ s.Linear 1 :=
  ⟨[.push 0 10,.push 1 11,.producer 0 false,.producer 0 false,.producer 0 false,.producer 1 false,
      .producer 1 false,.producer 1 true,.producer 1 false,.producer 1 false,.producer 1 false,
      .producer 1 false,.producer 1 false,.push 1 12,.producer 1 false,.producer 1 false,
      .producer 0 false,.producer 0 false,.pop,.consumer,.consumer,.consumer,.consumer,.consumer,
      .pop,.consumer,.consumer,.consumer,.consumer],
    Exec.seen_of_drive (by decide +kernel) fun _ run _ => mpsc_linear (by decide) (by decide) run⟩

structure Pushes (i : ι) (v : α) (s t : Threads ι α) : Prop where
  cap : t.ring.cap = s.ring.cap
  seq : t.ring.seq = update s.ring.seq (s.ring.index s.ring.enqPos) (s.ring.enqPos+1)
  enqPos : t.ring.enqPos = s.ring.enqPos+1
  deqPos : t.ring.deqPos = s.ring.deqPos
  own : t.producers i = none
  others : ∀ j, j ≠ i → t.producers j = s.producers j
  consumer : t.consumer = s.consumer
  claimed : t.past.claimed = s.past.claimed++[(i,v)]
  popped : t.past.popped = s.past.popped

lemma push_alone {i : ι} (idle : s.producers i = none)
    (free : s.ring.seq (s.ring.index s.ring.enqPos) = s.ring.enqPos) (v : α) :
    ∃ t, Exec Step s (.push i v::replicate 6 (.producer i false)) t ∧ Pushes i v s t := by
  have run : ∃ t, drive step (fun _ _ => True) s (.push i v::replicate 6 (.producer i false)) =
      some t ∧ Pushes i v s t := by
    have zero : dif s.ring.enqPos s.ring.enqPos = 0 := dif_eq_zero.2 rfl
    simp only [replicate,drive,step,if_true,idle,Option.bind_some,setProducer,update_self,pushStep,free,zero,and_self]
    refine ⟨_,rfl,?_⟩
    refine ⟨rfl,rfl,rfl,rfl,update_self _ _ _,?_,rfl,rfl,rfl⟩
    intro j other
    simp [update_of_ne other]
  obtain ⟨t,driven,pushes⟩ := run
  exact ⟨t,(Exec.of_drive driven).of_guarded,pushes⟩

structure Pops (s t : Threads ι α) : Prop where
  cap : t.ring.cap = s.ring.cap
  seq : t.ring.seq = update s.ring.seq (s.ring.index s.ring.deqPos) (s.ring.deqPos+s.ring.cap)
  enqPos : t.ring.enqPos = s.ring.enqPos
  deqPos : t.ring.deqPos = s.ring.deqPos+1
  producers : t.producers = s.producers
  consumer : t.consumer = none
  claimed : t.past.claimed = s.past.claimed
  popped : t.past.popped.length = s.past.popped.length+1

lemma pop_alone (idle : s.consumer = none) (ready : s.ring.seq (s.ring.index s.ring.deqPos) = s.ring.deqPos+1) :
    ∃ t, Exec Step s (.pop::replicate 5 .consumer) t ∧ Pops s t := by
  have run : ∃ t, drive step (fun _ _ => True) s (.pop::replicate 5 .consumer) = some t ∧ Pops s t := by
    have zero : dif (s.ring.deqPos+1) (s.ring.deqPos+1) = 0 := dif_eq_zero.2 rfl
    simp only [replicate,drive,step,if_true,idle,Option.bind_some,popStep,ready,zero,ne_eq,not_true_eq_false,if_false]
    refine ⟨_,rfl,?_⟩
    exact ⟨rfl,rfl,rfl,rfl,rfl,rfl,rfl,length_append⟩
  obtain ⟨t,driven,pops⟩ := run
  exact ⟨t,(Exec.of_drive driven).of_guarded,pops⟩

structure Stalled (k : Nat) (s : Threads (Fin 2) Unit) : Prop where
  cap : s.ring.cap = word (2^1)
  enqPos : s.ring.enqPos = word k
  deqPos : s.ring.deqPos = word k
  first : s.ring.seq (slot 1 (word k)) = word k
  second : s.ring.seq (slot 1 (word (k+1))) = word (k+1)
  swap : s.producers 0 = some (.claim () 0)
  idle : s.producers 1 = none
  consumer : s.consumer = none
  claimed : s.past.claimed.length = k
  popped : s.past.popped.length = k

lemma slot_succ_ne (k : Nat) : slot 1 (word (k+1)) ≠ slot 1 (word k) := by
  intro same
  have equal := (slot_eq_iff (by decide) (k+1) k).1 same
  omega

lemma Stalled.next {k : Nat} {s : Threads (Fin 2) Unit} (stalled : Stalled k s) :
    ∃ moves t, Exec Step s moves t ∧ Stalled (k+1) t := by
  have here : s.ring.index s.ring.enqPos = slot 1 (word k) := by
    rw [index_of_cap stalled.cap,stalled.enqPos]
  obtain ⟨t,pushed,pushes⟩ := push_alone stalled.idle (by rw [here,stalled.first,stalled.enqPos]) ()
  have front : t.ring.index t.ring.deqPos = slot 1 (word k) := by
    rw [index_of_cap (pushes.cap.trans stalled.cap),pushes.deqPos,stalled.deqPos]
  obtain ⟨u,popped,pops⟩ := pop_alone (pushes.consumer.trans stalled.consumer)
    (by rw [front,pushes.seq,here,update_self,pushes.deqPos,stalled.deqPos,stalled.enqPos])
  have seq : u.ring.seq = update s.ring.seq (slot 1 (word k)) (word (k+2)) := by
    rw [pops.seq,front,pushes.seq,here,update_idem,pushes.deqPos,stalled.deqPos,pushes.cap, stalled.cap]
    exact congrArg _ (word_add k 2)
  refine ⟨_,u,pushed.append popped,?_⟩
  constructor
  · exact pops.cap.trans (pushes.cap.trans stalled.cap)
  · rw [pops.enqPos,pushes.enqPos,stalled.enqPos]
    exact word_add k 1
  · rw [pops.deqPos,pushes.deqPos,stalled.deqPos]
    exact word_add k 1
  · rw [seq,update_of_ne (slot_succ_ne k)]
    exact stalled.second
  · have same : slot 1 (word (k+1+1)) = slot 1 (word k) := by
      rw [slot_eq_iff (by decide)]
      omega
    rw [seq,same,update_self]
  · rw [pops.producers,pushes.others 0 (by decide)]
    exact stalled.swap
  · rw [pops.producers]
    exact pushes.own
  · exact pops.consumer
  · rw [pops.claimed,pushes.claimed,length_append,stalled.claimed]
    rfl
  · rw [pops.popped,pushes.popped,stalled.popped]

lemma Stalled.reach : ∀ k, ∃ moves s, Exec Step (create 1 ()) moves s ∧ Stalled k s
  | 0 => by
    refine ⟨[.push 0 (),.producer 0 false,.producer 0 false],_,
    .cons _ _ _ _ _ rfl (.cons _ _ _ _ _ rfl (.cons _ _ _ _ _ rfl (.nil _))),?_⟩
    constructor <;> rfl
  | k+1 => by
    obtain ⟨_,s,run,stalled⟩ := reach k
    obtain ⟨_,t,onwards,next⟩ := stalled.next
    exact ⟨_,t,run.append onwards,next⟩

lemma Stalled.overfills {k : Nat} {s : Threads (Fin 2) Unit} (stalled : Stalled k s) (round : word (k+1)+1 = 0) :
    ∃ moves t, Exec Step s moves t ∧ t.past.popped.length = k ∧ t.past.claimed.length = k+3 := by
  have here : s.ring.index s.ring.enqPos = slot 1 (word k) := by
    rw [index_of_cap stalled.cap,stalled.enqPos]
  obtain ⟨t,pushed,pushes⟩ := push_alone stalled.idle (by rw [here,stalled.first,stalled.enqPos]) ()
  have last : t.ring.enqPos = word (k+1) := by
    rw [pushes.enqPos,stalled.enqPos]
    exact word_add k 1
  have there : t.ring.index t.ring.enqPos = slot 1 (word (k+1)) := by
    rw [index_of_cap (pushes.cap.trans stalled.cap),last]
  obtain ⟨u,pushed',pushes'⟩ := push_alone pushes.own (by
    rw [there,last,pushes.seq,here,update_of_ne (slot_succ_ne k)]
    exact stalled.second) ()
  have swap : u.producers 0 = some (.claim () 0) := by
    rw [pushes'.others 0 (by decide),pushes.others 0 (by decide)]
    exact stalled.swap
  have wrapped : u.ring.enqPos = 0 := by
    rw [pushes'.enqPos,last]
    exact round
  have claims : u.step (.producer 0 false) = some ({ u with
      ring := { u.ring with enqPos := 0+1 }
      past := { u.past with claimed := u.past.claimed++[(0,())] } }.setProducer 0 (some (.write () 0))) := by
    simp only [step,swap,pushStep,wrapped,and_self,if_true]
    rfl
  refine ⟨_,_,pushed.append (pushed'.append (.cons _ _ _ _ _ claims (.nil _))),?_,?_⟩
  · change u.past.popped.length = k
    rw [pushes'.popped,pushes.popped,stalled.popped]
  change (u.past.claimed++[(0,())]).length = k+3
  rw [pushes'.claimed,pushes.claimed]
  simp only [length_append,length_singleton,stalled.claimed]

/-- Producer 0 stands before its swap while producer 1 claims `2^64` positions, and then
claims a third position of a ring that has two cells. -/
theorem wrapped_swap_overfills : ∃ moves s, Exec Step (create 1 () : Threads (Fin 2) Unit) moves s ∧
    ¬ s.past.claimed.length ≤ s.past.popped.length+2^1 := by
  obtain ⟨_,s,run,stalled⟩ := Stalled.reach (2^64-2)
  obtain ⟨_,t,onwards,popped,claimed⟩ := stalled.overfills (by decide)
  refine ⟨_,t,run.append onwards,?_⟩
  rw [popped,claimed]
  omega

end AffiniX.MpscRing.Threads
