import AffiniX.MpscThreads

/-! What holds of a ring while its threads run. -/
namespace AffiniX.MpscRing.Threads
open Transition WrapCounter Function List Prod Nat
variable {ι α : Type*} {n : Nat}
section
variable (s : Threads ι α)

def Holding (i : ι) : Prop := ∃ p, s.producers i = some p ∧ p.holds

def pending (i : ι) : List α := match s.producers i with
  | some p => if p.holds then (s.past.claimed[s.past.read i]?.map snd).toList else []
  | none => []

structure Held (i : ι) (v : α) (pos : Size) : Prop where
  pos : pos = word (s.past.read i)
  released : s.past.released ≤ s.past.read i
  unpublished : s.past.published (s.past.read i) = false
  own : s.past.claimed[s.past.read i]? = some (i,v)

def Fits (n : Nat) (s : Threads ι α) (i : ι) : Option (Push α) → Prop
  | some (.loadSeq _ pos) => pos = word (s.past.read i) ∧ s.past.read i ≤ s.past.claimed.length
  | some (.claim _ pos) => pos = word (s.past.read i) ∧ s.past.read i ≤ s.past.claimed.length ∧
      s.past.read i < s.past.released+2^n
  | some (.write v pos) => s.Held i v pos
  | some (.publish pos) => ∃ v, s.Held i v pos ∧ s.ring.data (slot n pos) = v
  | _ => True

def Takes : Option (Pop α) → Prop
  | some (.storePos pos) => pos = word s.past.released ∧ s.past.published s.past.released ∧
      s.ring.deqPos = word s.past.released ∧ s.past.popped.length = s.past.released
  | some (.take pos) => pos = word s.past.released ∧ s.past.published s.past.released ∧
      s.ring.deqPos = word (s.past.released+1) ∧ s.past.popped.length = s.past.released
  | some (.release pos _) => pos = word s.past.released ∧ s.past.published s.past.released ∧
      s.ring.deqPos = word (s.past.released+1) ∧ s.past.popped.length = s.past.released+1
  | _ => s.ring.deqPos = word s.past.released ∧ s.past.popped.length = s.past.released

def inHand : List α := match s.consumer with
  | some (.release _ v) | some (.popped v) => [v]
  | _ => []
end
section
variable {s t : Threads ι α} {i : ι}

lemma index_of_cap (cap : s.ring.cap = word (2^n)) (pos : Size) : s.ring.index pos = slot n pos := by
  rw [MpscRing.index,mask,cap]
  rfl

lemma Held.lt {v : α} {pos : Size} (held : s.Held i v pos) : s.past.read i < s.past.claimed.length :=
  (List.getElem?_eq_some_iff.1 held.own).1

lemma Held.read_ne {j : ι} {v w : α} {pos pos' : Size} (held : s.Held i v pos) (held' : s.Held j w pos')
    (other : j ≠ i) : s.past.read j ≠ s.past.read i := by
  intro same
  have own := held'.own
  rw [same,held.own] at own
  exact other (congrArg fst (Option.some.inj own)).symm

lemma Fits.mono {p : Option (Push α)} (fits : s.Fits n i p) (read : t.past.read i = s.past.read i)
    (claimed : s.past.claimed <+: t.past.claimed) (released : s.past.released ≤ t.past.released)
    (kept : ∀ v pos, s.Held i v pos → t.past.released ≤ s.past.read i ∧ t.past.published (s.past.read i) = false ∧
    t.ring.data (slot n pos) = s.ring.data (slot n pos)) : t.Fits n i p := by
  have longer := claimed.length_le
  have held (v : α) (pos : Size) (before : s.Held i v pos) : t.Held i v pos := by
    obtain ⟨low,unpublished,_⟩ := kept v pos before
    refine ⟨read ▸ before.pos,read ▸ low,read ▸ unpublished,?_⟩
    obtain ⟨_,whole⟩ := claimed
    rw [read,← whole,List.getElem?_append_left before.lt]
    exact before.own
  unfold Fits at fits ⊢
  split at fits
  · exact ⟨read ▸ fits.1,by omega⟩
  · exact ⟨read ▸ fits.1,by omega,by omega⟩
  · exact held _ _ fits
  · obtain ⟨v,before,data⟩ := fits
    exact ⟨v,held v _ before,(kept v _ before).2.2.trans data⟩
  · trivial

lemma not_holding {p : Option (Push α)} (at' : s.producers i = p)
    (quiet : ∀ q, p = some q → q.holds = false) : ¬ s.Holding i := by
  rintro ⟨q,there,holds⟩
  rw [quiet q (at'.symm.trans there)] at holds
  cases holds

lemma pending_of_not_holding (none' : ¬ s.Holding i) : s.pending i = [] := by
  unfold pending
  split
  next p at' => rw [if_neg fun holds => none' ⟨p,at',holds⟩]
  · rfl

lemma pending_length : (s.pending i).length ≤ 1 := by
  unfold pending
  split
  · split
    · cases s.past.claimed[s.past.read i]? <;> simp
    · exact zero_le _
  · exact zero_le _

lemma pending_congr (producer : t.producers i = s.producers i) (read : t.past.read i = s.past.read i)
    (claimed : s.Holding i → t.past.claimed[s.past.read i]? = s.past.claimed[s.past.read i]?) :
    t.pending i = s.pending i := by
  by_cases holds : s.Holding i
  · unfold pending
    rw [producer,read,claimed holds]
  rw [pending_of_not_holding holds,pending_of_not_holding]
  rintro ⟨p,at',holding⟩
  exact holds ⟨p,producer ▸ at',holding⟩

lemma Takes.mono {p : Option (Pop α)} (takes : s.Takes p) (deqPos : t.ring.deqPos = s.ring.deqPos)
    (popped : t.past.popped = s.past.popped) (released : t.past.released = s.past.released)
    (published : s.past.published s.past.released → t.past.published s.past.released) : t.Takes p := by
  unfold Takes at takes ⊢
  rw [deqPos,popped,released]
  split at takes
  · exact ⟨takes.1,published takes.2.1,takes.2.2⟩
  · exact ⟨takes.1,published takes.2.1,takes.2.2⟩
  · exact ⟨takes.1,published takes.2.1,takes.2.2⟩
  · exact takes
end

variable [DecidableEq ι]

/-- The `2^n` positions from the first unreleased one on have the cells to themselves. -/
structure Sound (n : Nat) (s : Threads ι α) : Prop where
  cap : s.ring.cap = word (2^n)
  enq : s.ring.enqPos = word s.past.claimed.length
  span : s.past.claimed.length ≤ s.past.released+2^n
  cells : ∀ k, s.past.released ≤ k → k < s.past.released+2^n →
    s.ring.seq (slot n (word k)) = word (if s.past.published k then k+1 else k)
  early : ∀ k, s.past.published k → k < s.past.claimed.length
  values : ∀ k, s.past.released ≤ k → s.past.published k →
    s.past.claimed[k]?.map snd = some (s.ring.data (slot n (word k)))
  held : ∀ k < s.past.claimed.length, s.past.published k = false → ∃ i, s.Holding i ∧ s.past.read i = k
  fits : ∀ i, s.Fits n i (s.producers i)
  takes : s.Takes s.consumer
  popped : s.past.popped = (s.past.claimed.map snd).take s.past.popped.length
  order : ∀ i, s.past.claimedBy i = s.past.accepted i++s.pending i

variable {s t : Threads ι α} {i : ι}
variable {p : Option (Push α)} {v : α} {pos : Size} {k : Nat}

lemma setProducer_self : (s.setProducer i p).producers i = p := update_self _ _ _

lemma setProducer_other {j : ι} (other : j ≠ i) : (s.setProducer i p).producers j = s.producers j :=
  update_of_ne other _ _

lemma claimedBy_append (h : History ι α) (i j : ι) (v : α) :
    History.claimedBy { h with claimed := h.claimed++[(i,v)] } j = h.claimedBy j++if i = j then [v] else [] := by
  simp only [History.claimedBy,filter_append,map_append]
  by_cases own : i = j <;> simp [own]

lemma Sound.index (sound : s.Sound n) (pos : Size) : s.ring.index pos = slot n pos := index_of_cap sound.cap pos

lemma Sound.released_le (sound : s.Sound n) : s.past.released ≤ s.past.popped.length := by
  have takes := sound.takes
  unfold Takes at takes
  split at takes <;> omega

lemma Sound.popped_le (sound : s.Sound n) : s.past.popped.length ≤ s.past.claimed.length := by
  have taken := congrArg List.length sound.popped
  rw [length_take,length_map] at taken
  omega

lemma Held.slot_ne (held : s.Held i v pos) (sound : s.Sound n) (small : n < 64) (low : s.past.released ≤ k)
    (high : k < s.past.released+2^n) (other : k ≠ s.past.read i) : slot n (word k) ≠ slot n pos := by
  intro same
  rw [held.pos] at same
  have span := sound.span
  have inside := held.lt
  exact other (slot_inj small low high held.released (by omega) same)

section
variable (sound : s.Sound n)
include sound

lemma holding_of_fits {p : Push α} (at' : s.producers i = some p) (holds : p.holds) : ∃ v pos, s.Held i v pos := by
  have fits := sound.fits i
  rw [at'] at fits
  cases p with
  | write v pos => exact ⟨v,pos,fits⟩
  | publish pos =>
    obtain ⟨v,held,_⟩ := fits
    exact ⟨v,pos,held⟩
  | _ => cases holds

lemma Sound.wander (ring : t.ring = s.ring) (consumer : t.consumer = s.consumer)
    (past : t.past = { s.past with read := t.past.read })
    (others : ∀ j, j ≠ i → t.producers j = s.producers j ∧ t.past.read j = s.past.read j)
    (before : ¬ s.Holding i) (after : ¬ t.Holding i) (fits : t.Fits n i (t.producers i)) :
    t.Sound n := by
  obtain ⟨_,tproducers,_,⟨_,_,_,_,_,_⟩⟩ := t
  simp only at ring consumer past others
  subst ring consumer
  simp only [History.mk.injEq,and_true] at past
  obtain ⟨rfl,rfl,rfl,rfl,rfl⟩ := past
  refine ⟨sound.cap,sound.enq,sound.span,sound.cells,sound.early,sound.values,?_,?_,sound.takes, sound.popped,?_⟩
  · intro k inside unpublished
    obtain ⟨j,⟨p,at',holds⟩,same⟩ := sound.held k inside unpublished
    have other : j ≠ i := by
      rintro rfl
      exact before ⟨p,at',holds⟩
    exact ⟨j,⟨p,(others j other).1.trans at',holds⟩,(others j other).2.trans same⟩
  · intro j
    by_cases own : j = i
    · subst own
      exact fits
    obtain ⟨producer,same⟩ := others j own
    change Fits n _ j (tproducers j)
    rw [producer]
    refine (sound.fits j).mono ?_ ?_ ?_ ?_
    · exact same
    · exact prefix_rfl
    · exact le_rfl
    · exact fun v pos held => ⟨held.released,held.unpublished,rfl⟩
  intro j
  by_cases own : j = i
  · subst own
    rw [pending_of_not_holding after]
    have order := sound.order j
    rwa [pending_of_not_holding before] at order
  obtain ⟨producer,same⟩ := others j own
  refine (sound.order j).trans (congrArg (s.past.accepted j++·) ?_)
  symm
  refine pending_congr ?_ ?_ fun _ => rfl
  · exact producer
  · exact same

lemma Sound.fits_still (producers : t.producers = s.producers)
    (past : t.past.claimed = s.past.claimed ∧ t.past.published = s.past.published ∧
    t.past.released = s.past.released ∧ t.past.read = s.past.read)
    (data : t.ring.data = s.ring.data) (j : ι) : t.Fits n j (t.producers j) := by
  obtain ⟨claimed,published,released,read⟩ := past
  rw [producers]
  refine (sound.fits j).mono ?_ ?_ ?_ ?_
  · rw [read]
  · exact claimed.symm ▸ prefix_rfl
  · exact le_of_eq released.symm
  intro v _ held
  rw [released,published,data]
  exact ⟨held.released,held.unpublished,rfl⟩

lemma Sound.look (p : Option (Pop α)) (deqPos : Size) (popped : List α) (takes : Takes { s with
    ring := { s.ring with deqPos := deqPos }, past := { s.past with popped := popped } } p)
    (taken : popped = (s.past.claimed.map snd).take popped.length) :
    Sound n { s with
      ring := { s.ring with deqPos := deqPos }, past := { s.past with popped := popped }
      consumer := p } := by
  refine ⟨sound.cap,sound.enq,sound.span,sound.cells,sound.early,sound.values,sound.held,?_,?_,taken, sound.order⟩
  · exact sound.fits_still rfl ⟨rfl,rfl,rfl,rfl⟩ rfl
  · exact takes

lemma Sound.claim (at' : s.producers i = some (.claim v pos))
    (same : s.ring.enqPos = pos) (near : s.past.claimed.length < s.past.read i+2^64) :
    Sound n ({ s with
      ring := { s.ring with enqPos := pos+1 }
      past := { s.past with claimed := s.past.claimed++[(i,v)] } }.setProducer i
        (some (.write v pos))) := by
  have fits := sound.fits i
  rw [at'] at fits
  obtain ⟨read,behind,room⟩ := fits
  -- The swap has found the position that was read: no position was claimed since.
  have last : s.past.read i = s.past.claimed.length :=
    ofNat_inj behind near (read.symm.trans (same.symm.trans sound.enq))
  have low : s.past.released ≤ s.past.claimed.length := le_trans sound.released_le sound.popped_le
  have fresh : s.past.published s.past.claimed.length = false := by
    by_contra published
    have early := sound.early s.past.claimed.length (by simpa using published)
    omega
  have idle : ¬ s.Holding i := by
    refine not_holding at' ?_
    rintro q ⟨⟩
    rfl
  refine ⟨sound.cap,?_,?_,sound.cells,?_,?_,?_,?_,?_,?_,?_⟩
  · change pos+1 = word (s.past.claimed++[(i,v)]).length
    rw [length_append,length_singleton,← word_add,← sound.enq,same]
    rfl
  · change (s.past.claimed++[(i,v)]).length ≤ _
    rw [length_append,length_singleton]
    change _ ≤ s.past.released+2^n
    omega
  · intro k published
    change k < (s.past.claimed++[(i,v)]).length
    have early := sound.early k published
    rw [length_append]
    omega
  · intro k from' published
    change ((s.past.claimed++[(i,v)])[k]?).map snd = _
    rw [List.getElem?_append_left (sound.early k published)]
    exact sound.values k from' published
  · intro k inside unpublished
    change k < (s.past.claimed++[(i,v)]).length at inside
    rw [length_append,length_singleton] at inside
    by_cases new : k = s.past.claimed.length
    · exact ⟨i,⟨_,update_self _ _ _,rfl⟩,last.trans new.symm⟩
    obtain ⟨j,⟨p,there,holds⟩,own⟩ := sound.held k (by omega) unpublished
    have other : j ≠ i := by
      rintro rfl
      exact idle ⟨p,there,holds⟩
    exact ⟨j,⟨p,(update_of_ne other _ _).trans there,holds⟩,own⟩
  · intro j
    by_cases own : j = i
    · subst own
      rw [setProducer_self]
      refine ⟨read,?_,?_,?_⟩
      · change s.past.released ≤ s.past.read j
        omega
      · exact last ▸ fresh
      change (s.past.claimed++[(j,v)])[s.past.read j]? = some (j,v)
      rw [last]
      exact List.getElem?_concat_length
    rw [setProducer_other own]
    refine (sound.fits j).mono ?_ ?_ ?_ ?_
    · rfl
    · exact prefix_append _ _
    · exact le_rfl
    · exact fun w there held => ⟨held.released,held.unpublished,rfl⟩
  · exact sound.takes
  · change s.past.popped = ((s.past.claimed++[(i,v)]).map snd).take s.past.popped.length
    rw [map_append,take_append_of_le_length (by simpa using sound.popped_le)]
    exact sound.popped
  intro j
  change History.claimedBy { s.past with claimed := s.past.claimed++[(i,v)] } j = _
  rw [claimedBy_append]
  by_cases own : j = i
  · subst own
    have order := sound.order j
    rw [pending_of_not_holding idle,append_nil] at order
    rw [if_pos rfl,order]
    refine congrArg (s.past.accepted j++·) ?_
    unfold pending
    rw [setProducer_self]
    change [v] = ((s.past.claimed++[(j,v)])[s.past.read j]?.map snd).toList
    rw [last,List.getElem?_concat_length]
    rfl
  rw [if_neg (Ne.symm own),append_nil,sound.order j]
  refine congrArg (s.past.accepted j++·) ?_
  symm
  refine pending_congr ?_ ?_ ?_
  · exact setProducer_other own
  · rfl
  rintro ⟨p,there,holds⟩
  obtain ⟨_,_,held⟩ := holding_of_fits sound there holds
  exact List.getElem?_append_left held.lt

lemma Sound.write (small : n < 64) (at' : s.producers i = some (.write v pos)) : Sound n ({ s with ring := { s.ring with
    data := update s.ring.data (slot n pos) v } }.setProducer i (some (.publish pos))) := by
  have held : s.Held i v pos := by
    have fits := sound.fits i
    rwa [at'] at fits
  have span := sound.span
  refine ⟨sound.cap,sound.enq,sound.span,sound.cells,sound.early,?_,?_,?_,sound.takes,sound.popped,?_⟩
  · intro k low published
    have other : k ≠ s.past.read i := by
      rintro rfl
      cases held.unpublished.symm.trans published
    have early := sound.early k published
    have apart := held.slot_ne sound small low (lt_of_lt_of_le early span) other
    change _ = some (update s.ring.data (slot n pos) v (slot n (word k)))
    rw [update_of_ne apart]
    exact sound.values k low published
  · intro k inside unpublished
    obtain ⟨j,⟨p,there,holds⟩,own⟩ := sound.held k inside unpublished
    by_cases same : j = i
    · subst same
      exact ⟨j,⟨_,setProducer_self,rfl⟩,own⟩
    · exact ⟨j,⟨p,(setProducer_other same).trans there,holds⟩,own⟩
  · intro j
    by_cases own : j = i
    · subst own
      rw [setProducer_self]
      exact ⟨v,⟨held.pos,held.released,held.unpublished,held.own⟩,update_self _ _ _⟩
    rw [setProducer_other own]
    refine (sound.fits j).mono ?_ ?_ ?_ ?_
    · rfl
    · exact prefix_rfl
    · exact le_rfl
    intro w _ held'
    have inside := held'.lt
    have apart := held.slot_ne sound small held'.released (lt_of_lt_of_le inside span) (held.read_ne held' own)
    rw [held'.pos]
    exact ⟨held'.released,held'.unpublished,update_of_ne apart _ _⟩
  intro j
  refine (sound.order j).trans (congrArg (s.past.accepted j++·) ?_)
  by_cases own : j = i
  · subst own
    unfold pending
    rw [setProducer_self,at']
    rfl
  symm
  refine pending_congr ?_ ?_ fun _ => rfl
  · exact setProducer_other own
  · rfl

lemma Sound.publish (small : n < 64) (at' : s.producers i = some (.publish pos)) :
    Sound n ({ s with
      ring := { s.ring with seq := update s.ring.seq (slot n pos) (pos+1) }
      past := { s.past with
        published := update s.past.published (s.past.read i) true
        accepted := update s.past.accepted i (s.past.accepted i++
          (s.past.claimed[s.past.read i]?.map snd).toList) } }.setProducer i (some .pushed)) := by
  obtain ⟨v,held,stored⟩ : ∃ v, s.Held i v pos ∧ s.ring.data (slot n pos) = v := by
    have fits := sound.fits i
    rwa [at'] at fits
  have kept (k : Nat) (other : k ≠ s.past.read i) :
      update s.past.published (s.past.read i) true k = s.past.published k :=
    update_of_ne other _ _
  refine ⟨sound.cap,sound.enq,sound.span,?_,?_,?_,?_,?_,?_,sound.popped,?_⟩
  · intro k low high
    change update s.ring.seq (slot n pos) (pos+1) (slot n (word k)) =
      word (if update s.past.published (s.past.read i) true k then k+1 else k)
    by_cases own : k = s.past.read i
    · subst own
      rw [← held.pos,update_self,update_self,if_pos rfl,held.pos]
      exact word_add _ 1
    rw [update_of_ne (held.slot_ne sound small low high own),kept k own]
    exact sound.cells k low high
  · intro k published
    change update s.past.published (s.past.read i) true k = true at published
    by_cases own : k = s.past.read i
    · exact own ▸ held.lt
    rw [kept k own] at published
    exact sound.early k published
  · intro k low published
    change update s.past.published (s.past.read i) true k = true at published
    by_cases own : k = s.past.read i
    · subst own
      change s.past.claimed[s.past.read i]?.map snd = some (s.ring.data (slot n (word (s.past.read i))))
      rw [held.own,← held.pos,stored]
      rfl
    rw [kept k own] at published
    exact sound.values k low published
  · intro k inside unpublished
    change update s.past.published (s.past.read i) true k = false at unpublished
    have other : k ≠ s.past.read i := by
      rintro rfl
      rw [update_self] at unpublished
      cases unpublished
    rw [kept k other] at unpublished
    obtain ⟨j,⟨p,there,holds⟩,own⟩ := sound.held k inside unpublished
    have away : j ≠ i := by
      rintro rfl
      exact other own.symm
    exact ⟨j,⟨p,(setProducer_other away).trans there,holds⟩,own⟩
  · intro j
    by_cases own : j = i
    · subst own
      rw [setProducer_self]
      trivial
    rw [setProducer_other own]
    refine (sound.fits j).mono ?_ ?_ ?_ ?_
    · rfl
    · exact prefix_rfl
    · exact le_rfl
    intro w there held'
    exact ⟨held'.released,(kept _ (held.read_ne held' own)).trans held'.unpublished,rfl⟩
  · refine sound.takes.mono ?_ ?_ ?_ ?_
    · rfl
    · rfl
    · rfl
    intro published
    change update s.past.published (s.past.read i) true s.past.released = true
    by_cases own : s.past.released = s.past.read i
    · rw [own,update_self]
    · exact (kept _ own).trans published
  intro j
  by_cases own : j = i
  · subst own
    have before : s.pending j = (s.past.claimed[s.past.read j]?.map snd).toList := by
      unfold pending
      rw [at']
      rfl
    refine (sound.order j).trans ?_
    rw [before]
    change _ = update s.past.accepted j _ j++_
    rw [update_self]
    unfold pending
    rw [setProducer_self]
    exact (append_nil _).symm
  refine (sound.order j).trans ?_
  change s.past.accepted j++_ = update s.past.accepted i _ j++_
  rw [update_of_ne own]
  refine congrArg (s.past.accepted j++·) ?_
  symm
  refine pending_congr ?_ ?_ fun _ => rfl
  · exact setProducer_other own
  · rfl

lemma Sound.release (small : n < 64) (at' : s.consumer = some (.release pos v)) :
    Sound n { s with
      ring := { s.ring with seq := update s.ring.seq (slot n pos) (pos+s.ring.cap) }
      past := { s.past with released := s.past.released+1 }
      consumer := some (.popped v) } := by
  have takes := sound.takes
  rw [at'] at takes
  obtain ⟨front,published,deqPos,popped⟩ := takes
  have span := sound.span
  refine ⟨sound.cap,sound.enq,?_,?_,sound.early,?_,sound.held,?_,⟨deqPos,popped⟩,sound.popped, sound.order⟩
  · change s.past.claimed.length ≤ s.past.released+1+2^n
    omega
  · intro k low high
    change s.past.released+1 ≤ k at low
    change k < s.past.released+1+2^n at high
    change update s.ring.seq (slot n pos) (pos+s.ring.cap) (slot n (word k)) =
      word (if s.past.published k then k+1 else k)
    rw [front,sound.cap,word_add]
    by_cases last : k = s.past.released+2^n
    · subst last
      have same : slot n (word (s.past.released+2^n)) = slot n (word s.past.released) := by
        rw [slot_eq_iff small,Nat.add_mod_right]
      have fresh : ¬ s.past.published (s.past.released+2^n) := by
        intro published
        have early := sound.early _ published
        omega
      rw [same,update_self,if_neg fresh]
    have apart : slot n (word k) ≠ slot n (word s.past.released) := by
      intro same
      have equal := slot_inj small (by omega) (by omega) (le_rfl)
        (Nat.lt_add_of_pos_right (Nat.two_pow_pos n)) same
      omega
    rw [update_of_ne apart]
    exact sound.cells k (by omega) (by omega)
  · intro k low
    change s.past.released+1 ≤ k at low
    exact sound.values k (by omega)
  intro j
  refine (sound.fits j).mono ?_ ?_ ?_ ?_
  · rfl
  · exact prefix_rfl
  · exact Nat.le_succ _
  intro w _ held
  refine ⟨?_,held.unpublished,rfl⟩
  have low := held.released
  have other : s.past.released ≠ s.past.read j := by
    intro same
    rw [same] at published
    cases held.unpublished.symm.trans published
  change s.past.released+1 ≤ s.past.read j
  omega

lemma Sound.room (positive : 0 < n) (small : n < 64) (read : pos = word k) (claimed : k ≤ s.past.claimed.length)
    (equal : s.ring.seq (slot n pos) = pos) : k < s.past.released+2^n := by
  have span := sound.span
  have two : 2 ≤ 2^n := Nat.pow_le_pow_right Nat.two_pos positive
  have half : 2^n < 2^64 := Nat.pow_lt_pow_right (by decide) small
  by_contra wrapped
  obtain rfl : k = s.past.released+2^n := by omega
  have same : slot n pos = slot n (word s.past.released) := by
    rw [read,slot_eq_iff small,Nat.add_mod_right]
  have cell := sound.cells s.past.released (le_rfl) (by omega)
  rw [← same,equal,read] at cell
  have close := ofNat_inj (by split <;> omega) (by split <;> omega) cell.symm
  split at close <;> omega
end

lemma dif_nonneg {j : Nat} (ahead : j ≤ k) (near : k < j+2^63) : 0 ≤ dif (word k) (word j) := by
  simp only [dif,word,BitVec.toInt_eq_toNat_bmod,BitVec.toNat_sub,BitVec.toNat_ofNat,Int.bmod_def]
  push_cast
  omega

section
variable (sound : s.Sound n)
include sound

lemma Sound.full (positive : 0 < n) (small : n < 64) (read : pos = word k) (claimed : k ≤ s.past.claimed.length)
    (behind : dif (s.ring.seq (slot n pos)) pos < 0)
    (near : s.past.released+2^n ≤ k+2^63) : s.past.claimed.length = s.past.released+2^n := by
  have span := sound.span
  obtain ⟨j,from',to',same⟩ : ∃ j, s.past.released ≤ j ∧ j < s.past.released+2^n ∧ j%2^n = k%2^n :=
    exists_slot (Nat.two_pow_pos n) k
  rcases Nat.lt_or_ge j k with before | after
  · -- The cell is still that of a position one round earlier.
    have apart : j+2^n ≤ k := by
      by_contra close
      have equal := eq_of_mod_eq (Nat.le_refl j) (by omega) before.le (Nat.lt_of_not_le close) same
      omega
    omega
  have here : slot n (word j) = slot n pos := by
    rw [read]
    exact (slot_eq_iff small j k).2 same
  rw [← here,sound.cells j from' to',read] at behind
  have gap : 2^n ∣ j-k := (Nat.modEq_iff_dvd' after).1 same.symm
  have odd : j+1 ≠ k+2^63 := by
    intro _
    have one : 2^n ∣ 2^63-(j-k) := Nat.dvd_sub (Nat.pow_dvd_pow 2 (by omega)) gap
    have two : 2 ≤ 2^n := Nat.pow_le_pow_right Nat.two_pos positive
    have small := Nat.le_of_dvd (by omega) one
    omega
  exact absurd (dif_nonneg (by split <;> omega) (by split <;> omega)) (Int.not_le.2 behind)

lemma Sound.roam (at' : s.producers i = p) (before : ∀ q, p = some q → q.holds = false) (p' : Option (Push α))
    (after : ∀ q, p' = some q → q.holds = false) (fits : s.Fits n i p') : Sound n (s.setProducer i p') := by
  refine sound.wander (i := i) rfl rfl rfl ?_ ?_ ?_ ?_
  · exact fun j other => ⟨setProducer_other other,rfl⟩
  · exact not_holding at' before
  · exact not_holding setProducer_self after
  rw [setProducer_self]
  refine fits.mono ?_ ?_ ?_ ?_
  · rfl
  · exact prefix_rfl
  · exact le_rfl
  · exact fun v pos held => ⟨held.released,held.unpublished,rfl⟩

lemma Sound.loadPos {p : Push α} (at' : s.producers i = some p) (before : p.holds = false) (v : α) :
    Sound n ({ s with past := { s.past with
      read := update s.past.read i s.past.claimed.length } }.setProducer i (some (.loadSeq v s.ring.enqPos))) := by
  refine sound.wander (i := i) rfl rfl rfl ?_ ?_ ?_ ?_
  · exact fun j other => ⟨setProducer_other other,update_of_ne other _ _⟩
  · refine not_holding at' ?_
    rintro q ⟨⟩
    exact before
  · refine not_holding setProducer_self ?_
    rintro q ⟨⟩
    rfl
  rw [setProducer_self]
  have last : update s.past.read i s.past.claimed.length i = s.past.claimed.length := update_self _ _ _
  exact ⟨sound.enq.trans (congrArg word last.symm),le_of_eq last⟩

lemma Sound.ready (at' : s.consumer = some .loadSeq) (equal : s.ring.seq (slot n s.ring.deqPos) = s.ring.deqPos+1) :
    Sound n { s with consumer := some (.storePos s.ring.deqPos) } := by
  have takes := sound.takes
  rw [at'] at takes
  obtain ⟨deqPos,popped⟩ := takes
  refine sound.look _ s.ring.deqPos s.past.popped ⟨deqPos,?_,deqPos,popped⟩ sound.popped
  have cell := sound.cells s.past.released (le_rfl) (Nat.lt_add_of_pos_right (Nat.two_pow_pos n))
  rw [← deqPos,equal,deqPos] at cell
  by_contra unpublished
  rw [if_neg unpublished] at cell
  have same := ofNat_inj (Nat.le_succ _) (by omega) (cell.symm.trans (word_add _ 1))
  omega

lemma Sound.take (at' : s.consumer = some (.take pos)) :
    s.past.claimed[s.past.popped.length]?.map snd = some (s.ring.data (slot n pos)) ∧
    Sound n { s with
      past := { s.past with popped := s.past.popped++[s.ring.data (slot n pos)] }
      consumer := some (.release pos (s.ring.data (slot n pos))) } := by
  have takes := sound.takes
  rw [at'] at takes
  obtain ⟨front,published,deqPos,popped⟩ := takes
  have value := sound.values s.past.released (le_rfl) published
  rw [← front] at value
  refine ⟨popped ▸ value,?_⟩
  refine sound.look _ s.ring.deqPos _ ⟨front,published,deqPos,?_⟩ ?_
  · change (s.past.popped++[_]).length = s.past.released+1
    rw [length_append,popped]
    rfl
  rw [← List.getElem?_map] at value
  rw [length_append,length_singleton,take_add_one,← sound.popped,popped,value]
  rfl

end

lemma create_sound (small : n < 64) (blank : α) : Sound n (create n blank : Threads ι α) where
  cap := rfl
  enq := rfl
  span := Nat.zero_le _
  cells k _ high := by
    change k < 0+2^n at high
    have whole : 2^n < 2^64 := Nat.pow_lt_pow_right (by decide) small
    change slot n (word k) = word k
    apply BitVec.eq_of_toNat_eq
    rw [slot_toNat small,BitVec.toNat_ofNat,Nat.mod_eq_of_lt (by omega : k < 2^64)]
    exact Nat.mod_eq_of_lt (by omega)
  early := nofun
  values _ _ := nofun
  held := nofun
  fits _ := trivial
  takes := ⟨rfl,rfl⟩
  popped := rfl
  order _ := rfl

lemma step_sound (positive : 0 < n) (small : n < 64) {move : Move ι α} (taken : Step s move t)
    (timely : s.Timely move) (sound : s.Sound n) : t.Sound n := by
  have quiet (p : Push α) (none' : p.holds = false) : ∀ q, some p = some q → q.holds = false := by
    rintro q ⟨⟩
    exact none'
  cases step_turn taken with
  | call i v idle => exact sound.roam idle nofun _ (quiet _ rfl) trivial
  | loadPos i spurious v at' | missed i spurious v pos at' => exact sound.loadPos at' rfl v
  | free i _ _ _ at' equal =>
    have fits := sound.fits i
    rw [at'] at fits
    rw [sound.index] at equal
    exact sound.roam at' (quiet _ rfl) _ (quiet _ rfl) ⟨fits.1,fits.2,sound.room positive small fits.1 fits.2 equal⟩
  | full i spurious v pos at' | again i spurious v pos at' =>
    exact sound.roam at' (quiet _ rfl) _ (quiet _ rfl) trivial
  | claim _ _ _ _ at' same =>
    simp only [Timely,at'] at timely
    exact sound.claim at' same (timely same)
  | write _ _ _ _ at' =>
    rw [sound.index]
    exact sound.write small at'
  | publish _ _ _ at' =>
    rw [sound.index]
    exact sound.publish small at'
  | finish _ _ _ at' done => exact sound.roam at' (quiet _ done) _ nofun trivial
  | ask idle | empty idle =>
    have takes := sound.takes
    rw [idle] at takes
    exact sound.look _ s.ring.deqPos s.past.popped takes sound.popped
  | ready at' equal =>
    rw [sound.index] at equal
    exact sound.ready at' equal
  | storePos pos at' =>
    have takes := sound.takes
    rw [at'] at takes
    obtain ⟨front,published,_,popped⟩ := takes
    refine sound.look _ (pos+1) s.past.popped ⟨front,published,?_,popped⟩ sound.popped
    exact front ▸ word_add _ 1
  | take _ at' =>
    rw [sound.index]
    exact (sound.take at').2
  | release _ _ at' =>
    rw [sound.index]
    exact sound.release small at'
  | leave p at' done =>
    have takes := sound.takes
    rw [at'] at takes
    refine sound.look _ s.ring.deqPos s.past.popped ?_ sound.popped
    rcases done with rfl | ⟨v,rfl⟩ <;> exact takes

lemma producer_published {spurious : Bool} (taken : s.Step (.producer i spurious) t) : t.consumer = s.consumer ∧
    t.past.released = s.past.released ∧ t.past.popped = s.past.popped ∧ (∀ j, j ≠ i → t.producers j = s.producers j) ∧
    (t.past.published = s.past.published ∨ t.producers i = some .pushed) := by
  cases step_turn taken with
  | publish => exact ⟨rfl,rfl,rfl,fun _ other => setProducer_other other,.inr setProducer_self⟩
  | _ => exact ⟨rfl,rfl,rfl,fun _ other => setProducer_other other,.inl rfl⟩

lemma Sound.front (sound : s.Sound n) (at' : s.consumer = some .loadSeq)
    (unready : s.ring.seq (s.ring.index s.ring.deqPos) ≠ s.ring.deqPos+1) :
    ¬ s.past.published s.past.released = true := by
  intro published
  have takes := sound.takes
  rw [at'] at takes
  have cell := sound.cells s.past.released (le_rfl) (Nat.lt_add_of_pos_right (Nat.two_pow_pos n))
  rw [if_pos published] at cell
  apply unready
  rw [sound.index,takes.1,cell]
  exact (word_add _ 1).symm

lemma Sound.consumer_popped (sound : s.Sound n) (taken : s.Step .consumer t)
    (busy : s.consumer ≠ some .none ∧ ∀ v, s.consumer ≠ some (.popped v)) : t.producers = s.producers ∧
    (∃ new, t.past.popped = s.past.popped++new ∧ t.inHand = s.inHand++new) ∧ t.consumer ≠ none ∧
    (t.consumer = some .none → ¬ t.past.published t.past.released = true) := by
  cases step_turn taken with
  | empty at' unready =>
    refine ⟨rfl,⟨[],(append_nil _).symm,?_⟩,nofun,fun _ => sound.front at' unready⟩
    unfold inHand
    rw [at']
    rfl
  | ready at' | storePos pos at' | release pos v at' =>
    refine ⟨rfl,⟨[],(append_nil _).symm,?_⟩,nofun,nofun⟩
    unfold inHand
    rw [at']
    rfl
  | take _ at' =>
    refine ⟨rfl,⟨_,rfl,?_⟩,nofun,nofun⟩
    unfold inHand
    rw [at']
    rfl
  | leave p at' done =>
    rcases done with rfl | ⟨v,rfl⟩
    · exact absurd at' busy.1
    · exact absurd at' (busy.2 v)
end AffiniX.MpscRing.Threads
