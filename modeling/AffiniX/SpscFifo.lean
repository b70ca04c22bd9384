import AffiniX.SpscRing

/-! The ring of one producer and one consumer is a bounded queue. -/
namespace AffiniX.SpscRing.Sides
open Transition WrapCounter Function BitVec Nat List
variable {α : Type*} {n : Nat}

def Puts (n : Nat) (s : Sides α) : Option (Putting α) → Prop
  | some (.loadHead _ t) => t = word s.accepted.length
  | some (.write call m t i) => t = word s.accepted.length ∧ m ≤ call.items.length ∧
      s.accepted.length+m ≤ s.released+2^n ∧ i ≤ m ∧
      ∀ j < i, call.items[j]? = some (s.ring.buf (slot n (word (s.accepted.length+j))))
  | _ => True

def Gets (n : Nat) (s : Sides α) : Option Getting → Prop
  | some (.loadTail _ h) => h = word s.released ∧ s.handed.length = s.released
  | some (.read call h m i) => h = word s.released ∧ s.released+m.toNat ≤ s.accepted.length ∧
      i ≤ m.toNat ∧ s.handed.length = s.released+i ∧
      ∀ j < m.toNat, s.ring.cell h j call = slot n (word (s.released+j))
  | _ => s.handed.length = s.released

structure Sound (n : Nat) (s : Sides α) : Prop where
  cap : s.ring.cap = word (2^n)
  tail : s.ring.tail = word s.accepted.length
  head : s.ring.head = word s.released
  order : s.released ≤ s.accepted.length
  span : s.accepted.length ≤ s.released+2^n
  values : ∀ k, s.released ≤ k → k < s.accepted.length → s.accepted[k]? = some (s.ring.buf (slot n (word k)))
  puts : s.Puts n s.producer
  gets : s.Gets n s.consumer
  taken : s.handed = s.accepted.take s.handed.length

section
variable {s t : Sides α}

lemma index_of_cap (cap : s.ring.cap = word (2^n)) (pos : Size) : s.ring.index pos = slot n pos := by
  rw [SpscRing.index,mask,cap]
  rfl

lemma pow_lt_word (small : n < 64) : 2^n < 2^64 := Nat.pow_lt_pow_right (by decide) small

lemma Sound.held (sound : s.Sound n) : s.ring.tail-s.ring.head = word (s.accepted.length-s.released) := by
  rw [sound.tail,sound.head,word_sub sound.order]

lemma Sound.handed_le (sound : s.Sound n) : s.handed.length ≤ s.accepted.length := by
  have taken := congrArg length sound.taken
  rw [length_take] at taken
  omega

lemma Sound.released_le (sound : s.Sound n) : s.released ≤ s.handed.length := by
  have gets := sound.gets
  unfold Gets at gets
  split at gets <;> omega

lemma cell_congr {r r' : SpscRing α} (cap : r'.cap = r.cap) (h : Size) (j : Nat) (call : Get) :
    r'.cell h j call = r.cell h j call := by
  cases call <;> simp only [cell,SpscRing.index,mask,cap]

lemma Gets.mono {p : Option Getting} (gets : s.Gets n p) (cap : t.ring.cap = s.ring.cap)
    (handed : t.handed = s.handed) (released : t.released = s.released)
    (accepted : s.accepted.length ≤ t.accepted.length) : t.Gets n p := by
  unfold Gets at gets ⊢
  rw [handed,released]
  split at gets
  · exact gets
  · obtain ⟨here,_,inside,given,cells⟩ := gets
    refine ⟨here,by omega,inside,given,?_⟩
    intro j below
    rw [cell_congr cap]
    exact cells j below
  · exact gets

lemma Puts.mono {p : Option (Putting α)} (puts : s.Puts n p) (buf : t.ring.buf = s.ring.buf)
    (accepted : t.accepted = s.accepted) (released : s.released ≤ t.released) : t.Puts n p := by
  unfold Puts at puts ⊢
  rw [buf,accepted]
  split at puts
  · exact puts
  · exact ⟨puts.1,puts.2.1,by omega,puts.2.2.2⟩
  · trivial

section
variable (sound : s.Sound n)
include sound

lemma Sound.putting (p : Option (Putting α)) (puts : s.Puts n p) : Sound n { s with producer := p } :=
  ⟨sound.cap,sound.tail,sound.head,sound.order,sound.span,sound.values,puts,sound.gets,sound.taken⟩

lemma Sound.getting (p : Option Getting) (gets : s.Gets n p) : Sound n { s with consumer := p } :=
  ⟨sound.cap,sound.tail,sound.head,sound.order,sound.span,sound.values,sound.puts,gets,sound.taken⟩

lemma Sound.one (small : n < 64) {v : α} {t : Size} (at' : s.producer = some (.loadHead (.tryPushOne v) t))
    (room : t-s.ring.head < s.ring.cap) : Sound n { s with producer := some (.write (.tryPushOne v) 1 t 0) } := by
  have puts := sound.puts
  rw [at'] at puts
  have span := sound.span
  have whole := pow_lt_word small
  rw [puts,← sound.tail,sound.held,sound.cap,lt_def,word_toNat (by omega),word_toNat whole] at room
  exact sound.putting _ ⟨puts,le_refl 1,by omega,zero_le _,nofun⟩

lemma Sound.bulk (small : n < 64) {vs : List α} {t : Size} {m : Nat}
    (at' : s.producer = some (.loadHead (.tryPushBulk vs) t)) (short : m ≤ vs.length)
    (room : m ≤ (s.ring.cap-(t-s.ring.head)).toNat) :
    Sound n { s with producer := some (.write (.tryPushBulk vs) m t 0) } := by
  have puts := sound.puts
  rw [at'] at puts
  have order := sound.order
  have span := sound.span
  have whole := pow_lt_word small
  rw [puts,← sound.tail,sound.held,sound.cap,word_sub (by omega),word_toNat (by omega)] at room
  exact sound.putting _ ⟨puts,short,by omega,zero_le _,nofun⟩

omit sound in
lemma slot_beyond (small : n < 64) {k i m : Nat} (low : s.released ≤ k)
    (high : k < s.accepted.length+i) (room : s.accepted.length+m ≤ s.released+2^n) (inside : i < m) :
    slot n (word k) ≠ slot n (word (s.accepted.length+i)) := by
  intro same
  have equal := slot_inj small low (by omega) (by omega) (by omega) same
  omega

lemma Sound.write (small : n < 64) {call : Put α} {m i : Nat} {t : Size} {v : α}
    (at' : s.producer = some (.write call m t i)) (item : (call.items.take m)[i]? = some v) :
    Sound n { s with
      ring := { s.ring with buf := update s.ring.buf (slot n (t+word i)) v }
      producer := some (.write call m t (i+1)) } := by
  have puts := sound.puts
  rw [at'] at puts
  obtain ⟨here,short,room,_,stored⟩ := puts
  obtain ⟨inside,_⟩ := List.getElem?_eq_some_iff.1 item
  rw [List.length_take] at inside
  have below : i < m := by omega
  rw [List.getElem?_take_of_lt below] at item
  have place : slot n (t+word i) = slot n (word (s.accepted.length+i)) := by rw [here,word_add]
  refine ⟨sound.cap,sound.tail,sound.head,sound.order,sound.span,?_,?_,?_,sound.taken⟩
  · intro k low high
    change s.accepted[k]? = some (update s.ring.buf (slot n (t+word i)) v (slot n (word k)))
    rw [place,update_of_ne]
    · exact sound.values k low high
    · exact slot_beyond small low (Nat.lt_add_right i high) room below
  · refine ⟨here,short,room,below,?_⟩
    intro j before
    change call.items[j]? = some (update s.ring.buf (slot n (t+word i)) v (slot n (word (s.accepted.length+j))))
    rw [place]
    by_cases last : j = i
    · subst last
      rw [update_self]
      exact item
    have order := sound.order
    rw [update_of_ne]
    · exact stored j (by omega)
    · exact slot_beyond small (by omega) (by omega) room below
  · exact sound.gets

lemma Sound.publish {call : Put α} {m i : Nat} {t : Size}
    (at' : s.producer = some (.write call m t i)) (whole : (call.items.take m).length ≤ i) :
    Sound n { s with
      ring := { s.ring with tail := t+word m }
      producer := some (.returned m), accepted := s.accepted++call.items.take m } := by
  have puts := sound.puts
  rw [at'] at puts
  obtain ⟨here,short,room,_,stored⟩ := puts
  have length : (call.items.take m).length = m := by
    rw [List.length_take]
    omega
  have longer : (s.accepted++call.items.take m).length = s.accepted.length+m := by
    rw [List.length_append,length]
  have order := sound.order
  refine ⟨sound.cap,?_,sound.head,?_,?_,?_,trivial,?_,?_⟩
  · change t+word m = word (s.accepted++call.items.take m).length
    rw [longer,here,word_add]
  · change s.released ≤ (s.accepted++call.items.take m).length
    omega
  · change (s.accepted++call.items.take m).length ≤ s.released+2^n
    omega
  · intro k low high
    change k < (s.accepted++call.items.take m).length at high
    change (s.accepted++call.items.take m)[k]? = some (s.ring.buf (slot n (word k)))
    rcases Nat.lt_or_ge k s.accepted.length with old | new
    · rw [List.getElem?_append_left old]
      exact sound.values k low old
    rw [List.getElem?_append_right new,List.getElem?_take_of_lt (by omega),
      stored (k-s.accepted.length) (by omega),Nat.add_sub_cancel' new]
  · refine sound.gets.mono ?_ ?_ ?_ ?_
    · rfl
    · rfl
    · rfl
    · exact (Nat.le_add_right _ m).trans_eq longer.symm
  change s.handed = (s.accepted++call.items.take m).take s.handed.length
  rw [List.take_append_of_le_length sound.handed_le]
  exact sound.taken

lemma Sound.drain (small : n < 64) {max h m : Size} (at' : s.consumer = some (.loadTail (.drain max) h))
    (avail : m ≤ s.ring.tail-h) : Sound n { s with consumer := some (.read (.drain max) h m 0) } := by
  have gets := sound.gets
  rw [at'] at gets
  have order := sound.order
  have span := sound.span
  have whole := pow_lt_word small
  rw [gets.1,← sound.head,sound.held,le_def,word_toNat (by omega)] at avail
  refine sound.getting _ ⟨gets.1,by omega,zero_le _,gets.2,?_⟩
  intro j _
  rw [cell,index_of_cap sound.cap,gets.1,word_add]

lemma Sound.drainContiguous (small : n < 64) {max h m : Size}
    (at' : s.consumer = some (.loadTail (.drainContiguous max) h)) (avail : m ≤ s.ring.tail-h)
    (contiguous : m ≤ s.ring.cap-slot n h) :
    Sound n { s with consumer := some (.read (.drainContiguous max) h m 0) } := by
  have gets := sound.gets
  rw [at'] at gets
  have order := sound.order
  have span := sound.span
  have whole := pow_lt_word small
  rw [gets.1,← sound.head,sound.held,le_def,word_toNat (by omega)] at avail
  have offset : (slot n h).toNat < 2^n := by
    rw [slot_toNat small]
    exact Nat.mod_lt _ (Nat.two_pow_pos n)
  rw [sound.cap,le_def,toNat_sub_of_le (by
    rw [le_def,word_toNat whole]
    exact offset.le),word_toNat whole] at contiguous
  refine sound.getting _ ⟨gets.1,by omega,Nat.zero_le _,gets.2,?_⟩
  intro j _
  rw [cell,index_of_cap sound.cap,slot_add small h (by omega),gets.1]
  exact congrArg (slot n) (word_add _ j)

lemma Sound.read {call : Get} {h m : Size} {i : Nat}
    (at' : s.consumer = some (.read call h m i)) (more : i < m.toNat) :
    s.accepted[s.handed.length]? = some (s.ring.buf (s.ring.cell h i call)) ∧
    Sound n { s with
      consumer := some (.read call h m (i+1))
      handed := s.handed++[s.ring.buf (s.ring.cell h i call)] } := by
  have gets := sound.gets
  rw [at'] at gets
  obtain ⟨here,batch,_,given,cells⟩ := gets
  have value : s.accepted[s.handed.length]? = some (s.ring.buf (s.ring.cell h i call)) := by
    rw [given,cells i more]
    exact sound.values _ (by omega) (by omega)
  have longer : (s.handed++[s.ring.buf (s.ring.cell h i call)]).length = s.released+(i+1) := by
    rw [length_append,given]
    rfl
  refine ⟨value,sound.cap,sound.tail,sound.head,sound.order,sound.span,sound.values,sound.puts,?_,?_⟩
  · exact ⟨here,batch,more,longer,cells⟩
  rw [length_append,length_singleton,take_add_one,← sound.taken,value]
  rfl

lemma Sound.release {call : Get} {h m : Size} {i : Nat}
    (at' : s.consumer = some (.read call h m i)) (done : m.toNat ≤ i) :
    Sound n { s with
      ring := { s.ring with head := h+m }
      consumer := some (.returned m), released := s.released+m.toNat } := by
  have gets := sound.gets
  rw [at'] at gets
  obtain ⟨here,batch,_,_,_⟩ := gets
  have span := sound.span
  refine ⟨sound.cap,sound.tail,?_,batch,?_,?_,?_,?_,sound.taken⟩
  · change h+m = word (s.released+m.toNat)
    rw [← word_add,here,word,word,ofNat_toNat,setWidth_eq]
  · change s.accepted.length ≤ s.released+m.toNat+2^n
    omega
  · intro k low
    change s.released+m.toNat ≤ k at low
    exact sound.values k (by omega)
  · refine sound.puts.mono ?_ ?_ ?_
    · rfl
    · rfl
    · exact le_add_right _ _
  change s.handed.length = s.released+m.toNat
  omega

end

lemma create_sound (n : Nat) (blank : α) : Sound n (create n blank) :=
  ⟨rfl,rfl,rfl,le_rfl,zero_le _,nofun,trivial,rfl,rfl⟩

lemma step_sound (small : n < 64) {move : Move α} (taken : Step s move t) (sound : s.Sound n) : t.Sound n := by
  cases step_turn taken with
  | call | full | finish => exact sound.putting _ trivial
  | loadTail => exact sound.putting _ sound.tail
  | one v t at' room => exact sound.one small at' room
  | bulk _ _ _ at' short room => exact sound.bulk small at' short room
  | write _ _ _ _ _ at' item =>
    rw [index_of_cap sound.cap]
    exact sound.write small at' item
  | publish _ _ _ _ at' whole => exact sound.publish at' whole
  | ask call idle | leave m idle =>
    have gets := sound.gets
    rw [idle] at gets
    exact sound.getting _ gets
  | loadHead _ at' =>
    have gets := sound.gets
    rw [at'] at gets
    exact sound.getting _ ⟨sound.head,gets⟩
  | empty _ _ at' =>
    have gets := sound.gets
    rw [at'] at gets
    exact sound.getting _ gets.2
  | drain _ _ _ at' avail => exact sound.drain small at' avail
  | drainContiguous _ _ _ at' avail contiguous =>
    rw [index_of_cap sound.cap] at contiguous
    exact sound.drainContiguous small at' avail contiguous
  | read _ _ _ _ at' more => exact (sound.read at' more).2
  | release _ _ _ _ at' done => exact sound.release at' done
end

variable {s t : Sides α}

def queue (s : Sides α) : BoundedFifo α := ⟨s.accepted,s.handed⟩

lemma Sound.step_queue (sound : s.Sound n) {move : Move α} (taken : Step s move t) :
    ∃ ops, Exec (BoundedFifo.Step (2^n)) s.queue ops t.queue := by
  cases step_turn taken with
  | publish call m _ _ at' =>
    have puts := sound.puts
    rw [at'] at puts
    have released := sound.released_le
    refine ⟨_,BoundedFifo.push_all s.queue (call.items.take m) ?_⟩
    change s.accepted.length+(call.items.take m).length ≤ s.handed.length+2^n
    rw [length_take]
    have room := puts.2.2.1
    omega
  | read _ _ _ _ at' more => exact ⟨[.pop _],.cons _ _ _ _ _ (.pop s.queue _ (sound.read at' more).1) (.nil _)⟩
  | _ => exact ⟨[],.nil _⟩

structure Linear (n : Nat) (s : Sides α) : Prop where
  queue : ∃ ops, Exec (BoundedFifo.Step (2^n)) ⟨[],[]⟩ ops s.queue
  order : s.handed <+: s.accepted
  bound : s.released ≤ s.handed.length ∧ s.accepted.length ≤ s.released+2^n
  /-- An accepted item stays in its cell until its batch is over. -/
  kept : ∀ k, s.released ≤ k → k < s.accepted.length → s.accepted[k]? = some (s.ring.buf (s.ring.index (word k)))
  /-- A batch consists of the next accepted items, in place. -/
  batch : ∀ call h m i, s.consumer = some (.read call h m i) → ∀ j < m.toNat,
    s.accepted[s.released+j]? = some (s.ring.buf (s.ring.cell h j call))
  /-- The producer is not about to write a cell of the batch. -/
  apart : ∀ call h m i, s.consumer = some (.read call h m i) →
    ∀ put k t l, s.producer = some (.write put k t l) → l < k → ∀ j < m.toNat,
      s.ring.index (t+word l) ≠ s.ring.cell h j call
  /-- A push that returns has accepted a front part of its items. -/
  accepts : ∀ put k t l m s', s.producer = some (.write put k t l) → Step s .producer s' →
    s'.producer = some (.returned m) → m ≤ put.items.length ∧
      s'.accepted = s.accepted++put.items.take m ∧ s'.ring.tail = word s'.accepted.length

lemma Sound.apart (sound : s.Sound n) (small : n < 64) {call : Get} {h m : Size} {i : Nat}
    (at' : s.consumer = some (.read call h m i)) {put : Put α} {k l : Nat} {t : Size}
    (there : s.producer = some (.write put k t l)) (more : l < k) {j : Nat} (inside : j < m.toNat) :
    s.ring.index (t+word l) ≠ s.ring.cell h j call := by
  have puts := sound.puts
  have gets := sound.gets
  rw [there] at puts
  rw [at'] at gets
  obtain ⟨_,_,_,_,cells⟩ := gets
  rw [index_of_cap sound.cap,cells j inside,puts.1,word_add]
  exact (slot_beyond small (by omega) (by omega) puts.2.2.1 more).symm

lemma Sound.accepts (sound : s.Sound n) (small : n < 64) {put : Put α} {k l m : Nat} {p : Size}
    (there : s.producer = some (.write put k p l)) (taken : Step s .producer t)
    (returned : t.producer = some (.returned m)) :
    m ≤ put.items.length ∧ t.accepted = s.accepted++put.items.take m ∧ t.ring.tail = word t.accepted.length := by
  have after := (step_sound small taken sound).tail
  have puts := sound.puts
  rw [there] at puts
  cases step_turn taken with
  | publish _ _ _ _ at' =>
    rw [there] at at'
    cases at'
    cases returned
    exact ⟨puts.2.1,rfl,after⟩
  | full _ _ at' =>
    rw [there] at at'
    cases at'
  | _ => simp_all

theorem spsc_linear (small : n < 64) {blank : α} {moves : List (Move α)}
    (run : Exec Step (create n blank) moves s) : s.Linear n := by
  have sound : s.Sound n := run.invariant (Sound n) (fun _ _ _ => step_sound small) (create_sound n blank)
  obtain ⟨ops,queued⟩ := run.refines queue (Sound n) (fun _ _ _ => step_sound small)
    (fun _ _ _ taken sound => sound.step_queue taken) (create_sound n blank)
  refine ⟨⟨ops,queued⟩,(BoundedFifo.run_legal queued).order,⟨sound.released_le,sound.span⟩,?_,?_,?_,?_⟩
  · intro k low high
    rw [index_of_cap sound.cap]
    exact sound.values k low high
  · intro _ h m i at' j inside
    have gets := sound.gets
    rw [at'] at gets
    obtain ⟨_,_,_,_,cells⟩ := gets
    rw [cells j inside]
    exact sound.values _ (by omega) (by omega)
  · intro _ h m i at' _ k t l there more j inside
    exact sound.apart small at' there more inside
  intro _ k t l m _ there taken returned
  exact sound.accepts small there taken returned

theorem roundTheEnd_linear : ∃ moves s, Exec Step (create 1 0 : Sides Nat) moves s ∧
    s.accepted = [1,2,3] ∧ s.handed = [1,2,3] ∧ s.Linear 1 :=
  ⟨[.put (.tryPushBulk [1,2,9]),.producer,.producer,.producer,.producer,.producer,.producer,
      .get (.drain 1),.consumer,.consumer,.consumer,.consumer,.consumer,
      .get (.drainContiguous 8),.put (.tryPushOne 3),.consumer,.producer,.consumer,.producer,
      .producer,.consumer,.producer,.consumer,.consumer,
      .get (.drainContiguous 8),.consumer,.consumer,.consumer,.consumer],
    Exec.run_of_drive (P := fun s => s.accepted = [1,2,3] ∧ s.handed = [1,2,3]) (by decide +kernel)
      fun _ run ⟨accepted,handed⟩ => ⟨accepted,handed,spsc_linear (by decide) run⟩⟩

end AffiniX.SpscRing.Sides
