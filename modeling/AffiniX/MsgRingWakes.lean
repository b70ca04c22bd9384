import AffiniX.Transition

/-! Wakes that are left to `msg_ring_wake`, and the rings of the loops that carry them. -/
namespace AffiniX
open Transition Function
namespace MsgRing
inductive Life
  | unborn
  | alive
  | dead
  | expired
deriving DecidableEq

inductive Phase
  | idle
  | running
  | left
deriving DecidableEq

structure Send (ι : Type*) where
  id : Nat
  sender : ι
  slot : Nat
  target : ι
deriving DecidableEq

inductive Sqe (ι : Type*)
  | other
  | wake (send : Send ι)

def Sqe.send {ι : Type*} : Sqe ι → Option (Send ι)
  | .other => none
  | .wake send => some send

structure Cqe (ι : Type*) where
  send : Send ι
  ok : Bool

/-- A ring: staged, taken and completed entries. Once taken, only the sends of wakes are followed. -/
structure Backend (ι : Type*) where
  entries : Nat
  msgringOk : Bool
  staged : List (Sqe ι)
  committed : List (Sqe ι)
  inflight : List (Send ι)
  cq : List (Cqe ι)
  fallback : Nat → Option ι
  head : BitVec 32

namespace Backend
variable {ι : Type*}

def create (entries : Nat) (msgringOk : Bool) : Backend ι := ⟨entries,msgringOk,[],[],[],[],fun _ => none,0⟩

variable (b : Backend ι)

def room : Bool := b.committed.length+b.staged.length < b.entries

def commit : Backend ι := { b with committed := b.committed++b.staged, staged := [] }

def consume : Backend ι := match b.committed with
  | [] => b
  | .other::rest => { b with committed := rest }
  | .wake w::rest => { b with committed := rest, inflight := b.inflight++[w] }

def consumes (b : Backend ι) : Nat → Backend ι
  | 0 => b
  | k+1 => b.consume.consumes k

def unsubmitted : List (Send ι) := (b.committed++b.staged).filterMap Sqe.send

def submitted : List (Send ι) := b.inflight++b.cq.map Cqe.send

def sends : List (Send ι) := b.unsubmitted++b.submitted
end Backend
end MsgRing

/-- Event loops and their rings. `sent`: wakes left to `msg_ring_wake`; `reached`: those that woke their target;
`signals`: wakes that a loop got. -/
structure MsgRing (ι : Type*) where
  life : ι → MsgRing.Life
  phase : ι → MsgRing.Phase
  backend : ι → MsgRing.Backend ι
  next : Nat
  sent : List (MsgRing.Send ι)
  reached : List Nat
  signals : ι → Nat

namespace MsgRing
variable {ι : Type*} [DecidableEq ι]

def create (entries : ι → Nat) (msgringOk : ι → Bool) : MsgRing ι where
  life := fun _ => .unborn
  phase := fun _ => .idle
  backend := fun l => .create (entries l) (msgringOk l)
  next := 0
  sent := []
  reached := []
  signals := fun _ => 0

section
variable (s : MsgRing ι)

def setBackend (l : ι) (b : Backend ι) : MsgRing ι := { s with backend := update s.backend l b }

def signal (t : ι) : MsgRing ι := { s with signals := update s.signals t (s.signals t+1) }

def held : Option ι → Bool
  | none => false
  | some t => s.life t = .alive ∨ s.life t = .dead

/-- The end of `msg_ring_wake`: the slot names the target and the send is staged. -/
def stage (l : ι) (b : Backend ι) (slot : Nat) (t : ι) : MsgRing ι := let w := ⟨s.next,l,slot,t⟩
  { s.setBackend l { b with
      fallback := update b.fallback slot (some t), staged := b.staged++[.wake w] } with
    next := s.next+1, sent := s.sent++[w] }

/-- `enter` is the outcome of `uring_enter` in `flush_full_sq`: an error, or how many entries the
kernel took. -/
def msgRingWake (l t : ι) (enter : Option Nat) : MsgRing ι × Bool := let b := s.backend l
  if b.msgringOk = false ∨ (s.backend t).msgringOk = false then (s,false)
  else
    let slot := (b.head &&& 63#32).toNat
    let b := { b with head := b.head+1 }
    if s.held (b.fallback slot) then (s.setBackend l b,false)
    else if b.room then (s.stage l b slot t,true)
    else
      match enter with
      | none => (s.setBackend l b.commit,false)
      | some k =>
        if (b.commit.consumes k).room then (s.stage l (b.commit.consumes k) slot t,true)
        else (s.setBackend l (b.commit.consumes k),false)

def afterPush (l t : ι) (enter : Option Nat) : MsgRing ι := let taken := s.msgRingWake l t enter
  if taken.2 then taken.1 else taken.1.signal t

def complete (l : ι) (i : Nat) (w : Send ι) (ok : Bool) : MsgRing ι := let b := s.backend l
  let t := s.setBackend l { b with inflight := b.inflight.eraseIdx i, cq := b.cq++[⟨w,ok⟩] }
  if ok then { t.signal w.target with reached := s.reached++[w.id] } else t

def drain (l : ι) (c : Cqe ι) (rest : List (Cqe ι)) : MsgRing ι := let b := s.backend l
  let t := s.setBackend l { b with cq := rest, fallback := update b.fallback c.send.slot none }
  if c.ok then t
  else
    match b.fallback c.send.slot with
    | none => t
    | some x =>
      if s.held (some x) then
        { t.signal x with reached := if x = c.send.target then s.reached++[c.send.id] else s.reached }
      else t

inductive Move (ι : Type*)
  | create (l : ι)
  | run (l : ι)
  | leave (l : ι)
  | destroy (l : ι)
  | release (l : ι)
  | post (l t : ι) (enter : Option Nat)
  | stage (l : ι)
  | commit (l : ι)
  | consume (l : ι)
  | complete (l : ι) (i : Nat) (ok : Bool)
  | drain (l : ι)

/-- A loop is destroyed after it has left `run`; `stage` is another operation; `commit` and `drain` are parts of
`wait`. -/
def step : Move ι → Option (MsgRing ι)
  | .create l => if s.life l = .unborn then some { s with life := update s.life l .alive } else none
  | .run l =>
    if s.life l = .alive ∧ s.phase l = .idle then
      some { s with phase := update s.phase l .running }
    else none
  | .leave l => if s.phase l = .running then some { s with phase := update s.phase l .left } else none
  | .destroy l =>
    if s.life l = .alive ∧ s.phase l ≠ .running then
      some { s with life := update s.life l .dead }
    else none
  | .release l => if s.life l = .dead then some { s with life := update s.life l .expired } else none
  | .post l t enter => if s.phase l = .running ∧ s.held (some t) then some (s.afterPush l t enter) else none
  | .stage l =>
    if (s.backend l).room then
      some (s.setBackend l { s.backend l with staged := (s.backend l).staged++[.other] })
    else none
  | .commit l => if s.life l = .alive then some (s.setBackend l (s.backend l).commit) else none
  | .consume l => some (s.setBackend l (s.backend l).consume)
  | .complete l i ok =>
    match (s.backend l).inflight[i]? with
    | none => none
    | some w => some (s.complete l i w ok)
  | .drain l =>
    match (s.backend l).cq with
    | [] => none
    | c::rest => if s.life l = .alive then some (s.drain l c rest) else none
end

open List Backend
variable {s t : MsgRing ι} {l : ι} {w : Send ι} {b : Backend ι}

structure Carried (s : MsgRing ι) (w : Send ι) : Prop where
  running : s.phase w.sender = .running
  there : w ∈ (s.backend w.sender).sends
  named : (s.backend w.sender).fallback w.slot = some w.target

structure Inv (s : MsgRing ι) : Prop where
  born : ∀ w ∈ s.sent, s.life w.target ≠ .unborn
  success : ∀ l, ∀ c ∈ (s.backend l).cq, c.ok → c.send.id ∈ s.reached
  tracked : ∀ w ∈ s.sent, s.life w.target = .alive → w.id ∈ s.reached ∨ Carried s w

section
omit [DecidableEq ι]

lemma Backend.mem_sends : w ∈ b.sends ↔
    .wake w ∈ b.committed ∨ .wake w ∈ b.staged ∨ w ∈ b.inflight ∨ ∃ c ∈ b.cq, c.send = w := by
  have taken (x : Sqe ι) : x.send = some w ↔ x = .wake w := by
    cases x with
    | other => exact ⟨nofun,nofun⟩
    | wake => exact ⟨fun same => congrArg Sqe.wake (Option.some.inj same),fun same => by cases same; rfl⟩
  simp [sends,unsubmitted,submitted,taken]

lemma Backend.mem_sends_of_cq {c : Cqe ι} {rest : List (Cqe ι)} (first : b.cq = c::rest) (there : w ∈ b.sends) :
    w = c.send ∨ w ∈ sends { b with cq := rest } := by
  rcases mem_sends.1 there with committed | staged | flies | ⟨d,member,same⟩
  · exact .inr (mem_sends.2 (.inl committed))
  · exact .inr (mem_sends.2 (.inr (.inl staged)))
  · exact .inr (mem_sends.2 (.inr (.inr (.inl flies))))
  rw [first] at member
  rcases mem_cons.1 member with rfl | left
  · exact .inl same.symm
  · exact .inr (mem_sends.2 (.inr (.inr (.inr ⟨d,left,same⟩))))

lemma Backend.commit_sends : w ∈ b.commit.sends ↔ w ∈ b.sends := by simp [mem_sends,commit,or_assoc]

lemma Backend.consume_sends : w ∈ b.consume.sends ↔ w ∈ b.sends := by
  unfold consume
  split
  · rfl
  next first => simp [mem_sends,first]
  next first =>
  simp only [mem_sends,first,mem_cons,mem_append,Sqe.wake.injEq]
  grind

lemma Backend.consumes_sends (k : Nat) : w ∈ (b.consumes k).sends ↔ w ∈ b.sends := by
  induction k generalizing b with
  | zero => rfl
  | succ k ih => exact ih.trans consume_sends

lemma Backend.consume_rest : b.consume.fallback = b.fallback ∧ b.consume.cq = b.cq := by
  unfold consume
  split <;> exact ⟨rfl,rfl⟩

lemma Backend.consumes_rest (k : Nat) : (b.consumes k).fallback = b.fallback ∧ (b.consumes k).cq = b.cq := by
  induction k generalizing b with
  | zero => exact ⟨rfl,rfl⟩
  | succ k ih => exact ⟨ih.1.trans consume_rest.1,ih.2.trans consume_rest.2⟩
end
section
lemma Carried.setBackend (carried : Carried s w) (there : w ∈ (s.backend l).sends → w ∈ b.sends)
    (named : (s.backend l).fallback w.slot = some w.target → b.fallback w.slot = some w.target) :
    Carried (s.setBackend l b) w := by
  refine ⟨carried.running,?_,?_⟩
  · change w ∈ (update s.backend l b w.sender).sends
    rw [update_apply]
    split
    next here => exact there (here ▸ carried.there)
    · exact carried.there
  change (update s.backend l b w.sender).fallback w.slot = some w.target
  rw [update_apply]
  split
  next here => exact named (here ▸ carried.named)
  · exact carried.named

section
variable (inv : Inv s)
include inv

lemma success_setBackend {reached : List Nat} (more : s.reached ⊆ reached)
    (cq : ∀ c ∈ b.cq, c.ok → c.send.id ∈ reached) (x : ι) :
    ∀ c ∈ ((s.setBackend l b).backend x).cq, c.ok → c.send.id ∈ reached := by
  change ∀ c ∈ (update s.backend l b x).cq, c.ok → c.send.id ∈ reached
  rw [update_apply]
  split
  · exact cq
  · exact fun c member good => more (inv.success x c member good)

lemma Inv.setBackend (there : ∀ w, w ∈ (s.backend l).sends → w ∈ b.sends)
    (named : b.fallback = (s.backend l).fallback) (cq : b.cq = (s.backend l).cq) : Inv (s.setBackend l b) where
  born := inv.born
  success := success_setBackend inv (fun _ => id) (by rw [cq]; exact inv.success l)
  tracked w member alive := (inv.tracked w member alive).imp_right fun carried =>
    carried.setBackend (there w) (by rw [named]; exact id)

lemma Inv.signal (x : ι) : Inv (s.signal x) :=
  ⟨inv.born,inv.success,fun w member alive => (inv.tracked w member alive).imp_right fun carried =>
    ⟨carried.1,carried.2,carried.3⟩⟩

lemma stage_inv {slot : Nat} {x : ι} (running : s.phase l = .running)
    (handle : s.held (some x)) (free : s.held ((s.backend l).fallback slot) = false)
    (there : ∀ w, w ∈ (s.backend l).sends → w ∈ b.sends)
    (named : b.fallback = (s.backend l).fallback) (cq : b.cq = (s.backend l).cq) :
    Inv (s.stage l b slot x) where
  born w member := by
    rcases mem_append.1 member with old | new
    · exact inv.born w old
    cases mem_singleton.1 new
    intro unborn
    have unborn : s.life x = .unborn := unborn
    simp [held,unborn] at handle
  success := success_setBackend inv (fun _ => id) (by rw [cq]; exact inv.success l)
  tracked w member alive := by
    have lives : s.life w.target = .alive := alive
    rcases mem_append.1 member with old | new
    · rcases inv.tracked w old lives with reached | carried
      · exact .inl reached
      have kept : Carried (s.setBackend l { b with
          fallback := update b.fallback slot (some x)
          staged := b.staged++[.wake ⟨s.next,l,slot,x⟩] }) w := by
        refine carried.setBackend (fun here => ?_) fun here => ?_
        · have before := Backend.mem_sends.1 (there w here)
          refine Backend.mem_sends.2 (before.imp_right (Or.imp_left fun staged => ?_))
          exact mem_append_left _ staged
        have other : w.slot ≠ slot := by
          rintro rfl
          rw [here] at free
          simp [held,lives] at free
        change update b.fallback slot (some x) w.slot = some w.target
        rw [update_of_ne other,named]
        exact here
      exact .inr ⟨kept.1,kept.2,kept.3⟩
    cases mem_singleton.1 new
    refine .inr ⟨running,?_,?_⟩
    · change _ ∈ (update s.backend l _ l).sends
      rw [update_self]
      exact Backend.mem_sends.2 (.inr (.inl (mem_append_right _ mem_cons_self)))
    change (update s.backend l _ l).fallback slot = some x
    rw [update_self]
    exact update_self _ _ _

lemma afterPush_inv {x : ι} {enter : Option Nat} (running : s.phase l = .running)
    (handle : s.held (some x)) : Inv (s.afterPush l x enter) := by
  have wake : Inv (s.msgRingWake l x enter).1 := by
    unfold msgRingWake
    dsimp only
    split
    · exact inv
    split
    · exact inv.setBackend (fun _ => id) rfl rfl
    rename_i unheld
    have free := Bool.eq_false_iff.2 unheld
    split
    · exact stage_inv inv running handle free (fun _ => id) rfl rfl
    have flushed (w : Send ι) : w ∈ (s.backend l).sends → w ∈ (s.backend l).commit.sends := Backend.commit_sends.2
    split
    · exact inv.setBackend flushed rfl rfl
    next k =>
    have taken (w : Send ι) (member : w ∈ (s.backend l).sends) :
        w ∈ (consumes { (s.backend l).commit with head := (s.backend l).head+1 } k).sends :=
      (Backend.consumes_sends k).2 (flushed w member)
    have rest := Backend.consumes_rest (b := { (s.backend l).commit with head := (s.backend l).head+1 }) k
    split
    · exact stage_inv inv running handle free taken rest.1 rest.2
    · exact inv.setBackend taken rest.1 rest.2
  unfold afterPush
  dsimp only
  split
  · exact wake
  · exact wake.signal x

lemma complete_inv {i : Nat} {ok : Bool} (found : (s.backend l).inflight[i]? = some w) : Inv (s.complete l i w ok) := by
  have there (v : Send ι) (here : v ∈ (s.backend l).sends) : v ∈ sends { s.backend l with
      inflight := (s.backend l).inflight.eraseIdx i, cq := (s.backend l).cq++[⟨w,ok⟩] } := by
    obtain ⟨bound,same⟩ := List.getElem?_eq_some_iff.1 found
    refine Backend.mem_sends.2 ((Backend.mem_sends.1 here).imp_right (Or.imp_right fun flying => ?_))
    rcases flying with flies | ⟨c,member,same⟩
    · rw [← (getElem_cons_eraseIdx_perm bound).mem_iff,same] at flies
      rcases mem_cons.1 flies with rfl | left
      · exact .inr ⟨_,mem_append_right _ mem_cons_self,rfl⟩
      · exact .inl left
    · exact .inr ⟨c,mem_append_left _ member,same⟩
  have carried (v : Send ι) (before : Carried s v) : Carried (s.setBackend l { s.backend l with
      inflight := (s.backend l).inflight.eraseIdx i, cq := (s.backend l).cq++[⟨w,ok⟩] }) v :=
    before.setBackend (there v) id
  have good (reached : List Nat) (more : s.reached ⊆ reached) (now : ok → w.id ∈ reached) :
      ∀ c ∈ (s.backend l).cq++[⟨w,ok⟩], c.ok → c.send.id ∈ reached := by
    intro c member succeeded
    rcases mem_append.1 member with old | new
    · exact more (inv.success l c old succeeded)
    cases mem_singleton.1 new
    exact now succeeded
  unfold complete
  split
  · have more : s.reached ⊆ s.reached++[w.id] := subset_append_left _ _
    refine ⟨inv.born,success_setBackend inv more (good _ more fun _ => ?_),fun v member alive => ?_⟩
    · exact mem_append_right _ mem_cons_self
    rcases inv.tracked v member alive with reached | before
    · exact .inl (more reached)
    · exact .inr ⟨(carried v before).1,(carried v before).2,(carried v before).3⟩
  next failed =>
  refine ⟨inv.born,success_setBackend inv (fun _ => id) (good _ (fun _ => id) fun done => ?_),
    fun v member alive => (inv.tracked v member alive).imp_right (carried v)⟩
  exact absurd done failed
end

def drained (s : MsgRing ι) (l : ι) (c : Cqe ι) : List Nat :=
  if c.ok = false ∧ (s.backend l).fallback c.send.slot = some c.send.target ∧ s.held (some c.send.target) then
    s.reached++[c.send.id]
  else s.reached

lemma drain_fields (c : Cqe ι) (rest : List (Cqe ι)) : (s.drain l c rest).life = s.life ∧
    (s.drain l c rest).phase = s.phase ∧ (s.drain l c rest).sent = s.sent ∧
    (s.drain l c rest).backend = (s.setBackend l { s.backend l with
    cq := rest, fallback := update (s.backend l).fallback c.send.slot none }).backend ∧
    (s.drain l c rest).reached = s.drained l c := by
  unfold drain drained
  dsimp only
  split
  next good => exact ⟨rfl,rfl,rfl,rfl,(if_neg (by simp [good])).symm⟩
  rename_i bad
  split
  next empty => exact ⟨rfl,rfl,rfl,rfl,(if_neg (by simp [empty])).symm⟩
  rename_i x named
  split
  next held =>
    refine ⟨rfl,rfl,rfl,rfl,?_⟩
    by_cases same : x = c.send.target
    · subst same
      exact (if_pos rfl).trans (if_pos ⟨Bool.eq_false_iff.2 bad,named,held⟩).symm
    refine (if_neg same).trans (if_neg ?_).symm
    rintro ⟨_,here,_⟩
    exact same (Option.some.inj (named.symm.trans here))
  next gone =>
  refine ⟨rfl,rfl,rfl,rfl,(if_neg ?_).symm⟩
  rintro ⟨_,here,held⟩
  rw [named] at here
  cases here
  exact gone held

lemma drain_inv {c : Cqe ι} {rest : List (Cqe ι)} (inv : Inv s) (first : (s.backend l).cq = c::rest)
    (own : ∀ w ∈ sends { s.backend l with cq := rest }, w.slot = c.send.slot →
      s.life w.target = .alive → w.id ∈ s.reached) : Inv (s.drain l c rest) := by
  obtain ⟨life,phase,sent,backend,reached⟩ := drain_fields c rest
  have more : s.reached ⊆ s.drained l c := by
    unfold drained
    split
    · exact subset_append_left _ _
    · exact fun _ => id
  constructor
  · rw [life,sent]
    exact inv.born
  · rw [backend,reached]
    refine success_setBackend inv more fun d member good => more (inv.success l d ?_ good)
    exact first ▸ mem_cons_of_mem _ member
  rw [life,sent,reached]
  intro w member alive
  rcases inv.tracked w member alive with before | carried
  · exact .inl (more before)
  by_cases here : w.sender = l
  · have there := here ▸ carried.there
    have named := here ▸ carried.named
    rcases Backend.mem_sends_of_cq first there with rfl | left
    · -- the wake is the one that has completed
      refine .inl ?_
      by_cases good : c.ok
      · exact more (inv.success l c (first ▸ mem_cons_self) good)
      have held : s.held (some c.send.target) := by simp [held,alive]
      unfold drained
      rw [if_pos ⟨Bool.eq_false_iff.2 good,named,held⟩]
      exact mem_append_right _ mem_cons_self
    by_cases same : w.slot = c.send.slot
    · exact .inl (more (own w left same alive))
    refine .inr ⟨by rw [phase]; exact carried.running,?_,?_⟩
    · rw [backend,here]
      change w ∈ (update s.backend l _ l).sends
      rw [update_self]
      exact left
    rw [backend,here]
    change (update s.backend l _ l).fallback w.slot = some w.target
    rw [update_self]
    exact (update_of_ne same _ _).trans named
  refine .inr ⟨by rw [phase]; exact carried.running,?_,?_⟩
  · rw [backend]
    change w ∈ (update s.backend l _ w.sender).sends
    rw [update_of_ne here]
    exact carried.there
  rw [backend]
  change (update s.backend l _ w.sender).fallback w.slot = some w.target
  rw [update_of_ne here]
  exact carried.named

lemma Inv.setLife (inv : Inv s) {life : Life} (gone : life ≠ .unborn ∧ life ≠ .alive) :
    Inv { s with life := update s.life l life } where
  born w member := by
    change update s.life l life w.target ≠ .unborn
    rw [update_apply]
    split
    · exact gone.1
    · exact inv.born w member
  success := inv.success
  tracked w member alive := by
    change update s.life l life w.target = .alive at alive
    rw [update_apply] at alive
    split at alive
    · exact absurd alive gone.2
    · exact (inv.tracked w member alive).imp_right fun carried => ⟨carried.1,carried.2,carried.3⟩

lemma create_inv (inv : Inv s) (new : s.life l = .unborn) : Inv { s with life := update s.life l .alive } where
  born w member := by
    change update s.life l .alive w.target ≠ .unborn
    rw [update_apply]
    split
    · nofun
    · exact inv.born w member
  success := inv.success
  tracked w member alive := by
    have other : w.target ≠ l := fun same => inv.born w member (same ▸ new)
    change update s.life l .alive w.target = .alive at alive
    rw [update_of_ne other] at alive
    exact (inv.tracked w member alive).imp_right fun carried => ⟨carried.1,carried.2,carried.3⟩

lemma run_inv (inv : Inv s) : Inv { s with phase := update s.phase l .running } where
  born := inv.born
  success := inv.success
  tracked w member alive := by
    refine (inv.tracked w member alive).imp_right fun carried => ⟨?_,carried.2,carried.3⟩
    change update s.phase l .running w.sender = .running
    rw [update_apply]
    split
    · rfl
    · exact carried.running

lemma leave_inv (inv : Inv s) (done : ∀ w ∈ (s.backend l).sends, s.life w.target = .alive → w.id ∈ s.reached) :
    Inv { s with phase := update s.phase l .left } where
  born := inv.born
  success := inv.success
  tracked w member alive := by
    rcases inv.tracked w member alive with reached | carried
    · exact .inl reached
    by_cases here : w.sender = l
    · exact .inl (done w (here ▸ carried.there) alive)
    refine .inr ⟨?_,carried.2,carried.3⟩
    change update s.phase l .left w.sender = .running
    rw [update_of_ne here]
    exact carried.running

/-- A loop leaves `run` when its wakes to live loops have reached them, and no completion is drained while such a wake
has its slot. -/
def Careful (s : MsgRing ι) (m : Move ι) : Prop := match m with
  | .leave l => ∀ w ∈ (s.backend l).sends, s.life w.target = .alive → w.id ∈ s.reached
  | .drain l => ∀ c ∈ (s.backend l).cq.head?,
    ∀ w ∈ sends { s.backend l with cq := (s.backend l).cq.tail },
      w.slot = c.send.slot → s.life w.target = .alive → w.id ∈ s.reached
  | .create _ | .run _ | .destroy _ | .release _ | .post _ _ _ | .stage _ | .commit _ | .consume _
  | .complete _ _ _ => True

lemma step_inv {m : Move ι} (inv : Inv s) (careful : s.Careful m) (taken : s.step m = some t) : Inv t := by
  cases m with
  | create =>
    obtain ⟨new,rfl⟩ := enabled taken
    exact create_inv inv new
  | run =>
    obtain ⟨_,rfl⟩ := enabled taken
    exact run_inv inv
  | leave =>
    obtain ⟨_,rfl⟩ := enabled taken
    exact leave_inv inv careful
  | destroy | release =>
    obtain ⟨_,rfl⟩ := enabled taken
    exact inv.setLife ⟨nofun,nofun⟩
  | post =>
    obtain ⟨⟨running,handle⟩,rfl⟩ := enabled taken
    exact afterPush_inv inv running handle
  | stage =>
    obtain ⟨_,rfl⟩ := enabled taken
    refine inv.setBackend (fun w member => ?_) rfl rfl
    refine Backend.mem_sends.2 ((Backend.mem_sends.1 member).imp_right (Or.imp_left fun staged => ?_))
    exact mem_append_left _ staged
  | commit =>
    obtain ⟨_,rfl⟩ := enabled taken
    exact inv.setBackend (fun w => Backend.commit_sends.2) rfl rfl
  | consume =>
    cases taken
    exact inv.setBackend (fun w => Backend.consume_sends.2) Backend.consume_rest.1 Backend.consume_rest.2
  | complete =>
    rw [step] at taken
    split at taken
    · cases taken
    next found =>
    cases taken
    exact complete_inv inv found
  | drain =>
    rw [step] at taken
    split at taken
    · cases taken
    next c _ first =>
    obtain ⟨_,rfl⟩ := enabled taken
    refine drain_inv inv first fun w member => careful c (by rw [first]; rfl) w ?_
    rw [first]
    exact member
end

/-- Whatever the loops post and in whatever order the kernel works: a wake has reached its target, or is on its way on a
loop that runs. -/
theorem wake_never_lost {entries : ι → Nat} {msgringOk : ι → Bool} {moves : List (Move ι)}
    (run : Exec (Guarded (Via step) Careful) (create entries msgringOk) moves s)
    (taken : w ∈ s.sent) (alive : s.life w.target = .alive) :
    w.id ∈ s.reached ∨ s.phase w.sender = .running ∧ (w ∈ (s.backend w.sender).unsubmitted ∨
      w ∈ (s.backend w.sender).submitted ∧ (s.backend w.sender).fallback w.slot = some w.target) := by
  have inv : Inv s := by
    refine run.invariant Inv (fun _ _ _ taken inv => step_inv inv taken.1 taken.2) ?_
    exact ⟨nofun,nofun,nofun⟩
  refine (inv.tracked w taken alive).imp_right fun carried => ⟨carried.running,?_⟩
  exact (mem_append.1 carried.there).imp_right fun member => ⟨member,carried.named⟩

instance (s : MsgRing ι) (m : Move ι) : Decidable (s.Careful m) := match m with
  | .leave _ => inferInstanceAs (Decidable (∀ w ∈ _, _ = _ → _ ∈ _))
  | .drain l => inferInstanceAs (Decidable (∀ c ∈ (s.backend l).cq.head?, ∀ w ∈ _, _ = _ → _ = _ → _ ∈ _))
  | .create _ | .run _ | .destroy _ | .release _ | .post _ _ _ | .stage _ | .commit _ | .consume _
  | .complete _ _ _ => .isTrue trivial

def fourLoops : MsgRing (Fin 4) := create (fun _ => 1) fun _ => true

def started : List (Move (Fin 4)) := [.create 0,.create 1,.create 2,.create 3,.run 0]

theorem failedSend_reaches : ∃ s, Exec (Guarded (Via step) Careful) fourLoops
    (started++[.post 0 1 none,.commit 0,.consume 0,.complete 0 0 false,.drain 0,.leave 0]) s ∧
      (s.sent = [⟨0,0,0,1⟩] ∧ s.life 1 = .alive ∧ s.signals 1 = 1 ∧ s.phase 0 = .left) ∧
      (0 ∈ s.reached ∨ s.phase 0 = .running ∧ (⟨0,0,0,1⟩ ∈ (s.backend 0).unsubmitted ∨
        ⟨0,0,0,1⟩ ∈ (s.backend 0).submitted ∧ (s.backend 0).fallback 0 = some 1)) :=
  Exec.seen_of_drive (by decide +kernel) fun _ run seen => wake_never_lost run (seen.1 ▸ mem_cons_self) seen.2.1

/-- A loop leaves `run` with a staged wake. A wake takes over a slot whose target is gone, and its send fails. -/
theorem wake_lost :
    (∃ s, Exec (Guarded (Via step) fun _ _ => True) fourLoops
      (started++[.post 0 1 none,.leave 0]) s ∧
        s.sent = [⟨0,0,0,1⟩] ∧ s.life 1 = .alive ∧ s.signals 1 = 0 ∧ s.reached = [] ∧ s.phase 0 = .left) ∧
    ∃ s, Exec (Guarded (Via step) fun _ _ => True) fourLoops
      (started++[.post 0 1 none,.post 0 2 (some 1),.complete 0 0 true,.destroy 1,.release 1]++
        List.replicate 62 (.post 0 2 (some 1))++
        [.post 0 3 (some 1),.drain 0,.commit 0,.consume 0,.complete 0 63 false,.drain 0]) s ∧
        ⟨64,0,0,3⟩ ∈ s.sent ∧ s.life 3 = .alive ∧ s.signals 3 = 0 ∧ s.phase 0 = .running ∧
        ⟨64,0,0,3⟩ ∉ (s.backend 0).sends ∧ 64 ∉ s.reached :=
  ⟨Exec.end_of_drive (by decide +kernel),Exec.end_of_drive (by decide +kernel)⟩

end MsgRing
end AffiniX
