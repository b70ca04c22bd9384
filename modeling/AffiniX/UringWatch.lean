import AffiniX.Epoll

/-! The watches of the io_uring backend: `attach`, `modify` and `detach` stage poll requests. -/
namespace AffiniX
open Transition List
open Epoll (ecanceled)
namespace UringWatch
/-- `replaced` marks the removal of a poll that a new one takes the place of. -/
inductive Sqe
  | add (fd tag : Nat)
  | remove (tag : Nat) (replaced : Bool)
deriving DecidableEq

structure Cqe where
  tag : Nat
  res : Int
  more : Bool
  replaced : Bool := false
deriving DecidableEq

/-- The outstanding polls, a descriptor and a tag each, once the kernel has taken the entry. -/
def Sqe.apply (polls : List (Nat × Nat)) : Sqe → List (Nat × Nat)
  | .add fd tag => polls++[(fd,tag)]
  | .remove tag _ => polls.eraseP fun p => p.2 = tag

def Sqe.posts (polls : List (Nat × Nat)) : Sqe → List Cqe
  | .add _ _ => []
  | .remove tag replaced => if polls.any fun p => p.2 = tag then [⟨tag,-ecanceled,false,replaced⟩] else []
end UringWatch

structure UringWatch where
  watch : List (Nat × Nat) := []
  swallow : Finset Nat := ∅
  sq : List UringWatch.Sqe := []
  polls : List (Nat × Nat) := []
  cq : List UringWatch.Cqe := []
  reported : List UringWatch.Cqe := []

namespace UringWatch
/-- `room` is how many entries a call can get from the submission queue, and `complete` is the kernel's
own completion of a poll. -/
inductive Move
  | attach (fd tag room : Nat)
  | modify (fd tag room : Nat)
  | detach (fd room : Nat)
  | take
  | complete (i : Nat) (res : Int) (more : Bool)
  | drain

def find (s : UringWatch) (fd : Nat) : Option (Nat × Nat) := s.watch.find? fun p => p.1 = fd

variable (s : UringWatch)

def erase (fd : Nat) : List (Nat × Nat) := s.watch.filter fun p => p.1 ≠ fd

def add (s : UringWatch) (fd tag : Nat) : UringWatch :=
  { s with sq := s.sq++[.add fd tag], watch := (fd,tag)::s.erase fd }

def remove (s : UringWatch) (tag : Nat) (replaced : Bool) : UringWatch :=
  { s with sq := s.sq++[.remove tag replaced] }

def attach (fd tag room : Nat) : UringWatch := match s.find fd,room with
  | _,0 => s
  | none,_+1 => s.add fd tag
  | some old,1 => s.remove old.2 true
  | some old,_+2 => (s.remove old.2 true).add fd tag

def modify (fd tag room : Nat) : UringWatch := match s.find fd,room with
  | none,_ | _,0 => s
  | some old,1 => { s.remove old.2 true with swallow := insert old.2 s.swallow }
  | some old,_+2 => add { s.remove old.2 true with swallow := insert old.2 s.swallow } fd tag

def detach (fd room : Nat) : UringWatch := match s.find fd,room with
  | none,_ | _,0 => s
  | some old,_+1 => { s.remove old.2 false with watch := s.erase fd }

def step : Move → Option UringWatch
  | .attach fd tag room => some (s.attach fd tag room)
  | .modify fd tag room => some (s.modify fd tag room)
  | .detach fd room => some (s.detach fd room)
  | .take =>
    match s.sq with
    | [] => none
    | e::rest => some { s with sq := rest, polls := e.apply s.polls, cq := s.cq++e.posts s.polls }
  | .complete i res more =>
    match s.polls[i]? with
    | none => none
    | some p =>
      some { s with cq := s.cq++[⟨p.2,res,more,false⟩], polls := if more then s.polls else s.polls.eraseIdx i }
  | .drain =>
    match s.cq with
    | [] => none
    | c::rest =>
      if c.res = -ecanceled ∧ c.tag ∈ s.swallow then
        some { s with cq := rest, swallow := s.swallow.erase c.tag }
      else some { s with cq := rest, reported := s.reported++[c] }

def settled : List (Nat × Nat) := s.sq.foldl Sqe.apply s.polls

def Cqe.cancelled (c : Cqe) : Option (Nat × Bool) := if c.res = -ecanceled then some (c.tag,c.replaced) else none

def Sqe.cancels : Sqe → Option (Nat × Bool)
  | .add _ _ => none
  | .remove tag replaced => some (tag,replaced)

def coming : List (Nat × Bool) := s.cq.filterMap Cqe.cancelled++s.sq.filterMap Sqe.cancels

def Fresh (tag : Nat) : Prop := (∀ p ∈ s.watch, p.2 ≠ tag) ∧ (tag,false) ∉ s.coming

/-- The kernel ends no poll, a watched descriptor is not attached again, and a `modify` gets both entries and comes
after the cancellation before it was drained. -/
def Mild : Move → Prop
  | .attach fd tag room => room = 0 ∨ s.find fd = none ∧ s.Fresh tag
  | .modify fd tag room => room ≠ 1 ∧ ∀ old ∈ s.find fd, old.2 ∉ s.swallow ∧ (tag = old.2 ∨ s.Fresh tag)
  | .complete _ res more => more ∧ res ≠ -ecanceled
  | .detach _ _ | .take | .drain => True

instance (s : UringWatch) (tag : Nat) : Decidable (s.Fresh tag) := instDecidableAnd

instance (s : UringWatch) : DecidablePred s.Mild
  | .attach _ _ _ => instDecidableOr
  | .modify _ _ _ | .complete _ _ _ => instDecidableAnd
  | .detach _ _ | .take | .drain => .isTrue trivial

def Sound (polls : List (Nat × Nat)) : List Sqe → Prop
  | [] => True
  | e::rest => (∀ tag replaced, e = .remove tag replaced → ∃ p ∈ polls, p.2 = tag) ∧ Sound (e.apply polls) rest

lemma Sound.append {polls : List (Nat × Nat)} {sq : List Sqe} {e : Sqe} (sound : Sound polls sq)
    (finds : ∀ tag replaced, e = .remove tag replaced → ∃ p ∈ sq.foldl Sqe.apply polls, p.2 = tag) :
    Sound polls (sq++[e]) := by
  induction sq generalizing polls with
  | nil => exact ⟨finds,trivial⟩
  | cons _ _ ih => exact ⟨sound.1,ih sound.2 finds⟩

structure Inv (s : UringWatch) : Prop where
  armed : ∀ p ∈ s.watch, p ∈ s.settled
  distinct : ∀ p ∈ s.watch, ∀ q ∈ s.watch, p.2 = q.2 → p = q
  sound : Sound s.polls s.sq
  swallowed : ∀ tag, tag ∈ s.swallow ↔ (tag,true) ∈ s.coming
  ordered : s.coming.Pairwise fun a b => a.1 = b.1 → a.2 = true ∧ b.2 = false
  watched : ∀ p ∈ s.watch, (p.2,false) ∉ s.coming
  clean : ∀ c ∈ s.reported, ¬ (c.res = -ecanceled ∧ c.replaced)

variable {s t : UringWatch} {fd tag : Nat} {old : Nat × Nat} {replaced : Bool}

lemma add_coming : (s.add fd tag).coming = s.coming := by simp [add,coming,Sqe.cancels]

lemma add_settled : (s.add fd tag).settled = s.settled++[(fd,tag)] := by simp [add,settled,Sqe.apply]

lemma Inv.add (inv : s.Inv) (fd : Nat) (fresh : s.Fresh tag) : (s.add fd tag).Inv := by
  obtain ⟨armed,distinct,sound,swallowed,ordered,watched,clean⟩ := inv
  have same : (s.add fd tag).coming = s.coming := add_coming
  refine ⟨?_,?_,sound.append (e := .add fd tag) nofun,same ▸ swallowed,same ▸ ordered,?_,clean⟩
  · grind [add_settled,UringWatch.add,UringWatch.erase]
  · grind [UringWatch.add,UringWatch.erase,Fresh]
  · grind [add_coming,UringWatch.add,UringWatch.erase,Fresh]

def retire (s : UringWatch) (fd tag : Nat) (replaced : Bool) : UringWatch :=
  { s.remove tag replaced with
    watch := s.erase fd, swallow := if replaced then insert tag s.swallow else s.swallow }

lemma retire_coming : (s.retire fd tag replaced).coming = s.coming++[(tag,replaced)] := by
  simp [retire,remove,coming,Sqe.cancels]

lemma retire_settled : (s.retire fd tag replaced).settled = s.settled.eraseP fun p => p.2 = tag := by
  simp [retire,remove,settled,Sqe.apply]

lemma Inv.retire (inv : s.Inv) (found : s.find fd = some old) (replaced : Bool)
    (once : replaced → old.2 ∉ s.swallow) : (s.retire fd old.2 replaced).Inv := by
  obtain ⟨armed,distinct,sound,_,ordered,_,clean⟩ := inv
  have mem : old ∈ s.watch := mem_of_find?_eq_some found
  have own := find?_some found
  have other (p) (kept : p ∈ s.erase fd) : p ∈ s.watch ∧ p.2 ≠ old.2 := by grind -ring -linarith [UringWatch.erase]
  have sound := sound.append (e := .remove old.2 replaced) (by grind -ring -linarith [UringWatch.settled])
  constructor
  · intro p kept
    obtain ⟨there,away⟩ := other p kept
    rw [retire_settled,mem_eraseP_of_neg (by simpa using away)]
    exact armed p there
  · exact fun p kept q kept' => distinct p (other p kept).1 q (other q kept').1
  · exact sound
  · grind -ring -linarith [retire_coming,UringWatch.retire,UringWatch.remove]
  · rw [retire_coming]
    refine pairwise_append.2 ⟨ordered,pairwise_singleton _ _,?_⟩
    rintro ⟨tag,flag⟩ before _ (_ | ⟨_,⟨⟩⟩) (rfl : tag = old.2)
    cases flag <;> grind -ring -linarith
  · grind -ring -linarith [retire_coming,UringWatch.retire]
  · exact clean

lemma Inv.modify {room : Nat} (inv : s.Inv) (mild : s.Mild (.modify fd tag room)) : (s.modify fd tag room).Inv := by
  unfold UringWatch.modify
  split
  · exact inv
  · exact inv
  · exact absurd rfl mild.1
  next old _ found =>
  obtain ⟨once,_⟩ := mild.2 old found
  have mem : old ∈ s.watch := mem_of_find?_eq_some found
  have fresh : (s.retire fd old.2 true).Fresh tag := by
    grind -ring -linarith [Fresh,retire_coming,UringWatch.retire,UringWatch.erase,UringWatch.find,inv.watched old mem,
      inv.distinct old mem]
  have added := (inv.retire found true fun _ => once).add fd fresh
  simpa [UringWatch.add,UringWatch.retire,UringWatch.remove,erase,filter_filter] using added

lemma Inv.take {e : Sqe} {rest : List Sqe} (inv : s.Inv) (staged : s.sq = e::rest) :
    Inv { s with sq := rest, polls := e.apply s.polls, cq := s.cq++e.posts s.polls } := by
  have sound : Sound s.polls (e::rest) := staged ▸ inv.sound
  have coming : coming { s with sq := rest, polls := e.apply s.polls, cq := s.cq++e.posts s.polls } = s.coming := by
    unfold UringWatch.coming
    rw [staged]
    cases e with
    | add => simp [Sqe.posts,filterMap_cons,Sqe.cancels]
    | remove tag replaced =>
      have found := sound.1 tag replaced rfl
      simp_all [Sqe.posts,Sqe.cancels,Cqe.cancelled]
  have settled : settled { s with sq := rest, polls := e.apply s.polls, cq := s.cq++e.posts s.polls } = s.settled := by
    simp [UringWatch.settled,staged]
  exact ⟨settled ▸ inv.armed,inv.distinct,sound.2,coming ▸ inv.swallowed,coming ▸ inv.ordered,
    coming ▸ inv.watched,inv.clean⟩

lemma Inv.drain {c : Cqe} {rest : List Cqe} (inv : s.Inv) (queue : s.cq = c::rest)
    (taken : s.step .drain = some t) : t.Inv := by
  obtain ⟨armed,distinct,sound,swallowed,ordered,watched,clean⟩ := inv
  by_cases cancelled : c.res = -ecanceled
  · have coming : s.coming = (c.tag,c.replaced)::t.coming := by grind -ring -linarith [step,UringWatch.coming,Cqe.cancelled]
    rw [coming,pairwise_cons] at ordered
    -- of the cancellations with one tag only the first can be of a replaced poll
    obtain ⟨_,later⟩ := ordered
    simp only [step,queue] at taken
    split at taken <;> cases taken
    · exact ⟨armed,distinct,sound,by grind,later,by grind,clean⟩
    · exact ⟨armed,distinct,sound,by grind,later,by grind,by grind⟩
  have coming : s.coming = t.coming := by grind -ring -linarith [step,UringWatch.coming,Cqe.cancelled]
  simp only [step,queue,cancelled,false_and,if_false] at taken
  cases taken
  exact ⟨armed,distinct,sound,coming ▸ swallowed,coming ▸ ordered,coming ▸ watched,by grind⟩

lemma step_inv {m : Move} (inv : s.Inv) (taken : s.step m = some t) (mild : s.Mild m) : t.Inv := by
  cases m with
  | attach fd _ room =>
    cases taken
    unfold attach
    rcases mild with rfl | ⟨unwatched,fresh⟩
    · simpa using inv
    cases room with
    | zero => simpa using inv
    | succ => simpa [unwatched] using inv.add fd fresh
  | modify =>
    cases taken
    exact inv.modify mild
  | detach =>
    cases taken
    unfold detach
    split
    · exact inv
    · exact inv
    · exact inv.retire ‹_› false nofun
  | take =>
    rw [step] at taken
    split at taken
    · cases taken
    cases taken
    exact inv.take ‹_›
  | complete _ res =>
    rw [step] at taken
    split at taken
    · cases taken
    next p _ =>
    cases taken
    obtain ⟨rfl,other⟩ := mild
    have coming : coming { s with cq := s.cq++[⟨p.2,res,true,false⟩] } = s.coming := by
      simp [UringWatch.coming,Cqe.cancelled,other]
    exact ⟨inv.armed,inv.distinct,inv.sound,coming ▸ inv.swallowed,coming ▸ inv.ordered,coming ▸ inv.watched,inv.clean⟩
  | drain =>
    cases queue : s.cq with
    | nil => simp [step,queue] at taken
    | cons => exact inv.drain queue taken

lemma mem_settled {p : Nat × Nat} {sq : List Sqe} {polls : List (Nat × Nat)}
    (mem : p ∈ sq.foldl Sqe.apply polls) : .add p.1 p.2 ∈ sq ∨ p ∈ polls := by
  induction sq generalizing polls with
  | nil => exact .inr mem
  | cons e => cases e <;> grind -ring -linarith [Sqe.apply,mem_of_mem_eraseP]

/-- Under `Mild` every watch has a poll with its tag, staged or outstanding, and the cancellation of a poll
that was replaced is not reported. -/
theorem watches_stay_armed {moves : List Move}
    (run : Exec (Guarded (Via step) Mild) {} moves s) :
    (∀ p ∈ s.watch, .add p.1 p.2 ∈ s.sq ∨ p ∈ s.polls) ∧ ∀ c ∈ s.reported, ¬ (c.res = -ecanceled ∧ c.replaced) := by
  have inv := run.invariant Inv (fun _ _ _ moved inv => step_inv inv moved.2 moved.1)
    ⟨nofun,nofun,trivial,by simp [coming],.nil,nofun,nofun⟩
  exact ⟨fun p mem => mem_settled (inv.armed p mem),inv.clean⟩

theorem modified_stays_armed : ∃ s, Exec (Guarded (Via step) Mild) {}
      [.attach 4 9 1,.take,.complete 0 1 true,.modify 4 9 2,.take,.take,.drain,.drain,.detach 4 1,.take,
        .drain,.attach 4 10 1] s ∧
    s.reported.length = 2 ∧ ∀ p ∈ s.watch, .add p.1 p.2 ∈ s.sq ∨ p ∈ s.polls :=
  Exec.seen_of_drive (by decide) fun _ run _ => (watches_stay_armed run).1

/-- The kernel ends a poll and nothing arms another; a `modify` too early, or a second `attach`, reports a
cancellation. -/
theorem watch_left_unarmed :
    (∃ s, Exec (Via step) {} [.attach 4 9 1,.take,.complete 0 1 false,.drain] s ∧
      s.watch = [(4,9)] ∧ s.sq = [] ∧ s.polls = []) ∧
    (∃ s, Exec (Via step) {} [.attach 4 9 1,.modify 4 9 2,.modify 4 9 2,
        .take,.take,.take,.take,.take,.drain,.drain] s ∧ s.reported = [⟨9,-ecanceled,false,true⟩]) ∧
    (∃ s, Exec (Via step) {} [.attach 4 9 1,.attach 4 10 2,.take,.take,.take,.drain] s ∧
      s.reported = [⟨9,-ecanceled,false,true⟩]) ∧
    ∃ s, Exec (Via step) {} [.attach 4 9 1,.modify 4 9 1,.take,.take] s ∧
      s.watch = [(4,9)] ∧ s.sq = [] ∧ s.polls = [] :=
  ⟨Exec.run_of_drive (by decide) fun _ _ => id,Exec.run_of_drive (by decide) fun _ _ => id,
    Exec.run_of_drive (by decide) fun _ _ => id,Exec.run_of_drive (by decide) fun _ _ => id⟩

end UringWatch
end AffiniX
