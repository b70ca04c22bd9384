import AffiniX.GroupAwait

/-! `when_all` and `when_any` resume the coroutine once. -/
namespace AffiniX.GroupAwait
open Transition CallStack Function List
section
def Frame.runs : Frame → Option Nat
  | .child i => some i
  | .suspend _ | .others _ _ | .cancel _ | .dtor _ | .parent => none

def Frame.harmless (n : Nat) : Frame → Bool
  | .cancel i => n ≤ i+1
  | .suspend _ | .child _ | .others _ _ | .dtor _ | .parent => false

def Frame.loopOver (n : Nat) : Frame → Bool
  | .cancel i => n ≤ i+1
  | .suspend _ | .child _ | .others _ _ | .dtor _ | .parent => true

def Over (n : Nat) (suspended : Bool) (f : Frame) (rest : List Frame) : Prop := match f with
  | .parent => ∀ g ∈ rest, g.harmless n
  | .dtor _ => ∀ g ∈ rest, g.harmless n ∨ g = .parent
  | .others _ _ => (∀ g ∈ rest, ∀ k i, g ≠ .others k i) ∧ (suspended → ∀ g ∈ rest, g.harmless n)
  | .suspend _ => rest = []
  | .child _ | .cancel _ => True

def Settled (n : Nat) (suspended : Bool) : List Frame → Prop
  | [] => True
  | f::rest => Over n suspended f rest ∧ Settled n suspended rest

def Done (s : GroupAwait) : Prop := match s.kind with
  | .all => s.remaining = 0
  | .any => s.won = true

lemma done_all {s : GroupAwait} (all : s.kind = .all) : s.Done ↔ s.remaining = 0 := by
  unfold Done
  rw [all]

lemma done_any {s : GroupAwait} (any : s.kind = .any) : s.Done ↔ s.won := by
  unfold Done
  rw [any]

def Fact (s : GroupAwait) (f : Frame) : Prop := match f with
  | .suspend i => i < s.n ∧ s.parentSuspended = false ∧ s.resumes = 0 ∧ s.dead = false ∧
    ∀ j, i < j → (s.children j).status = .fresh
  | .others _ _ => s.kind = .any ∧ s.won ∧ s.resumes = 0 ∧ s.dead = false
  | .dtor _ => s.dead
  | .parent => s.awaited = false ∨ s.resumes = 1 ∨ s.n = 0
  | .child _ | .cancel _ => True
end

def unfinished (s : GroupAwait) : List Nat := (List.range s.n).filter fun i => (s.children i).status ≠ .finished

structure Counted (s : GroupAwait) : Prop where
  hooked : ∀ i, (s.children i).promise.cancel ≠ none → (s.children i).status = .parked
  inside : ∀ i, s.n ≤ i → (s.children i).status = .fresh
  count : s.dead = false → s.kind = .all → s.remaining = s.unfinished.length
  first : s.dead = false → s.kind = .any → (s.won ↔ ∃ i, (s.children i).status = .finished)
  recorded : s.recorded = if s.won then [s.winner] else []

structure Core (s : GroupAwait) : Prop where
  counted : Counted s
  running : Distinct Frame.runs s.stack fun i => (s.children i).status = .running
  settled : Settled s.n s.parentSuspended s.stack
  facts : ∀ f ∈ s.stack, s.Fact f
  gone : s.alive = false → s.dead ∧ ∀ f ∈ s.stack, f.harmless s.n ∨ f = .parent
  idle : s.awaited = false → s.stack = [.parent] ∧ s.parent.cancel = none ∧ s.resumes = 0 ∧
    s.dead = false ∧ s.parentSuspended = false ∧ ∀ i, (s.children i).status = .fresh
  starting : s.awaited → s.parentSuspended = false → s.resumes = 0 → s.dead = false →
    s.n = 0 ∨ ∃ i, .suspend i ∈ s.stack
  resumed : s.resumes ≤ 1 ∧ (s.resumes = 1 → s.Done ∧ s.parent.cancel = none)
  awake : s.wake → s.Done
  sound : s.fault = false

structure Inv (s : GroupAwait) : Prop extends Core s where
  pending : s.Done → s.n = 0 ∨ s.dead ∨ s.resumes = 1 ∨ s.wake ∧ s.parentSuspended = false ∨
    ∃ k i, .others k i ∈ s.stack

section
variable {s t : GroupAwait} {f : Frame} {rest stack : List Frame} {n : Nat} {suspended : Bool}

lemma runs_of_harmless (harmless : f.harmless n) : f.runs = none ∧ ∃ i, f = .cancel i := by
  cases f with
  | cancel i => exact ⟨rfl,i,rfl⟩
  | suspend | child | others | dtor | parent => cases harmless

lemma settled_of_harmless (harmless : ∀ f ∈ rest, f.harmless n) : Settled n suspended rest := by
  induction rest with
  | nil => trivial
  | cons f _ ih =>
    obtain ⟨_,i,rfl⟩ := runs_of_harmless (harmless f mem_cons_self)
    exact ⟨trivial,ih fun g member => harmless g (mem_cons_of_mem _ member)⟩

lemma distinct_of_harmless {running : Nat → Prop} (harmless : ∀ f ∈ rest, f.harmless n) :
    Distinct Frame.runs rest running := by
  induction rest with
  | nil => exact .nil
  | cons f _ ih =>
    exact (ih fun g member => harmless g (mem_cons_of_mem _ member)).pushOther
      (runs_of_harmless (harmless f mem_cons_self)).1

lemma Core.restack (core : Core s) (awaited : s.awaited)
    (running : Distinct Frame.runs stack fun i => (s.children i).status = .running)
    (settled : Settled s.n s.parentSuspended stack) (facts : ∀ f ∈ stack, s.Fact f)
    (gone : s.alive = false → ∀ f ∈ stack, f.harmless s.n ∨ f = .parent)
    (suspends : ∀ i, .suspend i ∈ s.stack → ∃ j, .suspend j ∈ stack) : Core { s with stack := stack } where
  counted := ⟨core.counted.1,core.counted.2,core.counted.3,core.counted.4,core.counted.5⟩
  running := running
  settled := settled
  facts := facts
  gone dead := ⟨(core.gone dead).1,gone dead⟩
  idle fresh := nomatch awaited.symm.trans fresh
  starting _ unsuspended zero alive := by
    rcases core.starting awaited unsuspended zero alive with none' | ⟨i,member⟩
    · exact .inl none'
    · exact .inr (suspends i member)
  resumed := core.resumed
  awake := core.awake
  sound := core.sound

lemma Inv.restack (inv : Inv s) (core : Core { s with stack := stack })
    (others : ∀ k i, .others k i ∈ s.stack → ∃ k i, .others k i ∈ stack) : Inv { s with stack := stack } where
  toCore := core
  pending done := by
    rcases inv.pending done with none' | dead | one | wakes | ⟨k,i,member⟩
    · exact .inl none'
    · exact .inr (.inl dead)
    · exact .inr (.inr (.inl one))
    · exact .inr (.inr (.inr (.inl wakes)))
    · exact .inr (.inr (.inr (.inr (others k i member))))

lemma Core.pop (core : Core s) (awaited : s.awaited) (top : s.stack = f::rest)
    (kind : ∀ i, f ≠ .suspend i) : Core { s with stack := rest } := by
  have below {g : Frame} (member : g ∈ rest) : g ∈ s.stack := top ▸ mem_cons_of_mem _ member
  have settled := core.settled
  rw [top] at settled
  refine core.restack awaited (top ▸ core.running).pop settled.2
    (fun g member => core.facts g (below member)) (fun dead g member => (core.gone dead).2 g (below member))
    fun i member => ⟨i,?_⟩
  rw [top] at member
  exact (mem_cons.1 member).resolve_left fun same => kind i same.symm

lemma Inv.pop (inv : Inv s) (awaited : s.awaited) (top : s.stack = f::rest)
    (kind : ∀ i, f ≠ .suspend i) (other : ∀ k i, f ≠ .others k i) : Inv { s with stack := rest } := by
  refine inv.restack (inv.toCore.pop awaited top kind) fun k i member => ⟨k,i,?_⟩
  rw [top] at member
  exact (mem_cons.1 member).resolve_left fun same => other k i same.symm

lemma Inv.push (inv : Inv s) (awaited : s.awaited) (alive : s.alive) (other : f.runs = none)
    (above : Over s.n s.parentSuspended f s.stack) (fact : s.Fact f) : Inv { s with stack := f::s.stack } := by
  refine inv.restack (inv.toCore.restack awaited (inv.running.pushOther other) ⟨above,inv.settled⟩ ?_
    (fun dead => nomatch alive.symm.trans dead) fun i member => ⟨i,mem_cons_of_mem _ member⟩)
    fun k i member => ⟨k,i,mem_cons_of_mem _ member⟩
  intro g member
  rcases mem_cons.1 member with rfl | old
  · exact fact
  · exact inv.facts g old
end
section
variable {s t : GroupAwait} {rest stack : List Frame} {i : Nat} {k : GroupChild}

lemma setChild_children (x : Nat) : (s.setChild i k).children x = if x = i then k else s.children x :=
  update_apply _ _ _ _

lemma Counted.lt (counted : Counted s) (started : (s.children i).status ≠ .fresh) : i < s.n :=
  Nat.lt_of_not_le fun outside => started (counted.inside i outside)

lemma unfinished_congr (same : k.status = .finished ↔ (s.children i).status = .finished) :
    (s.setChild i k).unfinished = s.unfinished := by
  refine filter_congr fun x _ => ?_
  rw [setChild_children]
  split
  next here =>
    rw [here]
    exact decide_eq_decide.2 (not_congr same)
  · rfl

lemma Counted.setChild (counted : Counted s) (hook : k.promise.cancel ≠ none → k.status = .parked)
    (ended : k.status = .finished ↔ (s.children i).status = .finished)
    (inside : s.n ≤ i → k.status = .fresh) : Counted (s.setChild i k) where
  hooked x some' := by
    rw [setChild_children] at some' ⊢
    split at some'
    next here =>
      rw [if_pos here]
      exact hook some'
    next other =>
      rw [if_neg other]
      exact counted.hooked x some'
  inside x outside := by
    rw [setChild_children]
    split
    next here => exact inside (here ▸ outside)
    · exact counted.inside x outside
  count alive all := by
    rw [unfinished_congr ended]
    exact counted.count alive all
  first alive any := by
    rw [show (s.setChild i k).won = s.won from rfl,counted.first alive any]
    refine exists_congr fun x => ?_
    rw [setChild_children]
    split
    next here =>
      rw [here]
      exact ended.symm
    · rfl
  recorded := counted.recorded

lemma Inv.setChild (inv : Inv s) (awaited : s.awaited) (hook : k.promise.cancel ≠ none → k.status = .parked)
    (ended : k.status = .finished ↔ (s.children i).status = .finished)
    (fresh : (s.children i).status = .fresh → k.status = .fresh)
    (run : ∀ f ∈ s.stack, f.runs = some i → k.status = .running) : Inv (s.setChild i k) :=
  { inv with
    counted := inv.counted.setChild hook ended fun outside => fresh (inv.counted.inside i outside)
    running := inv.running.mono fun f member x runs before => by
      rw [setChild_children]
      split
      next here => exact run f member (here ▸ runs)
      · exact before
    facts f member := by
      have before := inv.facts f member
      cases f with
      | suspend =>
        obtain ⟨inside,unsuspended,zero,alive,later⟩ := before
        refine ⟨inside,unsuspended,zero,alive,fun j after => ?_⟩
        rw [setChild_children]
        split
        next here => exact fresh (here ▸ later j after)
        · exact later j after
      | child | others | cancel | dtor | parent => exact before
    idle unawaited := absurd (awaited.symm.trans unawaited) nofun }

lemma Inv.runChild (inv : Inv s) (awaited : s.awaited) (alive : s.alive) (parked : (s.children i).status = .parked)
    (running : k.status = .running) (unhooked : k.promise.cancel = none) :
    Inv { s.setChild i k with stack := .child i::s.stack } := by
  have new : ∀ f ∈ s.stack, f.runs ≠ some i := fun f member runs =>
    nomatch parked.symm.trans (inv.running.each f member i runs)
  have set : Inv (s.setChild i k) := by
    refine inv.setChild awaited (fun some' => absurd unhooked some') ?_ ?_ fun f member runs =>
      absurd runs (new f member)
    · rw [parked,running]
      exact ⟨nofun,nofun⟩
    rw [parked]
    nofun
  refine set.restack (set.toCore.restack awaited (set.running.push rfl ?_ new) ⟨trivial,set.settled⟩ ?_
    (fun dead => nomatch alive.symm.trans dead) fun j member => ⟨j,mem_cons_of_mem _ member⟩)
    fun k i member => ⟨k,i,mem_cons_of_mem _ member⟩
  · rw [setChild_children,if_pos rfl]
    exact running
  intro f member
  rcases mem_cons.1 member with rfl | old
  · trivial
  · exact set.facts f old

lemma stopChild_inv (inv : Inv { s with stack := stack }) (awaited : s.awaited) (alive : s.alive) :
    Inv (s.stopChild i stack) := by
  unfold stopChild
  cases hook : (s.children i).promise.cancel with
  | none =>
    refine inv.setChild awaited (fun some' => absurd rfl some') Iff.rfl id fun f member runs => ?_
    exact inv.running.each f member i runs
  | some =>
    have parked := inv.counted.hooked i (by rw [hook]; nofun)
    exact inv.runChild awaited alive parked rfl rfl

lemma park_inv (cancellable : Bool) (inv : Inv s) (awaited : s.awaited) (top : s.stack = .child i::rest) :
    Inv { s.setChild i { s.children i with
        status := .parked
        promise := if cancellable then (s.children i).promise.setCancel ()
          else (s.children i).promise.clearCancel } with
      stack := rest } := by
  have ran := inv.running.each (.child i) (top ▸ mem_cons_self) i rfl
  have popped := inv.pop awaited top nofun nofun
  have fresh := (top ▸ inv.running).not_below rfl
  refine popped.setChild awaited (fun _ => rfl) ?_ ?_ fun f member runs => absurd runs (fresh f member)
  · exact ⟨nofun,fun ended => nomatch ran.symm.trans ended⟩
  · exact fun unstarted => nomatch ran.symm.trans unstarted

end
variable {s t : GroupAwait} {rest : List Frame} {i k : Nat}

lemma Counted.congr (counted : Counted s) (kind : t.kind = s.kind) (n : t.n = s.n)
    (children : t.children = s.children) (remaining : t.remaining = s.remaining) (won : t.won = s.won)
    (winner : t.winner = s.winner) (recorded : t.recorded = s.recorded)
    (dead : t.dead = false → s.dead = false) : Counted t := by
  obtain ⟨hooked,inside,count,first,record⟩ := counted
  refine ⟨children ▸ hooked,?_,?_,?_,by rw [recorded,won,winner]; exact record⟩
  · rw [children,n]
    exact inside
  · rw [kind,remaining,show t.unfinished = s.unfinished by unfold unfinished; rw [children,n]]
    exact fun alive => count (dead alive)
  rw [kind,won,children]
  exact fun alive => first (dead alive)

lemma resumeParent_inv (counted : Counted s) (gone : s.alive = false → s.dead) (sound : s.fault = false)
    (awaited : s.awaited) (zero : s.resumes = 0) (done : s.Done)
    (harmless : ∀ g ∈ rest, g.harmless s.n) : Inv (s.resumeParent rest) where
  counted := counted.congr rfl rfl rfl rfl rfl rfl rfl id
  running := (distinct_of_harmless harmless).pushOther rfl
  settled := ⟨harmless,settled_of_harmless harmless⟩
  facts f member := by
    rcases mem_cons.1 member with rfl | below
    · exact .inr (.inl (congrArg (·+1) zero))
    obtain ⟨_,j,rfl⟩ := runs_of_harmless (harmless f below)
    trivial
  gone dead := by
    refine ⟨gone dead,fun f member => ?_⟩
    rcases mem_cons.1 member with same | below
    · exact .inr same
    · exact .inl (harmless f below)
  idle unawaited := nomatch awaited.symm.trans unawaited
  starting _ _ none' := absurd none' (Nat.succ_ne_zero _)
  resumed := ⟨Nat.le_of_eq (congrArg (·+1) zero),fun _ => ⟨done,rfl⟩⟩
  awake _ := done
  sound := sound
  pending _ := .inr (.inr (.inl (congrArg (·+1) zero)))

lemma wakeParent_inv (core : Core { s with stack := rest }) (awaited : s.awaited)
    (zero : s.resumes = 0) (done : s.Done)
    (harmless : s.parentSuspended → ∀ g ∈ rest, g.harmless s.n) : Inv (s.wakeParent rest) := by
  unfold wakeParent
  split
  next suspended =>
    exact resumeParent_inv (s := { s with stack := rest }) core.counted (fun dead => (core.gone dead).1)
      core.sound awaited zero done (harmless suspended)
  next unsuspended =>
  exact {
    counted := core.counted.congr rfl rfl rfl rfl rfl rfl rfl id
    running := core.running
    settled := core.settled
    facts := core.facts
    gone := core.gone
    idle := core.idle
    starting := core.starting
    resumed := core.resumed
    awake := fun _ => done
    sound := core.sound
    pending := fun _ => .inr (.inr (.inr (.inl ⟨rfl,Bool.eq_false_iff.2 unsuspended⟩))) }

lemma othersFrom_inv (core : Core { s with stack := rest }) (awaited : s.awaited) (alive : s.alive)
    (fact : s.Fact (.others k i)) (above : Over s.n s.parentSuspended (.others k i) rest) :
    Inv (s.othersFrom k i rest) := by
  obtain ⟨any,won,zero,undead⟩ := fact
  have done : s.Done := (done_any any).2 won
  unfold othersFrom
  generalize (if i = k then i+1 else i) = j
  dsimp only
  split
  · refine stopChild_inv ?_ awaited alive
    have looped : Core { s with stack := .others k j::rest } := by
      refine core.restack awaited (core.running.pushOther rfl)
        ⟨above,core.settled⟩ ?_ (fun dead => nomatch alive.symm.trans dead)
        fun j member => ⟨j,mem_cons_of_mem _ member⟩
      intro f member
      rcases mem_cons.1 member with rfl | below
      · exact ⟨any,won,zero,undead⟩
      · exact core.facts f below
    exact ⟨looped,fun _ => .inr (.inr (.inr (.inr ⟨k,_,mem_cons_self⟩)))⟩
  · exact wakeParent_inv core awaited zero done above.2

lemma unfinished_finish (child : GroupChild) (ended : child.status = .finished) (inside : i < s.n)
    (before : (s.children i).status ≠ .finished) :
    (s.setChild i child).unfinished.length = s.unfinished.length-1 := by
  have erased : (s.setChild i child).unfinished = s.unfinished.erase i := by
    have nodup : s.unfinished.Nodup := nodup_range.filter _
    rw [nodup.erase_eq_filter]
    unfold unfinished
    rw [filter_filter]
    refine filter_congr fun x _ => ?_
    rw [setChild_children]
    by_cases same : x = i
    · simp [same,ended]
    · simp [same]
  rw [erased,length_erase_of_mem]
  exact mem_filter.2 ⟨mem_range.2 inside,by simpa using before⟩

def Completes (s : GroupAwait) : Prop :=
  s.dead = false ∧ s.parentSuspended ∧ match s.kind with
    | .all => s.remaining = 1
    | .any => s.won = false

lemma harmless_of_completes (inv : Inv s) (top : s.stack = .child i::rest) (completes : s.Completes)
    (spared : ∀ f ∈ rest, f.runs = none ∧ f.loopOver s.n) : ∀ f ∈ rest, f.harmless s.n := by
  obtain ⟨undead,suspended,last⟩ := completes
  have ran := inv.running.each (.child i) (top ▸ mem_cons_self) i rfl
  have inside : i < s.n := inv.counted.lt (by rw [ran]; nofun)
  have undone : ¬ s.Done := by
    intro done
    cases kind : s.kind <;> rw [kind] at last
    · cases last.symm.trans ((done_all kind).1 done)
    · cases last.symm.trans ((done_any kind).1 done)
  intro f member
  have fact := inv.facts f (top ▸ mem_cons_of_mem _ member)
  cases f with
  | suspend j => cases fact.2.1.symm.trans suspended
  | child j => exact absurd (spared _ member).1 nofun
  | others a b => exact absurd ((done_any fact.1).2 fact.2.1) undone
  | cancel j => exact (spared _ member).2
  | dtor j => cases undead.symm.trans fact
  | parent =>
    rcases fact with unawaited | one | none'
    · cases top.symm.trans (inv.idle unawaited).1
    · exact absurd (inv.resumed.2 one).1 undone
    · exact absurd inside (by omega)

def ended (s : GroupAwait) (i remaining : Nat) (won : Bool) (winner : Nat) (recorded : List Nat) : GroupAwait :=
  { s.setChild i { s.children i with status := .finished } with
    remaining := remaining, won := won, winner := winner, recorded := recorded }

variable {remaining winner : Nat} {won : Bool} {recorded : List Nat}

lemma ended_children (x : Nat) : (s.ended i remaining won winner recorded).children x =
    if x = i then { s.children i with status := .finished } else s.children x :=
  update_apply _ _ _ _

lemma Counted.ended (counted : Counted s) (ran : (s.children i).status = .running)
    (count : s.dead = false → s.kind = .all → remaining = s.unfinished.length-1)
    (first : s.dead = false → s.kind = .any → won) (record : recorded = if won then [winner] else []) :
    Counted (s.ended i remaining won winner recorded) where
  hooked x some' := by
    rw [ended_children] at some' ⊢
    split at some'
    · cases ran.symm.trans (counted.hooked i some')
    next other =>
      rw [if_neg other]
      exact counted.hooked x some'
  inside x outside := by
    have other : x ≠ i := by
      rintro rfl
      cases ran.symm.trans (counted.inside x outside)
    rw [ended_children,if_neg other]
    exact counted.inside x outside
  count alive all := by
    have inside : i < s.n := counted.lt (by rw [ran]; nofun)
    refine (count alive all).trans (unfinished_finish _ rfl inside ?_).symm
    rw [ran]
    nofun
  first alive any := by
    refine iff_of_true (first alive any) ⟨i,?_⟩
    rw [ended_children,if_pos rfl]
  recorded := record

lemma Core.ended (core : Core s) (awaited : s.awaited) (ran : (s.children i).status = .running)
    (out : ∀ f ∈ s.stack, f.runs ≠ some i) (counted : Counted (s.ended i remaining won winner recorded))
    (done : s.Done → (s.ended i remaining won winner recorded).Done) (still : s.won → won) :
    Core (s.ended i remaining won winner recorded) :=
  { core with
    counted := counted
    running := core.running.mono fun f member x runs before => by
      have other : x ≠ i := fun same => out f member (same ▸ runs)
      rw [ended_children,if_neg other]
      exact before
    facts f member := by
      have before := core.facts f member
      cases f with
      | suspend =>
        obtain ⟨inside,unsuspended,zero,alive,later⟩ := before
        refine ⟨inside,unsuspended,zero,alive,fun j after => ?_⟩
        have other : j ≠ i := by
          rintro rfl
          cases ran.symm.trans (later j after)
        rw [ended_children,if_neg other]
        exact later j after
      | others => exact ⟨before.1,still before.2.1,before.2.2⟩
      | child | cancel | dtor | parent => exact before
    idle unawaited := nomatch awaited.symm.trans unawaited
    resumed := ⟨core.resumed.1,fun one => ⟨done (core.resumed.2 one).1,(core.resumed.2 one).2⟩⟩
    awake wakes := done (core.awake wakes) }

lemma Core.zero (core : Core s) (undone : ¬ s.Done) : s.resumes = 0 := by
  have once := core.resumed.1
  by_contra nonzero
  exact undone (core.resumed.2 (by omega)).1

lemma finish_inv (inv : Inv s) (awaited : s.awaited) (alive : s.alive) (top : s.stack = .child i::rest)
    (spared : s.Completes → ∀ f ∈ rest, f.runs = none ∧ f.loopOver s.n) :
    Inv ((s.setChild i { s.children i with status := .finished }).doneThunk i rest) := by
  have ran := inv.running.each (.child i) (top ▸ mem_cons_self) i rfl
  have popped := inv.pop awaited top nofun nofun
  have out : ∀ f ∈ rest, f.runs ≠ some i := (top ▸ inv.running).not_below rfl
  unfold doneThunk
  split
  · -- the destructor stops the children and nobody is told
    rename_i dead
    have counted : Counted ({ s with stack := rest }.ended i s.remaining s.won s.winner s.recorded) :=
      popped.counted.ended ran (fun undead => nomatch undead.symm.trans dead)
        (fun undead => nomatch undead.symm.trans dead) inv.counted.recorded
    exact ⟨popped.toCore.ended awaited ran out counted id id,popped.pending⟩
  rename_i undead
  have undead : s.dead = false := Bool.eq_false_iff.2 undead
  split
  next all =>
    have all : s.kind = .all := all
    have count : s.remaining = s.unfinished.length := inv.counted.count undead all
    have member : i ∈ s.unfinished :=
      mem_filter.2 ⟨mem_range.2 (inv.counted.lt (by rw [ran]; nofun)),by rw [ran]; rfl⟩
    have more : 0 < s.unfinished.length := length_pos_of_mem member
    have undone : ¬ s.Done := fun done => by
      have none' := (done_all all).1 done
      omega
    have counted : Counted ({ s with stack := rest }.ended i (s.remaining-1) s.won s.winner s.recorded) :=
      popped.counted.ended ran (fun _ _ => congrArg (·-1) count)
        (fun _ any => nomatch all.symm.trans any) inv.counted.recorded
    have core := popped.toCore.ended awaited ran out counted (fun done => absurd done undone) id
    have ending : Done ({ s with stack := rest }.ended i (s.remaining-1) s.won s.winner s.recorded) ↔
      s.remaining-1 = 0 := done_all all
    dsimp only
    split
    next last =>
      refine wakeParent_inv core awaited (inv.zero undone) (ending.2 last) fun suspended => ?_
      have completes : s.Completes := by
        refine ⟨undead,suspended,?_⟩
        rw [all]
        have last : s.remaining-1 = 0 := last
        omega
      have harmless : ∀ f ∈ rest, f.harmless s.n := harmless_of_completes inv top completes (spared completes)
      exact harmless
    next left => exact ⟨core,fun done => absurd (ending.1 done) left⟩
  next any =>
  have any : s.kind = .any := any
  split
  · -- a child that lost unwinds
    rename_i won
    have counted : Counted ({ s with stack := rest }.ended i s.remaining s.won s.winner s.recorded) :=
      popped.counted.ended ran (fun _ all => nomatch any.symm.trans all) (fun _ _ => won) inv.counted.recorded
    exact ⟨popped.toCore.ended awaited ran out counted id id,popped.pending⟩
  next unwon =>
  have unwon : s.won = false := Bool.eq_false_iff.2 unwon
  have fresh : s.recorded = [] := by
    rw [inv.counted.recorded,unwon]
    rfl
  have undone : ¬ s.Done := fun done => nomatch unwon.symm.trans ((done_any any).1 done)
  have counted : Counted ({ s with stack := rest }.ended i s.remaining true i (s.recorded++[i])) :=
    popped.counted.ended ran (fun _ all => nomatch any.symm.trans all) (fun _ _ => rfl) (by rw [fresh]; rfl)
  have core := popped.toCore.ended awaited ran out counted (fun done => absurd done undone) fun _ => rfl
  refine othersFrom_inv core awaited alive ⟨any,rfl,inv.zero undone,undead⟩ ⟨?_,fun suspended => ?_⟩
  · rintro g member a b rfl
    cases unwon.symm.trans (popped.facts _ member).2.1
  have completes : s.Completes := ⟨undead,suspended,by rw [any]; exact unwon⟩
  have harmless : ∀ f ∈ rest, f.harmless s.n := harmless_of_completes inv top completes (spared completes)
  exact harmless
end AffiniX.GroupAwait
