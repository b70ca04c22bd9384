import AffiniX.CallStack
import AffiniX.Coroutine
import AffiniX.IntrusiveList

/-! `TaskScope`: children in an intrusive list through their promises. A child that is stopped runs inside `request_stop`. -/
namespace AffiniX
open Transition Function List

/-- A child of a scope. `alive` is its frame, `finished` its coroutine, and the hook of its
promise is the one of the awaiter it is parked in. -/
structure ScopeChild where
  alive : Bool := false
  finished : Bool := false
  parked : Bool := false
  promise : Promise Unit := {}
deriving DecidableEq

namespace TaskScope
/-- The call stack. A loop of `request_stop` is at the child `p` and remembers which children were there and which it
called; `finishing` is the end of `FinalAwaiter`. -/
inductive Frame
  | loop (p : Nat) (began stopped : List Nat)
  | child (c : Nat)
  | finishing (c : Nat)
  | joiner
deriving DecidableEq
end TaskScope

/-- `fault`: a freed frame was read; `missed`: children that were there and were left out by a `request_stop`. -/
structure TaskScope where
  links : IntrusiveList.Links Nat
  children : Nat → ScopeChild
  born : Nat
  live : Nat
  joinParked : Bool
  stack : List TaskScope.Frame
  fault : Bool
  missed : List Nat

namespace TaskScope
def create : TaskScope := ⟨.empty,fun _ => {},0,0,false,[],false,[]⟩

variable (s : TaskScope)

def setChild (c : Nat) (f : ScopeChild → ScopeChild) : TaskScope :=
  { s with children := update s.children c (f (s.children c)) }

def push (f : Frame) : TaskScope := { s with stack := f::s.stack }

def appRuns : Bool := match s.stack with
  | [] | .child _::_ | .joiner::_ => true
  | .loop _ _ _::_ | .finishing _::_ => false

def unfinished : List Nat := (List.range s.born).filter fun c => !(s.children c).finished

def resumeChild (c : Nat) : TaskScope :=
  (s.setChild c fun k => { k with parked := false, promise := k.promise.clearCancel }).push (.child c)

/-- `p->request_stop()` in a loop that is on top of the stack. -/
def visit (p : Nat) : TaskScope :=
  if (s.children p).alive then
    let s' := s.setChild p fun k => { k with promise := k.promise.requestStop }
    if (s.children p).promise.cancel.isSome then s'.resumeChild p else s'
  else { s with fault := true }

def spawn : TaskScope :=
  { s with
    links := s.links.link s.born
    children := update s.children s.born { alive := true }
    born := s.born+1
    live := s.live+1
    stack := .child s.born::s.stack }

def requestStop : TaskScope := match s.links.head with
  | none => s
  | some p => (s.push (.loop p s.unfinished [p])).visit p

def advance (p : Nat) (began stopped : List Nat) (rest : List Frame) : TaskScope :=
  if (s.children p).alive then
    match s.links.next p with
    | none => { s with
        stack := rest
        missed := s.missed++began.filter fun c => !(s.children c).finished && c ∉ stopped }
    | some q => visit { s with stack := .loop q began (q::stopped)::rest } q
  else { s with stack := rest, fault := true }

def unlinks (c : Nat) : Bool :=
  (s.links.prev c).all (fun p => (s.children p).alive) && (s.links.next c).all fun n => (s.children n).alive

def childDone (c : Nat) (rest : List Frame) : TaskScope :=
  let s' := { s with
    links := s.links.unlink c
    children := update s.children c { s.children c with finished := true }
    live := s.live-1
    fault := s.fault || !s.unlinks c }
  if s'.live = 0 ∧ s.joinParked then
    { s' with joinParked := false, stack := .joiner::.finishing c::rest }
  else { s' with stack := .finishing c::rest }

inductive Move
  | spawn
  | park (cancellable : Bool)
  | finish
  | wake (c : Nat)
  | requestStop
  | join
  | resume

def step : Move → Option TaskScope
  | .spawn => if s.appRuns then some s.spawn else none
  | .park cancellable =>
    match s.stack with
    | .child c::rest => some { s.setChild c fun k => { k with
          parked := true
          promise := if cancellable then k.promise.setCancel () else k.promise.clearCancel } with
        stack := rest }
    | _ => none
  | .finish =>
    match s.stack with
    | .child c::rest => some (s.childDone c rest)
    | _ => none
  | .wake c => if s.appRuns ∧ (s.children c).alive ∧ (s.children c).parked then some (s.resumeChild c) else none
  | .requestStop => if s.appRuns then some s.requestStop else none
  | .join => if s.appRuns then some { s with joinParked := s.joinParked || s.live ≠ 0 } else none
  | .resume =>
    match s.stack with
    | .loop p began stopped::rest => some (s.advance p began stopped rest)
    | .finishing c::rest => some { s.setChild c fun k => { k with alive := false } with stack := rest }
    | .joiner::rest => some { s with stack := rest }
    | _ => none

section
open IntrusiveList CallStack

def Frame.visits : Frame → Option Nat
  | .loop p _ _ => some p
  | .child _ | .finishing _ | .joiner => none

def Frame.runs : Frame → Option Nat
  | .child c => some c
  | .loop _ _ _ | .finishing _ | .joiner => none

variable {f : Frame} {c p : Nat}

lemma Frame.runs_eq (runs : f.runs = some c) : f = .child c := by
  cases f with
  | child => exact congrArg Frame.child (Option.some.inj runs)
  | loop | finishing | joiner => cases runs

structure Stacked (stack : List Frame) (children : Nat → ScopeChild) (born : Nat) (l : List Nat) : Prop where
  running : Distinct Frame.runs stack fun c => c ∈ l ∧ (children c).parked = false
  ending : ∀ c, .finishing c ∈ stack → c < born ∧ c ∉ l
  loops : ∀ p began stopped, .loop p began stopped ∈ stack → ∃ before after, l = before++p::after ∧
    ∀ c ∈ began, c < born ∧ (c ∈ stopped ∨ c ∈ after ∨ c ∉ l)

structure Inv (s : TaskScope) (l : List Nat) : Prop where
  linked : Linked s.links l
  count : s.live = l.length
  there : ∀ c ∈ l, c < s.born ∧ (s.children c).alive ∧ (s.children c).finished = false
  gone : ∀ c < s.born, c ∉ l → (s.children c).finished
  parked : ∀ c, (s.children c).parked → c ∈ l
  hooked : ∀ c, (s.children c).promise.cancel ≠ none → (s.children c).parked
  stacked : Stacked s.stack s.children s.born l
  sound : s.fault = false ∧ s.missed = []

lemma create_inv : Inv create [] where
  linked := linked_empty
  count := rfl
  there := nofun
  gone := nofun
  parked := nofun
  hooked _ some' := absurd rfl some'
  stacked := ⟨.nil,nofun,nofun⟩
  sound := ⟨rfl,rfl⟩

variable {s t : TaskScope} {l : List Nat} {stack rest : List Frame} {children : Nat → ScopeChild}
  {born : Nat}

lemma Stacked.pop (stacked : Stacked (f::rest) children born l) : Stacked rest children born l where
  running := stacked.running.pop
  ending c member := stacked.ending c (mem_cons_of_mem _ member)
  loops p began stopped member := stacked.loops p began stopped (mem_cons_of_mem _ member)

lemma Stacked.child (stacked : Stacked stack children born l) (member : .child c ∈ stack) :
    c ∈ l ∧ (children c).parked = false := stacked.running.each _ member c rfl

lemma Stacked.not_below (stacked : Stacked (.child c::rest) children born l) :
    .child c ∉ rest := fun member => stacked.running.not_below rfl _ member rfl

lemma Stacked.congr {children' : Nat → ScopeChild} (stacked : Stacked stack children born l)
    (same : ∀ c, .child c ∈ stack → (children' c).parked = (children c).parked) :
    Stacked stack children' born l where
  running := stacked.running.mono fun _ member c runs before =>
    ⟨before.1,(same c (Frame.runs_eq runs ▸ member)).trans before.2⟩
  ending := stacked.ending
  loops := stacked.loops

lemma setChild_children (s : TaskScope) (c : Nat) (f : ScopeChild → ScopeChild) (x : Nat) :
    (s.setChild c f).children x = if x = c then f (s.children c) else s.children x :=
  update_apply _ _ _ _

section
variable (inv : Inv s l)
include inv

lemma setChild_inv {f : ScopeChild → ScopeChild} (member : c ∈ l)
    (kept : (f (s.children c)).alive = (s.children c).alive ∧ (f (s.children c)).finished = (s.children c).finished)
    (hook : (f (s.children c)).promise.cancel ≠ none → (f (s.children c)).parked)
    (stacked : Stacked stack (s.setChild c f).children s.born l) : Inv { s.setChild c f with stack := stack } l := by
  have same (x : Nat) : ((s.setChild c f).children x).alive = (s.children x).alive ∧
      ((s.setChild c f).children x).finished = (s.children x).finished := by
    rw [setChild_children]
    split
    next here =>
      rw [here]
      exact kept
    · exact ⟨rfl,rfl⟩
  refine ⟨inv.linked,inv.count,?_,?_,?_,?_,stacked,inv.sound⟩
  · intro x there
    rw [(same x).1,(same x).2]
    exact inv.there x there
  · intro x made out
    exact (same x).2.trans (inv.gone x made out)
  · intro x waits
    rw [setChild_children] at waits
    split at waits
    next here => exact here ▸ member
    · exact inv.parked x waits
  intro x some'
  rw [setChild_children] at some' ⊢
  split at some'
  next here =>
    rw [if_pos here]
    exact hook some'
  next other =>
  rw [if_neg other]
  exact inv.hooked x some'

lemma resumeChild_inv (parked : (s.children c).parked) : Inv (s.resumeChild c) l := by
  have member := inv.parked c parked
  have idle : .child c ∉ s.stack := fun running => nomatch (inv.stacked.child running).2.symm.trans parked
  refine setChild_inv inv member ⟨rfl,rfl⟩ (fun some' => absurd rfl some') ?_
  have below : Stacked s.stack (s.resumeChild c).children s.born l := by
    refine inv.stacked.congr fun x running => ?_
    have other : x ≠ c := fun same => idle (same ▸ running)
    exact congrArg ScopeChild.parked (update_of_ne other _ _)
  refine ⟨below.running.push rfl ?_ fun f inside runs => idle (Frame.runs_eq runs ▸ inside),?_,?_⟩
  · have self : (s.resumeChild c).children c =
        { s.children c with parked := false, promise := (s.children c).promise.clearCancel } :=
      update_self _ _ _
    exact ⟨member,by rw [self]⟩
  · intro x ending
    exact below.ending x ((mem_cons.1 ending).resolve_left nofun)
  intro p began stopped loop
  exact below.loops p began stopped ((mem_cons.1 loop).resolve_left nofun)

lemma visit_inv (member : p ∈ l) : Inv (s.visit p) l := by
  have flagged : Inv (s.setChild p fun k => { k with promise := k.promise.requestStop }) l := by
    refine setChild_inv (f := fun k => { k with promise := k.promise.requestStop }) inv member
      ⟨rfl,rfl⟩ (fun some' => absurd rfl some') ?_
    refine inv.stacked.congr fun x _ => ?_
    rw [setChild_children]
    split
    next here => rw [here]
    · rfl
  unfold visit
  rw [if_pos (inv.there p member).2.1]
  split
  next hook =>
    have parked := inv.hooked p (Option.isSome_iff_ne_none.1 hook)
    refine resumeChild_inv flagged ?_
    rw [setChild_children,if_pos rfl]
    exact parked
  · exact flagged

lemma restack_inv (stacked : Stacked stack s.children s.born l) : Inv { s with stack := stack } l :=
  { inv with stacked := stacked }

lemma mem_unfinished (c : Nat) : c ∈ s.unfinished ↔ c ∈ l := by
  unfold unfinished
  rw [mem_filter,mem_range]
  constructor
  · rintro ⟨made,alive⟩
    by_contra out
    rw [inv.gone c made out] at alive
    cases alive
  intro member
  obtain ⟨made,_,unfinished⟩ := inv.there c member
  exact ⟨made,by rw [unfinished]; rfl⟩
end

lemma Stacked.loop {began stopped : List Nat} (before after : List Nat)
    (stacked : Stacked rest children born l) (here : l = before++p::after)
    (rounds : ∀ c ∈ began, c < born ∧ (c ∈ stopped ∨ c ∈ after ∨ c ∉ l)) :
    Stacked (.loop p began stopped::rest) children born l where
  running := stacked.running.pushOther rfl
  ending c member := stacked.ending c ((mem_cons.1 member).resolve_left nofun)
  loops p' began' stopped' member := by
    rcases mem_cons.1 member with same | old
    · cases same
      exact ⟨before,after,here,rounds⟩
    · exact stacked.loops p' began' stopped' old

lemma requestStop_inv (inv : Inv s l) : Inv s.requestStop l := by
  unfold requestStop
  have head := inv.linked.head
  cases l with
  | nil =>
    rw [head]
    exact inv
  | cons p after =>
    rw [head]
    refine visit_inv ?_ mem_cons_self
    refine restack_inv inv ?_
    refine inv.stacked.loop [] after rfl fun c member => ?_
    have listed := (mem_unfinished inv c).1 member
    refine ⟨(inv.there c listed).1,?_⟩
    rcases mem_cons.1 listed with same | later
    · exact .inl (mem_singleton.2 same)
    · exact .inr (.inl later)

lemma advance_inv {began stopped : List Nat} (inv : Inv s l)
    (top : s.stack = .loop p began stopped::rest) : Inv (s.advance p began stopped rest) l := by
  have stacked := inv.stacked
  rw [top] at stacked
  obtain ⟨before,after,here,rounds⟩ := stacked.loops p began stopped mem_cons_self
  have member : p ∈ l := here ▸ mem_append_right _ mem_cons_self
  unfold advance
  rw [if_pos (inv.there p member).2.1,inv.linked.next before p after here]
  cases after with
  | nil =>
    -- whoever was there when the loop began has been visited or has finished
    have none' : began.filter (fun c => !(s.children c).finished && c ∉ stopped) = [] := by
      rw [filter_eq_nil_iff]
      intro c began
      obtain ⟨made,visited | later | out⟩ := rounds c began
      · simp [visited]
      · cases later
      · simp [inv.gone c made out]
    refine { restack_inv inv stacked.pop with sound := ⟨inv.sound.1,?_⟩ }
    rw [none',inv.sound.2]
    rfl
  | cons q after =>
    refine visit_inv ?_ (here ▸ by simp)
    refine restack_inv inv ?_
    refine stacked.pop.loop (before++[p]) after (by simp [here]) fun c began => ?_
    obtain ⟨made,visited | later | out⟩ := rounds c began
    · exact ⟨made,.inl (mem_cons_of_mem _ visited)⟩
    · refine ⟨made,?_⟩
      rcases mem_cons.1 later with same | later
      · exact .inl (same ▸ mem_cons_self)
      · exact .inr (.inl later)
    · exact ⟨made,.inr (.inr out)⟩

lemma spawn_inv (inv : Inv s l) : Inv s.spawn (s.born::l) := by
  have new : s.born ∉ l := fun member => Nat.lt_irrefl _ (inv.there _ member).1
  have other {x : Nat} (made : x < s.born) : s.spawn.children x = s.children x := update_of_ne (Nat.ne_of_lt made) _ _
  have self : s.spawn.children s.born = { alive := true } := update_self _ _ _
  refine ⟨inv.linked.link new,congrArg (·+1) inv.count,?_,?_,?_,?_,?_,inv.sound⟩
  · intro x member
    rcases mem_cons.1 member with rfl | old
    · rw [self]
      exact ⟨Nat.lt_succ_self _,rfl,rfl⟩
    obtain ⟨made,there⟩ := inv.there x old
    rw [other made]
    exact ⟨Nat.lt_succ_of_lt made,there⟩
  · intro x made out
    obtain ⟨apart,out⟩ := not_or.1 (mt mem_cons.2 out)
    have old : x < s.born := Nat.lt_of_le_of_ne (Nat.le_of_lt_succ made) apart
    rw [other old]
    exact inv.gone x old out
  · intro x waits
    by_cases same : x = s.born
    · rw [same,self] at waits
      cases waits
    have old : s.spawn.children x = s.children x := update_of_ne same _ _
    rw [old] at waits
    exact mem_cons_of_mem _ (inv.parked x waits)
  · intro x hook
    by_cases same : x = s.born
    · rw [same,self] at hook
      exact absurd rfl hook
    have old : s.spawn.children x = s.children x := update_of_ne same _ _
    rw [old] at hook ⊢
    exact inv.hooked x hook
  have stacked := inv.stacked
  have made {x : Nat} (running : .child x ∈ s.stack) : x < s.born := (inv.there x (stacked.child running).1).1
  constructor
  · refine Distinct.push ?_ rfl ⟨mem_cons_self,by rw [self]⟩ fun f inside runs => ?_
    · refine stacked.running.mono fun f inside x runs before => ?_
      rw [other (made (Frame.runs_eq runs ▸ inside))]
      exact ⟨mem_cons_of_mem _ before.1,before.2⟩
    · exact Nat.lt_irrefl _ (made (Frame.runs_eq runs ▸ inside))
  · intro x ending
    obtain ⟨old,out⟩ := stacked.ending x ((mem_cons.1 ending).resolve_left nofun)
    refine ⟨Nat.lt_succ_of_lt old,fun member => ?_⟩
    rcases mem_cons.1 member with same | there
    · exact Nat.ne_of_lt old same
    · exact out there
  intro p began stopped loop
  obtain ⟨before,after,here,rounds⟩ := stacked.loops p began stopped ((mem_cons.1 loop).resolve_left nofun)
  refine ⟨s.born::before,after,by rw [here]; rfl,fun c member => ?_⟩
  obtain ⟨old,turn⟩ := rounds c member
  refine ⟨Nat.lt_succ_of_lt old,turn.imp_right fun turn => turn.imp_right fun out there => ?_⟩
  rcases mem_cons.1 there with same | there
  · exact Nat.ne_of_lt old same
  · exact out there

lemma park_inv (cancellable : Bool) (inv : Inv s l) (top : s.stack = .child c::rest) :
    Inv { s.setChild c fun k => { k with
        parked := true
        promise := if cancellable then k.promise.setCancel () else k.promise.clearCancel } with
      stack := rest } l := by
  have stacked := inv.stacked
  rw [top] at stacked
  refine setChild_inv inv (stacked.child mem_cons_self).1 ⟨rfl,rfl⟩ (fun _ => rfl) ?_
  refine stacked.pop.congr fun x running => ?_
  have other : x ≠ c := fun same => stacked.not_below (same ▸ running)
  rw [setChild_children,if_neg other]

lemma Stacked.erase {k : ScopeChild} (stacked : Stacked (.child c::rest) children born l)
    (nodup : l.Nodup) (spared : ∀ f ∈ rest, f.visits ≠ some c) :
    Stacked rest (update children c k) born (l.erase c) where
  running := stacked.running.pop.mono fun f inside x runs before => by
    have other : x ≠ c := fun same => stacked.not_below (same ▸ Frame.runs_eq runs ▸ inside)
    rw [update_of_ne other]
    exact ⟨(mem_erase_of_ne other).2 before.1,before.2⟩
  ending x ending := by
    obtain ⟨made,out⟩ := stacked.pop.ending x ending
    exact ⟨made,fun member => out (mem_of_mem_erase member)⟩
  loops p began stopped loop := by
    obtain ⟨before,after,here,rounds⟩ := stacked.pop.loops p began stopped loop
    have other : p ≠ c := fun same => spared _ loop (congrArg some same)
    have turns {after' : List Nat} (kept : ∀ x ∈ after, x ≠ c → x ∈ after') (x : Nat) (member : x ∈ began) :
        x < born ∧ (x ∈ stopped ∨ x ∈ after' ∨ x ∉ l.erase c) := by
      obtain ⟨made,turn⟩ := rounds x member
      refine ⟨made,turn.imp_right fun turn => ?_⟩
      by_cases same : x = c
      · rw [same]
        exact .inr nodup.not_mem_erase
      · exact turn.imp (fun later => kept x later same) fun out there => out (mem_of_mem_erase there)
    by_cases earlier : c ∈ before
    · refine ⟨before.erase c,after,?_,turns fun x later _ => later⟩
      rw [here,erase_append_left _ earlier]
    refine ⟨before,after.erase c,?_,turns fun x later apart => (mem_erase_of_ne apart).2 later⟩
    rw [here,erase_append_right _ earlier,erase_cons_tail (by simpa using other)]

lemma unlinks_of_inv (inv : Inv s l) (member : c ∈ l) : s.unlinks c = true := by
  obtain ⟨before,after,here⟩ := append_of_mem member
  unfold unlinks
  rw [inv.linked.prev before c after here,inv.linked.next before c after here,Bool.and_eq_true,
    Option.all_eq_true,Option.all_eq_true]
  refine ⟨fun x last => ?_,fun x first => ?_⟩
  · exact (inv.there x (here ▸ mem_append_left _ (mem_of_getLast? last))).2.1
  exact (inv.there x (here ▸ mem_append_right _ (mem_cons_of_mem _ (mem_of_head? first)))).2.1

lemma Stacked.ended (stacked : Stacked rest children born l)
    (kind : f = .joiner ∨ f = .finishing c) (made : c < born) (out : c ∉ l) :
    Stacked (f::rest) children born l where
  running := by
    rcases kind with rfl | rfl <;> exact stacked.running.pushOther rfl
  ending x member := by
    rcases mem_cons.1 member with same | old
    · rcases kind with rfl | rfl <;> cases same
      exact ⟨made,out⟩
    · exact stacked.ending x old
  loops p began stopped member := by
    rcases mem_cons.1 member with same | old
    · rcases kind with rfl | rfl <;> cases same
    · exact stacked.loops p began stopped old

lemma childDone_inv (inv : Inv s l) (top : s.stack = .child c::rest)
    (spared : ∀ f ∈ rest, f.visits ≠ some c) : Inv (s.childDone c rest) (l.erase c) := by
  have stacked := inv.stacked
  rw [top] at stacked
  obtain ⟨member,unparked⟩ := stacked.child mem_cons_self
  have nodup := inv.linked.nodup
  have made := (inv.there c member).1
  have below := (stacked.erase (k := { s.children c with finished := true }) nodup spared).ended
    (.inr rfl) made nodup.not_mem_erase
  have done (joinParked : Bool) (stack : List Frame)
      (stacked : Stacked stack (update s.children c { s.children c with finished := true }) s.born (l.erase c)) :
      Inv { s with
        links := s.links.unlink c
        children := update s.children c { s.children c with finished := true }
        live := s.live-1
        fault := s.fault || !s.unlinks c
        joinParked := joinParked
        stack := stack } (l.erase c) := by
    refine ⟨inv.linked.erase member,?_,?_,?_,?_,?_,stacked,?_,inv.sound.2⟩
    · change s.live-1 = _
      rw [inv.count,length_erase_of_mem member]
    · intro x there
      obtain ⟨other,there⟩ := nodup.mem_erase_iff.1 there
      dsimp only
      rw [update_of_ne other]
      exact inv.there x there
    · intro x made out
      dsimp only
      rw [update_apply]
      split
      · rfl
      next other => exact inv.gone x made fun there => out ((mem_erase_of_ne other).2 there)
    · intro x waits
      dsimp only at waits
      rw [update_apply] at waits
      split at waits
      · cases unparked.symm.trans waits
      next other => exact (mem_erase_of_ne other).2 (inv.parked x waits)
    · intro x hook
      dsimp only at hook ⊢
      rw [update_apply] at hook ⊢
      split at hook
      next same =>
        rw [if_pos same]
        exact inv.hooked c hook
      next other =>
      rw [if_neg other]
      exact inv.hooked x hook
    change (s.fault || !s.unlinks c) = false
    rw [unlinks_of_inv inv member,inv.sound.1]
    rfl
  unfold childDone
  dsimp only
  split
  · exact done _ _ (below.ended (.inl rfl) made nodup.not_mem_erase)
  · exact done _ _ below

lemma free_inv (inv : Inv s l) (top : s.stack = .finishing c::rest) :
    Inv { s.setChild c fun k => { k with alive := false } with stack := rest } l := by
  have stacked := inv.stacked
  rw [top] at stacked
  have out := (stacked.ending c mem_cons_self).2
  have other {x : Nat} (member : x ∈ l) : x ≠ c := fun same => out (same ▸ member)
  have same (x : Nat) : ((s.setChild c fun k => { k with alive := false }).children x).finished =
      (s.children x).finished ∧
      ((s.setChild c fun k => { k with alive := false }).children x).parked = (s.children x).parked ∧
      ((s.setChild c fun k => { k with alive := false }).children x).promise = (s.children x).promise := by
    rw [setChild_children]
    split
    next here =>
      rw [here]
      exact ⟨rfl,rfl,rfl⟩
    · exact ⟨rfl,rfl,rfl⟩
  refine ⟨inv.linked,inv.count,?_,?_,?_,?_,stacked.pop.congr fun x _ => (same x).2.1,inv.sound⟩
  · intro x member
    have same : (s.setChild c fun k => { k with alive := false }).children x = s.children x :=
      update_of_ne (other member) _ _
    rw [same]
    exact inv.there x member
  · exact fun x made out => (same x).1.trans (inv.gone x made out)
  · exact fun x waits => inv.parked x ((same x).2.1.symm.trans waits)
  intro x hook
  refine (same x).2.1.trans (inv.hooked x fun none' => hook ?_)
  exact (congrArg Promise.cancel (same x).2.2).trans none'
end
section
variable {s t : TaskScope} {l : List Nat}

def current (s : TaskScope) : Option Nat := s.stack.head?.bind Frame.runs

/-- A child does not finish while a call of `request_stop` on the scope is at it. -/
def Spared (s : TaskScope) : Move → Prop
  | .finish => ∀ c ∈ s.current, ∀ f ∈ s.stack, f.visits ≠ some c
  | _ => True

instance (s : TaskScope) : (m : Move) → Decidable (s.Spared m)
  | .finish => inferInstanceAs (Decidable (∀ c ∈ s.current, ∀ f ∈ s.stack, f.visits ≠ some c))
  | .spawn | .park _ | .wake _ | .requestStop | .join | .resume => .isTrue trivial

lemma step_inv {m : Move} (inv : Inv s l) (spared : s.Spared m) (taken : s.step m = some t) : ∃ l', Inv t l' := by
  cases m with
  | spawn =>
    obtain ⟨_,rfl⟩ := enabled taken
    exact ⟨_,spawn_inv inv⟩
  | park cancellable =>
    rw [step] at taken
    split at taken
    next top =>
      cases taken
      exact ⟨l,park_inv cancellable inv top⟩
    · cases taken
  | finish =>
    rw [step] at taken
    split at taken
    next c _ top =>
      cases taken
      refine ⟨_,childDone_inv inv top fun f member => ?_⟩
      exact spared c (by rw [current,top]; rfl) f (top ▸ mem_cons_of_mem _ member)
    · cases taken
  | wake =>
    obtain ⟨⟨_,_,parked⟩,rfl⟩ := enabled taken
    exact ⟨l,resumeChild_inv inv parked⟩
  | requestStop =>
    obtain ⟨_,rfl⟩ := enabled taken
    exact ⟨l,requestStop_inv inv⟩
  | join =>
    obtain ⟨_,rfl⟩ := enabled taken
    exact ⟨l,{ inv with }⟩
  | resume =>
    rw [step] at taken
    split at taken
    next top =>
      cases taken
      exact ⟨l,advance_inv inv top⟩
    next top =>
      cases taken
      exact ⟨l,free_inv inv top⟩
    next top =>
      cases taken
      exact ⟨l,restack_inv inv (top ▸ inv.stacked).pop⟩
    · cases taken

/-- No freed frame was read, no `request_stop` missed a child, and `live()` counts the children that did not finish. -/
structure Reached (s : TaskScope) : Prop where
  fault : s.fault = false
  missed : s.missed = []
  live : s.live = s.unfinished.length

lemma Inv.reached (inv : Inv s l) : Reached s where
  fault := inv.sound.1
  missed := inv.sound.2
  live := by
    have nodup : s.unfinished.Nodup := nodup_range.filter _
    rw [inv.count]
    exact ((perm_ext_iff_of_nodup inv.linked.nodup nodup).2 fun c => (mem_unfinished inv c).symm).length_eq

/-- While no child finishes with `request_stop` at it, every child that was there is asked to stop, unless it finished
before its turn. -/
theorem request_stop_reaches {moves : List Move}
    (run : Exec (Guarded (Via step) Spared) create moves s) : Reached s := by
  obtain ⟨l,inv⟩ : ∃ l, Inv s l := by
    refine run.invariant (fun s => ∃ l, Inv s l) ?_ ⟨[],create_inv⟩
    rintro s m t ⟨spared,taken⟩ ⟨l,inv⟩
    exact step_inv inv spared taken
  exact inv.reached

end

def twoParked : List Move := [.spawn,.park true,.spawn,.park true]

theorem parkAgain_reached : ∃ s, Exec (Guarded (Via step) Spared) create
    (twoParked++[.requestStop,.park false,.resume,.park false,.resume]) s ∧
      (s.stack = [] ∧ (s.children 0).promise.stopped ∧ (s.children 1).promise.stopped) ∧ Reached s :=
  Exec.seen_of_drive (by decide +kernel) fun _ run _ => request_stop_reaches run

/-- The first child that is asked finishes, and its frame is freed before the loop reads the link to
the second one, which is never asked. -/
theorem finished_child_read : ∃ s, Exec (Guarded (Via step) fun _ _ => True) create
    (twoParked++[.requestStop,.finish,.resume,.resume]) s ∧
      s.stack = [] ∧ s.fault ∧ (s.children 1).finished ∧ (s.children 1).alive = false ∧
      (s.children 0).finished = false ∧ (s.children 0).promise.stopped = false ∧ s.live = 1 :=
  Exec.end_of_drive (by decide +kernel)

end TaskScope
end AffiniX
