import AffiniX.GroupResume

/-! Runs of `when_all` and `when_any`. -/
namespace AffiniX.GroupAwait
open Transition CallStack List Bool
variable {s t : GroupAwait} {f : Frame} {rest : List Frame} {i k : Nat} {kind : GroupKind} {n : Nat}
section
lemma Inv.setParent {p : Promise Unit} (inv : Inv s) (unhooked : p.cancel = none) : Inv { s with parent := p } :=
  { inv with
    counted := inv.counted.congr rfl rfl rfl rfl rfl rfl rfl id
    idle unawaited := ⟨(inv.idle unawaited).1,unhooked,(inv.idle unawaited).2.2⟩
    resumed := ⟨inv.resumed.1,fun one => ⟨(inv.resumed.2 one).1,unhooked⟩⟩ }

lemma startFrom_inv (counted : Counted s) (awaited : s.awaited) (alive : s.alive)
    (undead : s.dead = false) (unsuspended : s.parentSuspended = false) (zero : s.resumes = 0)
    (awake : s.wake → s.Done) (told : s.Done → s.n = 0 ∨ s.wake) (sound : s.fault = false)
    (fresh : ∀ j, i ≤ j → (s.children j).status = .fresh) : Inv (s.startFrom i []) := by
  have here := fresh i (Nat.le_refl i)
  have unhooked : (s.children i).promise.cancel = none := by
    by_contra some'
    cases (counted.hooked i some').symm.trans here
  unfold startFrom
  split
  next inside =>
    have started : Counted (s.setChild i { s.children i with
        status := .running
        promise := { (s.children i).promise with
          stopped := (s.children i).promise.stopped || s.parent.stopped } }) := by
      refine counted.setChild (fun some' => absurd unhooked some') ?_ fun outside => ?_
      · rw [here]
        exact ⟨nofun,nofun⟩
      · exact absurd inside (Nat.not_lt.2 outside)
    exact {
      counted := started.congr rfl rfl rfl rfl rfl rfl rfl id
      running := by
        refine (Distinct.nil.pushOther rfl).push rfl ?_ fun g member => ?_
        · change ((s.setChild i _).children i).status = .running
          rw [setChild_children,if_pos rfl]
        cases mem_singleton.1 member
        nofun
      settled := ⟨trivial,rfl,trivial⟩
      facts := fun g member => by
        rcases mem_cons.1 member with rfl | below
        · trivial
        cases mem_singleton.1 below
        refine ⟨inside,unsuspended,zero,undead,fun j after => ?_⟩
        rw [setChild_children,if_neg (by omega)]
        exact fresh j (by omega)
      gone := fun dead => nomatch alive.symm.trans dead
      idle := fun unawaited => nomatch awaited.symm.trans unawaited
      starting := fun _ _ _ _ => .inr ⟨i,mem_cons_of_mem _ mem_cons_self⟩
      resumed := ⟨zero ▸ Nat.zero_le 1,fun one => nomatch zero.symm.trans one⟩
      awake := awake
      sound := sound
      pending := fun done => by
        rcases told done with none' | wakes
        · exact .inl none'
        · exact .inr (.inr (.inr (.inl ⟨wakes,unsuspended⟩))) }
  · split
    next wakes =>
      exact resumeParent_inv counted (fun dead => nomatch alive.symm.trans dead) sound awaited
        zero (awake wakes) nofun
    next asleep =>
    exact {
      counted := counted.congr rfl rfl rfl rfl rfl rfl rfl id
      running := .nil
      settled := trivial
      facts := nofun
      gone := fun dead => nomatch alive.symm.trans dead
      idle := fun unawaited => nomatch awaited.symm.trans unawaited
      starting := fun _ suspended => absurd suspended nofun
      resumed := ⟨zero ▸ Nat.zero_le 1,fun one => nomatch zero.symm.trans one⟩
      awake := awake
      sound := sound
      pending := fun done => .inl ((told done).resolve_right asleep) }

lemma cancelFrom_inv (inv : Inv { s with stack := rest }) (awaited : s.awaited)
    (use : s.alive ∨ s.n ≤ i) : Inv (s.cancelFrom i rest) := by
  unfold cancelFrom
  split
  next inside =>
    have alive : s.alive := use.resolve_right (Nat.not_le.2 inside)
    unfold GroupAwait.use
    rw [if_pos alive]
    exact stopChild_inv (inv.push awaited alive rfl trivial trivial) awaited alive
  · exact inv

lemma dtorFrom_inv (inv : Inv { s with stack := rest }) (awaited : s.awaited) (alive : s.alive)
    (dead : s.dead) (below : ∀ g ∈ rest, g.harmless s.n ∨ g = .parent) : Inv (s.dtorFrom i rest) := by
  unfold dtorFrom
  split
  · exact stopChild_inv (inv.push awaited alive rfl below dead) awaited alive
  exact {
    counted := inv.counted.congr rfl rfl rfl rfl rfl rfl rfl id
    running := inv.running
    settled := inv.settled
    facts := inv.facts
    gone := fun _ => ⟨dead,below⟩
    idle := inv.idle
    starting := inv.starting
    resumed := inv.resumed
    awake := inv.awake
    sound := inv.sound
    pending := inv.pending }

lemma Inv.die (inv : Inv s) (awaited : s.awaited) (below : ∀ g ∈ s.stack, g.harmless s.n ∨ g = .parent) :
    Inv { s with dead := true } :=
  { inv with
    counted := inv.counted.congr rfl rfl rfl rfl rfl rfl rfl nofun
    facts g member := by
      rcases below g member with harmless | rfl
      · obtain ⟨_,j,rfl⟩ := runs_of_harmless harmless
        trivial
      · exact inv.facts _ member
    gone gone := ⟨rfl,(inv.gone gone).2⟩
    idle unawaited := nomatch awaited.symm.trans unawaited
    starting _ _ _ undead := absurd undead nofun
    pending _ := .inr (.inl rfl) }
end
section
/-- The running child is not one whose end makes the coroutine go on while another child or a loop of `cancel_thunk` is
below it. -/
def Spared (s : GroupAwait) (m : Move) : Prop := match m with
  | .finish => s.Completes → ∀ f ∈ s.stack.tail, f.runs = none ∧ f.loopOver s.n
  | .await | .park _ | .wake _ | .stopParent | .destroy | .leave | .resume => True

lemma create_inv (stopped : Bool) : Inv (create kind n stopped) where
  counted := by
    refine ⟨nofun,fun _ _ => rfl,fun _ _ => ?_,fun _ _ => ⟨nofun,nofun⟩,rfl⟩
    have every : (create kind n stopped).unfinished = List.range n := filter_eq_self.2 fun _ _ => rfl
    rw [every,length_range]
    rfl
  running := Distinct.nil.pushOther rfl
  settled := ⟨nofun,trivial⟩
  facts f member := by
    cases mem_singleton.1 member
    exact .inl rfl
  gone := nofun
  idle _ := ⟨rfl,rfl,rfl,rfl,rfl,fun _ => rfl⟩
  starting := nofun
  resumed := ⟨Nat.zero_le 1,nofun⟩
  awake := nofun
  sound := rfl
  pending done := by
    cases kind with
    | all => exact .inl done
    | any => cases done

lemma Core.alive (core : Core s) (top : s.stack = f::rest) (uses : f.harmless s.n = false)
    (other : f ≠ .parent) : s.alive := by
  by_contra dead
  rcases (core.gone (eq_false_iff.2 dead)).2 f (top ▸ mem_cons_self) with harmless | same
  · cases uses.symm.trans harmless
  · exact other same

lemma Core.awaited (core : Core s) (top : s.stack = f::rest) (other : f ≠ .parent) : s.awaited := by
  by_contra unawaited
  have same := (core.idle (eq_false_iff.2 unawaited)).1
  rw [top] at same
  exact other (List.cons.inj same).1

variable (inv : Inv s)
include inv

lemma Inv.told (undead : s.dead = false) (zero : s.resumes = 0) (alone : s.stack = [f])
    (other : ∀ k i, f ≠ .others k i) (done : s.Done) : s.n = 0 ∨ s.wake := by
  rcases inv.pending done with none' | dead | one | wakes | ⟨k,i,member⟩
  · exact .inl none'
  · cases undead.symm.trans dead
  · cases zero.symm.trans one
  · exact .inr wakes.1
  rw [alone] at member
  exact absurd (mem_singleton.1 member).symm (other k i)

lemma await_inv (unawaited : s.awaited = false) :
    Inv (startFrom { s with awaited := true, parent := s.parent.setCancel () } 0 []) := by
  obtain ⟨_,_,zero,undead,unsuspended,fresh⟩ := inv.idle unawaited
  have alive : s.alive := by
    by_contra gone
    cases undead.symm.trans (inv.gone (eq_false_iff.2 gone)).1
  exact startFrom_inv (inv.counted.congr rfl rfl rfl rfl rfl rfl rfl id) rfl alive undead unsuspended
    zero inv.awake (inv.told undead zero (inv.idle unawaited).1 nofun) inv.sound fun j _ => fresh j

lemma ready_inv (unawaited : s.awaited = false) (none' : s.n = 0) : Inv { s with awaited := true } :=
  { inv with
    counted := inv.counted.congr rfl rfl rfl rfl rfl rfl rfl id
    facts f member := by
      have same := (inv.idle unawaited).1
      rw [same] at member
      cases mem_singleton.1 member
      exact .inr (.inr none')
    idle := nofun
    starting _ _ _ _ := .inl none'
    pending _ := .inl none' }

lemma resume_inv (taken : s.step .resume = some t) : Inv t := by
  rw [step] at taken
  split at taken
  next rest top =>
    cases taken
    have awaited := inv.awaited top nofun
    have alive := inv.alive top rfl nofun
    have below : rest = [] := (top ▸ inv.settled).1
    obtain ⟨_,unsuspended,zero,undead,later⟩ := inv.facts _ (top ▸ mem_cons_self)
    unfold use
    rw [if_pos alive,below]
    exact startFrom_inv inv.counted awaited alive undead unsuspended zero inv.awake
      (inv.told undead zero (top.trans (congrArg _ below)) nofun) inv.sound later
  next k i _ top =>
    cases taken
    have awaited := inv.awaited top nofun
    have alive := inv.alive top rfl nofun
    unfold use
    rw [if_pos alive]
    exact othersFrom_inv (inv.toCore.pop awaited top nofun) awaited alive
      (inv.facts (.others k i) (top ▸ mem_cons_self)) (top ▸ inv.settled).1
  next top =>
    cases taken
    have awaited := inv.awaited top nofun
    refine cancelFrom_inv (inv.pop awaited top nofun nofun) awaited ?_
    by_cases alive : s.alive
    · exact .inl alive
    rcases (inv.gone (eq_false_iff.2 alive)).2 _ (top ▸ mem_cons_self) with harmless | same
    · exact .inr (of_decide_eq_true harmless)
    · cases same
  next i _ top =>
    cases taken
    have awaited := inv.awaited top nofun
    have alive := inv.alive top rfl nofun
    unfold use
    rw [if_pos alive]
    exact dtorFrom_inv (inv.pop awaited top nofun nofun) awaited alive
      (inv.facts (.dtor i) (top ▸ mem_cons_self)) (top ▸ inv.settled).1
  · cases taken

lemma stopParent_inv (there : s.alive ∨ s.resumes ≠ 0) (hook : s.parent.cancel ≠ none) :
    Inv (cancelFrom { s with parent := s.parent.requestStop } 0 s.stack) := by
  have zero : s.resumes = 0 := by
    have once := inv.resumed.1
    by_contra nonzero
    exact hook (inv.resumed.2 (by omega)).2
  have awaited : s.awaited := by
    by_contra unawaited
    exact hook (inv.idle (eq_false_iff.2 unawaited)).2.1
  exact cancelFrom_inv (inv.setParent rfl) awaited (.inl (there.resolve_right (· zero)))

lemma destroy_inv (awaited : s.awaited) (alive : s.alive) (where' : s.stack = [] ∨ s.stack.head? = some .parent) :
    Inv (dtorFrom { s with dead := true } 0 s.stack) := by
  have below : ∀ g ∈ s.stack, g.harmless s.n ∨ g = .parent := by
    rcases where' with empty | first
    · rw [empty]
      nofun
    obtain ⟨rest,top⟩ := List.head?_eq_some_iff.1 first
    have above : Over s.n s.parentSuspended .parent rest := (top ▸ inv.settled).1
    intro g member
    rw [top] at member
    rcases mem_cons.1 member with same | old
    · exact .inr same
    · exact .inl (above g old)
  exact dtorFrom_inv (inv.die awaited below) awaited alive rfl below

lemma step_inv {m : Move} (spared : s.Spared m) (taken : s.step m = some t) : Inv t := by
  cases m with
  | await =>
    rw [step] at taken
    split at taken
    · cases taken
    rename_i ready
    have unawaited : s.awaited = false := eq_false_iff.2 fun awaited => ready (.inl awaited)
    split at taken
    next empty =>
      cases taken
      exact ready_inv inv unawaited empty.2
    · cases taken
      exact await_inv inv unawaited
  | park cancellable =>
    rw [step] at taken
    split at taken
    next top =>
      cases taken
      unfold use
      rw [if_pos (inv.alive top rfl nofun)]
      exact park_inv cancellable inv (inv.awaited top nofun) top
    · cases taken
  | finish =>
    rw [step] at taken
    split at taken
    next top =>
      cases taken
      have alive := inv.alive top rfl nofun
      unfold use
      rw [if_pos alive]
      refine finish_inv inv (inv.awaited top nofun) alive top fun completes => ?_
      have below := spared completes
      rw [top] at below
      exact below
    · cases taken
  | wake i =>
    obtain ⟨⟨_,alive,parked⟩,rfl⟩ := enabled taken
    have awaited : s.awaited := by
      by_contra unawaited
      have fresh := (inv.idle (eq_false_iff.2 unawaited)).2.2.2.2.2 i
      cases parked.symm.trans fresh
    exact inv.runChild awaited alive parked rfl rfl
  | stopParent =>
    obtain ⟨⟨_,there⟩,called⟩ := Option.ite_none_right_eq_some.1 taken
    cases hook : s.parent.cancel with
    | none =>
      rw [hook] at called
      cases called
      exact inv.setParent rfl
    | some =>
      rw [hook] at called
      cases called
      exact stopParent_inv inv there (by rw [hook]; nofun)
  | destroy =>
    obtain ⟨⟨awaited,alive,_,where'⟩,rfl⟩ := enabled taken
    exact destroy_inv inv awaited alive where'
  | leave =>
    rw [step] at taken
    split at taken
    next top =>
      obtain ⟨awaited,rfl⟩ := enabled taken
      exact inv.pop awaited top nofun nofun
    · cases taken
  | resume => exact resume_inv inv taken
end

def Complete (s : GroupAwait) : Prop := match s.kind with
  | .all => ∀ i < s.n, (s.children i).status = .finished
  | .any => ∃ i < s.n, (s.children i).status = .finished

/-- Nothing was used after its end, and the coroutine was resumed at most once, at rest just if what it waits for is
complete. -/
structure Resumed (s : GroupAwait) : Prop where
  fault : s.fault = false
  once : s.resumes ≤ 1
  recorded : s.recorded.length ≤ 1 ∧ (s.kind = .any → s.resumes = 1 → s.recorded = [s.winner])
  rest : s.stack = [] → s.awaited → s.dead = false → 0 < s.n → (s.resumes = 1 ↔ s.Complete)

lemma Counted.done_iff (counted : Counted s) (undead : s.dead = false) : s.Done ↔ s.Complete := by
  cases kind : s.kind with
  | all =>
    rw [done_all kind,counted.count undead kind,length_eq_zero_iff]
    unfold unfinished Complete
    rw [kind,filter_eq_nil_iff]
    simp
  | any =>
    rw [done_any kind,counted.first undead kind]
    unfold Complete
    rw [kind]
    constructor
    · rintro ⟨i,finished⟩
      exact ⟨i,counted.lt (by rw [finished]; nofun),finished⟩
    rintro ⟨i,_,finished⟩
    exact ⟨i,finished⟩

lemma Inv.resumed_iff (inv : Inv s) (empty : s.stack = []) (awaited : s.awaited)
    (undead : s.dead = false) (children : 0 < s.n) : s.resumes = 1 ↔ s.Done := by
  refine ⟨fun one => (inv.resumed.2 one).1,fun done => ?_⟩
  rcases inv.pending done with none' | dead | one | ⟨_,unsuspended⟩ | ⟨k,i,member⟩
  · omega
  · cases undead.symm.trans dead
  · exact one
  · by_contra other
    have once := inv.resumed.1
    rcases inv.starting awaited unsuspended (by omega) undead with none' | ⟨i,member⟩
    · omega
    rw [empty] at member
    cases member
  rw [empty] at member
  cases member

lemma Inv.summary (inv : Inv s) : Resumed s where
  fault := inv.sound
  once := inv.resumed.1
  recorded := by
    rw [inv.counted.recorded]
    refine ⟨by split <;> simp,fun any one => ?_⟩
    exact if_pos ((done_any any).1 (inv.resumed.2 one).1)
  rest empty awaited undead children :=
    (inv.resumed_iff empty awaited undead children).trans (inv.counted.done_iff undead)

lemma resumed_of_run {stopped : Bool} {moves : List Move}
    (run : Exec (Guarded (Via step) Spared) (create kind n stopped) moves s) : Resumed s := by
  have inv : Inv s := run.invariant Inv (fun _ _ _ taken inv => step_inv inv taken.1 taken.2) (create_inv stopped)
  exact inv.summary
end AffiniX.GroupAwait
