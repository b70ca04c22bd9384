import AffiniX.Custody
import AffiniX.HandleSlab

/-! The boxes of watch callbacks: `watch` gives a heap address to a sink, which is deleted with the watch. -/
namespace AffiniX
open Function HandleTable List Option Slab
namespace WatchBoxes
inductive Sink
  | watch (box : Nat)
  | plain
deriving DecidableEq

def Sink.box : Sink → Option Nat
  | .watch box => some box
  | .plain => none
end WatchBoxes

/-- Boxes are numbered as they are made; `destroyed` were deleted, `executing` are the callbacks on the stack, the
innermost first. -/
structure WatchBoxes where
  sinks : HandleTable WatchBoxes.Sink
  watchFds : List (Handle × Nat)
  made : Nat
  destroyed : List Nat
  executing : List Nat
  alive : Bool

namespace WatchBoxes
open Transition

def create (firstGen : BitVec 32) : WatchBoxes := ⟨.create firstGen.toNat .plain,[],0,[],[],true⟩

def release (s : WatchBoxes) (h : Handle) : WatchBoxes :=
  { s with
    sinks := s.sinks.release h
    destroyed := s.destroyed++((s.sinks.get h).bind Sink.box).toList }

def watch (s : WatchBoxes) (fd : Nat) (attached : Bool) : WatchBoxes := let h := Slab.nextHandle s.sinks
  let sinks := Slab.emplace s.sinks (.watch s.made)
  if attached then { s with sinks := sinks, watchFds := (h,fd)::s.watchFds, made := s.made+1 }
  else { s with sinks := sinks.release h, made := s.made+1 }

section
variable (s : WatchBoxes)

def unwatch (h : Handle) : WatchBoxes := { s with watchFds := s.watchFds.filter (·.1 ≠ h) }.release h

def boxAt (i : Nat) : Option Nat := if s.sinks.alive i then (s.sinks.node i).box else none

def destroy : WatchBoxes :=
  { s with
    sinks := { s.sinks with
      size := 0, slots := fun i => { s.sinks.slots i with alive := false }, free := [], deferred := [], live := 0 }
    destroyed := s.destroyed++(range s.sinks.size).filterMap s.boxAt
    alive := false }

/-- `fire` hands a completion to the sink of its tag, `ret` returns from the innermost callback, and code that runs
makes the other calls. -/
inductive Move
  | watch (fd : Nat) (attached : Bool)
  | registerSink
  | unwatch (h : Handle)
  | releaseSink (h : Handle)
  | fire (h : Handle)
  | ret
  | bookkeeping
  | destroy

def step (m : Move) : Option WatchBoxes :=
  if s.alive then
    match m with
    | .watch fd attached => some (s.watch fd attached)
    | .registerSink => some { s with sinks := emplace s.sinks .plain }
    | .unwatch h => some (s.unwatch h)
    | .releaseSink h => some (s.release h)
    | .fire h => some { s with executing := ((s.sinks.get h).bind Sink.box).toList++s.executing }
    | .ret =>
      match s.executing with
      | [] => none
      | _::rest => some { s with executing := rest }
    | .bookkeeping => some { s with sinks := s.sinks.reclaim }
    | .destroy => some s.destroy
  else none

/-- `attach` succeeds, an index is not cut, and neither a watch nor the event manager is ended from inside a callback of
its own. -/
def Careful : Move → Prop
  | .watch _ attached => attached ∧ (s.sinks.free = [] → s.sinks.size < 2^32)
  | .registerSink => s.sinks.free = [] → s.sinks.size < 2^32
  | .unwatch h | .releaseSink h => ∀ b ∈ (s.sinks.get h).bind Sink.box, b ∉ s.executing
  | .destroy => s.executing = []
  | .fire _ | .ret | .bookkeeping => True

structure Inv : Prop where
  wf : s.sinks.Wf
  custody : Custody s.boxAt s.made s.destroyed
  live : ∀ b ∈ s.executing, ∃ i, s.boxAt i = some b
end
variable {s t : WatchBoxes}

lemma create_inv (firstGen : BitVec 32) : Inv (create firstGen) where
  wf := create_wf _ _
  custody := Custody.start.congr fun _ => rfl
  live := nofun

lemma Inv.not_destroyed (inv : Inv s) {b : Nat} (runs : b ∈ s.executing) : b ∉ s.destroyed := by
  obtain ⟨i,there⟩ := inv.live b runs
  exact (inv.custody.kept i b there).2

lemma boxAt_emplace (s : WatchBoxes) (x : Sink) (i : Nat) :
    boxAt { s with sinks := (s.sinks.emplace x).2 } i = update s.boxAt s.sinks.nextIdx x.box i := by
  unfold boxAt
  rw [emplace_alive,emplace_node]
  by_cases same : i = s.sinks.nextIdx
  · rw [if_pos same,if_pos same,same,update_self]
    rfl
  · rw [if_neg same,if_neg same,update_of_ne same]

lemma Inv.free (inv : Inv s) : s.boxAt s.sinks.nextIdx = none := by
  unfold boxAt
  rw [nextIdx_dead inv.wf]
  rfl

lemma watch_inv (inv : Inv s) (fd : Nat) (narrow : s.sinks.free = [] → s.sinks.size < 2^32) :
    Inv (s.watch fd true) := by
  have table : Slab.emplace s.sinks (.watch s.made) = (s.sinks.emplace (.watch s.made)).2 := Slab.emplace_eq narrow _
  have boxes : ∀ i, (s.watch fd true).boxAt i = update s.boxAt s.sinks.nextIdx (some s.made) i := by
    intro i
    have there := boxAt_emplace s (.watch s.made) i
    rw [← table] at there
    exact there
  refine ⟨?_,(inv.custody.make inv.free).congr boxes,?_⟩
  · change (Slab.emplace s.sinks (.watch s.made)).Wf
    rw [table]
    exact emplace_wf inv.wf _
  intro b runs
  obtain ⟨i,there⟩ := inv.live b runs
  refine ⟨i,?_⟩
  have other : i ≠ s.sinks.nextIdx := by
    rintro rfl
    rw [inv.free] at there
    cases there
  rw [boxes,update_of_ne other]
  exact there

lemma registerSink_inv (inv : Inv s) (narrow : s.sinks.free = [] → s.sinks.size < 2^32) :
    Inv { s with sinks := emplace s.sinks .plain } := by
  rw [emplace_eq narrow]
  have same : update s.boxAt s.sinks.nextIdx none = s.boxAt := by
    rw [← inv.free,update_eq_self]
  have boxes : ∀ i, boxAt { s with sinks := (s.sinks.emplace .plain).2 } i = s.boxAt i := by
    intro i
    rw [boxAt_emplace s .plain i]
    exact congrFun same i
  refine ⟨emplace_wf inv.wf _,inv.custody.congr boxes,?_⟩
  intro b runs
  obtain ⟨i,there⟩ := inv.live b runs
  exact ⟨i,(boxes i).trans there⟩

lemma boxAt_release (s : WatchBoxes) (h : Handle) (i : Nat) :
    (s.release h).boxAt i = if s.sinks.holds h ∧ i = h.idx then none else s.boxAt i := by
  unfold boxAt release
  rw [release_alive,release_node]
  split <;> rfl

lemma release_inv (inv : Inv s) {h : Handle}
    (idle : ∀ b ∈ (s.sinks.get h).bind Sink.box, b ∉ s.executing) : Inv (s.release h) := by
  by_cases held : s.sinks.holds h
  · have found : s.sinks.get h = some (s.sinks.node h.idx) := if_pos held
    have live : s.sinks.alive h.idx := ((holds_iff _ _).1 held).2.2.1
    have box : s.boxAt h.idx = (s.sinks.node h.idx).box := if_pos live
    have boxes : ∀ i, (s.release h).boxAt i = update s.boxAt h.idx none i := by
      intro i
      rw [boxAt_release,update_apply]
      simp [held]
    rw [found] at idle
    have gone : (s.release h).destroyed = s.destroyed++(s.sinks.node h.idx).box.toList := by
      rw [release,found]
      rfl
    have others : ∀ b ∈ s.executing, ∃ i, (s.release h).boxAt i = some b := by
      intro b runs
      obtain ⟨i,there⟩ := inv.live b runs
      have other : i ≠ h.idx := by
        rintro rfl
        rw [box] at there
        exact idle b there runs
      exact ⟨i,by rw [boxes,update_of_ne other]; exact there⟩
    refine ⟨release_wf inv.wf h,?_,others⟩
    rw [gone]
    cases kind : (s.sinks.node h.idx).box with
    | none =>
      have same : update s.boxAt h.idx none = s.boxAt := by
        rw [← kind,← box,update_eq_self]
      rw [toList_none,append_nil]
      exact inv.custody.congr fun i => (boxes i).trans (congrFun same i)
    | some => exact (inv.custody.dispose (box.trans kind)).congr boxes
  have stale : s.sinks.get h = none := if_neg held
  have same : s.release h = s := by
    rw [release,stale,HandleTable.release,if_neg held]
    simp
  rw [same]
  exact inv

lemma destroy_inv (inv : Inv s) (idle : s.executing = []) : Inv s.destroy := by
  have wf : s.destroy.sinks.Wf :=
    ⟨by simp [destroy],by simp [destroy],by simp [destroy,HandleTable.alive],inv.wf.gens,inv.wf.first⟩
  have nodup : ((range s.sinks.size).filterMap s.boxAt).Nodup :=
    nodup_range.filterMap fun i j b first second => inv.custody.one i j b first second
  have listed : ∀ b, b ∈ (range s.sinks.size).filterMap s.boxAt ↔ ∃ i, s.boxAt i = some b := by
    intro b
    rw [mem_filterMap]
    constructor
    · rintro ⟨i,_,there⟩
      exact ⟨i,there⟩
    rintro ⟨i,there⟩
    have live : s.sinks.alive i := by
      by_contra dead
      rw [boxAt,if_neg dead] at there
      cases there
    exact ⟨i,mem_range.2 (inv.wf.bound i live),there⟩
  refine ⟨wf,(inv.custody.clear nodup listed).congr fun _ => rfl,?_⟩
  change ∀ b ∈ s.executing, _
  simp [idle]

lemma step_inv {m : Move} (inv : Inv s) (careful : s.Careful m) (taken : s.step m = some t) : Inv t := by
  obtain ⟨_,taken⟩ := ite_none_right_eq_some.1 taken
  cases m with
  | watch fd =>
    cases taken
    obtain ⟨ok,narrow⟩ := careful
    rw [ok]
    exact watch_inv inv fd narrow
  | registerSink =>
    cases taken
    exact registerSink_inv inv careful
  | unwatch h =>
    cases taken
    exact release_inv (s := { s with watchFds := s.watchFds.filter (·.1 ≠ h) }) ⟨inv.wf,inv.custody,inv.live⟩ careful
  | releaseSink =>
    cases taken
    exact release_inv inv careful
  | fire h =>
    cases taken
    refine ⟨inv.wf,inv.custody,?_⟩
    intro b runs
    rcases mem_append.1 runs with now | before
    · obtain ⟨_,found,box⟩ := bind_eq_some_iff.1 (mem_toList.1 now)
      obtain ⟨held,stored⟩ := (get_eq_some _ _ _).1 found
      refine ⟨h.idx,(if_pos ((holds_iff _ _).1 held).2.2.1).trans ?_⟩
      rw [stored]
      exact box
    · exact inv.live b before
  | ret =>
    dsimp only at taken
    split at taken
    · cases taken
    next stack =>
    cases taken
    exact ⟨inv.wf,inv.custody,fun b runs => inv.live b (stack ▸ mem_cons_of_mem _ runs)⟩
  | bookkeeping =>
    cases taken
    exact ⟨reclaim_wf inv.wf,inv.custody,inv.live⟩
  | destroy =>
    cases taken
    exact destroy_inv inv careful

lemma step_ended {m : Move} (taken : s.step m = some t) (ended : t.alive = false) (i : Nat) : t.boxAt i = none := by
  obtain ⟨alive,taken⟩ := ite_none_right_eq_some.1 taken
  have going : t.alive = s.alive → t.boxAt i = none := fun same => by
    rw [same,alive] at ended
    cases ended
  cases m with
  | destroy =>
    cases taken
    rfl
  | watch _ attached =>
    cases taken
    cases attached <;> exact going rfl
  | ret =>
    dsimp only at taken
    split at taken
    · cases taken
    cases taken
    exact going rfl
  | registerSink | unwatch h | releaseSink h | fire h | bookkeeping =>
    cases taken
    exact going rfl

/-- No box is deleted twice or while its callback executes, none outlives the event manager, and one that is left
belongs to a sink. -/
structure Settled (s : WatchBoxes) : Prop where
  once : s.destroyed.Nodup
  idle : ∀ b ∈ s.executing, b ∉ s.destroyed
  kept : ∀ b, b < s.made → b ∈ s.destroyed ∨ s.alive ∧ ∃ i, s.boxAt i = some b

theorem boxes_destroyed_once {firstGen : BitVec 32} {moves : List Move}
    (run : Exec (Guarded (Via step) Careful) (create firstGen) moves s) :
    Settled s := by
  have both : Inv s ∧ (s.alive = false → ∀ i, s.boxAt i = none) := by
    refine run.invariant (fun s => Inv s ∧ (s.alive = false → ∀ i, s.boxAt i = none)) ?_
      ⟨create_inv firstGen,nofun⟩
    rintro s m t ⟨careful,taken⟩ ⟨inv,_⟩
    exact ⟨step_inv inv careful taken,step_ended taken⟩
  obtain ⟨inv,ended⟩ := both
  refine ⟨inv.custody.once,fun b => inv.not_destroyed,fun b below => ?_⟩
  rcases inv.custody.all b below with gone | ⟨i,there⟩
  · exact .inl gone
  refine .inr ⟨?_,i,there⟩
  by_contra dead
  rw [ended (Bool.eq_false_iff.2 dead) i] at there
  cases there

instance (s : WatchBoxes) (m : Move) : Decidable (s.Careful m) := match m with
  | .watch _ _ => inferInstanceAs (Decidable (_ ∧ (_ → _)))
  | .registerSink => instDecidableForall
  | .unwatch _ | .releaseSink _ => inferInstanceAs (Decidable (∀ b ∈ Option.bind _ _, b ∉ s.executing))
  | .destroy => inferInstanceAs (Decidable (_ = _))
  | .fire _ | .ret | .bookkeeping => .isTrue trivial

theorem reusedSlot_settled : ∃ s, Exec (Guarded (Via step) Careful) (create 1)
    [.watch 3 true,.watch 4 true,.fire ⟨0,1⟩,.unwatch ⟨1,1⟩,.unwatch ⟨1,1⟩,.ret,.bookkeeping,
      .watch 4 true,.destroy] s ∧ (s.made = 3 ∧ s.destroyed = [1,0,2]) ∧ Settled s :=
  Exec.seen_of_drive (by decide +kernel) fun _ run _ => boxes_destroyed_once run

/-- The box of a failed `attach` outlives the event manager, and a callback that ends its own watch executes in a
deleted box. -/
theorem box_leaked_or_cut :
    (∃ s, Exec (Guarded (Via step) fun _ _ => True) (create 1)
      [.watch 3 false,.bookkeeping,.destroy] s ∧ s.alive = false ∧ s.made = 1 ∧ s.destroyed = []) ∧
    ∃ s, Exec (Guarded (Via step) fun _ _ => True) (create 1)
      [.watch 3 true,.fire ⟨0,1⟩,.unwatch ⟨0,1⟩] s ∧ s.executing = [0] ∧ s.destroyed = [0] :=
  ⟨Exec.end_of_drive (by decide +kernel),Exec.end_of_drive (by decide +kernel)⟩

end WatchBoxes
end AffiniX
