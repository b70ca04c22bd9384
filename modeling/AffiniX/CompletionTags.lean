import AffiniX.HandleSlab

/-! Completion tags and the sinks they lead to. -/
namespace AffiniX
open Nat Slab

inductive OpKind
  | none
  | watch
  | recv
  | send
  | accept
  | connect
  | flushWrite
deriving DecidableEq

def OpKind.code : OpKind → Nat
  | .none => 0
  | .watch => 1
  | .recv => 2
  | .send => 3
  | .accept => 4
  | .connect => 5
  | .flushWrite => 6

def OpKind.ofCode : Nat → Option OpKind
  | 0 => some .none
  | 1 => some .watch
  | 2 => some .recv
  | 3 => some .send
  | 4 => some .accept
  | 5 => some .connect
  | 6 => some .flushWrite
  | _ => Option.none

lemma OpKind.ofCode_code (kind : OpKind) : ofCode kind.code = some kind := by
  cases kind <;> rfl

/-- `UserData` of the source, as the number its 64 bits are. -/
structure CompletionTag where
  raw : Nat
deriving DecidableEq

namespace CompletionTag
def make (kind slot gen : Nat) : CompletionTag := ⟨kind <<< 56 ||| (slot &&& 0xFFFFFF) <<< 32 ||| gen⟩

def kind (user : CompletionTag) : Nat := user.raw >>> 56

def slot (user : CompletionTag) : Nat := user.raw >>> 32 &&& 0xFFFFFF

def gen (user : CompletionTag) : Nat := user.raw &&& 0xFFFFFFFF

variable {k g : Nat} (slot : Nat)

lemma make_raw (word : g < 2^32) : (make k slot g).raw = k*2^56+slot%2^24*2^32+g := by
  have low : (slot &&& 0xFFFFFF) = slot%2^24 := Nat.and_two_pow_sub_one_eq_mod slot 24
  have inner : (slot%2^24) <<< 32 ||| g = slot%2^24*2^32+g := by
    rw [← Nat.shiftLeft_add_eq_or_of_lt word,Nat.shiftLeft_eq]
  unfold make
  rw [low,Nat.or_assoc,inner,← Nat.shiftLeft_add_eq_or_of_lt (by omega),Nat.shiftLeft_eq]
  exact (Nat.add_assoc _ _ _).symm

lemma kind_make (word : g < 2^32) : (make k slot g).kind = k := by
  rw [kind,make_raw slot word,shiftRight_eq_div_pow]
  omega

lemma gen_make (word : g < 2^32) : (make k slot g).gen = g := by
  have low : ((make k slot g).raw &&& 0xFFFFFFFF) = (make k slot g).raw%2^32 := and_two_pow_sub_one_eq_mod _ 32
  rw [gen,low,make_raw slot word]
  omega

lemma slot_make (word : g < 2^32) : (make k slot g).slot = slot%2^24 := by
  have low : ((make k slot g).raw >>> 32 &&& 0xFFFFFF) = ((make k slot g).raw >>> 32)%2^24 :=
    and_two_pow_sub_one_eq_mod _ 24
  rw [CompletionTag.slot,low,make_raw slot word,shiftRight_eq_div_pow]
  omega
end CompletionTag

structure Sinks (α : Type) where
  slab : Slab α Unit
  watchFds : List (Handle × Nat)

namespace Sinks
open Transition HandleTable
variable {α : Type}

def create (firstGen : BitVec 32) (blank : α) : Sinks α := ⟨.create firstGen blank fun _ => (),[]⟩

def tagOf (h : Handle) (kind : OpKind) : CompletionTag := .make kind.code h.idx h.gen

/-- What happens to the sinks. `attached`: the backend took the descriptor. -/
inductive Op (α : Type)
  | registerSink (sink : α)
  | watch (sink : α) (fd : Nat) (attached : Bool)
  | releaseSink (h : Handle)
  | unwatch (h : Handle)
  | bookkeeping

def step (s : Sinks α) : Op α → Sinks α
  | .registerSink sink => { s with slab := s.slab.step (.emplace sink ()) }
  | .watch sink fd attached =>
    let h := Slab.nextHandle s.slab.table
    let slab := s.slab.step (.emplace sink ())
    if attached then ⟨slab,(h,fd)::s.watchFds⟩ else { s with slab := slab.step (.release h) }
  | .releaseSink h => { s with slab := s.slab.step (.release h) }
  | .unwatch h => ⟨s.slab.step (.release h),s.watchFds.filter (·.1 ≠ h)⟩
  | .bookkeeping => { s with slab := s.slab.step .reclaim }

/-- One completion of `dispatch_completions`: the sink it is handed to and the kind it comes
with, or nothing where it is dropped. -/
def dispatch (s : Sinks α) (user : CompletionTag) : Option (α × OpKind) := do
  let sink ← s.slab.table.get ⟨user.slot,user.gen⟩
  let kind ← OpKind.ofCode user.kind
  return (sink,kind)

def Narrow (s : Sinks α) : Op α → Prop
  | .registerSink _ | .watch _ _ _ => s.slab.table.free = [] → s.slab.table.size < 2^32
  | _ => True

lemma step_maps {first : Nat} {s : Sinks α} (op : Op α) (narrow : s.Narrow op)
    (both : (∀ i, s.slab.releases i < 2^32-1) → s.slab.Kept first ∧ s.slab.Maps)
    (few : ∀ i, (s.step op).slab.releases i < 2^32-1) : (s.step op).slab.Kept first ∧ (s.step op).slab.Maps := by
  cases op with
  | registerSink sink => exact Slab.step_maps both (.emplace sink ()) narrow few
  | watch sink _ attached =>
    have added := Slab.step_maps both (.emplace sink ()) narrow
    cases attached with
    | true => exact added few
    | false => exact Slab.step_maps added (.release _) trivial few
  | releaseSink h | unwatch h => exact Slab.step_maps both (.release h) trivial few
  | bookkeeping => exact Slab.step_maps both .reclaim trivial few

section
variable {first : Nat} {s : Sinks α} {h : Handle} {sink : α}

lemma gen_lt (kept : s.slab.Kept first) (issued : (h,sink,()) ∈ s.slab.issued) : h.gen < 2^32 := by
  obtain ⟨_,k,gen,_⟩ := kept.tracked _ issued
  have own : h.gen = generation first k := gen
  rw [own]
  unfold generation
  omega

lemma dispatch_tagOf (kept : s.slab.Kept first) (maps : s.slab.Maps)
    (issued : (h,sink,()) ∈ s.slab.issued) (fits : h.idx < 2^24) (kind : OpKind) :
    s.dispatch (tagOf h kind) = if h ∈ s.slab.released then none else some (sink,kind) := by
  have word := gen_lt kept issued
  have handle : (⟨(tagOf h kind).slot,(tagOf h kind).gen⟩ : Handle) = h := by
    rw [tagOf,CompletionTag.slot_make _ word,CompletionTag.gen_make _ word,Nat.mod_eq_of_lt fits]
  have coded : OpKind.ofCode (tagOf h kind).kind = some kind := by
    rw [tagOf,CompletionTag.kind_make _ word,OpKind.ofCode_code]
  unfold dispatch
  rw [handle,coded]
  split
  next gone =>
    have dropped : s.slab.table.get h = none := by
      cases found : s.slab.table.get h with
      | none => rfl
      | some x =>
        have there : s.slab.get h = some (x,()) := by rw [Slab.get,found]; rfl
        exact absurd gone ((maps.get h x ()).1 there).2
    rw [dropped]
    rfl
  next live =>
  have there := (maps.get h sink ()).2 ⟨issued,live⟩
  obtain ⟨x,found,same⟩ := Option.map_eq_some_iff.1 there
  cases same
  rw [found]
  rfl
end

/-- A completion reaches the sink that submitted it, with its kind, or is dropped once that is released, if the index
fits in the tag. -/
theorem completion_dispatched {firstGen : BitVec 32} {blank : α} {ops : List (Op α)} {s : Sinks α}
    (run : Exec (Guarded (fun s op t => step s op = t) Narrow) (create firstGen blank) ops s)
    (few : ∀ i, s.slab.releases i < 2^32-1) {h : Handle} {sink : α}
    (issued : (h,sink,()) ∈ s.slab.issued) (fits : h.idx < 2^24) (kind : OpKind) :
    s.dispatch (tagOf h kind) = if h ∈ s.slab.released then none else some (sink,kind) := by
  have both := run.invariant (fun s => (∀ i, s.slab.releases i < 2^32-1) →
      s.slab.Kept (if firstGen.toNat = 0 then 1 else firstGen.toNat) ∧ s.slab.Maps)
    (fun s op t head both few => by
      obtain ⟨narrow,rfl⟩ := head
      exact step_maps op narrow both few)
    (fun _ => ⟨create_kept firstGen blank _,create_maps firstGen blank _⟩) few
  exact dispatch_tagOf both.1 both.2 issued fits kind

theorem reused_dispatched : ∃ s : Sinks Nat, (⟨0,1⟩ : Handle) ∈ s.slab.released ∧
    s.dispatch (tagOf ⟨0,1⟩ .recv) = none ∧ s.dispatch (tagOf ⟨0,2⟩ .send) = some (8,.send) := by
  let ops : List (Op Nat) := [.registerSink 7,.releaseSink ⟨0,1⟩,.bookkeeping,.watch 8 5 true]
  have run : Exec (Guarded (fun s op t => step s op = t) Narrow) (create 1 0) ops
      (ops.foldl step (create 1 0)) := by
    refine .cons _ _ _ _ _ ⟨fun _ => by decide,rfl⟩ (.cons _ _ _ _ _ ⟨trivial,rfl⟩
      (.cons _ _ _ _ _ ⟨trivial,rfl⟩ (.cons _ _ _ _ _ ⟨fun _ => by decide,rfl⟩ (.nil _))))
  have gone : (ops.foldl step (create 1 0)).slab.released = [⟨0,1⟩] := by decide
  have few : ∀ i, (ops.foldl step (create 1 0)).slab.releases i < 2^32-1 := by
    intro i
    rw [releases,gone,List.countP_cons,List.countP_nil]
    split <;> omega
  have issued : (ops.foldl step (create 1 0)).slab.issued = [(⟨0,2⟩,8,()),(⟨0,1⟩,7,())] := by decide
  refine ⟨ops.foldl step (create 1 0),?_,?_,?_⟩
  · rw [gone]
    exact List.mem_cons_self
  · have first : (⟨0,1⟩,7,()) ∈ (ops.foldl step (create 1 0)).slab.issued := by
      rw [issued]
      simp
    rw [completion_dispatched run few first (by decide),gone]
    rfl
  have second : (⟨0,2⟩,8,()) ∈ (ops.foldl step (create 1 0)).slab.issued := by
    rw [issued]
    simp
  rw [completion_dispatched run few second (by decide),gone]
  rfl

lemma filled_run (n : Nat) (small : n ≤ 2^32) :
    ∃ ops, ∃ s : Sinks Nat, Exec (fun s op t => step s op = t) (create 1 0) ops s ∧ s.slab.Filled n := by
  induction n with
  | zero => exact ⟨[],_,.nil _,rfl,rfl,rfl,rfl,nofun⟩
  | succ n ih =>
    obtain ⟨ops,s,run,filled⟩ := ih (by omega)
    exact ⟨ops++[.registerSink n],s.step (.registerSink n),
      run.append (.cons _ _ _ _ _ rfl (.nil _)),filled.step (by omega) ()⟩

/-- With `2^24` sinks registered, a completion of the next one goes to the first. -/
theorem cut_slot_misleads : ∃ ops, ∃ s : Sinks Nat,
    Exec (fun s op t => step s op = t) (create 1 0) ops s ∧ s.slab.released = [] ∧
      (⟨2^24,1⟩,2^24,()) ∈ s.slab.issued ∧ s.dispatch (tagOf ⟨2^24,1⟩ .recv) = some (0,.recv) := by
  obtain ⟨ops,s,run,filled⟩ := filled_run (2^24) (by decide)
  have full := filled.step (by decide) ()
  refine ⟨ops++[.registerSink (2^24)],s.step (.registerSink (2^24)),
    run.append (.cons _ _ _ _ _ rfl (.nil _)),filled.released,?_,?_⟩
  · change _ ∈ (Slab.nextHandle s.slab.table,2^24,())::s.slab.issued
    rw [filled.handle (by decide)]
    exact List.mem_cons_self
  have root := (full.root (by decide)).1
  have found : ((s.slab.step (.emplace (2^24) ())).table.get ⟨0,1⟩) = some 0 := by
    refine (get_eq_some _ _ _).2 ⟨(holds_iff _ _).2 ⟨nofun,?_,?_,?_⟩,?_⟩
    · rw [full.size]
      decide
    · rw [alive,root]
    · rw [root]
    · rw [node,root]
  change ((s.slab.step (.emplace (2^24) ())).table.get
    ⟨(tagOf ⟨2^24,1⟩ .recv).slot,(tagOf ⟨2^24,1⟩ .recv).gen⟩).bind _ = _
  have handle : (⟨(tagOf ⟨2^24,1⟩ .recv).slot,(tagOf ⟨2^24,1⟩ .recv).gen⟩ : Handle) = ⟨0,1⟩ := by decide
  rw [handle,found]
  decide

end Sinks
end AffiniX
