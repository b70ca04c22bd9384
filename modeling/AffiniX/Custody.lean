import Mathlib

/-! Objects in the custody of cells. Objects are numbered as they are made; each is kept by one cell
or was disposed of, and is disposed of once. -/
namespace AffiniX
open Function List
variable {ι : Type*}

structure Custody (own : ι → Option Nat) (made : Nat) (gone : List Nat) : Prop where
  kept : ∀ i b, own i = some b → b < made ∧ b ∉ gone
  one : ∀ i j b, own i = some b → own j = some b → i = j
  all : ∀ b, b < made → b ∈ gone ∨ ∃ i, own i = some b
  past : ∀ b ∈ gone, b < made
  once : gone.Nodup

namespace Custody
variable {own own' : ι → Option Nat} {made : Nat} {gone : List Nat}

lemma start : Custody (fun _ : ι => none) 0 [] := ⟨nofun,nofun,nofun,nofun,.nil⟩

lemma congr (custody : Custody own made gone) (same : ∀ i, own' i = own i) : Custody own' made gone := by
  have equal : own' = own := funext same
  rw [equal]
  exact custody

variable [DecidableEq ι]

lemma make (custody : Custody own made gone) {i : ι} (free : own i = none) :
    Custody (update own i (some made)) (made+1) gone := by
  have new : ∀ j b, update own i (some made) j = some b ↔ j = i ∧ b = made ∨ own j = some b := by
    intro j b
    by_cases same : j = i
    · subst same
      simp [free,eq_comm]
    · simp [same]
  refine ⟨?_,?_,?_,?_,custody.once⟩
  · intro j b keeps
    rcases (new j b).1 keeps with ⟨_,rfl⟩ | old
    · exact ⟨Nat.lt_succ_self b,fun lost => Nat.lt_irrefl b (custody.past b lost)⟩
    · exact ⟨Nat.lt_succ_of_lt (custody.kept j b old).1,(custody.kept j b old).2⟩
  · intro j k b first second
    rcases (new j b).1 first with ⟨rfl,rfl⟩ | old
    · rcases (new k b).1 second with ⟨rfl,_⟩ | old'
      · rfl
      · exact absurd (custody.kept k b old').1 (Nat.lt_irrefl b)
    rcases (new k b).1 second with ⟨rfl,rfl⟩ | old'
    · exact absurd (custody.kept j b old).1 (Nat.lt_irrefl b)
    · exact custody.one j k b old old'
  · intro b below
    rcases Nat.lt_succ_iff_lt_or_eq.1 below with before | rfl
    · exact (custody.all b before).imp_right fun ⟨j,keeps⟩ => ⟨j,(new j b).2 (.inr keeps)⟩
    · exact .inr ⟨i,(new i b).2 (.inl ⟨rfl,rfl⟩)⟩
  · exact fun b lost => Nat.lt_succ_of_lt (custody.past b lost)

lemma dispose (custody : Custody own made gone) {i : ι} {b : Nat} (keeps : own i = some b) :
    Custody (update own i none) made (gone++[b]) := by
  have rest : ∀ j c, update own i none j = some c → own j = some c ∧ c ≠ b := by
    intro j c there
    by_cases same : j = i
    · rw [same,update_self] at there
      cases there
    rw [update_of_ne same] at there
    exact ⟨there,fun equal => same (custody.one j i b (equal ▸ there) keeps)⟩
  obtain ⟨below,fresh⟩ := custody.kept i b keeps
  constructor
  · intro j c there
    obtain ⟨old,apart⟩ := rest j c there
    exact ⟨(custody.kept j c old).1,by simpa [apart] using (custody.kept j c old).2⟩
  · intro j k c first second
    exact custody.one j k c (rest j c first).1 (rest k c second).1
  · intro c inside
    rcases custody.all c inside with lost | ⟨j,there⟩
    · exact .inl (mem_append_left _ lost)
    by_cases same : j = i
    · subst same
      rw [keeps] at there
      cases there
      exact .inl (mem_append_right _ (mem_singleton.2 rfl))
    · exact .inr ⟨j,by rw [update_of_ne same]; exact there⟩
  · intro c lost
    rcases mem_append.1 lost with before | now
    · exact custody.past c before
    rw [mem_singleton.1 now]
    exact below
  exact nodup_append.2 ⟨custody.once,nodup_singleton b,by
    intro c lost d now
    rw [mem_singleton.1 now]
    exact fun same => fresh (same ▸ lost)⟩

omit [DecidableEq ι] in
lemma clear (custody : Custody own made gone) {rest : List Nat} (nodup : rest.Nodup)
    (listed : ∀ b, b ∈ rest ↔ ∃ i, own i = some b) : Custody (fun _ : ι => none) made (gone++rest) := by
  refine ⟨nofun,nofun,?_,?_,?_⟩
  · intro b below
    exact .inl (mem_append.2 ((custody.all b below).imp_right (listed b).2))
  · intro b lost
    rcases mem_append.1 lost with before | now
    · exact custody.past b before
    obtain ⟨i,keeps⟩ := (listed b).1 now
    exact (custody.kept i b keeps).1
  refine nodup_append.2 ⟨custody.once,nodup,?_⟩
  intro b lost c now same
  obtain ⟨i,keeps⟩ := (listed c).1 now
  exact (custody.kept i c keeps).2 (same ▸ lost)
end Custody
end AffiniX
