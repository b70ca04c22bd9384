import Mathlib

/-! Intrusive doubly linked lists: the links live in the nodes and represent a list, on which the two operations are
`cons` and removal. -/
namespace AffiniX.IntrusiveList
open Function List
variable {ι : Type*}

structure Links (ι : Type*) where
  prev : ι → Option ι
  next : ι → Option ι
  head : Option ι

def Links.empty : Links ι := ⟨fun _ => none,fun _ => none,none⟩

structure Linked (k : Links ι) (l : List ι) : Prop where
  nodup : l.Nodup
  head : k.head = l.head?
  next : ∀ before a after, l = before++a::after → k.next a = after.head?
  prev : ∀ before a after, l = before++a::after → k.prev a = before.getLast?

lemma linked_empty : Linked (Links.empty : Links ι) [] where
  nodup := nodup_nil
  head := rfl
  next before a after same := by simp at same
  prev before a after same := by simp at same

variable [DecidableEq ι]

def write (f : ι → Option ι) (a : Option ι) (value : Option ι) : ι → Option ι := match a with
  | none => f
  | some a => update f a value

namespace Links
def link (k : Links ι) (a : ι) : Links ι where
  prev := write (update k.prev a none) k.head (some a)
  next := update k.next a k.head
  head := some a

def unlink (k : Links ι) (a : ι) : Links ι where
  prev := update (write k.prev (k.next a) (k.prev a)) a none
  next := update (write k.next (k.prev a) (k.next a)) a none
  head := if (k.prev a).isSome then k.head else k.next a
end Links

lemma write_of_ne {f : ι → Option ι} {a value : Option ι} {x : ι} (other : a ≠ some x) : write f a value x = f x := by
  cases a with
  | none => rfl
  | some => exact update_of_ne (fun same => other (congrArg some same.symm)) _ _

lemma write_of_eq {f : ι → Option ι} {value : Option ι} {x : ι} : write f (some x) value x = value :=
  update_self _ _ _

namespace Linked
variable {k : Links ι} {l : List ι} {a : ι}

lemma link (linked : Linked k l) (new : a ∉ l) : Linked (k.link a) (a::l) where
  nodup := nodup_cons.2 ⟨new,linked.nodup⟩
  head := rfl
  next before x after same := by
    cases before with
    | nil =>
      obtain ⟨rfl,rfl⟩ := List.cons.inj same
      exact (update_self _ _ _).trans linked.head
    | cons b before =>
      have tail : l = before++x::after := (List.cons.inj same).2
      have other : x ≠ a := by
        rintro rfl
        exact new (tail ▸ mem_append_right _ mem_cons_self)
      exact (update_of_ne other _ _).trans (linked.next before x after tail)
  prev before x after same := by
    cases before with
    | nil =>
      obtain ⟨rfl,rfl⟩ := List.cons.inj same
      have other : k.head ≠ some a := by
        rw [linked.head]
        exact fun first => new (mem_of_head? first)
      exact (write_of_ne other).trans (update_self _ _ _)
    | cons b before =>
      obtain ⟨rfl,_⟩ := List.cons.inj same
      have tail : l = before++x::after := (List.cons.inj same).2
      have other : x ≠ a := by
        rintro rfl
        exact new (tail ▸ mem_append_right _ mem_cons_self)
      change write _ k.head (some a) x = _
      cases before with
      | nil =>
        -- the old head is the only node whose back link changes
        have first : k.head = some x := by rw [linked.head,tail]; rfl
        rw [first,write_of_eq]
        rfl
      | cons =>
        have apart : k.head ≠ some x := by
          rw [linked.head,tail]
          rintro ⟨⟩
          have nodup := linked.nodup
          rw [tail] at nodup
          exact (nodup_cons.1 nodup).1 (mem_append_right _ mem_cons_self)
        rw [write_of_ne apart,update_of_ne other,linked.prev _ x after tail, List.getLast?_cons_cons]

variable {before after : List ι}

omit [DecidableEq ι] in
lemma around {x : ι} {p q : List ι} (same : before++after = p++x::q) :
    (∃ mid, before = p++x::mid ∧ q = mid++after) ∨ ∃ mid, after = mid++x::q ∧ p = before++mid := by
  rcases append_eq_append_iff.1 same with ⟨mid,left,right⟩ | ⟨mid,left,right⟩
  · exact .inr ⟨mid,right,left⟩
  cases mid with
  | nil => exact .inr ⟨[],by simpa using right.symm,by simpa using left.symm⟩
  | cons y mid =>
    obtain ⟨rfl,rfl⟩ := List.cons.inj right
    exact .inl ⟨mid,left,rfl⟩

omit [DecidableEq ι] in
lemma getLast?_after (p : List ι) (x y : ι) (mid : List ι) : (p++x::y::mid).getLast? = (y::mid).getLast? := by
  rw [List.getLast?_append,List.getLast?_cons_cons,List.getLast?_cons]
  rfl

section
variable (linked : Linked k (before++a::after))
include linked

lemma unlink_next {p q : List ι} {x : ι} (same : before++after = p++x::q) : (k.unlink a).next x = q.head? := by
  have nodup := linked.nodup
  change update (write k.next (k.prev a) (k.next a)) a none x = q.head?
  rw [linked.next before a after rfl,linked.prev before a after rfl]
  rcases around same with ⟨mid,rfl,rfl⟩ | ⟨mid,rfl,rfl⟩
  · -- `x` comes before `a`: its link changes if it is the last to do so
    rw [append_assoc] at nodup
    have out := (nodup_cons.1 (nodup_middle.1 nodup)).1
    have other : x ≠ a := fun same => out (by simp [same])
    rw [update_of_ne other]
    cases mid with
    | nil =>
      rw [List.getLast?_concat,write_of_eq]
      rfl
    | cons y mid =>
      have last : (p++x::y::mid).getLast? ≠ some x := by
        rw [getLast?_after]
        intro same
        have member := mem_of_getLast? same
        exact out (mem_append_right _ (mem_append_left _ member))
      rw [write_of_ne last,linked.next p x (y::mid++a::after) (by simp)]
      rfl
  have split : before++a::(mid++x::q) = (before++a::mid)++x::q := by simp
  rw [split] at nodup
  have out := (nodup_cons.1 (nodup_middle.1 nodup)).1
  have other : x ≠ a := fun same => out (by simp [same])
  have last : before.getLast? ≠ some x := fun same => out (by simp [mem_of_getLast? same])
  rw [update_of_ne other,write_of_ne last,linked.next (before++a::mid) x q split]

lemma unlink_prev {p q : List ι} {x : ι} (same : before++after = p++x::q) : (k.unlink a).prev x = p.getLast? := by
  have nodup := linked.nodup
  change update (write k.prev (k.next a) (k.prev a)) a none x = p.getLast?
  rw [linked.next before a after rfl,linked.prev before a after rfl]
  rcases around same with ⟨mid,rfl,rfl⟩ | ⟨mid,rfl,rfl⟩
  · rw [append_assoc] at nodup
    have out := (nodup_cons.1 (nodup_middle.1 nodup)).1
    have other : x ≠ a := fun same => out (by simp [same])
    have first : after.head? ≠ some x := fun same => out (by simp [mem_of_head? same])
    rw [update_of_ne other,write_of_ne first,linked.prev p x (mid++a::after) (by simp)]
  have split : before++a::(mid++x::q) = (before++a::mid)++x::q := by simp
  rw [split] at nodup
  have out := (nodup_cons.1 (nodup_middle.1 nodup)).1
  have other : x ≠ a := fun same => out (by simp [same])
  rw [update_of_ne other]
  cases mid with
  | nil =>
    rw [append_nil]
    exact write_of_eq
  | cons y mid =>
    have first : (y::mid++x::q).head? ≠ some x := by
      rintro ⟨⟩
      exact out (by simp)
    rw [write_of_ne first,linked.prev (before++a::y::mid) x q split,getLast?_after,
      List.getLast?_append,List.getLast?_cons]
    rfl

lemma unlink : Linked (k.unlink a) (before++after) where
  nodup := linked.nodup.sublist (List.Sublist.append (.refl _) (sublist_cons_self _ _))
  head := by
    change (if (k.prev a).isSome then k.head else k.next a) = _
    rw [linked.prev before a after rfl,linked.next before a after rfl,linked.head]
    cases before with
    | nil => rfl
    | cons => simp
  next _ _ _ same := linked.unlink_next same
  prev _ _ _ same := linked.unlink_prev same
end

lemma erase (linked : Linked k l) (member : a ∈ l) : Linked (k.unlink a) (l.erase a) := by
  obtain ⟨before,_,rfl⟩ := append_of_mem member
  have out : a ∉ before := fun there => (nodup_cons.1 (nodup_middle.1 linked.nodup)).1 (mem_append_left _ there)
  rw [erase_append_right _ out,erase_cons_head]
  exact linked.unlink
end Linked
end AffiniX.IntrusiveList
