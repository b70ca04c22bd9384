import AffiniX.IndexedHeap
import AffiniX.Transition

/-! The heap of timers by itself, under any user: pushes, removals and expiries. -/
namespace AffiniX
open Function Transition IndexedHeap

structure TimerHeap where
  heap : IndexedHeap Nat := ⟨0,fun _ => 0,fun _ => absent⟩
  expiry : Nat → Int := fun _ => 0
  inHeap : Nat → Bool := fun _ => false

namespace TimerHeap
inductive Move
  | push (n : Nat) (expiry : Int)
  | remove (n : Nat)
  | expire (now : Int)

def push (h : TimerHeap) (n : Nat) (expiry : Int) : TimerHeap where
  heap := h.heap.push 4 (update h.expiry n expiry) n
  expiry := update h.expiry n expiry
  inHeap := update h.inHeap n true

def remove (h : TimerHeap) (n : Nat) : TimerHeap :=
  if h.inHeap n then
    { h with heap := h.heap.remove 4 h.expiry n, inHeap := update h.inHeap n false }
  else h

/-- The nodes that `expire` fires, in order, and the heap it leaves. A round takes the root. -/
def expire (now : Int) : Nat → TimerHeap → List Nat × TimerHeap
  | 0, h => ([],h)
  | fuel+1, h =>
    if h.heap.size ≠ 0 ∧ h.expiry (h.heap.cell 0) ≤ now then
      let rest := expire now fuel (h.remove (h.heap.cell 0))
      (h.heap.cell 0::rest.1,rest.2)
    else ([],h)

def step (h : TimerHeap) : Move → Option TimerHeap
  | .push n expiry => if h.inHeap n = false then some (h.push n expiry) else none
  | .remove n => some (h.remove n)
  | .expire now => some (expire now h.heap.size h).2

def track (queue : Nat → Option Int) : Move → Nat → Option Int
  | .push n expiry => update queue n (some expiry)
  | .remove n => update queue n none
  | .expire now => fun n => (queue n).filter (now < ·)

structure Inv (h : TimerHeap) (queue : Nat → Option Int) : Prop where
  valid : h.heap.Valid 4 h.expiry
  member : ∀ n, h.inHeap n ↔ h.heap.Mem n
  queued : ∀ n, queue n = if h.inHeap n then some (h.expiry n) else none

variable {h t : TimerHeap} {queue : Nat → Option Int} {n : Nat}

lemma Inv.push (inv : h.Inv queue) (fresh : h.inHeap n = false) (expiry : Int) :
    (h.push n expiry).Inv (update queue n (some expiry)) := by
  have outside : ¬ h.heap.Mem n := by simp [← inv.member,fresh]
  have same : ∀ m, h.heap.Mem m → update h.expiry n expiry m = h.expiry m := by
    intro m inside
    apply update_of_ne
    rintro rfl
    exact outside inside
  obtain ⟨valid,mem⟩ := (inv.valid.congr same).push outside
  refine ⟨valid,fun m => ?_,fun m => ?_⟩
  · change update h.inHeap n true m ↔ _
    rw [TimerHeap.push,mem]
    by_cases own : m = n <;> simp [own,inv.member]
  change _ = if update h.inHeap n true m then some (update h.expiry n expiry m) else none
  by_cases own : m = n <;> simp [own,inv.queued]

lemma Inv.remove (inv : h.Inv queue) (n : Nat) : (h.remove n).Inv (update queue n none) := by
  unfold TimerHeap.remove
  split
  next inside =>
    obtain ⟨valid,mem⟩ := inv.valid.remove (by decide) ((inv.member n).1 inside)
    refine ⟨valid,fun m => ?_,fun m => ?_⟩
    · change update h.inHeap n false m ↔ _
      rw [mem]
      by_cases own : m = n <;> simp [own,inv.member]
    change _ = if update h.inHeap n false m then some (h.expiry m) else none
    by_cases own : m = n <;> simp [own,inv.queued]
  next outside =>
  have same : update queue n none = queue := by
    rw [update_eq_self_iff,inv.queued,if_neg outside]
  rw [same]
  exact inv

structure Expires (h : TimerHeap) (queue : Nat → Option Int) (now : Int) (r : List Nat × TimerHeap) : Prop where
  after : r.2.Inv (track queue (.expire now))
  fired : ∀ n, n ∈ r.1 ↔ ∃ e ≤ now, queue n = some e
  once : r.1.Nodup
  order : r.1.Pairwise fun m n => h.expiry m ≤ h.expiry n

lemma Inv.root_le (inv : h.Inv queue) {e : Int} (queued : queue n = some e) :
    h.heap.size ≠ 0 ∧ h.expiry (h.heap.cell 0) ≤ h.expiry n ∧ h.expiry n = e := by
  rw [inv.queued] at queued
  split at queued
  next inside =>
    obtain ⟨i,bound,rfl⟩ := (inv.member n).1 inside
    exact ⟨by omega,inv.valid.ordered.root_le i bound,Option.some.inj queued⟩
  · cases queued

lemma Inv.rests {now : Int} (inv : h.Inv queue)
    (idle : ¬ (h.heap.size ≠ 0 ∧ h.expiry (h.heap.cell 0) ≤ now)) : Expires h queue now ([],h) := by
  have later {n : Nat} {e : Int} (queued : queue n = some e) : now < e := by
    obtain ⟨some',root,same⟩ := inv.root_le queued
    exact not_le.1 fun due => idle ⟨some',root.trans (same ▸ due)⟩
  have kept : track queue (.expire now) = queue := by
    funext n
    cases queued : queue n with
    | none => simp [track,queued]
    | some => simp [track,queued,later queued]
  refine ⟨by rw [kept]; exact inv,fun n => ⟨nofun,?_⟩,.nil,.nil⟩
  rintro ⟨e,due,queued⟩
  exact absurd (later queued) (not_lt.2 due)

lemma Inv.expire (inv : h.Inv queue) (now : Int) (fuel : Nat) (enough : h.heap.size ≤ fuel) :
    Expires h queue now (TimerHeap.expire now fuel h) := by
  induction fuel generalizing h queue with
  | zero => exact inv.rests fun due => due.1 (Nat.le_zero.1 enough)
  | succ fuel ih =>
    unfold TimerHeap.expire
    split
    next due =>
      have inside := (inv.member _).2 (h.heap.mem_root due.1)
      have root : queue (h.heap.cell 0) = some (h.expiry (h.heap.cell 0)) := by rw [inv.queued,if_pos inside]
      have fewer : (h.remove (h.heap.cell 0)).heap.size ≤ fuel := by
        rw [TimerHeap.remove,if_pos inside,remove_size 4 _ (by decide)]
        omega
      have same : (h.remove (h.heap.cell 0)).expiry = h.expiry := by
        rw [TimerHeap.remove,if_pos inside]
      obtain ⟨after,fired,once,order⟩ := ih (inv.remove (h.heap.cell 0)) fewer
      rw [same] at order
      have least {m : Nat} {e : Int} (queued : queue m = some e) := (inv.root_le queued).2.1
      generalize h.heap.cell 0 = n at *
      refine ⟨?_,fun m => ?_,once.cons ?_,order.cons ?_⟩
      · convert after using 1
        funext m
        by_cases own : m = n <;> simp [track,own,root,due.2]
      · by_cases own : m = n <;> simp [own,fired,root,due.2]
      · simp [fired]
      intro m later
      obtain ⟨e,_,queued⟩ := (fired m).1 later
      by_cases own : m = n
      · simp [own] at queued
      · exact least ((update_of_ne own none queue).symm.trans queued)
    · exact inv.rests ‹_›

lemma run_inv {moves : List Move} (run : Exec (Via step) h moves t)
    (inv : h.Inv queue) : t.Inv (moves.foldl track queue) := by
  induction run generalizing queue with
  | nil => exact inv
  | cons h m _ _ _ head _ ih =>
    apply ih
    cases m with
    | push n expiry =>
      obtain ⟨fresh,rfl⟩ := enabled head
      exact inv.push fresh expiry
    | remove n =>
      cases head
      exact inv.remove n
    | expire now =>
      cases head
      exact (inv.expire now _ le_rfl).after

/-- Members know their positions and are in heap order, are what was pushed and neither removed nor expired, and an
expiry fires the due ones in order. -/
theorem heap_exact {moves : List Move} (run : Exec (Via step) {} moves h) (now : Int) :
    let queue := moves.foldl track fun _ => none
    let fired := (expire now h.heap.size h).1
    (∀ i < h.heap.size, h.heap.index (h.heap.cell i) = i) ∧ (∀ n, h.inHeap n ↔ n ∈ h.heap.members) ∧
      (∀ i < h.heap.size, 0 < i → h.expiry (h.heap.cell ((i-1)/4)) ≤ h.expiry (h.heap.cell i)) ∧
      h.heap.members.Nodup ∧ (∀ n, queue n = if n ∈ h.heap.members then some (h.expiry n) else none) ∧
      (∀ n, n ∈ fired ↔ ∃ e ≤ now, queue n = some e) ∧ fired.Nodup ∧
      fired.Pairwise fun m n => h.expiry m ≤ h.expiry n := by
  have start : Inv {} fun _ => none := ⟨⟨nofun,nofun⟩,fun n => ⟨nofun,nofun⟩,fun _ => rfl⟩
  have inv := run_inv run start
  have expires := inv.expire now _ le_rfl
  refine ⟨inv.valid.indexed,fun n => ?_,fun i bound positive => inv.valid.ordered i positive bound,
    inv.valid.indexed.nodup_members,fun n => ?_,expires.fired,expires.once,expires.order⟩
  · rw [mem_members,inv.member]
  simp only [mem_members,← inv.member]
  exact inv.queued n

theorem heap_of_three : ∃ h, Exec (Via step) {}
      [.push 7 30,.push 8 10,.push 9 20,.remove 8,.expire 5] h ∧
    h.heap.members = [9,7] ∧ (expire 25 h.heap.size h).1.Nodup :=
  Exec.run_of_drive (by decide) fun _ run members => ⟨members,(heap_exact run 25).2.2.2.2.2.2.1⟩

end TimerHeap
end AffiniX
