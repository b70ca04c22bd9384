import AffiniX.IoBuffer
import AffiniX.Transition

/-! The buffer as a queue of bytes with `prepend`, into a headroom that a compaction restores. -/
namespace AffiniX.IoBuffer
open ByteMemory Transition List

inductive Op
  | write (atLeast : Nat) (bytes : Bytes)
  | consume (n : Nat)
  | prepend (bytes : Bytes)
  | compact
  | reserve (n : Nat)

variable (b : IoBuffer)

/-- Differences of `std::size_t` wrap around. -/
def minus (m n : Nat) : Nat := (m+2^64-n)%2^64

def writableSize : Nat := minus (minus b.cap b.start) b.size

def makeWritable (atLeast : Nat) : IoBuffer := if atLeast ≤ b.writableSize then b
  else
    let b := b.compact
    if minus (minus b.cap b.headroom) b.size < atLeast then b.grow (b.headroom+b.size+atLeast) else b

def shift (n : Nat) : IoBuffer :=
  if b.start < n then
    let start := max n b.headroom
    let b := if b.cap < start+b.size then b.grow (start+b.size) else b
    { b with buf := store b.buf start b.readable, start := start }
  else b

def prepend (bytes : Bytes) : IoBuffer := let b := b.shift bytes.length
  let start := b.start-bytes.length
  { b with buf := store b.buf start bytes, start := start, size := b.size+bytes.length }

def reserve (n : Nat) : IoBuffer := if b.cap < n then b.grow n else b

def step : Op → Option IoBuffer
  | .write atLeast bytes =>
    let b := b.makeWritable atLeast
    if bytes.length ≤ b.writableSize then some ((b.write b.alloc b.tail bytes).commit bytes.length) else none
  | .consume n => some (b.consume n)
  | .prepend bytes => some (b.prepend bytes)
  | .compact => some b.compact
  | .reserve n => some (b.reserve n)

def compacts : Op → Bool
  | .write atLeast _ => b.room < atLeast
  | .compact => true
  | _ => false

/-- A compaction finds room for the bytes behind the headroom, and no capacity exceeds 2^63. -/
def Fits (op : Op) : Prop := (b.compacts op → b.headroom+b.size ≤ b.cap) ∧ ∀ t ∈ b.step op, t.cap ≤ 2^63

instance (op : Op) : Decidable (b.Fits op) := instDecidableAnd

def track (queue : Bytes) : Op → Bytes
  | .write _ bytes => queue++bytes
  | .consume n => queue.drop n
  | .prepend bytes => bytes++queue
  | .compact | .reserve _ => queue

structure Inv : Prop where
  headroom : b.headroom < b.cap
  fits : b.tail ≤ b.cap
  small : b.cap ≤ 2^63

variable {b} {t : IoBuffer} {n : Nat}

lemma minus_minus {k m n : Nat} (le : m+n ≤ k) (small : k ≤ 2^63) : minus (minus k m) n = k-m-n := by
  unfold minus
  omega

lemma makeWritable_spec (inv : b.Inv) (packs : b.room < n → b.headroom+b.size ≤ b.cap) :
    (b.makeWritable n).headroom < (b.makeWritable n).cap ∧ (b.makeWritable n).tail ≤ (b.makeWritable n).cap ∧
    (b.makeWritable n).readable = b.readable ∧ n ≤ (b.makeWritable n).room := by
  have whole : b.writableSize = b.room := minus_minus inv.fits inv.small
  by_cases fits : n ≤ b.room
  · have same : b.makeWritable n = b := if_pos (by rw [whole]; exact fits)
    rw [same]
    exact ⟨inv.headroom,inv.fits,rfl,fits⟩
  have room := packs (Nat.lt_of_not_le fits)
  have start := b.compact_start
  have least := inv.headroom
  obtain ⟨cap,headroom,size⟩ : b.compact.cap = b.cap ∧ b.compact.headroom = b.headroom ∧ b.compact.size = b.size := by
    unfold compact
    split <;> exact ⟨rfl,rfl,rfl⟩
  have left : minus (minus b.compact.cap b.compact.headroom) b.compact.size = b.cap-b.headroom-b.size := by
    rw [cap,headroom,size,minus_minus room inv.small]
  have moved : ¬ n ≤ b.writableSize := by rwa [whole]
  by_cases short : b.cap-b.headroom-b.size < n
  · have same : b.makeWritable n = b.compact.grow (b.compact.headroom+b.compact.size+n) :=
      (if_neg moved).trans (if_pos (by rwa [left]))
    have big := (b.compact.le_grow (b.compact.headroom+b.compact.size+n)).2
    rw [same]
    refine ⟨?_,?_,(grow_readable _ _).trans b.compact_readable,?_⟩
    · change b.compact.headroom < _
      omega
    · change b.compact.headroom+b.compact.size ≤ _
      omega
    change n ≤ _-b.compact.headroom-b.compact.size
    omega
  · have same : b.makeWritable n = b.compact := (if_neg moved).trans (if_neg (by rwa [left]))
    rw [same,tail,IoBuffer.room]
    exact ⟨by omega,by omega,b.compact_readable,by omega⟩

lemma shift_spec (inv : b.Inv) (n : Nat) : (b.shift n).readable = b.readable ∧ n ≤ (b.shift n).start ∧
    (b.shift n).tail ≤ (b.shift n).cap ∧ (b.shift n).headroom < (b.shift n).cap := by
  have headroom := inv.headroom
  unfold shift
  split
  · have least := Nat.le_max_left n b.headroom
    dsimp only
    split
    · obtain ⟨_,big⟩ := b.le_grow (max n b.headroom+b.size)
      refine ⟨?_,least,big,?_⟩
      · simpa [readable] using (slice_store _ _ _).trans (b.grow_readable _)
      change b.headroom < _
      omega
    refine ⟨?_,least,Nat.le_of_not_lt ‹_›,headroom⟩
    simpa [readable] using slice_store b.buf (max n b.headroom) b.readable
  · exact ⟨rfl,Nat.le_of_not_lt ‹_›,inv.fits,headroom⟩

lemma step_inv {op : Op} (inv : b.Inv) (fits : b.Fits op) (taken : b.step op = some t) :
    t.Inv ∧ t.readable = track b.readable op := by
  obtain ⟨packs,small⟩ := fits
  have small := small t taken
  have inside := inv.fits
  have least := inv.headroom
  cases op with
  | write atLeast =>
    obtain ⟨headroom,within,same,_⟩ := makeWritable_spec inv (by simpa [compacts] using packs)
    obtain ⟨_,rfl⟩ := enabled taken
    generalize b.makeWritable atLeast = w at *
    rw [written_readable,same]
    simp only [write,if_true,commit] at small ⊢
    have room : w.writableSize = w.room := minus_minus within small
    refine ⟨⟨headroom,?_,small⟩,rfl⟩
    unfold tail IoBuffer.room at *
    dsimp only
    omega
  | consume n =>
    cases taken
    refine ⟨⟨least,?_,small⟩,b.consume_readable n⟩
    unfold tail consume at *
    dsimp only
    split <;> omega
  | prepend bytes =>
    cases taken
    obtain ⟨same,room,_,headroom⟩ := shift_spec inv bytes.length
    rw [track,← same]
    unfold prepend at small ⊢
    generalize b.shift bytes.length = w at *
    refine ⟨⟨headroom,?_,small⟩,?_⟩
    · unfold tail at *
      dsimp only
      omega
    simp only [readable]
    rw [Nat.add_comm,slice_add,slice_store,Nat.sub_add_cancel room]
    congr 1
    exact slice_store_of_disjoint _ _ _ _ _ (.inr (by omega))
  | compact =>
    cases taken
    have room := packs rfl
    refine ⟨?_,b.compact_readable⟩
    unfold compact at small ⊢
    split
    · exact inv
    · exact ⟨least,room,inv.small⟩
  | reserve n =>
    cases taken
    unfold reserve at small ⊢
    split at small
    · obtain ⟨_,_⟩ := b.le_grow n
      rw [if_pos ‹_›]
      unfold tail at inside
      refine ⟨⟨?_,?_,small⟩,b.grow_readable n⟩
      · change b.headroom < _
        omega
      change b.headroom+b.size ≤ _
      omega
    rw [if_neg ‹_›]
    exact ⟨inv,rfl⟩

lemma run_inv {ops : List Op} (run : Exec (Guarded (Via step) Fits) b ops t) (inv : b.Inv) :
    t.Inv ∧ t.readable = ops.foldl track b.readable := by
  induction run with
  | nil => exact ⟨inv,rfl⟩
  | cons _ _ _ _ _ head _ ih =>
    obtain ⟨next,same⟩ := step_inv inv head.1 head.2
    rw [foldl_cons,← same]
    exact ih next

/-- The bytes lie in the buffer and are those of the queue, and so does the span that `writable` returns. -/
theorem buffer_queue {cap headroom : Nat} (small : max cap (headroom+1) ≤ 2^63) {ops : List Op}
    (run : Exec (Guarded (Via step) Fits) (create cap headroom) ops b) :
    b.tail ≤ b.cap ∧ b.readable = ops.foldl track [] ∧ ∀ n, (b.room < n → b.headroom+b.size ≤ b.cap) →
      let w := b.makeWritable n
      w.cap ≤ 2^63 → n ≤ w.writableSize ∧ w.tail+w.writableSize = w.cap := by
  have valid := create_valid cap headroom
  obtain ⟨inv,same⟩ := run_inv run ⟨valid.headroom_lt,valid.fits,small⟩
  refine ⟨inv.fits,same,fun n packs small => ?_⟩
  obtain ⟨_,within,_,_⟩ := makeWritable_spec inv packs
  have room : (b.makeWritable n).writableSize = _ := minus_minus within small
  rw [room]
  unfold tail IoBuffer.room at *
  omega

theorem prepended_queue : ∃ b, Exec (Guarded (Via step) Fits) (create 8 2)
      [.prepend [1,2,3],.write 6 [4,5],.consume 1,.compact] b ∧ b.start = 2 ∧ b.readable = [2,3,4,5] :=
  Exec.seen_of_drive (by decide) fun _ run _ => (buffer_queue (by decide) run).2.1

/-- Two bytes prepended into the headroom of a full buffer end outside it. -/
theorem prepended_escapes : ∃ b, Exec (Via step) (create 3 2)
      [.prepend [1,2],.write 1 [3],.write 1 []] b ∧ b.cap < b.tail ∧ b.writableSize = 2^64-2 :=
  Exec.run_of_drive (by decide) fun _ _ => id

end AffiniX.IoBuffer
