import AffiniX.ByteMemory

/-! The contiguous I/O buffer: headroom, readable bytes, writable space, in an explicit memory. -/
namespace AffiniX
open ByteMemory

abbrev Bytes := List UInt8

structure Span where
  alloc : Nat
  offset : Nat
  length : Nat
deriving DecidableEq

structure IoBuffer where
  cap : Nat
  buf : Nat → UInt8
  headroom : Nat
  start : Nat
  size : Nat
  alloc : Nat

namespace IoBuffer
def create (cap headroom : Nat) : IoBuffer where
  cap := max cap (headroom+1)
  buf := fun _ => 0
  headroom := headroom
  start := headroom
  size := 0
  alloc := 0

variable (b : IoBuffer)

def readable : Bytes := slice b.buf b.start b.size

def empty : Bool := b.size == 0

def room : Nat := b.cap-b.start-b.size

def tail : Nat := b.start+b.size

def compact : IoBuffer :=
  if b.start = b.headroom then b else
    { b with buf := store b.buf b.headroom b.readable, start := b.headroom }

def doubled (ncap need : Nat) : Nat → Nat
  | 0 => ncap
  | fuel+1 => if ncap < need then doubled (ncap*2) need fuel else ncap

def grow (need : Nat) : IoBuffer :=
  { b with
    cap := doubled (if b.cap = 0 then 64 else b.cap*2) need need
    buf := store (fun _ => 0) b.headroom b.readable
    start := b.headroom
    alloc := b.alloc+1 }

def ensureWritable (atLeast : Nat) : IoBuffer := if atLeast ≤ b.room then b
  else
    let b := b.compact
    if b.cap-b.headroom-b.size < atLeast then b.grow (b.headroom+b.size+atLeast) else b

def free : Span := ⟨b.alloc,b.tail,b.room⟩

def commit (n : Nat) : IoBuffer := { b with size := b.size+n }

def consume (n : Nat) : IoBuffer := let n := min n b.size
  { b with
    start := if b.size-n = 0 then b.headroom else b.start+n
    size := b.size-n }

/-- Bytes stored at an address of allocation `alloc`; nothing of a buffer that has moved on
to another allocation changes. -/
def write (alloc offset : Nat) (bytes : Bytes) : IoBuffer :=
  if alloc = b.alloc then { b with buf := store b.buf offset bytes } else b

def append (bytes : Bytes) : IoBuffer := let b := b.ensureWritable bytes.length
  (b.write b.alloc b.tail bytes).commit bytes.length

structure Valid (b : IoBuffer) : Prop where
  headroom_lt : b.headroom < b.cap
  headroom_le : b.headroom ≤ b.start
  fits : b.tail ≤ b.cap

lemma create_valid (cap headroom : Nat) : (create cap headroom).Valid where
  headroom_lt := by simp only [create]; omega
  headroom_le := Nat.le_refl headroom
  fits := by simp only [create,tail]; omega

@[simp] lemma readable_length : b.readable.length = b.size := slice_length _ _ _

variable {b : IoBuffer}

lemma readable_eq_nil : b.readable = [] ↔ b.size = 0 := by
  rw [← List.length_eq_zero_iff,readable_length]

lemma room_add_tail (valid : b.Valid) : b.tail+b.room = b.cap := by
  have fits := valid.fits
  simp only [tail,room] at *
  omega

lemma le_doubled (ncap need : Nat) (fuel : Nat) (positive : 0 < ncap) (enough : need ≤ ncap+fuel) :
    need ≤ doubled ncap need fuel := by
  induction fuel generalizing ncap with
  | zero => simpa [doubled] using enough
  | succ _ ih =>
    unfold doubled
    split
    · apply ih <;> omega
    · omega

section
variable (b : IoBuffer)

lemma compact_readable : b.compact.readable = b.readable := by
  unfold compact
  split
  · rfl
  change slice (store b.buf b.headroom b.readable) b.headroom b.size = b.readable
  simpa using slice_store b.buf b.headroom b.readable

lemma compact_start : b.compact.start = b.compact.headroom := by
  unfold compact
  split
  · assumption
  · rfl

lemma grow_readable (need : Nat) : (b.grow need).readable = b.readable := by
  change slice (store (fun _ => 0) b.headroom b.readable) b.headroom b.size = b.readable
  simpa using slice_store (fun _ => 0) b.headroom b.readable

lemma ensureWritable_readable (n : Nat) : (b.ensureWritable n).readable = b.readable := by
  unfold ensureWritable
  simp only
  split
  · rfl
  split
  · exact (grow_readable _ _).trans (compact_readable b)
  · exact compact_readable b

lemma append_size (bytes : Bytes) : (b.append bytes).size = b.size+bytes.length := by
  have kept := congrArg List.length (ensureWritable_readable b bytes.length)
  simp only [readable_length] at kept
  simp only [append,write,commit,if_true,kept]
end

lemma ensureWritable_of_room {n : Nat} (fits : n ≤ b.room) : b.ensureWritable n = b := if_pos fits

lemma le_grow (b : IoBuffer) (need : Nat) : 2*b.cap ≤ (b.grow need).cap ∧ need ≤ (b.grow need).cap := by
  have more (ncap fuel : Nat) : ncap ≤ doubled ncap need fuel := by
    induction fuel generalizing ncap with
    | zero => exact Nat.le_refl _
    | succ _ ih =>
      unfold doubled
      split
      · exact Nat.le_trans (Nat.le_mul_of_pos_right _ (by decide)) (ih _)
      · exact Nat.le_refl _
  constructor
  · refine Nat.le_trans ?_ (more _ need)
    split <;> omega
  apply le_doubled
  · split <;> omega
  · omega

lemma written_readable (b : IoBuffer) (bytes : Bytes) :
    ((b.write b.alloc b.tail bytes).commit bytes.length).readable = b.readable++bytes := by
  simp only [write,if_true,commit,readable,slice_add]
  congr 1
  · exact slice_store_of_disjoint _ _ _ _ _ (.inl (Nat.le_refl _))
  · exact slice_store _ _ _

lemma append_readable (b : IoBuffer) (bytes : Bytes) : (b.append bytes).readable = b.readable++bytes := by
  rw [append,written_readable,ensureWritable_readable]

section
variable {b : IoBuffer} (valid : b.Valid)
include valid

lemma compact_valid : b.compact.Valid := by
  have := valid.fits
  have := valid.headroom_le
  unfold compact
  split
  · exact valid
  · exact ⟨valid.headroom_lt,Nat.le_refl _,by simp only [tail] at *; omega⟩

lemma ensureWritable_spec (n : Nat) : (b.ensureWritable n).Valid ∧ n ≤ (b.ensureWritable n).room := by
  unfold ensureWritable
  simp only
  split
  · exact ⟨valid,‹_›⟩
  have compacted := compact_valid valid
  have moved := b.compact_start
  split
  · have big := (b.compact.le_grow (b.compact.headroom+b.compact.size+n)).2
    refine ⟨⟨?_,Nat.le_refl _,?_⟩,?_⟩
    · change b.compact.headroom < _
      omega
    · change b.compact.headroom+b.compact.size ≤ _
      omega
    change n ≤ _-b.compact.headroom-b.compact.size
    omega
  refine ⟨compacted,?_⟩
  rw [room,moved]
  omega

lemma consume_valid (n : Nat) : (b.consume n).Valid := by
  obtain ⟨lt,_,fits⟩ := valid
  simp only [tail] at fits
  refine ⟨lt,?_,?_⟩
  · simp only [consume]
    split <;> omega
  simp only [consume,tail]
  split <;> omega

lemma append_spec (bytes : Bytes) : (b.append bytes).readable = b.readable++bytes ∧ (b.append bytes).Valid := by
  refine ⟨append_readable b bytes,?_⟩
  obtain ⟨wide,_⟩ := ensureWritable_spec valid bytes.length
  have whole := room_add_tail wide
  simp only [append,write,if_true,commit]
  refine ⟨wide.headroom_lt,wide.headroom_le,?_⟩
  simp only [tail] at *
  omega
end

lemma append_of_room {bytes : Bytes} (fits : bytes.length ≤ b.room) :
    b.append bytes = { b with buf := store b.buf b.tail bytes, size := b.size+bytes.length } := by
  simp only [append,ensureWritable_of_room fits,write,if_true,commit]

lemma append_alloc_of_full {bytes : Bytes} (full : b.room < bytes.length)
    (packed : b.start = b.headroom) : (b.append bytes).alloc = b.alloc+1 := by
  have short : ¬ bytes.length ≤ b.room := by omega
  have still : b.compact = b := if_pos packed
  have grown : b.ensureWritable bytes.length = b.grow (b.headroom+b.size+bytes.length) := by
    rw [room,packed] at short full
    simp only [ensureWritable,room,packed,if_neg short,still,if_pos full]
  simp only [append,grown,write,if_true,commit]
  rfl

lemma consume_readable (b : IoBuffer) (n : Nat) : (b.consume n).readable = b.readable.drop n := by
  by_cases short : n < b.size
  · have left : b.size-min n b.size ≠ 0 := by omega
    have least : min n b.size = n := by omega
    simp only [readable,consume,if_neg left]
    rw [least,slice_drop _ _ _ _ (by omega)]
  have gone : b.size-min n b.size = 0 := by omega
  simp only [readable,consume,gone]
  rw [List.drop_eq_nil_of_le (by simp; omega)]
  rfl

lemma consume_size (b : IoBuffer) (n : Nat) : (b.consume n).size = b.size-n := by
  simp only [consume]
  omega

lemma consume_tail {n : Nat} (short : n < b.size) : (b.consume n).tail = b.tail := by
  have left : b.size-min n b.size ≠ 0 := by omega
  simp only [consume,tail,if_neg left]
  omega
end IoBuffer
end AffiniX
