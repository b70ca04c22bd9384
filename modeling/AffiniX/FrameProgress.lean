import AffiniX.UdpSocket

/-! Progress of the parse loops: a framer whose messages take at least one byte and none beyond the input ends them. -/
namespace AffiniX
open Transition List
variable {M : Type} {framer : Framer M}

namespace Connection
variable {c d : Connection M} {accept : Bool}

def InLoop (c : Connection M) : Event → Prop
  | .resume => c.point = .parsing ∨ c.point = .delivering false
  | .call _ => True
  | _ => False

def turns (c : Connection M) : Nat := match c.point with
  | .parsing => 2*c.inb.readBuf.size+2
  | .delivering false => 2*c.inb.readBuf.size+3
  | _ => 0

lemma turns_le : c.turns ≤ 2*c.inb.readBuf.size+3 := by
  unfold turns
  split <;> omega

lemma turns_congr (point : d.point = c.point) (size : d.inb.readBuf.size = c.inb.readBuf.size) : d.turns = c.turns := by
  unfold turns
  rw [point,size]

lemma Apart.turns (apart : Apart c d) : d.turns = c.turns := by
  obtain same | ⟨before,after⟩ := apart.point
  · exact turns_congr same (by rw [apart.inb])
  have rests {e : Connection M} (settled : e.point.settled) : e.turns = 0 := by
    unfold Connection.turns
    split <;> simp_all [Point.settled]
  rw [rests before,rests after]

lemma coroArm_turns : (c.coroArm accept).turns = c.turns := by
  have grown (b : IoBuffer) (n : Nat) : (b.ensureWritable n).size = b.size := by
    simpa using congrArg length (b.ensureWritable_readable n)
  unfold coroArm armRecv submitRecv
  split
  · rfl
  split
  · rfl
  · exact turns_congr rfl (grown _ _)

lemma call_turns (u : Call) : (c.call accept u).turns = c.turns := by
  cases u with
  | send | sendScatter => exact (offer_apart c _).turns
  | shutdownWrite => exact (shutdownWrite_apart c).turns
  | close => exact (close_apart c _).turns
  | awaitRecv =>
    unfold call awaitRecv
    dsimp only
    split_ifs
    · rfl
    · exact coroArm_turns
    · rfl
    · rfl
  | unawaitRecv | unawaitSend => rfl
  | awaitSend =>
    unfold call
    dsimp only
    split
    · exact (awaitSend_apart c _).turns
    · rfl

lemma afterBatch_turns (last : Bool) :
    (c.afterBatch last accept).turns ≤ if last then 0 else 2*c.inb.readBuf.size+2 := by
  unfold afterBatch
  dsimp only
  split
  · simp [turns,(finishRecv_fixed c accept).2]
  · split <;> simp [turns]

lemma dispatchBatch_turns (last : Bool) :
    (c.dispatchBatch last accept).turns ≤ if last then 0 else 2*c.inb.readBuf.size+3 := by
  have after (d : Connection M) (same : d.inb = c.inb) :
      (d.afterBatch last accept).turns ≤ if last then 0 else 2*c.inb.readBuf.size+3 := by
    refine Nat.le_trans (afterBatch_turns last) ?_
    rw [same]
    split <;> omega
  have delivering (coro : CoroState M) (o : Output M) :
      ({ c with coro := coro, point := .delivering last }.emit o).turns ≤
        if last then 0 else 2*c.inb.readBuf.size+3 := by
    cases last <;> simp [turns,emit]
  unfold dispatchBatch
  split
  · split
    · exact delivering _ _
    split
    · exact after _ rfl
    · exact after _ (close_apart c _).inb
  · exact delivering c.coro _

lemma parse_turns (progresses : framer.Progresses) (at' : c.point = .parsing) :
    (c.parse framer accept).turns < c.turns := by
  have now : c.turns = 2*c.inb.readBuf.size+2 := by simp [turns,at']
  unfold parse
  split
  · dsimp only
    split
    · simp [turns,(finishRecv_fixed _ accept).2,at']
    refine Nat.lt_of_le_of_lt (dispatchBatch_turns true) ?_
    simp [now]
  · simp [turns,emit,at']
  next consumed parsed =>
  obtain ⟨_,within⟩ := progresses _ _ _ parsed
  have less := c.inb.readBuf.consume_size consumed
  rw [IoBuffer.readable_length] at within
  dsimp only
  split
  · refine Nat.lt_of_le_of_lt (dispatchBatch_turns false) ?_
    simp only [now,less,Bool.false_eq_true,if_false]
    omega
  simp only [turns,at',less]
  omega

lemma loop_turns (progresses : framer.Progresses) {labels : List (Event × Bool)}
    (run : Exec (Guarded (Step framer) fun c label => c.InLoop label.1) c labels d) :
    labels.countP (fun label => label.1 = .resume) ≤ c.turns := by
  induction run with
  | nil => simp
  | cons c label _ _ _ head _ ih =>
    obtain ⟨_,accept⟩ := label
    obtain ⟨inside,taken⟩ := head
    cases taken.move with
    | call =>
      rw [call_turns] at ih
      simpa using ih
    | resume =>
      have less : (c.resume framer accept).turns < c.turns := by
        unfold resume
        obtain at' | at' := inside
        · rw [at']
          exact parse_turns progresses at'
        rw [at']
        refine Nat.lt_of_le_of_lt (afterBatch_turns false) ?_
        simp [turns,at']
      simpa using Nat.succ_le_of_lt (Nat.lt_of_le_of_lt ih less)
    | _ => cases inside
end Connection
namespace FixedHeaderFramer
variable {H : Type} {proto : FixedHeaderProtocol H M}

/-- No header that is accepted announces a body with which the length of the frame wraps around. -/
def Fits (proto : FixedHeaderProtocol H M) : Prop :=
  ∀ header n, header.length = proto.headerSize → Announces proto header n → proto.headerSize+n < 2^64

/-- A message takes a byte at least and none beyond the input, and its body is all that its header announces. -/
def Whole (proto : FixedHeaderProtocol H M) (bytes : Bytes) : Prop :=
  ∀ m n, parse proto bytes = .message m n → 0 < n ∧ n ≤ bytes.length ∧
    ∃ bs, Announces proto (bytes.take proto.headerSize) bs ∧ n = proto.headerSize+bs ∧
      m = proto.message (proto.header (bytes.take proto.headerSize)) ((bytes.drop proto.headerSize).take bs)

lemma parse_stuck {bytes : Bytes} {n : Nat} (short : parse proto bytes = .needMore n) :
    0 < n ∧ ∀ more : Bytes, more.length < n → Framer.Stuck (parse proto) (bytes++more) := by
  obtain less | ⟨e,failed⟩ | ⟨bs,_,_,whole⟩ := parse_cases proto bytes
  · rw [parse,if_pos less] at short
    cases short
    refine ⟨by omega,fun more few m k parsed => ?_⟩
    rw [parse,if_pos (by rw [length_append]; omega)] at parsed
    cases parsed
  · cases short.symm.trans (append_nil bytes ▸ failed [])
  have here := whole []
  simp only [append_nil,short] at here
  split at here
  · cases here
    refine ⟨by omega,fun more few m k parsed => ?_⟩
    rw [whole,if_pos (by rw [length_append]; omega)] at parsed
    cases parsed
  · cases here

lemma Fits.whole (header : 0 < proto.headerSize) (fits : Fits proto) (bytes : Bytes) : Whole proto bytes := by
  intro m n parsed
  obtain ⟨within,bs,long,size,total,body⟩ := parse_message parsed
  have exact' := total.trans (Nat.mod_eq_of_lt (fits _ _ (length_take_of_le long) size))
  exact ⟨by omega,within,bs,size,exact',body⟩

/-- After a header that wraps, as many bytes as the frame then seems to have give a message with too short a body. -/
lemma fits_of_whole (whole : ∀ bytes, Whole proto bytes) : Fits proto := by
  intro header n size announced
  by_contra wraps
  have less := Nat.mod_lt (proto.headerSize+n) (Nat.two_pow_pos 64)
  generalize total : (proto.headerSize+n)%2^64 = frame at less
  have start (rest : Bytes) : (header++rest).take proto.headerSize = header := by rw [← size,take_left]
  have long : (header++replicate (frame-proto.headerSize) 0).length = max proto.headerSize frame := by
    rw [length_append,length_replicate,size]
    omega
  have parsed : parse proto (header++replicate (frame-proto.headerSize) 0) =
      .message (proto.message (proto.header header) (((header++replicate (frame-proto.headerSize) 0).drop
        proto.headerSize).take n)) frame := by
    simp only [parse,start,long,announced.1,announced.2,total]
    rw [if_neg (by omega),if_neg (by omega)]
  obtain ⟨_,_,bs,same,rfl,_⟩ := whole _ _ _ parsed
  rw [start] at same
  cases announced.2.symm.trans same.2
  omega

/-- What a fixed header makes of any input, and the ends of the two loops over it: exactly for the protocols whose
frames fit. -/
theorem parse_progresses (header : 0 < proto.headerSize) : Fits proto ↔ ∀ bytes, Whole proto bytes ∧
    (∀ n, parse proto bytes = .needMore n →
      0 < n ∧ ∀ more : Bytes, more.length < n → Framer.Stuck (parse proto) (bytes++more)) ∧
    (∀ capacity, (UdpSocket.deliver (parse proto) capacity (bytes.length+1) bytes []).isSome) ∧
    ∀ (c d : Connection M) (labels : List (Connection.Event × Bool)),
      Exec (Guarded (Connection.Step (parse proto)) fun c label => c.InLoop label.1) c labels d →
      labels.countP (fun label => label.1 = .resume) ≤ 2*c.inb.readBuf.size+3 := by
  refine ⟨fun fits bytes => ?_,fun all => fits_of_whole fun bytes => (all bytes).1⟩
  have progresses : Framer.Progresses (parse proto) := fun b m n parsed =>
    have whole := fits.whole header b m n parsed
    ⟨whole.1,whole.2.1⟩
  refine ⟨fits.whole header bytes,fun n => parse_stuck,fun capacity => ?_,fun c d labels run => ?_⟩
  · obtain ⟨_,_,_,ends,_⟩ := UdpSocket.deliver_parses progresses capacity [] (Nat.lt_succ_self bytes.length)
    rw [ends]
    rfl
  · exact Nat.le_trans (Connection.loop_turns progresses run) Connection.turns_le

def announcing (bodySize : Nat) : FixedHeaderProtocol Unit Unit where
  headerSize := 8
  header _ := ()
  validate _ := .ok ()
  bodySize _ := .ok bodySize
  message _ _ := ()

theorem announcing_progresses : Fits (announcing 2) ∧ parse (announcing 2) (replicate 11 0) = .message () 10 ∧
    0 < 10 ∧ 10 ≤ (replicate 11 (0 : UInt8)).length := by
  have fits : Fits (announcing 2) := by
    rintro h n _ ⟨_,size⟩
    cases size
    decide
  have parsed : parse (announcing 2) (replicate 11 0) = .message () 10 := by simp [parse,announcing]
  have inside := ((parse_progresses (by decide)).1 fits _).1 () 10 parsed
  exact ⟨fits,parsed,inside.1,inside.2.1⟩

/-- A body of 2^64-8 bytes makes a frame of none, which is a message for ever. -/
theorem announcing_stays : parse (announcing (2^64-8)) (replicate 8 0) = .message () 0 ∧
    ∀ fuel, UdpSocket.deliver (parse (announcing (2^64-8))) 64 fuel (replicate 8 0) [] = none :=
  have parsed : parse (announcing (2^64-8)) (replicate 8 0) = .message () 0 := by simp [parse,announcing]
  ⟨parsed,fun fuel => UdpSocket.deliver_stays (by simp) parsed 64 fuel []⟩

end FixedHeaderFramer
end AffiniX
