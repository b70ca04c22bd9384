import AffiniX.ConnectionWrite

/-! Descriptors that go out with the bytes of a connection. -/
namespace AffiniX.Connection
open List IoBuffer
variable {M : Type}

/-- A call of `send_fds`, with the bytes that `sendmsg` takes or its `errno`. -/
structure FdCall where
  payload : Bytes
  fds : List Nat
  answer : Except UInt16 Nat

variable (c : Connection M)

def wrote (bytes : Bytes) : Connection M :=
  { c with out := { c.out with
      accepted := c.out.accepted++bytes
      transmitted := c.out.transmitted++bytes } }

/-- The errors are `Closed`, `WouldBlock`, `Invalid` and that of the system. -/
def sendFds (u : FdCall) : Connection M × Except Error Unit := if c.state ≠ .established then (c,.error ⟨2,.net⟩)
  else if c.out.writeInflight ≠ 0 ∨ c.out.writeBuf.size ≠ 0 then (c,.error ⟨7,.net⟩)
  else if u.payload = [] ∨ u.fds = [] ∨ 8 < u.fds.length then (c,.error ⟨6,.net⟩)
  else
    match u.answer with
    | .error errno => (c,.error ⟨errno,.sys⟩)
    | .ok n =>
      let c := c.wrote (u.payload.take n)
      (if n < u.payload.length then (c.offer [u.payload.drop n]).1 else c,.ok ())

variable {c}

lemma sendFds_sent {u : FdCall} (sent : (c.sendFds u).2 = .ok ()) :
    c.state = .established ∧ c.out.writeBuf.size = 0 ∧ ∃ n, u.answer = .ok n ∧ (c.sendFds u).1 =
    if n < u.payload.length then ((c.wrote (u.payload.take n)).offer [u.payload.drop n]).1
    else c.wrote (u.payload.take n) := by
  unfold sendFds at sent ⊢
  split at sent
  · cases sent
  next established =>
  split at sent
  · cases sent
  next idle =>
  split at sent
  · cases sent
  next valid =>
  rw [if_neg established,if_neg idle,if_neg valid]
  rw [not_or,not_not,not_not] at idle
  cases answer : u.answer with
  | error => simp [answer] at sent
  | ok n => exact ⟨not_not.1 established,idle.2,n,rfl,rfl⟩

lemma offer_alone {bytes : Bytes} (established : c.state = .established) (alone : c.out.writeBuf.size = 0)
    (some' : bytes ≠ []) (open' : (c.offer [bytes]).1.state ≠ .closed) :
    ((c.offer [bytes]).1.out.transmitted = c.out.transmitted ∧ (c.offer [bytes]).1.out.writeBuf.readable = bytes) ↔
      (c.flow.onOverflow = .dropNewest → bytes.length ≤ c.flow.writeHighWatermark) := by
  have queued (b : IoBuffer) (empty : b.readable = []) : (b.append bytes).readable = bytes := by
    rw [append_readable,empty,nil_append]
  have none := readable_eq_nil.2 alone
  have size : c.out.writeBuf.size+([bytes].map length).sum = bytes.length := by simp [alone]
  rcases Nat.lt_or_ge c.flow.writeHighWatermark bytes.length with full | room
  · unfold offer sendScatter applyOverflowParts at open' ⊢
    rw [if_neg (not_not.2 established),size,if_pos full] at open' ⊢
    cases policy : c.flow.onOverflow with
    | disconnect => simp [policy,close,teardown,established] at open'
    | dropNewest =>
      -- The bytes are gone: the queue is as empty as before.
      simp only [Nat.not_le.2 full,forall_const,iff_false]
      exact fun kept => some' (kept.2.symm.trans none)
    | dropOldest =>
      simp only [noteWritePending,established]
      exact ⟨nofun,fun _ => ⟨rfl,queued _ ((consume_readable c.out.writeBuf _).trans (by rw [none,drop_nil]))⟩⟩
    | stopReading =>
      simp only [noteWritePending,pauseReads,emit,established]
      exact ⟨nofun,fun _ => ⟨rfl,queued _ none⟩⟩
  · rw [offer_out established (size.trans_le room)]
    exact ⟨fun _ _ => room,fun _ => ⟨rfl,queued _ none⟩⟩

/-- What `send_fds` does not write of the payload is queued right behind what it writes, exactly when the policy is not
`DropNewest` or there is room. -/
theorem fds_keep_payload (c : Connection M) (u : FdCall) {n : Nat} (answer : u.answer = .ok n)
    (sent : (c.sendFds u).2 = .ok ()) (open' : (c.sendFds u).1.state ≠ .closed) :
    ((c.sendFds u).1.out.transmitted = c.out.transmitted++u.payload.take n ∧
      (c.sendFds u).1.out.writeBuf.readable = u.payload.drop n) ↔
      (c.flow.onOverflow = .dropNewest → u.payload.length-n ≤ c.flow.writeHighWatermark) := by
  obtain ⟨established,empty,m,took,same⟩ := sendFds_sent sent
  cases answer.symm.trans took
  rw [same] at open' ⊢
  by_cases short : n < u.payload.length
  · rw [if_pos short] at open' ⊢
    rw [← length_drop]
    exact offer_alone established empty (by simpa using short) open'
  rw [if_neg short,drop_of_length_le (Nat.not_lt.1 short),Nat.sub_eq_zero_of_le (Nat.not_lt.1 short)]
  exact ⟨fun _ _ => Nat.zero_le _,fun _ => ⟨rfl,readable_eq_nil.2 empty⟩⟩

def opened (flow : FlowControl) : Connection Unit := { create flow 65536 with state := .established }

def threeBytes : FdCall := ⟨[1,2,3],[5],.ok 1⟩

theorem threeBytes_kept : ((opened {}).sendFds threeBytes).1.out.writeBuf.readable = [2,3] :=
  ((fds_keep_payload (opened {}) threeBytes rfl (by decide +kernel) (by decide +kernel)).2 nofun).2

/-- What the kernel has not taken is above the watermark: a send that follows is queued in its place. -/
theorem tail_dropped : let (c,result) := (opened ⟨1,0,.dropNewest,true⟩).sendFds threeBytes
    result = .ok () ∧ c.state = .established ∧ c.out.transmitted = [1] ∧
      (c.offer [[9]]).1.out.writeBuf.readable = [9] := by
  decide +kernel

end AffiniX.Connection
