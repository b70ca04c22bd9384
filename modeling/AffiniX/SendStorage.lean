import AffiniX.ConnectionWrite

/-! The storage behind a send in flight. -/
namespace AffiniX
open ByteMemory Transition IoBuffer List Option

structure SendOp.InPlace (op : SendOp) (b : IoBuffer) : Prop where
  alloc : b.alloc = op.span.alloc
  bytes : slice b.buf op.span.offset op.span.length = op.bytes
  start_le : op.span.offset ≤ b.start
  le_tail : op.span.offset+op.span.length ≤ b.tail

namespace SendOp.InPlace
variable {op : SendOp} {b : IoBuffer}

lemma appendAll (held : op.InPlace b) (valid : b.Valid) (parts : List Bytes)
    (fits : (parts.map length).sum ≤ b.room) : op.InPlace (parts.foldl IoBuffer.append b) := by
  induction parts generalizing b with
  | nil => exact held
  | cons p _ ih =>
    rw [map_cons,sum_cons] at fits
    have still := (append_spec valid p).2
    have small : p.length ≤ b.room := by omega
    have stored := append_of_room small
    have tail_le := held.le_tail
    apply ih
    · rw [stored]
      refine ⟨held.alloc,?_,held.start_le,?_⟩
      · exact (slice_store_of_disjoint _ _ _ _ _ (.inl tail_le)).trans held.bytes
      simp only [IoBuffer.tail] at *
      omega
    · exact still
    rw [stored]
    simp only [IoBuffer.room] at *
    omega

lemma evictAll (held : op.InPlace b) (parts : List Bytes) (left : (parts.map length).sum < b.size) :
    op.InPlace (parts.foldl (fun b p => b.consume p.length) b) ∧
    (parts.foldl (fun b p => b.consume p.length) b).room = b.room := by
  induction parts generalizing b with
  | nil => exact ⟨held,rfl⟩
  | cons p _ ih =>
    rw [map_cons,sum_cons] at left
    have short : p.length < b.size := by omega
    have tail := consume_tail short
    have size := b.consume_size p.length
    have cap : (b.consume p.length).cap = b.cap := rfl
    have start_le := held.start_le
    simp only [IoBuffer.tail] at tail
    have kept : op.InPlace (b.consume p.length) := ⟨held.alloc,held.bytes,by omega,consume_tail short ▸ held.le_tail⟩
    obtain ⟨last,room⟩ := ih kept (by omega)
    refine ⟨last,room.trans ?_⟩
    simp only [IoBuffer.room]
    omega
end SendOp.InPlace
namespace Outbound
structure Stored (o : Outbound) : Prop where
  valid : o.writeBuf.Valid
  held : ∀ op, o.sendOp = some op → op.InPlace o.writeBuf ∧ o.writeInflight ≠ 0
end Outbound
namespace Connection
variable {M : Type}
section
variable (c : Connection M)

def appends (parts : List Bytes) : Prop :=
  c.state = .established ∧ (c.out.writeBuf.size+(parts.map length).sum ≤ c.flow.writeHighWatermark ∨
      c.flow.onOverflow = .stopReading ∨ c.flow.onOverflow = .dropOldest)

def evicts (parts : List Bytes) : Prop :=
  c.state = .established ∧
    c.flow.writeHighWatermark < c.out.writeBuf.size+(parts.map length).sum ∧ c.flow.onOverflow = .dropOldest

/-- A send call during a send finds room behind the queued bytes, and more bytes queued than it evicts. -/
def Unhindered (parts : List Bytes) : Prop :=
  c.out.sendOp.isSome → (c.appends parts → (parts.map length).sum ≤ c.out.writeBuf.room) ∧
      (c.evicts parts → (parts.map length).sum < c.out.writeBuf.size)

def Spares (label : Event × Bool) : Prop := ∀ parts ∈ label.1.payload, c.Unhindered parts

instance (parts : List Bytes) : Decidable (c.appends parts) := instDecidableAnd

instance (parts : List Bytes) : Decidable (c.evicts parts) := instDecidableAnd

instance (parts : List Bytes) : Decidable (c.Unhindered parts) := instDecidableForall

instance (label : Event × Bool) : Decidable (c.Spares label) :=
  inferInstanceAs (Decidable (∀ parts ∈ label.1.payload, c.Unhindered parts))
end

lemma Offered.stored {c : Connection M} {parts : List Bytes} {o : Outbound} (offered : Offered c parts o)
    (stored : c.out.Stored) (spares : c.Unhindered parts) : o.Stored := by
  cases offered with
  | refused => exact stored
  | queued established room =>
    refine ⟨(appendAll_spec stored.valid parts).2,?_⟩
    intro op flying
    obtain ⟨held,inflight⟩ := stored.held op flying
    have fits := (spares (isSome_of_mem flying)).1 ⟨established,room.imp_right .inl⟩
    exact ⟨held.appendAll stored.valid parts fits,inflight⟩
  | evicted established full policy =>
    have evicted := consumeAll_valid stored.valid parts
    refine ⟨(appendAll_spec evicted parts).2,?_⟩
    intro op flying
    obtain ⟨held,inflight⟩ := stored.held op flying
    obtain ⟨fits,left⟩ := spares (isSome_of_mem flying)
    obtain ⟨kept,room⟩ := held.evictAll parts (left ⟨established,full,policy⟩)
    refine ⟨kept.appendAll evicted parts ?_,inflight⟩
    exact room ▸ fits ⟨established,.inr (.inr policy)⟩

lemma step_stored {framer : Framer M} {c c' : Connection M} {label : Event × Bool}
    (taken : Guarded (Step framer) Spares c label c') (stored : c.out.Stored) : c'.out.Stored := by
  obtain ⟨spares,taken⟩ := taken
  obtain ⟨_,moved⟩ := step_outStep taken
  unfold Spares at spares
  generalize c'.out = o,label.1 = event at moved spares
  cases moved with
  | quiet _ => exact stored
  | offered u parts _ payload offered => exact offered.stored stored (spares parts payload)
  | submitted accept free _ =>
    refine ⟨stored.valid,?_⟩
    intro op flying
    cases accept with
    | true =>
      cases flying
      exact ⟨⟨rfl,rfl,Nat.le_refl _,Nat.le_refl _⟩,‹_›⟩
    | false => exact absurd free (stored.held op flying).2
  | skipped result op flying =>
    rw [Outbound.transmit_eq flying]
    exact ⟨stored.valid,nofun⟩
  | finished result op flying possible d same parts _ offered =>
    have settled : d.out = (c.out.transmit result.count).settle result := congrArg Prod.snd same
    rw [Outbound.transmit_eq flying] at settled
    -- Nothing is in flight any more when a parked payload is retried.
    have landed : d.out.sendOp = none := by
      rw [settled]
      cases result <;> rfl
    apply offered.stored
    · refine ⟨?_,by simp [landed]⟩
      rw [settled]
      cases result with
      | sent n => exact consume_valid stored.valid n
      | canceled | error => exact stored.valid
    intro flying
    rw [landed] at flying
    exact absurd flying Bool.false_ne_true

/-- The storage of a send stays in place until its completion is processed, if send calls find room meanwhile. -/
theorem send_inPlace {framer : Framer M} {flow : FlowControl} {size : Nat}
    {labels : List (Event × Bool)} {c : Connection M}
    (run : Exec (Guarded (Step framer) Spares) (create flow size) labels c) :
    ∀ op, c.out.sendOp = some op → op.InPlace c.out.writeBuf := by
  have start : (create flow size : Connection M).out.Stored := ⟨create_valid _ _,nofun⟩
  have stored := run.invariant (fun c => c.out.Stored) (fun _ _ _ taken => step_stored taken) start
  exact fun op flying => (stored.held op flying).1

def queueBehind : List (Event × Bool) :=
  [(.connected .ok,true),(.resume,true),(.call (.send [1,2,3]),true),(.flush,true), (.call (.send [4,5]),true)]

theorem queueBehind_inPlace : ∃ c : Connection Unit,
    Exec (Guarded (Step waiting) Spares) (create {} 65536) queueBehind c ∧
      ∃ op, c.out.sendOp = some op ∧ op.bytes = [1,2,3] ∧ op.InPlace c.out.writeBuf := by
  refine Exec.shown_of_drive (P := fun c => c.out.sendOp.map (·.bytes) = some [1,2,3]) (by decide +kernel) ?_
  intro c run values
  obtain ⟨op,flying,bytes⟩ := map_eq_some_iff.1 values
  exact ⟨op,flying,bytes,send_inPlace run op flying⟩

def bulk : Bytes := replicate 65472 0

lemma bulk_length : bulk.length = 65472 := length_replicate

def growInFlight : List (Event × Bool) :=
  [(.connected .ok,true),(.resume,true),(.call (.send [7]),true),(.flush,true)]++ [(.call (.send bulk),true)]

/-- The storage of the send is given back while the send is in flight. -/
theorem growInFlight_moves : ∃ c : Connection Unit,
    Exec (Step waiting) (create {} 65536) growInFlight c ∧
      ∃ op, c.out.sendOp = some op ∧ c.out.writeBuf.alloc ≠ op.span.alloc := by
  have sent : ((create {} 65536).drive waiting (fun _ _ => True)
      [(.connected .ok,true),(.resume,true),(.call (.send [7]),true),(.flush,true)]).map
        (fun c => (c.point,c.state,[c.flow.writeHighWatermark,c.out.writeBuf.cap,
          c.out.writeBuf.headroom,c.out.writeBuf.start,c.out.writeBuf.size,c.out.writeBuf.alloc],
          c.out.sendOp.map (·.span))) =
        some (.idle,.established,[2^20,65536,64,64,1,0],some ⟨0,64,1⟩) := by decide +kernel
  obtain ⟨c,driven,values⟩ := map_eq_some_iff.1 sent
  simp only [Prod.mk.injEq,cons.injEq] at values
  obtain ⟨idle,established,⟨watermark,cap,headroom,start,size,alloc,_⟩,spans⟩ := values
  obtain ⟨op,flying,span⟩ := map_eq_some_iff.1 spans
  have taken : Step waiting c (.call (.send bulk),true) (c.offer [bulk]).1 := if_neg (by simp [idle])
  have out : (c.offer [bulk]).1.out = (c.out.append [bulk]).note [bulk] :=
    offer_out established (by simp [bulk_length,size,watermark])
  refine ⟨_,(drive_exec driven).of_guarded.append (.cons _ _ _ _ _ taken (.nil _)),op,?_,?_⟩
  · rw [out,Outbound.note,Outbound.append,flying]
  rw [out]
  change (c.out.writeBuf.append bulk).alloc ≠ _
  have full : c.out.writeBuf.room < bulk.length := by simp [IoBuffer.room,bulk_length,cap,start,size]
  rw [append_alloc_of_full full (start.trans headroom.symm),alloc,span]
  decide

end Connection
end AffiniX
