import AffiniX.ConnectionRead

/-! What becomes of `co_await send(bytes)`: awaits are kept with what they yield, payloads with the await they were
appended for. -/
namespace AffiniX
open Transition List Outbound Prod
namespace Connection
variable {M : Type}

def Unparked (c : Connection M) : Prop := c.coro.sendParked = none

section
variable {c d : Connection M} (accept : Bool)

lemma Avoids.unparked (avoids : Avoids c d) (unparked : c.Unparked) : d.Unparked :=
  avoids.parked.elim (fun same => same.trans unparked) id

lemma offer_unparked (unparked : c.Unparked) (parts : List Bytes) : (c.offer parts).1.Unparked := by
  have sent := offer_sent c parts
  generalize (c.offer parts).1 = d at sent ⊢
  cases sent with
  | closed => exact (close_avoids _ _).unparked unparked
  | noted | paused => exact unparked

lemma signalWritable_unparked (unparked : c.Unparked) : c.signalWritable.Unparked := by
  unfold signalWritable coroWritable
  rw [show c.coro.sendParked = none from unparked]
  split
  · exact (afterSent_avoids c).unparked unparked
  split
  · exact unparked
  · exact (afterSent_avoids c).unparked unparked

lemma sendDone_unparked (unparked : c.Unparked) (result : SentResult) : (c.sendDone result accept).Unparked := by
  unfold sendDone onSent
  dsimp only
  split
  · exact unparked
  cases result with
  | canceled => exact unparked
  | error => exact (close_avoids _ _).unparked unparked
  | sent n =>
    have fin := (finAfterDrain_avoids { c with out := (c.out.transmit n).settle (.sent n) }).unparked unparked
    unfold drained release
    dsimp only
    split
    · apply signalWritable_unparked
      split
      · exact (rearmRecv_arms _ _).avoids.unparked fin
      · exact fin
    · exact (afterSent_avoids _).unparked fin
end
variable {c : Connection M}
section
variable (c : Connection M)

lemma close_out (reason : CloseReason) : (c.close reason).out = c.out :=
  out_of_outward (outward_of_sendSide (close_avoids c reason).sendSide)

lemma noteWritePending_out : c.noteWritePending.out = c.out := out_of_outward (noteWritePending_outward c)

lemma afterSent_out : c.afterSent.out = c.out := out_of_outward (outward_of_sendSide (afterSent_avoids c).sendSide)

lemma offer_accepted (parts : List Bytes) : (c.offer parts).1.out.accepted =
    c.out.accepted++if (c.offer parts).2.taken then parts.flatten else [] := by
  have same : (c.sendScatter parts).1.out.accepted = c.out.accepted := by
    unfold sendScatter applyOverflowParts
    split
    · rfl
    split
    · split
      · rw [close_out]
      · rfl
      · rw [noteWritePending_out]
        rfl
      rw [noteWritePending_out]
      rfl
    rw [out_of_outward (checkWriteWatermark_outward _),noteWritePending_out]
    rfl
  unfold offer
  dsimp only
  split
  · rw [note,same]
  · rw [same,append_nil]

def writableEdge (result : SentResult) (accept : Bool) : Option (Connection M) := match result with
  | .sent n =>
    let d := { c with out := (c.out.transmit n).settle (.sent n) }.finAfterDrain
    if c.state ≠ .closed ∧ d.coro.on ∧ d.backpressured ∧ d.out.writeBuf.size ≤ d.flow.writeLowWatermark then
      let d := { d with backpressured := false }
      some (if d.readPaused then rearmRecv { d with readPaused := false } accept else d)
    else none
  | .canceled | .error => none

def retry (result : SentResult) (accept : Bool) : Option (Bytes × SendResult) := do
  let d ← c.writableEdge result accept
  let bytes ← d.coro.sendParked
  return (bytes,(d.offer [bytes]).2)

lemma coroWritable_accepted : c.coroWritable.out.accepted = c.out.accepted++ match c.coro.sendParked with
    | none => []
    | some bytes => if (c.offer [bytes]).2.taken then bytes else [] := by
  unfold coroWritable
  cases c.coro.sendParked with
  | none =>
    dsimp only
    rw [afterSent_out,append_nil]
  | some bytes =>
    have offered := offer_accepted c [bytes]
    rw [flatten_singleton] at offered
    dsimp only
    split
    · rw [afterSent_out]
      exact offered
    · exact offered

lemma transmit_accepted (o : Outbound) (n : Nat) : (o.transmit n).accepted = o.accepted := by
  unfold transmit
  split <;> rfl

lemma lift_fixed (d : Connection M) (accept : Bool) :
    let e := if d.readPaused then
        rearmRecv { d with backpressured := false, readPaused := false } accept
      else { d with backpressured := false }
    e.out = d.out ∧ e.coro.on = d.coro.on := by
  split
  · exact ⟨out_of_outward (rearmRecv_outward _ _),(rearmRecv_arms _ _).on⟩
  · exact ⟨rfl,rfl⟩

lemma signalWritable_off {c : Connection M} (off : c.coro.on = false) : c.signalWritable.out = c.out := by
  simp only [signalWritable,off,Bool.false_eq_true,if_false]
  split
  · rfl
  · exact afterSent_out c

lemma sendDone_accepted (result : SentResult) (accept : Bool) :
    (c.sendDone result accept).out.accepted = c.out.accepted++ match c.retry result accept with
      | none => []
      | some (bytes,r) => if r.taken then bytes else [] := by
  cases result with
  | canceled =>
    unfold sendDone
    dsimp only
    split
    · simp [retry,writableEdge,transmit_accepted]
    · simp [retry,writableEdge,onSent,settle,transmit_accepted]
  | error =>
    unfold sendDone
    dsimp only
    split
    · simp [retry,writableEdge,transmit_accepted]
    · simp [retry,writableEdge,onSent,settle,transmit_accepted,close_out]
  | sent n =>
    let d := { c with out := (c.out.transmit n).settle (.sent n) }.finAfterDrain
    have entered : d.out.accepted = c.out.accepted := by
      rw [show d.out = (c.out.transmit n).settle (.sent n) from
        out_of_outward (outward_of_sendSide (finAfterDrain_avoids _).sendSide)]
      exact transmit_accepted c.out n
    unfold sendDone
    dsimp only
    split
    next closed => simp [retry,writableEdge,SentResult.count,transmit_accepted,closed]
    next open' =>
    change (d.drained accept).out.accepted = _
    unfold drained
    split
    next low =>
      obtain ⟨out,on⟩ := lift_fixed d accept
      change (signalWritable (if d.readPaused then
        rearmRecv { d with backpressured := false, readPaused := false } accept
        else { d with backpressured := false })).out.accepted = _
      by_cases session : d.coro.on
      · have edge : c.writableEdge (.sent n) accept = some _ := if_pos ⟨open',session,low.1,low.2⟩
        rw [signalWritable,if_pos (on.trans session),coroWritable_accepted,out,entered,retry,edge]
        rw [Option.bind_eq_bind,Option.bind_some]
        generalize (if d.readPaused then _ else _ : Connection M) = e
        cases e.coro.sendParked with
        | none | some => simp
      have off : d.coro.on = false := by simpa using session
      have edge : c.writableEdge (.sent n) accept = none := if_neg fun met => session met.2.1
      rw [signalWritable_off (on.trans off),out,entered,retry,edge]
      simp
    next high =>
      have edge : c.writableEdge (.sent n) accept = none := if_neg fun met => high met.2.2
      rw [afterSent_out,entered,retry,edge]
      simp

end

lemma step_accepted {framer : Framer M} {c c' : Connection M} {label : Event × Bool}
    (taken : Step framer c label c') : c'.out.accepted = c.out.accepted++ match label.1 with
      | .call (.send bytes) => if (c.offer [bytes]).2.taken then bytes else []
      | .call (.sendScatter parts) => if (c.offer parts).2.taken then parts.flatten else []
      | .call (.awaitSend bytes) => if c.coro.on ∧ (c.offer [bytes]).2.taken then bytes else []
      | .sendDone result =>
        match c.retry result label.2 with
        | none => []
        | some (bytes,r) => if r.taken then bytes else []
      | _ => [] := by
  have quiet {d : Connection M} (same : d.sendSide = c.sendSide) : d.out.accepted = c.out.accepted++[] := by
    rw [out_of_outward (outward_of_sendSide same),append_nil]
  obtain ⟨_,accept⟩ := label
  cases taken.move with
  | call u =>
    cases u with
    | send bytes =>
      have offered := offer_accepted c [bytes]
      rw [flatten_singleton] at offered
      exact offered
    | sendScatter parts => exact offer_accepted c parts
    | awaitSend bytes =>
      have offered := offer_accepted c [bytes]
      rw [flatten_singleton] at offered
      simp only [call,awaitSend]
      split
      next on =>
        simp only [on,true_and]
        split <;> exact offered
      next off => simp [off]
    | _ => exact quiet (step_sendSide taken rfl (by simp) (by simp))
  | sendDone _ result => exact sendDone_accepted c result accept
  | flush =>
    simp only [flushWrite]
    split
    · exact quiet rfl
    split
    · exact quiet rfl
    · simp [submit,emit]
  | _ => exact quiet (step_sendSide taken rfl (by simp) (by simp))

end Connection

structure SendAwait where
  payload : Bytes
  result : Option SendResult
deriving DecidableEq

/-- A connection with the awaits of its session, `parkedAt` parked, and the appended payloads, each with its await. -/
structure SendAwaits (M : Type) where
  conn : Connection M
  awaits : List SendAwait
  parkedAt : Option Nat
  chunks : List (Option Nat × Bytes)

namespace SendAwaits
open Connection
variable {M : Type}

def create (flow : FlowControl) (readBufferSize : Nat) : SendAwaits M := ⟨.create flow readBufferSize,[],none,[]⟩

section
variable (w : SendAwaits M)
variable (label : Event × Bool)

def appended : List (Option Nat × Bytes) := match label.1 with
  | .call (.send bytes) => if (w.conn.offer [bytes]).2.taken then [(none,bytes)] else []
  | .call (.sendScatter parts) => if (w.conn.offer parts).2.taken then [(none,parts.flatten)] else []
  | .call (.awaitSend bytes) =>
    if w.conn.coro.on ∧ (w.conn.offer [bytes]).2.taken then [(some w.awaits.length,bytes)] else []
  | .sendDone result =>
    match w.conn.retry result label.2 with
    | none => []
    | some (bytes,r) => if r.taken then [(w.parkedAt,bytes)] else []
  | _ => []

def yield (r : SendResult) : SendAwaits M := match w.parkedAt with
  | none => w
  | some i => { w with awaits := w.awaits.modify i fun a => { a with result := some r }, parkedAt := none }

/-- A parked await yields what its retry comes to, and `Closed` when it is cancelled or the connection is closed. -/
def observe (c : Connection M) : SendAwaits M :=
  let next := { w with conn := c, chunks := w.chunks++w.appended label }
  match label.1 with
  | .call (.awaitSend bytes) =>
    if w.conn.coro.on then
      let r := (w.conn.offer [bytes]).2
      if r = .backpressured then
        { next with awaits := w.awaits++[⟨bytes,none⟩], parkedAt := some w.awaits.length }
      else { next with awaits := w.awaits++[⟨bytes,some r⟩] }
    else next
  | .sendDone result =>
    if w.conn.coro.sendParked.isSome ∧ c.coro.sendParked = none then
      next.yield (((w.conn.retry result label.2).map snd).getD .closed)
    else next
  | _ => if w.conn.coro.sendParked.isSome ∧ c.coro.sendParked = none then next.yield .closed else next

def step (framer : Framer M) (w : SendAwaits M) (label : Event × Bool) : Option (SendAwaits M) :=
  (w.conn.step framer label.2 label.1).map (w.observe label)

def awaited : Event → Option Bytes
  | .call (.awaitSend bytes) => some bytes
  | _ => none

/-- With the policy `StopReading`, an awaited payload fits below the high watermark. -/
def Fits : Prop :=
  ∀ bytes ∈ awaited label.1, w.conn.flow.onOverflow = .stopReading →
    w.conn.out.writeBuf.size+bytes.length ≤ w.conn.flow.writeHighWatermark

instance : Decidable (Fits w label) := inferInstanceAs (Decidable (∀ bytes ∈ awaited label.1, _))
end
variable {framer : Framer M} {w w' : SendAwaits M} {label : Event × Bool} {c : Connection M}

lemma yield_conn (r : SendResult) : (w.yield r).conn = w.conn ∧ (w.yield r).chunks = w.chunks := by
  unfold yield
  split <;> exact ⟨rfl,rfl⟩

lemma observe_conn : (w.observe label c).conn = c ∧ (w.observe label c).chunks = w.chunks++w.appended label := by
  unfold observe
  dsimp only
  split
  · split
    · split <;> exact ⟨rfl,rfl⟩
    · exact ⟨rfl,rfl⟩
  · split
    · exact yield_conn _
    · exact ⟨rfl,rfl⟩
  split
  · exact yield_conn _
  · exact ⟨rfl,rfl⟩

lemma step_split (taken : w.step framer label = some w') :
    Step framer w.conn label w'.conn ∧ w' = w.observe label w'.conn := by
  obtain ⟨c,moved,same⟩ := Option.map_eq_some_iff.1 taken
  have conn : w'.conn = c := by
    rw [← same]
    exact observe_conn.1
  rw [conn]
  exact ⟨moved,same.symm⟩

lemma step_stream (moved : Step framer w.conn label c)
    (stream : w.conn.out.accepted = (w.chunks.map snd).flatten) :
    c.out.accepted = ((w.chunks++w.appended label).map snd).flatten := by
  rw [step_accepted moved,stream,map_append,flatten_append]
  congr 1
  unfold appended
  split
  · split <;> simp
  · split <;> simp
  · split <;> simp
  · split
    · simp
    · split <;> simp
  · simp

lemma retry_unparked (unparked : c.Unparked) (result : SentResult) (accept : Bool) : c.retry result accept = none := by
  cases result with
  | canceled | error => rfl
  | sent n =>
    obtain ⟨_,fin⟩ := finAfterDrain_eq { c with out := (c.out.transmit n).settle (.sent n) }
    cases edge : c.writableEdge (.sent n) accept with
    | none => simp [retry,edge]
    | some d =>
      have parked : d.coro.sendParked = none := by
        unfold writableEdge at edge
        dsimp only at edge
        rw [fin] at edge
        obtain ⟨_,rfl⟩ := enabled edge
        split
        · rw [(rearmRecv_arms _ _).sendParked]
          exact unparked
        · exact unparked
      simp [retry,edge,parked]

lemma offer_not_backpressured {bytes : Bytes} (fits : c.flow.onOverflow = .stopReading →
    c.out.writeBuf.size+bytes.length ≤ c.flow.writeHighWatermark) :
    (c.offer [bytes]).2 ≠ .backpressured := by
  change (c.sendScatter [bytes]).2 ≠ _
  unfold sendScatter
  split
  · exact nofun
  split
  next full =>
    unfold applyOverflowParts
    cases policy : c.flow.onOverflow with
    | disconnect | dropNewest | dropOldest => exact nofun
    | stopReading =>
      have room := fits policy
      simp at full
      omega
  · exact nofun

structure Inv (w : SendAwaits M) : Prop where
  unparked : w.conn.Unparked
  stream : w.conn.out.accepted = (w.chunks.map snd).flatten
  known : ∀ x ∈ w.chunks, ∀ i, x.1 = some i → i < w.awaits.length
  once : ∀ i a, w.awaits[i]? = some a → ∃ r, a.result = some r ∧
    w.chunks.filter (·.1 = some i) = if r.taken then [(some i,a.payload)] else []

lemma create_inv (flow : FlowControl) (size : Nat) : Inv (create flow size : SendAwaits M) := ⟨rfl,rfl,nofun,nofun⟩

lemma Inv.other (inv : Inv w) (unparked : c.Unparked) (stream : c.out.accepted =
    ((w.chunks++w.appended label).map snd).flatten) (plain : ∀ x ∈ w.appended label, x.1 = none) :
    Inv { w with conn := c, chunks := w.chunks++w.appended label } := by
  refine ⟨unparked,stream,?_,?_⟩
  · intro x inside i tag
    rcases mem_append.1 inside with old | new
    · exact inv.known x old i tag
    rw [plain x new] at tag
    cases tag
  intro i a at_i
  obtain ⟨r,result,once⟩ := inv.once i a at_i
  refine ⟨r,result,?_⟩
  have none' : (w.appended label).filter (fun x => x.1 = some i) = [] := by
    rw [filter_eq_nil_iff]
    intro x new
    simp [plain x new]
  rw [filter_append,none',append_nil,once]

lemma Inv.await {bytes : Bytes} {r : SendResult} (inv : Inv w) (unparked : c.Unparked)
    (chunk : w.appended label = if r.taken then [(some w.awaits.length,bytes)] else [])
    (stream : c.out.accepted = ((w.chunks++w.appended label).map snd).flatten) :
    Inv { w with conn := c, awaits := w.awaits++[⟨bytes,some r⟩], chunks := w.chunks++w.appended label } := by
  refine ⟨unparked,stream,?_,?_⟩
  · intro x inside i tag
    rw [length_append,length_singleton]
    rcases mem_append.1 inside with old | new
    · exact Nat.lt_succ_of_lt (inv.known x old i tag)
    rw [chunk] at new
    split at new
    · rw [mem_singleton.1 new] at tag
      cases tag
      exact Nat.lt_succ_self _
    · cases new
  intro i a at_i
  rw [filter_append,chunk]
  by_cases before : i < w.awaits.length
  · rw [List.getElem?_append_left before] at at_i
    obtain ⟨r',result,once⟩ := inv.once i a at_i
    refine ⟨r',result,?_⟩
    rw [once]
    have other : w.awaits.length ≠ i := by omega
    cases r.taken with
    | false => simp
    | true => simp [other]
  have last : i = w.awaits.length := by
    have bound := (List.getElem?_eq_some_iff.1 at_i).1
    rw [length_append,length_singleton] at bound
    omega
  subst last
  rw [List.getElem?_append_right (Nat.le_refl _),Nat.sub_self] at at_i
  cases at_i
  have fresh : w.chunks.filter (fun x => x.1 = some w.awaits.length) = [] := by
    rw [filter_eq_nil_iff]
    intro x old tag
    have below := inv.known x old w.awaits.length (by simpa using tag)
    omega
  refine ⟨r,rfl,?_⟩
  rw [fresh]
  cases r.taken with
  | false => rfl
  | true => simp

lemma step_inv (inv : Inv w) (fits : Fits w label) (taken : w.step framer label = some w') : Inv w' := by
  obtain ⟨moved,same⟩ := step_split taken
  have stream := step_stream moved inv.stream
  rw [same]
  generalize w'.conn = c at moved stream
  -- Without a parked await only the await itself changes the list of awaits.
  have other (plain : ∀ x ∈ w.appended label, x.1 = none) (unparked : c.Unparked)
      (quiet : w.observe label c = { w with conn := c, chunks := w.chunks++w.appended label }) :
      Inv (w.observe label c) := by
    rw [quiet]
    exact inv.other unparked stream plain
  have stays : w.conn.coro.sendParked.isSome = false := by
    rw [show w.conn.coro.sendParked = none from inv.unparked]
    rfl
  obtain ⟨_,accept⟩ := label
  cases moved.move with
  | call u =>
    cases u with
    | send | sendScatter =>
      refine other ?_ (offer_unparked inv.unparked _) (by simp [observe,stays])
      intro x inside
      simp only [appended] at inside
      split at inside
      · rw [mem_singleton.1 inside]
      · cases inside
    | awaitSend bytes =>
      have never := offer_not_backpressured (fits bytes rfl)
      simp only [call,awaitSend] at stream ⊢
      by_cases on : w.conn.coro.on = true
      · simp only [on,if_true,never,if_false] at stream ⊢
        have chunk : w.appended (.call (.awaitSend bytes),accept) =
            if (w.conn.offer [bytes]).2.taken then [(some w.awaits.length,bytes)] else [] := by
          simp [appended,on]
        have await := inv.await (offer_unparked inv.unparked [bytes]) chunk stream
        simpa [observe,on,never] using await
      have off : w.conn.coro.on = false := by simpa using on
      simp only [off,Bool.false_eq_true,if_false] at stream ⊢
      have none' : w.appended (.call (.awaitSend bytes),accept) = [] := by simp [appended,off]
      have plain : ∀ x ∈ w.appended (.call (.awaitSend bytes),accept), x.1 = none := by simp [none']
      have still := inv.other inv.unparked stream plain
      simpa [observe,off] using still
    | shutdownWrite => exact other (by simp [appended]) ((shutdownWrite_avoids _).unparked inv.unparked) (by simp [observe,stays])
    | close => exact other (by simp [appended]) ((close_avoids _ _).unparked inv.unparked) (by simp [observe,stays])
    | awaitRecv =>
      refine other (by simp [appended]) ?_ (by simp [observe,stays])
      simp only [call]
      split
      · exact (awaitRecv_avoids _ _).unparked inv.unparked
      · exact inv.unparked
    | unawaitRecv => exact other (by simp [appended]) inv.unparked (by simp [observe,stays])
    | unawaitSend => exact other (by simp [appended]) rfl (by simp [observe,stays])
  | enableCoro => exact other (by simp [appended]) inv.unparked (by simp [observe,stays])
  | connected result =>
    refine other (by simp [appended]) ?_ (by simp [observe,stays])
    cases result with
    | ok | canceled => exact inv.unparked
    | failed => exact (close_avoids _ _).unparked inv.unparked
  | recvDone =>
    exact other (by simp [appended]) ((recvDone_avoids _ _ _ _ _ _).unparked inv.unparked) (by simp [observe,stays])
  | sendDone _ result =>
    refine other ?_ (sendDone_unparked accept inv.unparked result) (by simp [observe,stays])
    intro x inside
    simp [appended,retry_unparked inv.unparked] at inside
  | flush =>
    refine other (by simp [appended]) ?_ (by simp [observe,stays])
    unfold flushWrite
    split
    · exact inv.unparked
    · split <;> exact inv.unparked
  | resume => exact other (by simp [appended]) ((resume_avoids _ _ _).unparked inv.unparked) (by simp [observe,stays])

def session (payloads : List Bytes) : List (Event × Bool) :=
  (.connected .ok,true)::(.enableCoro,true)::(.resume,true)::payloads.flatMap fun bytes =>
    [(.call (.awaitSend bytes),true),(.flush,true),(.sendDone (.sent bytes.length),true)]

def small : FlowControl := { writeHighWatermark := 4, writeLowWatermark := 2, onOverflow := .stopReading }

end SendAwaits
end AffiniX
