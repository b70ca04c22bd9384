import AffiniX.ConnectionLifecycle
import AffiniX.ConnectionRead

/-! A half-closed connection waits for the peer's end with a receive, armed where the parse loop ends. -/
namespace AffiniX
open Transition

def Point.receiving : Point → Bool
  | .fdError _ | .fds | .parsing | .delivering _ | .frameError => true
  | .idle | .opening | .writable => false

lemma Point.not_receiving_of_settled {p : Point} (settled : p.settled) : p.receiving = false := by
  cases p <;> first | rfl | cases settled

namespace Connection
variable {M : Type}

/-- The write side is shut down where nothing will arm a receive, or a full batch ends on a half-closed connection. -/
def deserts (c : Connection M) : Event → Bool
  | .call .shutdownWrite => c.state == .established && !c.point.receiving && c.inb.recvs.isEmpty
  | .resume => c.point == .delivering false && c.state == .shutdownWrite && c.inb.recvs.isEmpty
  | _ => false

def served (label : Event × Bool) : Bool := label.1 != .enableCoro && label.2

structure Watched (c : Connection M) : Prop where
  off : c.coro.on = false
  half : c.state = .shutdownWrite → c.point.receiving = false → c.inb.recvs ≠ []

section
variable {c d : Connection M}

lemma Watched.of_state (off : c.coro.on = false) (open' : c.state ≠ .shutdownWrite) : c.Watched :=
  ⟨off,fun half => absurd half open'⟩

lemma Watched.of_receiving (off : c.coro.on = false) (receiving : c.point.receiving) : c.Watched := by
  refine ⟨off,?_⟩
  intro _ settled
  rw [settled] at receiving
  cases receiving

lemma Watched.of_recvs (off : c.coro.on = false) (waits : c.inb.recvs ≠ []) : c.Watched := ⟨off,fun _ _ => waits⟩

lemma Watched.apart (watched : c.Watched) (apart : Apart c d)
    (half : d.state = .shutdownWrite → c.state = .shutdownWrite) : d.Watched := by
  refine ⟨apart.on.trans watched.off,?_⟩
  intro now settled
  rw [apart.inb]
  apply watched.half (half now)
  obtain same | ⟨before,_⟩ := apart.point
  · exact same ▸ settled
  · exact Point.not_receiving_of_settled before

lemma close_half (c : Connection M) (reason : CloseReason) : (c.close reason).state ≠ .shutdownWrite := by
  unfold close
  split
  next ended =>
    intro half
    rw [half] at ended
    revert ended
    decide
  · simp [teardown]

lemma close_watched (off : c.coro.on = false) (reason : CloseReason) : (c.close reason).Watched :=
  .of_state ((close_apart c reason).on.trans off) (close_half c reason)

lemma noteWritePending_state (c : Connection M) : c.noteWritePending.state = c.state := by
  unfold noteWritePending
  split <;> rfl

lemma afterSent_state (c : Connection M) : c.afterSent.state = c.state := by
  unfold afterSent
  simp only
  split
  · rfl
  · exact noteWritePending_state _

lemma offer_half {parts : List Bytes} (half : (c.offer parts).1.state = .shutdownWrite) : c.state = .shutdownWrite := by
  have sent := offer_sent c parts
  generalize (c.offer parts).1 = d at sent half
  cases sent with
  | closed => exact absurd half (close_half c _)
  | noted | paused => exact half

lemma signalWritable_state (off : c.coro.on = false) : c.signalWritable.state = c.state := by
  simp only [signalWritable,off,Bool.false_eq_true,if_false]
  split
  · rfl
  · exact afterSent_state c

lemma drained_state (off : c.coro.on = false) (accept : Bool) : (c.drained accept).state = c.state := by
  unfold drained release
  split
  · simp only
    split
    · refine (signalWritable_state ?_).trans (rearmRecv_arms _ _).state
      exact (rearmRecv_arms _ _).on.trans off
    · exact signalWritable_state off
  · exact afterSent_state c

lemma sendDone_half {result : SentResult} {accept : Bool} (off : c.coro.on = false)
    (half : (c.sendDone result accept).state = .shutdownWrite) : c.state = .shutdownWrite := by
  unfold sendDone at half
  simp only at half
  split at half
  · exact half
  cases result with
  | canceled => exact half
  | error => exact absurd half (close_half _ _)
  | sent n =>
    simp only [onSent] at half
    obtain ⟨trace,fin⟩ := finAfterDrain_eq { c with out := (c.out.transmit (SentResult.sent n).count).settle (.sent n) }
    rw [fin] at half
    have same := drained_state (c := { c with
      out := (c.out.transmit n).settle (.sent n), trace := trace }) off accept
    exact same.symm.trans half

lemma submitRecv_watched (off : c.coro.on = false) (atLeast : Nat) : (c.submitRecv atLeast true).Watched := by
  apply Watched.of_recvs
  · exact off
  · simp [submitRecv,emit]

lemma armRecv_watched (watched : c.Watched) : (c.armRecv true).Watched := by
  unfold armRecv
  split
  · exact watched
  · exact submitRecv_watched watched.off _

lemma rearmRecv_watched (watched : c.Watched) : (c.rearmRecv true).Watched := by
  simp only [rearmRecv,watched.off,Bool.false_eq_true,if_false]
  exact armRecv_watched watched

lemma finishRecv_watched (off : c.coro.on = false) (lives : c.Lives anything 0) : (c.finishRecv true).Watched := by
  unfold finishRecv
  simp only [off,Bool.not_false,and_true]
  split
  next established =>
    apply armRecv_watched
    apply Watched.of_state
    · exact off
    · simp [established]
  · split
    next half =>
      have fdOpen : c.fdOpen = true := by
        rw [← Bool.not_eq_false,lives.closed_iff,half]
        decide
      simp only [armDrainRecv,fdOpen,if_true]
      apply submitRecv_watched
      exact off
    · exact .of_state off ‹_›

lemma afterBatch_watched (off : c.coro.on = false) (lives : c.Lives anything 0) (last : Bool)
    (kept : last = false → c.state = .shutdownWrite → c.inb.recvs ≠ []) : (c.afterBatch last true).Watched := by
  unfold afterBatch
  simp only
  split
  · exact finishRecv_watched off lives
  next more =>
  split
  · exact ⟨off,fun half _ => kept (by simpa using more) half⟩
  · exact .of_receiving off rfl

lemma parse_watched (off : c.coro.on = false) (lives : c.Lives anything 0)
    (parsing : c.point = .parsing) (framer : Framer M) : (c.parse framer true).Watched := by
  unfold parse
  split
  · simp only
    split
    · exact finishRecv_watched off (lives.congr rfl rfl rfl)
    simp only [dispatchBatch,off,Bool.false_eq_true,if_false]
    exact .of_receiving off rfl
  · exact .of_receiving off rfl
  simp only
  split
  · simp only [dispatchBatch,off,Bool.false_eq_true,if_false]
    exact .of_receiving off rfl
  · exact .of_receiving off (by simp [parsing,Point.receiving])

lemma resume_watched (watched : c.Watched) (lives : c.Lives anything 0) (framer : Framer M)
    (stays : c.deserts .resume = false) : (c.resume framer true).Watched := by
  unfold resume
  split
  · exact watched
  next opening =>
    apply rearmRecv_watched
    exact ⟨watched.off,fun half _ => watched.half half (by rw [opening]; rfl)⟩
  · exact .of_receiving watched.off rfl
  · exact .of_receiving watched.off rfl
  · exact parse_watched watched.off lives ‹_› framer
  next delivering =>
    apply afterBatch_watched watched.off lives
    rintro rfl half
    simpa [deserts,delivering,half] using stays
  · apply close_watched
    exact watched.off
  next writable =>
  apply watched.apart (afterSent_apart c (by rw [writable]; rfl))
  rw [afterSent_state]
  exact id

lemma onRecv_watched (off : c.coro.on = false) (lives : c.Lives anything 0) (result : RecvResult)
    (ancillary : Ancillary) : (c.onRecv result ancillary true).Watched := by
  have same : c.disarm = c := by simp [disarm,off]
  unfold onRecv
  simp only [same,off,Bool.false_eq_true,false_or]
  split
  · split
    · exact .of_state off ‹_›
    next half =>
    have half := not_not.1 half
    have fdOpen : c.fdOpen = true := by
      rw [← Bool.not_eq_false,lives.closed_iff,half]
      decide
    cases result with
    | eof | error => exact close_watched off _
    | _ =>
      simp only [armDrainRecv,fdOpen,if_true]
      exact submitRecv_watched off _
  next established =>
  have open' : c.state ≠ .shutdownWrite := by
    rw [not_not.1 established]
    decide
  cases result with
  | again | canceled => exact rearmRecv_watched (.of_state off open')
  | error | eof => exact close_watched off _
  | data =>
    simp only
    split
    · exact .of_state off open'
    · split <;> exact .of_state off open'

lemma sendDone_watched (watched : c.Watched) (result : SentResult) (idle : c.point = .idle) :
    (c.sendDone result true).Watched := by
  have settled : c.point.settled := by rw [idle]; rfl
  obtain apart | ⟨n,rfl,lifts,e,lifted,apart⟩ := sendDone_cases c result true settled
  · exact watched.apart apart (sendDone_half watched.off)
  have before : e.Watched := by
    refine ⟨by rw [lifted.coro]; exact watched.off,?_⟩
    rw [lifted.state,lifted.inb,lifted.point]
    exact watched.half
  apply (rearmRecv_watched before).apart apart
  intro half
  rw [(rearmRecv_arms _ _).state,lifted.state]
  exact sendDone_half watched.off half

lemma call_watched (watched : c.Watched) (u : Call) (stays : c.deserts (.call u) = false) :
    (c.call true u).Watched := by
  have offered (parts : List Bytes) : (c.offer parts).1.Watched := watched.apart (offer_apart c parts) offer_half
  cases u with
  | send | sendScatter => exact offered _
  | shutdownWrite =>
    have apart := shutdownWrite_apart c
    have on := apart.on.trans watched.off
    by_cases established : c.state = .established
    · refine ⟨on,?_⟩
      intro _ settled
      have point : c.shutdownWrite.point = c.point := by
        unfold shutdownWrite
        simp only
        split_ifs <;> rfl
      simp only [call,point] at settled
      simpa [call,apart.inb,deserts,established,settled] using stays
    have same : c.call true .shutdownWrite = c := if_pos established
    rw [same]
    exact watched
  | close reason => exact close_watched watched.off reason
  | awaitRecv | awaitSend => simpa [call,watched.off] using watched
  | unawaitRecv | unawaitSend => exact ⟨watched.off,watched.half⟩

lemma step_watched {framer : Framer M} {label : Event × Bool} (taken : Step framer c label d) (serves : served label)
    (stays : c.deserts label.1 = false) (lives : c.Lives anything 0) (watched : c.Watched) : d.Watched := by
  obtain ⟨_,_⟩ := label
  simp only [served,Bool.and_eq_true,bne_iff_ne] at serves
  obtain ⟨callback,rfl⟩ := serves
  cases taken.move with
  | call u => exact call_watched watched u stays
  | enableCoro => exact absurd rfl callback
  | connected result _ connecting =>
    have open' : c.state ≠ .shutdownWrite := by
      rw [connecting]
      decide
    cases result with
    | ok => exact .of_state watched.off (by simp [onConnectResult,start,emit])
    | canceled => exact .of_state watched.off open'
    | failed => exact close_watched watched.off _
  | recvDone =>
    unfold recvDone
    simp only
    split
    next closed =>
      apply Watched.of_state
      · exact watched.off
      · simp [closed]
    · apply onRecv_watched
      · exact watched.off
      · exact lives.congr rfl rfl rfl
  | sendDone _ result _ idle => exact sendDone_watched watched result idle
  | flush =>
    apply watched.apart (flushWrite_apart c true)
    unfold flushWrite
    split_ifs <;> exact id
  | resume => exact resume_watched watched lives framer stays

/-- Between the steps of the loop a half-closed connection has a receive outstanding. -/
theorem halfClosed_waits {framer : Framer M} {flow : FlowControl} {readBufferSize : Nat}
    {labels : List (Event × Bool)}
    (run : Exec (Guarded (Step framer) fun c label => served label ∧ c.deserts label.1 = false)
      (create flow readBufferSize) labels c)
    (half : c.state = .shutdownWrite) (idle : c.point = .idle) : c.inb.recvs ≠ [] := by
  have held : c.Lives anything 0 ∧ c.Watched := by
    apply run.invariant (fun c => c.Lives anything 0 ∧ c.Watched)
    · intro c _ d taken before
      exact ⟨step_anything before.1 taken.2, step_watched taken.2 taken.1.1 taken.1.2 before.1 before.2⟩
    · exact ⟨create_anything flow readBufferSize,rfl,nofun⟩
  apply held.2.half half
  rw [idle]
  rfl

end

def shutdownInHandler : List (Event × Bool) :=
  [(.connected .ok,true),(.resume,true),(.recvDone 0 (.data [7]) {},true),(.resume,true),
    (.resume,true),(.call .shutdownWrite,true),(.resume,true)]

theorem shutdownInHandler_waits : ∃ c : Connection UInt8,
    Exec (Guarded (Step bytewise) fun c label => served label ∧ c.deserts label.1 = false)
      (create {} 65536) shutdownInHandler c ∧ c.state = .shutdownWrite ∧ c.inb.recvs ≠ [] :=
  Exec.shown_of_drive (P := fun c => c.state = .shutdownWrite ∧ c.point = .idle) (by decide +kernel)
    fun _ run ⟨half,idle⟩ => ⟨half,halfClosed_waits run half idle⟩

def shutdownWhilePaused : List (Event × Bool) :=
  [(.connected .ok,true),(.resume,true),(.call (.send [1,2,3,4]),true),(.recvDone 0 .canceled {},true),
    (.call .shutdownWrite,true),(.flush,true),(.sendDone (.sent 4),true)]

def shutdownInOpen : List (Event × Bool) := [(.connected .ok,true),(.call .shutdownWrite,true),(.resume,true)]

def shutdownInFullBatch : List (Event × Bool) :=
  [(.connected .ok,true),(.resume,true),(.recvDone 0 (.data (List.replicate batchCapacity 7)) {},true)]++
    List.replicate batchCapacity (.resume,true)++[(.call .shutdownWrite,true),(.resume,true)]

/-- The run ends between two steps of the loop with a half-closed connection that has no receive
outstanding. -/
def Deserted (flow : FlowControl) (labels : List (Event × Bool)) : Prop :=
  ∃ c : Connection UInt8, Exec (Guarded (Step bytewise) fun _ label => served label)
    (create flow 65536) labels c ∧ c.state = .shutdownWrite ∧ c.point = .idle ∧ c.inb.recvs = []

lemma deserted_of_drive {flow : FlowControl} {labels : List (Event × Bool)}
    (final : (drive bytewise (fun _ label => served label) (create flow 65536) labels).map
    (fun c => (c.state,c.point,c.inb.recvs.isEmpty)) = some (.shutdownWrite,.idle,true)) :
    Deserted flow labels := by
  obtain ⟨c,driven,values⟩ := Option.map_eq_some_iff.1 final
  simp only [Prod.mk.injEq,List.isEmpty_iff] at values
  exact ⟨c,drive_exec driven,values⟩

theorem shutdowns_deserted :
    Deserted { writeHighWatermark := 4, writeLowWatermark := 2 } shutdownWhilePaused ∧
      Deserted {} shutdownInOpen ∧ Deserted {} shutdownInFullBatch := by
  refine ⟨?_,?_,?_⟩
  · apply deserted_of_drive
    decide +kernel
  · apply deserted_of_drive
    decide +kernel
  apply deserted_of_drive
  decide +kernel

end Connection
end AffiniX
