import AffiniX.ConnectionLifecycle
import AffiniX.ConnectionRead

/-! `on_close` is the last call, if no handler closes the connection while something is left to deliver of a read. -/
namespace AffiniX
open Transition List Nat
namespace Connection
variable {M : Type}

def hushed (o : Output M) : Bool := !o.closes && !o.callback

/-- What follows without a look at the state: `on_fds` behind an `on_error`, and behind `on_fds` what the framer makes
of the bytes. -/
def left (framer : Framer M) (c : Connection M) : Bool := match c.point, framer c.inb.readBuf.readable with
  | .fdError _, _ => true
  | .fds, .needMore _ => false
  | .fds, _ => true
  | .parsing, .needMore _ => !c.inb.batch.isEmpty
  | .parsing, _ => true
  | _, _ => false

/-- No call of a handler closes the connection while something is left to deliver. -/
def Hushed (framer : Framer M) (c : Connection M) : Event × Bool → Prop
  | (.call u,accept) => c.left framer → (c.call accept u).state ≠ .closed
  | _ => True

instance (framer : Framer M) (c : Connection M) : DecidablePred (Hushed framer c)
  | (.call _,_) => instDecidableForall
  | (.enableCoro,_) | (.connected _,_) | (.recvDone _ _ _,_) | (.sendDone _,_) | (.flush,_) | (.resume,_) => .isTrue trivial

section
variable {framer : Framer M} {c d : Connection M} {accept : Bool}

lemma left_of_settled (settled : c.point.settled) : c.left framer = false := by
  unfold left
  split <;> simp_all [Point.settled]

lemma left_of_apart (apart : Apart c d) : d.left framer = c.left framer := by
  obtain same | ⟨before,after⟩ := apart.point
  · unfold left
    rw [same,apart.inb]
  · rw [left_of_settled before,left_of_settled after]

lemma speaks_of_left (event : Event) (none : c.left framer = false) : c.speaks framer event = false := by
  cases event with
  | resume =>
    unfold left at none
    unfold speaks
    split at none <;> simp_all
  | call | enableCoro | connected | recvDone | sendDone | flush => rfl

lemma call_left (u : Call) (closed : (c.call accept u).state = .closed) :
    (c.call accept u).left framer = c.left framer := by
  cases u with
  | send bytes => exact left_of_apart (offer_apart c [bytes])
  | sendScatter parts => exact left_of_apart (offer_apart c parts)
  | shutdownWrite => exact left_of_apart (shutdownWrite_apart c)
  | close reason => exact left_of_apart (close_apart c reason)
  | awaitRecv =>
    -- A session that waits for a read leaves a connection as open as it was.
    have same : (c.awaitRecv accept).state = .closed → c.awaitRecv accept = c := by
      unfold awaitRecv
      split
      · exact fun _ => rfl
      next up =>
      intro closed
      split at closed
      · exact absurd ((coroArm_arms _ accept).state.symm.trans closed) up
      · exact absurd closed up
    simp only [call] at closed ⊢
    split at closed
    next on => rw [if_pos on,same closed]
    next off => rw [if_neg off]
  | unawaitRecv | unawaitSend => rfl
  | awaitSend bytes =>
    simp only [call]
    split
    · exact left_of_apart (awaitSend_apart c bytes)
    · rfl

lemma left_of_arms (arms : Arms c d) (settled : c.point.settled) : d.left framer = false :=
  left_of_settled (arms.point ▸ settled)

lemma onRecv_left (idle : c.point = .idle) (result : RecvResult) (ancillary : Ancillary)
    (closed : (c.onRecv result ancillary accept).state = .closed) :
    (c.onRecv result ancillary accept).left framer = false := by
  have settled : c.disarm.point.settled := by
    unfold disarm
    split <;> exact idle ▸ rfl
  have close (reason : CloseReason) : (c.disarm.close reason).left framer = false :=
    (left_of_apart (close_apart _ reason)).trans (left_of_settled settled)
  unfold onRecv at closed ⊢
  generalize c.disarm = d at settled close closed ⊢
  dsimp only at closed ⊢
  split
  · split
    · exact left_of_settled settled
    cases result with
    | eof | error => exact close _
    | data | again | canceled => exact left_of_arms (armDrainRecv_arms d accept) settled
  next established =>
  rw [if_neg established] at closed
  cases result with
  | again | canceled => exact left_of_arms (rearmRecv_arms d accept) settled
  | error | eof => exact close _
  | data bytes =>
    have up : d.state ≠ .closed := by
      rw [not_not.1 established]
      decide
    dsimp only at closed
    split at closed
    · exact absurd closed up
    split at closed <;> exact absurd closed up

lemma afterBatch_left (last : Bool) (closed : (c.afterBatch last accept).state = .closed) :
    (c.afterBatch last accept).left framer = false := by
  unfold afterBatch at closed ⊢
  split
  · exact left_of_arms (finishRecv_arms c accept) rfl
  next on =>
  rw [if_neg on] at closed
  dsimp only at closed ⊢
  split
  · exact left_of_settled rfl
  next up =>
    rw [if_neg up] at closed
    cases (not_not.1 up).symm.trans closed

lemma dispatchBatch_left (last : Bool) (closed : (c.dispatchBatch last accept).state = .closed) :
    (c.dispatchBatch last accept).left framer = false := by
  unfold dispatchBatch at closed ⊢
  split
  next on =>
    rw [if_pos on] at closed
    split
    · rfl
    next free =>
    rw [if_neg free] at closed
    split
    next room =>
      rw [if_pos room] at closed
      exact afterBatch_left last closed
    next full =>
      rw [if_neg full] at closed
      exact afterBatch_left last closed
  · rfl

lemma parse_left (quiet : c.state = .closed → c.left framer = false) (parsing : c.point = .parsing)
    (closed : (c.parse framer accept).state = .closed) : (c.parse framer accept).left framer = false := by
  unfold parse at closed ⊢
  split
  next need more =>
    rw [more] at closed
    dsimp only at closed ⊢
    split
    · exact left_of_arms (finishRecv_arms _ accept) rfl
    next some' =>
      rw [if_neg some'] at closed
      exact dispatchBatch_left true closed
  · rfl
  next message consumed parsed =>
  rw [parsed] at closed
  dsimp only at closed ⊢
  split
  next filled =>
    rw [if_pos filled] at closed
    exact dispatchBatch_left false closed
  next short =>
    rw [if_neg short] at closed
    have none := quiet closed
    simp [left,parsing,parsed] at none

lemma step_left {c' : Connection M} {label : Event × Bool} (quiet : c.state = .closed → c.left framer = false)
    (hushed : Hushed framer c label) (taken : Step framer c label c') (closed : c'.state = .closed) :
    c'.left framer = false := by
  obtain ⟨_,accept⟩ := label
  cases taken.move with
  | call u _ =>
    rw [call_left u closed]
    exact Bool.eq_false_iff.2 fun some' => hushed some' closed
  | enableCoro opening => simp [left,opening]
  | connected result idle connecting =>
    have settled : c.point.settled := idle ▸ rfl
    cases result with
    | ok => cases closed
    | canceled => exact left_of_settled settled
    | failed => exact (left_of_apart (close_apart c _)).trans (left_of_settled settled)
  | recvDone index target result ancillary _ idle _ =>
    unfold recvDone at closed ⊢
    dsimp only at closed ⊢
    split
    · exact left_of_settled (idle ▸ rfl)
    next up =>
      rw [if_neg up] at closed
      refine onRecv_left ?_ result ancillary closed
      exact idle
  | sendDone _ result _ idle _ =>
    have settled : c.point.settled := idle ▸ rfl
    obtain apart | ⟨_,_,_,d,lifted,apart⟩ := sendDone_cases c result accept settled
    · exact (left_of_apart apart).trans (left_of_settled settled)
    · exact (left_of_apart apart).trans (left_of_arms (rearmRecv_arms d accept) (lifted.point ▸ settled))
  | flush idle => exact (left_of_apart (flushWrite_apart c accept)).trans (left_of_settled (idle ▸ rfl))
  | resume busy =>
    unfold resume at closed ⊢
    cases here : c.point with
    | idle => exact absurd here busy
    | opening => exact left_of_arms (rearmRecv_arms _ accept) rfl
    | fdError fds =>
      rw [here] at closed
      have none := quiet closed
      simp [left,here] at none
    | fds =>
      rw [here] at closed
      have none := quiet closed
      unfold left at none ⊢
      rw [here] at none
      dsimp only [beginParse] at none ⊢
      split at none <;> simp_all
    | parsing =>
      rw [here] at closed
      exact parse_left quiet here closed
    | delivering last =>
      rw [here] at closed
      exact afterBatch_left last closed
    | frameError => exact (left_of_apart (close_apart { c with point := .idle } _)).trans (left_of_settled rfl)
    | writable =>
      have settled : c.point.settled := here ▸ rfl
      exact (left_of_apart (afterSent_apart c settled)).trans (left_of_settled settled)

lemma run_hushed {flow : FlowControl} {readBufferSize : Nat} {labels : List (Event × Bool)}
    (run : Exec (Guarded (Step framer) (Hushed framer)) (create flow readBufferSize) labels c) :
    c.Lives hushed 0 ∧ (c.state = .closed → c.left framer = false) := by
  apply run.invariant (fun c => c.Lives hushed 0 ∧ (c.state = .closed → c.left framer = false))
  · rintro c ⟨event,_⟩ c' ⟨hushed,taken⟩ ⟨lives,quiet⟩
    refine ⟨step_lives lives ?_ taken fun closed => .inr (speaks_of_left event (quiet closed)),
      step_left quiet hushed taken⟩
    rintro (_|_) <;> first | exact fun _ => rfl | exact nofun
  · exact ⟨⟨zero_le _,.inl ⟨succ_pos 2,rfl,nofun⟩⟩,nofun⟩
end

/-- Once the close handler has been called, no other handler is. -/
theorem onClose_last {framer : Framer M} {flow : FlowControl} {readBufferSize : Nat}
    {labels : List (Event × Bool)} {c : Connection M}
    (run : Exec (Guarded (Step framer) (Hushed framer)) (create flow readBufferSize) labels c)
    (before after : List (Output M)) (reason : CloseReason)
    (closed : c.trace = before++.onClose reason::after) : ∀ o ∈ after, o.callback = false := by
  obtain alive | ended := (run_hushed run).1.life
  · have harmless := alive.trace (.onClose reason) (by
      rw [closed]
      exact mem_append_right _ mem_cons_self)
    cases harmless
  obtain ⟨first,reason',woken,last,trace,opening,between,late⟩ := ended.trace
  have harmless : ∀ o ∈ woken, o.closes = false ∧ o.callback = false := by
    intro o inner
    have returned := between o inner
    cases o <;> first | exact ⟨rfl,rfl⟩ | cases returned
  have quiet : ∀ o ∈ last, o.closes = false ∧ o.callback = false := by
    intro o inner
    simpa [hushed] using late o inner
  have other {o : Output M} (inner : o.closes = false) : ¬ o.isOnClose := by
    cases o <;> first | exact Bool.false_ne_true | cases inner
  have same : (first++[.detach,.closeFd])++.onClose reason'::(woken++.notify reason'::last) =
      before++.onClose reason::after := by
    rw [← closed,trace]
    simp
  have rest := Driven.split_unique (p := fun o => o.isOnClose) same rfl ?_ ?_
  · rw [rest]
    intro o done
    simp only [mem_append,mem_cons] at done
    obtain inner | rfl | inner := done
    · exact (harmless o inner).2
    · rfl
    · exact (quiet o inner).2
  · intro o inner
    simp only [mem_append,mem_cons,not_mem_nil,or_false] at inner
    obtain inner | rfl | rfl := inner
    · exact other (opening o inner)
    · exact nofun
    · exact nofun
  intro o inner
  simp only [mem_append,mem_cons] at inner
  obtain inner | rfl | inner := inner
  · exact other (harmless o inner).1
  · exact nofun
  · exact other (quiet o inner).1

def closeInHandler : List (Event × Bool) :=
  [(.connected .ok,true),(.resume,true),(.recvDone 0 (.data [1]) {},true),(.resume,true),(.resume,true),
    (.call (.close .localClose),true)]

theorem closeInHandler_last : ∃ c : Connection UInt8,
    Exec (Guarded (Step bytewise) (Hushed bytewise)) (create {} 4096) closeInHandler c ∧
      c.trace = [.onOpen,.submitRecv,.onMessages [1],.detach,.closeFd,.onClose .localClose, .notify .localClose] ∧
      ∀ o ∈ [(.notify .localClose : Output UInt8)], o.callback = false :=
  Exec.seen_of_drive (by decide +kernel) fun _ run trace =>
    onClose_last run [.onOpen,.submitRecv,.onMessages [1],.detach,.closeFd] _ .localClose trace

def closeOnTruncation : List (Event × Bool) :=
  [(.connected .ok,true),(.resume,true),(.recvDone 0 (.data [1]) { fdTrunc := true, fds := [9] },true),
    (.call (.close .localClose),true),(.resume,true),(.resume,true),(.resume,true),(.resume,true)]

/-- The descriptors and the message are delivered all the same. -/
theorem closeOnTruncation_speaks : ∃ (c : Connection UInt8) (before : List (Output UInt8)),
    Exec (Step bytewise) (create {} 4096) closeOnTruncation c ∧
      c.trace = before++[.onClose .localClose,.notify .localClose,.onFds [9],.onMessages [1]] := by
  have final : ((create {} 4096).drive bytewise (fun _ _ => True) closeOnTruncation).map (·.trace) =
      some (([.onOpen,.submitRecv,.onError truncated,.detach,.closeFd] : List (Output UInt8))++
        ([.onClose .localClose,.notify .localClose,.onFds [9],.onMessages [1]] : List (Output UInt8))) := by
    decide +kernel
  obtain ⟨c,driven,trace⟩ := Option.map_eq_some_iff.1 final
  exact ⟨c,_,(drive_exec driven).of_guarded,trace⟩

end Connection
end AffiniX
