import AffiniX.ConnectionRead

/-! Reading never stalls, if nothing is armed during a pause and a reception for a parked session completes a frame. -/
namespace AffiniX.Connection
open Transition Bool
variable {M : Type}

def starved (framer : Framer M) (b : IoBuffer) : Bool := match framer b.readable with
  | .needMore _ => true
  | .message _ _ | .error _ => false

def awaitsBatch (framer : Framer M) (c : Connection M) : Bool := match c.point with
  | .fdError _ | .fds => !starved framer c.inb.readBuf
  | .parsing => !c.inb.batch.isEmpty || !starved framer c.inb.readBuf
  | .frameError => true
  | .idle | .opening | .delivering _ | .writable => false

structure Paced (c : Connection M) : Prop where
  armed : c.coro.on → c.state = .established → c.coro.armed → c.inb.recvs ≠ []
  off : ¬ c.coro.on → ¬ c.coro.recvParked ∧ ¬ c.coro.armed
  fresh : c.state = .connecting → ¬ c.coro.on ∧ c.point ≠ .opening

structure Live (framer : Framer M) (c : Connection M) : Prop where
  paced : c.Paced
  callback : ¬ c.coro.on → c.state = .established → ¬ c.readPaused → c.point.settled → c.inb.recvs ≠ []
  parked : c.coro.on → c.state = .established → ¬ c.readPaused → c.coro.recvParked → c.coro.armed ∨ awaitsBatch framer c

variable {framer : Framer M}
variable {c c' : Connection M} {accept : Bool}

lemma Paced.apart (paced : c.Paced) (apart : Apart c c') : c'.Paced := by
  constructor
  · rw [apart.on,apart.armed,apart.inb]
    intro on established
    exact paced.armed on (apart.state_eq established (by decide))
  · rw [apart.on,apart.armed]
    intro off
    obtain ⟨unparked,unarmed⟩ := paced.off off
    exact ⟨fun parked => unparked (apart.parked parked),unarmed⟩
  rw [apart.on]
  intro connecting
  obtain ⟨off,elsewhere⟩ := paced.fresh (apart.state_eq connecting (by decide))
  refine ⟨off,?_⟩
  intro opening
  obtain same | ⟨_,settled⟩ := apart.point
  · exact elsewhere (same ▸ opening)
  rw [opening] at settled
  exact false_ne_true settled

lemma Live.apart (live : c.Live framer) (apart : Apart c c') : c'.Live framer := by
  refine ⟨live.paced.apart apart,?_,?_⟩
  · rw [apart.on,apart.inb]
    intro off established running settled
    refine live.callback off (apart.state_eq established (by decide)) (running ∘ apart.paused) ?_
    obtain same | ⟨before,_⟩ := apart.point
    · exact same ▸ settled
    · exact before
  rw [apart.on,apart.armed]
  intro on established running parked
  obtain armed | awaits := live.parked on (apart.state_eq established (by decide))
    (running ∘ apart.paused) (apart.parked parked)
  · exact .inl armed
  right
  obtain same | ⟨before,_⟩ := apart.point
  · rw [awaitsBatch,same,apart.inb]
    exact awaits
  -- No batch is under way at a settled point.
  rw [awaitsBatch] at awaits
  cases at' : c.point <;> simp_all [Point.settled]

lemma Live.of_ended (paced : c.Paced) (ended : c.state ≠ .established) : c.Live framer :=
  ⟨paced,fun _ established => absurd established ended,fun _ established => absurd established ended⟩

lemma Paced.close (paced : c.Paced) (reason : CloseReason) : (c.close reason).Live framer :=
  .of_ended (paced.apart (close_apart c reason)) (close_ended c reason)

lemma Live.of_busy (paced : c.Paced) (busy : ¬ c.point.settled)
    (awaits : c.coro.on → c.state = .established → ¬ c.readPaused → c.coro.recvParked →
    awaitsBatch framer c) : c.Live framer :=
  ⟨paced,fun _ _ _ settled => absurd settled busy,
    fun on established running parked => .inr (awaits on established running parked)⟩

section
variable {c : Connection M} {accept : Bool} (submits : accept = true ∨ c.inb.recvs ≠ [])
include submits

lemma submitRecv_recvs (n : Nat) : (c.submitRecv n accept).inb.recvs ≠ [] := by
  simp only [submitRecv,emit]
  obtain rfl | pending := submits
  · simp
  · cases accept <;> simp [pending]

lemma armRecv_live (off : ¬ c.coro.on → ¬ c.coro.recvParked ∧ ¬ c.coro.armed)
    (fresh : c.state = .connecting → ¬ c.coro.on ∧ c.point ≠ .opening)
    (armed : c.coro.on → c.coro.armed ∧ (c.state = .established → ¬ c.readPaused)) :
    (c.armRecv accept).Live framer := by
  unfold armRecv
  split
  next refused =>
    have stopped (established : c.state = .established) : c.readPaused :=
      refused.resolve_right (not_not.2 established)
    exact ⟨⟨fun on established _ => absurd (stopped established) ((armed on).2 established),off,fresh⟩,
      fun _ established running => absurd (stopped established) running,
      fun on _ _ _ => .inl (armed on).1⟩
  · exact ⟨⟨fun _ _ _ => submitRecv_recvs submits _,off,fresh⟩,
      fun _ _ _ _ => submitRecv_recvs submits _,fun on _ _ _ => .inl (armed on).1⟩

variable (paced : c.Paced)
include paced

lemma coroArm_live (on : c.coro.on) (running : c.state = .established → ¬ c.coro.armed → ¬ c.readPaused) :
    (c.coroArm accept).Live framer := by
  unfold coroArm
  split
  next armed => exact ⟨paced,fun off => absurd on off,fun _ _ _ _ => .inl armed⟩
  next unarmed =>
  apply armRecv_live
  · exact submits
  · exact fun off => absurd on off
  · exact fun connecting => absurd on (paced.fresh connecting).1
  · exact fun _ => ⟨rfl,fun established => running established unarmed⟩

lemma rearmRecv_live (running : c.coro.on → c.state = .established → ¬ c.coro.armed → ¬ c.readPaused) :
    (c.rearmRecv accept).Live framer := by
  unfold rearmRecv
  split
  next on => exact coroArm_live submits paced on (running on)
  next off => exact armRecv_live submits paced.off paced.fresh fun on => absurd on off

lemma finishRecv_live (woken : c.coro.on → c.state = .established → ¬ c.readPaused → c.coro.recvParked → c.coro.armed) :
    (c.finishRecv accept).Live framer := by
  have idle : Paced { c with point := .idle } :=
    ⟨paced.armed,paced.off,fun connecting => ⟨(paced.fresh connecting).1,nofun⟩⟩
  unfold finishRecv
  simp only
  split
  next arms =>
    have off : ¬ c.coro.on := by simpa using arms.2
    exact armRecv_live submits paced.off idle.fresh fun on => absurd on off
  next stays =>
  split
  next half =>
    unfold armDrainRecv
    split
    · exact .of_ended ⟨fun _ _ _ => submitRecv_recvs submits _,idle.off,idle.fresh⟩
        (by simp [submitRecv,emit,half.1])
    · exact .of_ended idle (by simp [half.1])
  · refine ⟨idle,?_,fun on established running parked => .inl (woken on established running parked)⟩
    intro off established
    exact absurd ⟨established,by simpa using off⟩ stays

lemma afterBatch_live (last : Bool)
    (woken : c.coro.on → c.state = .established → ¬ c.readPaused → c.coro.recvParked → c.coro.armed) :
    (c.afterBatch last accept).Live framer := by
  unfold afterBatch
  simp only
  split
  · exact finishRecv_live submits paced woken
  split
  next ended => exact .of_ended ⟨paced.armed,paced.off,fun connecting => ⟨(paced.fresh connecting).1,nofun⟩⟩ ended
  · refine ⟨⟨paced.armed,paced.off,fun connecting => ⟨(paced.fresh connecting).1,nofun⟩⟩,
      fun _ _ _ settled => absurd settled false_ne_true,?_⟩
    exact fun on established running parked => .inl (woken on established running parked)

lemma dispatchBatch_live (last : Bool) : (c.dispatchBatch last accept).Live framer := by
  have moved (p : Point) (elsewhere : p ≠ .opening) : Paced { c with point := p } :=
    ⟨paced.armed,paced.off,fun connecting => ⟨(paced.fresh connecting).1,elsewhere⟩⟩
  unfold dispatchBatch
  split
  next on =>
    split
    · exact ⟨⟨paced.armed,fun off => absurd on off,(moved (.delivering last) nofun).fresh⟩,
        fun off => absurd on off,fun _ _ _ parked => absurd parked false_ne_true⟩
    next unparked =>
    split
    · apply afterBatch_live
      · exact submits
      · exact ⟨paced.armed,fun off => absurd on off,paced.fresh⟩
      · exact fun _ _ _ parked => absurd parked unparked
    have apart := close_apart c .heldOverflow
    apply afterBatch_live
    · rw [apart.inb]
      exact submits
    · exact paced.apart apart
    · exact fun _ _ _ parked => absurd (apart.parked parked) unparked
  next off =>
  exact ⟨⟨fun on => absurd on off,paced.off,(moved (.delivering last) nofun).fresh⟩,
    fun _ _ _ settled => absurd settled false_ne_true,fun on => absurd on off⟩
end

lemma parse_live (submits : accept = true ∨ c.inb.recvs ≠ [])
    (live : c.Live framer) (parsing : c.point = .parsing) : (c.parse framer accept).Live framer := by
  have paced := live.paced
  unfold parse
  simp only
  split
  next need starving =>
    have noted : Paced { c with inb := { c.inb with parseNeed := need } } := ⟨paced.armed,paced.off,paced.fresh⟩
    split
    next none =>
      refine finishRecv_live submits noted ?_
      intro on established running parked
      refine (live.parked on established running parked).resolve_right ?_
      simp only [awaitsBatch,parsing,starved,starving]
      simpa using none
    · apply dispatchBatch_live
      · exact submits
      · exact noted
  · exact ⟨⟨paced.armed,paced.off,fun connecting => ⟨(paced.fresh connecting).1,nofun⟩⟩,
      fun _ _ _ settled => absurd settled false_ne_true,fun _ _ _ _ => .inr rfl⟩
  next =>
  split
  · apply dispatchBatch_live
    · exact submits
    · exact ⟨paced.armed,paced.off,paced.fresh⟩
  refine ⟨⟨paced.armed,paced.off,paced.fresh⟩,?_,?_⟩
  · intro _ _ _ settled
    rw [parsing] at settled
    exact absurd settled false_ne_true
  intro _ _ _ _
  simp [awaitsBatch,parsing]

def remaining (c : Connection M) : Event → List Span
  | .recvDone index _ _ => c.inb.recvs.eraseIdx index
  | _ => c.inb.recvs

def arrived (c : Connection M) (index : Nat) (bytes : Bytes) : IoBuffer := match c.inb.recvs[index]? with
  | some t => (c.inb.readBuf.write t.alloc t.offset bytes).commit bytes.length
  | none => c.inb.readBuf

def armsPaused (c : Connection M) : Event → Bool
  | .call .awaitRecv => c.coro.on && c.coro.held.isEmpty && !c.coro.armed && c.state == .established && c.readPaused
  | .resume => c.point == .opening && c.coro.on && !c.coro.armed && c.state == .established && c.readPaused
  | .recvDone _ .again _ | .recvDone _ .canceled _ => c.coro.on && c.state == .established && c.readPaused
  | _ => false

def starves (framer : Framer M) (c : Connection M) : Event → Bool
  | .recvDone index (.data bytes) _ =>
    c.coro.on && c.coro.recvParked && c.state == .established && !c.readPaused && starved framer (c.arrived index bytes)
  | _ => false

/-- Steps after which no session is left waiting; submissions succeed, but for one next to another receive. -/
def Feeds (framer : Framer M) (c : Connection M) (label : Event × Bool) : Prop :=
  (label.2 = true ∨ c.remaining label.1 ≠ []) ∧ c.armsPaused label.1 = false ∧ c.starves framer label.1 = false

instance (framer : Framer M) (c : Connection M) (label : Event × Bool) :
    Decidable (Feeds framer c label) := instDecidableAnd

lemma disarm_spec (off : ¬ c.coro.on → ¬ c.coro.recvParked ∧ ¬ c.coro.armed)
    (fresh : c.state = .connecting → ¬ c.coro.on ∧ c.point ≠ .opening) :
    c.disarm.Paced ∧ ∃ flag, c.disarm = { c with coro := { c.coro with armed := flag } } := by
  unfold disarm
  split
  next on => exact ⟨⟨fun _ _ armed => absurd armed false_ne_true,fun unset => absurd on unset,fresh⟩, false,rfl⟩
  next unset => exact ⟨⟨fun on => absurd on unset,off,fresh⟩,c.coro.armed,rfl⟩

lemma onRecv_live (submits : accept = true ∨ c.inb.recvs ≠ [])
    (off : ¬ c.coro.on → ¬ c.coro.recvParked ∧ ¬ c.coro.armed)
    (fresh : c.state = .connecting → ¬ c.coro.on ∧ c.point ≠ .opening) (result : RecvResult)
    (ancillary : Ancillary)
    (running : result = .again ∨ result = .canceled → c.coro.on → c.state = .established → ¬ c.readPaused)
    (fed : ∀ bytes, result = .data bytes → c.coro.on → c.state = .established → ¬ c.readPaused →
      c.coro.recvParked → starved framer (c.inb.readBuf.commit bytes.length) = false) :
    (c.onRecv result ancillary accept).Live framer := by
  obtain ⟨paced,_,same⟩ := disarm_spec off fresh
  unfold onRecv
  rw [same] at paced ⊢
  simp only
  split
  next ended =>
    split
    · exact .of_ended paced ended
    cases result with
    | eof | error => exact paced.close _
    | _ =>
      simp only [armDrainRecv]
      split
      · exact .of_ended ⟨fun _ _ _ => submitRecv_recvs submits _,paced.off,paced.fresh⟩ ended
      · exact .of_ended paced ended
  next =>
  cases result with
  | again => exact rearmRecv_live submits paced fun on stays _ => running (.inl rfl) on stays
  | canceled => exact rearmRecv_live submits paced fun on stays _ => running (.inr rfl) on stays
  | error | eof => exact paced.close _
  | data bytes =>
    -- The bytes of a parked session hold a message, at whichever point parsing starts.
    have moved (p : Point) (elsewhere : p ≠ .opening) (connecting : c.state = .connecting) :
        ¬ c.coro.on ∧ p ≠ .opening := ⟨(paced.fresh connecting).1,elsewhere⟩
    simp only
    split_ifs
    all_goals
      refine .of_busy ⟨paced.armed,paced.off,moved _ nofun⟩ false_ne_true ?_
      intro on stays going parked
      exact congrArg (!·) (fed bytes rfl on stays going parked)

lemma recvDone_live {index : Nat} {target : Span} {result : RecvResult} {ancillary : Ancillary} (live : c.Live framer)
    (pending : c.inb.recvs[index]? = some target) (feeds : Feeds framer c (.recvDone index result ancillary,accept)) :
    (c.recvDone index target result ancillary accept).Live framer := by
  obtain ⟨submits,running,fed⟩ := feeds
  unfold recvDone
  simp only
  split
  next closed =>
    refine .of_ended ⟨?_,live.paced.off,live.paced.fresh⟩ (by simp [closed])
    intro _ established
    cases closed.symm.trans established
  · apply onRecv_live
    · exact submits
    · exact live.paced.off
    · exact live.paced.fresh
    · intro failed _ _ _
      simp only [armsPaused] at running
      obtain rfl | rfl := failed <;> simp_all
    intro _ data _ _ _ _
    subst data
    simp only [starves,arrived,pending] at fed
    simp_all

lemma call_live (u : Call) (live : c.Live framer)
    (feeds : Feeds framer c (.call u,accept)) : (c.call accept u).Live framer := by
  cases u with
  | send bytes => exact live.apart (offer_apart c [bytes])
  | sendScatter parts => exact live.apart (offer_apart c parts)
  | shutdownWrite => exact live.apart (shutdownWrite_apart c)
  | close reason => exact live.apart (close_apart c reason)
  | awaitRecv =>
    obtain ⟨submits,running,_⟩ := feeds
    simp only [call]
    split
    next on =>
      unfold awaitRecv
      split
      · exact live
      split
      next =>
        apply coroArm_live
        · exact submits
        · exact ⟨live.paced.armed,fun off => absurd on off,live.paced.fresh⟩
        · exact on
        intro _ _ _
        simp only [armsPaused] at running
        simp_all
      · exact ⟨⟨live.paced.armed,live.paced.off,live.paced.fresh⟩,live.callback,live.parked⟩
    · exact live
  | unawaitRecv =>
    exact ⟨⟨live.paced.armed,fun off => ⟨false_ne_true,(live.paced.off off).2⟩,live.paced.fresh⟩,
      live.callback,fun _ _ _ parked => absurd parked false_ne_true⟩
  | awaitSend bytes =>
    simp only [call]
    split
    · exact live.apart (awaitSend_apart c bytes)
    · exact live
  | unawaitSend => exact ⟨⟨live.paced.armed,live.paced.off,live.paced.fresh⟩,live.callback,live.parked⟩

lemma resume_live (live : c.Live framer)
    (feeds : Feeds framer c (.resume,accept)) : (c.resume framer accept).Live framer := by
  obtain ⟨submits,running,_⟩ := feeds
  have paced := live.paced
  have moved (p : Point) (elsewhere : p ≠ .opening) : Paced { c with point := p } :=
    ⟨paced.armed,paced.off,fun connecting => ⟨(paced.fresh connecting).1,elsewhere⟩⟩
  unfold resume
  split
  · exact live
  next =>
    apply rearmRecv_live
    · exact submits
    · exact moved .idle nofun
    intro _ _ _ _
    simp only [armsPaused] at running
    simp_all
  next atError =>
    refine ⟨⟨paced.armed,paced.off,(moved .fds nofun).fresh⟩, fun _ _ _ settled => absurd settled false_ne_true,?_⟩
    intro on established going parked
    refine (live.parked on established going parked).imp_right ?_
    intro awaits
    rwa [awaitsBatch,atError] at awaits
  next atFds =>
    refine ⟨⟨paced.armed,paced.off,(moved .parsing nofun).fresh⟩,fun _ _ _ settled => absurd settled false_ne_true,?_⟩
    intro on established going parked
    refine (live.parked on established going parked).imp_right ?_
    intro awaits
    rwa [awaitsBatch,atFds] at awaits
  next parsing => exact parse_live submits live parsing
  next last delivering =>
    refine afterBatch_live submits paced last ?_
    intro on established going parked
    refine (live.parked on established going parked).resolve_right ?_
    rw [awaitsBatch,delivering]
    exact false_ne_true
  · exact (moved .idle nofun).close _
  next writable => exact live.apart (afterSent_apart c (writable ▸ rfl))

lemma sendDone_live {result : SentResult} (live : c.Live framer) (submits : accept = true ∨ c.inb.recvs ≠ [])
    (idle : c.point = .idle) : (c.sendDone result accept).Live framer := by
  obtain apart | ⟨n,_,_,d,lifted,apart⟩ := sendDone_cases c result accept (idle ▸ rfl)
  · exact live.apart apart
  obtain ⟨inb,coro,state,point,going⟩ := lifted
  have paced : d.Paced := by
    constructor
    · rw [inb,coro,state]
      exact live.paced.armed
    · rw [coro]
      exact live.paced.off
    rw [coro,state,point]
    exact live.paced.fresh
  refine (rearmRecv_live (inb ▸ submits) paced ?_).apart apart
  intro _ _ _ paused
  rw [going] at paused
  exact absurd paused false_ne_true

lemma step_live {label : Event × Bool} (taken : Guarded (Step framer) (Feeds framer) c label c')
    (live : c.Live framer) : c'.Live framer := by
  obtain ⟨feeds,taken⟩ := taken
  obtain ⟨event,accept⟩ := label
  cases taken.move with
  | call u _ => exact call_live u live feeds
  | enableCoro opening =>
    -- The session starts unarmed and unparked: callback mode never touches its flags.
    refine ⟨⟨?_,fun off => absurd rfl off,?_⟩,fun off => absurd rfl off,?_⟩
    · intro _ established armed
      by_cases on : c.coro.on
      · exact live.paced.armed on established armed
      · exact absurd armed (live.paced.off on).2
    · exact fun connecting => absurd opening (live.paced.fresh connecting).2
    intro _ established running parked
    by_cases on : c.coro.on
    · exact live.parked on established running parked
    · exact absurd parked (live.paced.off on).1
  | connected result _ connecting =>
    obtain ⟨off,_⟩ := live.paced.fresh connecting
    cases result with
    | ok => exact ⟨⟨fun on => absurd on off,live.paced.off,nofun⟩,
        fun _ _ _ settled => absurd settled false_ne_true,fun on => absurd on off⟩
    | canceled => exact live
    | failed => exact live.apart (close_apart c _)
  | recvDone index target result ancillary pending _ _ => exact recvDone_live live pending feeds
  | sendDone op result _ idle _ => exact sendDone_live live feeds.1 idle
  | flush _ _ _ => exact live.apart (flushWrite_apart c accept)
  | resume _ => exact resume_live live feeds

lemma create_live (flow : FlowControl) (size : Nat) : (create flow size : Connection M).Live framer :=
  .of_ended ⟨fun on => absurd on false_ne_true,fun _ => ⟨false_ne_true,false_ne_true⟩,
    fun _ => ⟨false_ne_true,nofun⟩⟩ nofun

def pairs : Framer (UInt8 × UInt8)
  | first::second::_ => .message (first,second) 2
  | _ => .needMore 2

end AffiniX.Connection
