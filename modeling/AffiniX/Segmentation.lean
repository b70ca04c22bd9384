import AffiniX.Framers
import AffiniX.ReadTurns

/-! What a callback-mode connection hands to `on_messages` and `on_error`, told from the bytes that it has received. -/
namespace AffiniX.Connection
open Transition Framer FixedHeaderFramer List Point
variable {M : Type}

def pending (c : Connection M) : List M := if c.point = .parsing then c.inb.batch else []

variable {c : Connection M} {framer : Framer M}

lemma pending_of_ne (out : c.point ≠ .parsing) : c.pending = [] := if_neg out

lemma pending_of_parsing (parsing : c.point = .parsing) : c.pending = c.inb.batch := if_pos parsing

/-- The messages delivered and pending are those of the received stream, and at rest nothing is
left that is one. -/
structure Going (framer : Framer M) (c : Connection M) : Prop where
  silent : c.reported = []
  framed : c.state = .established → Framed framer c.inb.received (c.delivered++c.pending) c.inb.readBuf.readable
  hungry : c.state = .established → c.point.rests → c.inb.received ≠ [] →
    ∃ need, framer c.inb.readBuf.readable = .needMore need

def Failed (framer : Framer M) (c : Connection M) : Prop :=
  (c.point = .frameError ∨ c.state ≠ .established) ∧ ∃ e rest, c.reported = [e] ∧
    Framed framer c.inb.received c.delivered rest ∧ framer rest = .error e

structure Tells (framer : Framer M) (c : Connection M) : Prop where
  off : c.coro.on = false
  born : c.state ≠ .connecting
  plain : c.point.plain
  reads : c.Reads
  parsing : c.point = .parsing → c.state = .established
  blank : c.inb.received = [] → c.point.rests ∧ c.delivered = [] ∧ c.reported = []
  story : Going framer c ∨ Failed framer c

section
variable {framer : Framer M} {c d : Connection M} {accept : Bool}

lemma Failed.ended (failed : Failed framer c) (calm : Calm c d) (down : d.state ≠ .established) : Failed framer d := by
  obtain ⟨_,e,rest,told,framed,error⟩ := failed
  refine ⟨.inr down,e,rest,calm.reported.trans told,?_,error⟩
  rw [calm.received,calm.delivered]
  exact framed

lemma Going.ended (going : Going framer c) (calm : Calm c d) (down : d.state ≠ .established) : Going framer d :=
  ⟨calm.reported.trans going.silent,fun held => absurd held down,fun held => absurd held down⟩

lemma Failed.aside (failed : Failed framer c) (calm : Calm c d) (held : d.state = .established → c.state = .established)
    (goes : d.point = c.point ∨ c.point.rests ∧ d.point.settled) : Failed framer d := by
  obtain ⟨at' | down,e,rest,told,framed,error⟩ := failed
  · have same : d.point = c.point := by
      obtain same | ⟨rests,_⟩ := goes
      · exact same
      rw [at'] at rests
      cases rests
    refine ⟨.inl (same.trans at'),e,rest,calm.reported.trans told,?_,error⟩
    rw [calm.received,calm.delivered]
    exact framed
  · exact Failed.ended ⟨.inr down,e,rest,told,framed,error⟩ calm fun now => down (held now)

lemma Going.aside (going : Going framer c) (calm : Calm c d) (reads : c.Reads) (reads' : d.Reads)
    (held : d.state = .established → c.state = .established) (still : d.pending = c.pending)
    (rests : d.point.rests → c.point.rests) : Going framer d where
  silent := calm.reported.trans going.silent
  framed established := by
    rw [calm.received,calm.delivered,still,calm.readable reads reads']
    exact going.framed (held established)
  hungry established at' some := by
    rw [calm.readable reads reads']
    exact going.hungry (held established) (rests at') (calm.received ▸ some)

lemma Tells.aside (tells : Tells framer c) (calm : Calm c d) (reads : d.Reads)
    (held : d.state = .established → c.state = .established) (born : d.state = .connecting → c.state = .connecting)
    (out : c.point ≠ .parsing) (goes : d.point = c.point ∨ c.point.rests ∧ d.point.settled) : Tells framer d := by
  have rests (now : c.point.rests) : d.point.rests := by
    obtain same | ⟨_,settled⟩ := goes
    · exact same ▸ now
    · exact rests_of_settled settled
  have out' : d.point ≠ .parsing := by
    obtain same | ⟨_,settled⟩ := goes
    · exact same ▸ out
    · exact ne_parsing_of_rests (rests_of_settled settled)
  refine ⟨calm.on.trans tells.off,fun now => tells.born (born now),?_,reads, fun now => absurd now out',?_,?_⟩
  · obtain same | ⟨_,settled⟩ := goes
    · exact same ▸ tells.plain
    · exact plain_of_rests (rests_of_settled settled)
  · rw [calm.received,calm.delivered,calm.reported]
    intro none
    obtain ⟨now,silent⟩ := tells.blank none
    exact ⟨rests now,silent⟩
  obtain going | failed := tells.story
  · refine .inl (going.aside calm tells.reads reads held ?_ ?_)
    · rw [pending_of_ne out,pending_of_ne out']
    obtain same | ⟨now,_⟩ := goes
    · exact fun at' => same ▸ at'
    · exact fun _ => now
  · exact .inr (failed.aside calm held goes)

lemma Tells.some_of_busy (tells : Tells framer c) (busy : ¬ c.point.rests) : c.inb.received ≠ [] :=
  fun none => busy (tells.blank none).1

lemma Tells.fed (stable : Stable framer) (tells : Tells framer c) (reads : d.Reads) {bytes : Bytes}
    (some : bytes ≠ []) (idle : c.point = .idle) (held : c.state = .established) (same : d.state = .established)
    (parsing : d.point = .parsing) (cleared : d.inb.batch = []) (delivered : d.delivered = c.delivered)
    (reported : d.reported = c.reported) (received : d.inb.received = c.inb.received++bytes)
    (parsed : d.inb.parsed = c.inb.parsed) (on : d.coro.on = c.coro.on) : Tells framer d := by
  have readable : d.inb.readBuf.readable = c.inb.readBuf.readable++bytes := by
    have whole := reads.agrees.whole
    rw [parsed,received,← tells.reads.agrees.whole,append_assoc] at whole
    exact append_cancel_left whole
  refine ⟨on.trans tells.off,by simp [same],by simp [parsing,Point.plain],reads,fun _ => same,?_,?_⟩
  · intro none
    rw [received] at none
    exact absurd (append_eq_nil_iff.1 none).2 some
  obtain going | ⟨at' | down,_⟩ := tells.story
  · refine .inl ⟨reported.trans going.silent,?_,?_⟩
    · intro _
      have before := going.framed held
      rw [pending_of_ne (by simp [idle])] at before
      rw [received,delivered,pending_of_parsing parsing,cleared,readable]
      exact before.append stable bytes
    intro _ rests
    rw [parsing] at rests
    cases rests
  · cases idle.symm.trans at'
  · exact absurd held down

lemma Tells.dispatch (off : c.coro.on = false) (held : c.state = .established)
    (some : c.inb.received ≠ []) (silent : c.reported = [])
    (framed : Framed framer c.inb.received (c.delivered++c.inb.batch) c.inb.readBuf.readable)
    {last : Bool} (hungry : last = true → ∃ need, framer c.inb.readBuf.readable = .needMore need)
    (reads : (c.dispatchBatch last accept).Reads) : Tells framer (c.dispatchBatch last accept) := by
  have now : c.dispatchBatch last accept = { c with point := .delivering last }.emit (.onMessages c.inb.batch) := by
    simp only [dispatchBatch,off,Bool.false_eq_true,if_false]
  rw [now] at reads ⊢
  have delivered : ({ c with point := .delivering last }.emit (.onMessages c.inb.batch)).delivered =
      c.delivered++c.inb.batch := by
    simp [Connection.delivered,emit,Output.messages]
  refine ⟨off,?_,rfl,reads,by simp [emit],fun none => absurd none some,.inl ⟨?_,?_,?_⟩⟩
  · simp [emit,held]
  · simp only [reported,emit,filterMap_append]
    rw [show c.trace.filterMap Output.fault = [] from silent]
    rfl
  · intro _
    rw [delivered,pending_of_ne (by simp [emit]),append_nil]
    exact framed
  intro _ rests _
  cases last with
  | true => exact hungry rfl
  | false => cases rests

lemma Tells.readOn (tells : Tells framer c) (going : Going framer c) (some : c.inb.received ≠ [])
    (framed : Framed framer c.inb.received c.delivered c.inb.readBuf.readable) {need : Nat}
    (hungry : framer c.inb.readBuf.readable = .needMore need) (calm : Calm c d) (reads : d.Reads)
    (state : d.state = c.state) (idle : d.point = .idle) : Tells framer d := by
  have readable := calm.readable tells.reads reads
  refine ⟨calm.on.trans tells.off,?_,?_,reads,?_,?_,.inl ⟨calm.reported.trans going.silent,?_,?_⟩⟩
  · rw [state]
    exact tells.born
  · rw [idle]
    rfl
  · rw [idle]
    nofun
  · rw [calm.received]
    exact fun none => absurd none some
  · intro _
    rw [calm.received,calm.delivered,pending_of_ne (by simp [idle]),readable,append_nil]
    exact framed
  intro _ _ _
  rw [readable]
  exact ⟨need,hungry⟩

lemma Tells.reject (tells : Tells framer c) (going : Going framer c) (some : c.inb.received ≠ [])
    (framed : Framed framer c.inb.received c.delivered c.inb.readBuf.readable) {e : Error}
    (error : framer c.inb.readBuf.readable = .error e)
    (reads : ({ c with point := .frameError }.emit (.onError e)).Reads) :
    Tells framer ({ c with point := .frameError }.emit (.onError e)) := by
  have delivered : ({ c with point := .frameError }.emit (.onError e)).delivered = c.delivered := by
    simp [Connection.delivered,emit,Output.messages]
  have reported : ({ c with point := .frameError }.emit (.onError e)).reported = c.reported++[e] := by
    simp [Connection.reported,emit,Output.fault]
  refine ⟨tells.off,tells.born,rfl,reads,by simp [emit],fun none => absurd none some, .inr ⟨.inl rfl,e,_,?_,?_,error⟩⟩
  · rw [reported,going.silent]
    rfl
  rw [delivered]
  exact framed

lemma Tells.parse (tells : Tells framer c) (parsing : c.point = .parsing)
    (steady : fails framer c.inb.readBuf.readable → c.inb.batch.isEmpty)
    (reads : (c.parse framer accept).Reads) : Tells framer (c.parse framer accept) := by
  have held := tells.parsing parsing
  have some := tells.some_of_busy (by simp [parsing,Point.rests])
  obtain going | ⟨at' | down,_⟩ := tells.story
  · have framed := going.framed held
    rw [pending_of_parsing parsing] at framed
    have alone (empty : c.inb.batch = []) : Framed framer c.inb.received c.delivered c.inb.readBuf.readable := by
      rw [empty,append_nil] at framed
      exact framed
    unfold Connection.parse at *
    simp only at *
    cases found : framer c.inb.readBuf.readable with
    | needMore need =>
      simp only [found] at reads ⊢
      split at reads
      next empty =>
        have noted : Calm c { c with inb := { c.inb with parseNeed := need } } := ⟨rfl,rfl,rfl,rfl,rfl⟩
        obtain ⟨state,idle⟩ := finishRecv_fixed { c with inb := { c.inb with parseNeed := need } } accept
        rw [if_pos empty]
        exact tells.readOn going some (alone (isEmpty_iff.1 empty)) found
          (noted.trans (finishRecv_calm _ accept)) reads state idle
      next full =>
      rw [if_neg full]
      apply Tells.dispatch _ _ _ _ _ _ reads
      · exact tells.off
      · exact held
      · exact some
      · exact going.silent
      · exact framed
      · exact fun _ => ⟨need,found⟩
    | error =>
      simp only [found] at reads ⊢
      have empty : c.inb.batch = [] := isEmpty_iff.1 (steady (by simp [fails,found]))
      exact tells.reject going some (alone empty) found reads
    | message =>
      simp only [found] at reads ⊢
      have more := framed.snoc found
      rw [append_assoc,← IoBuffer.consume_readable] at more
      split at reads
      next full =>
        rw [if_pos full]
        apply Tells.dispatch _ _ _ _ _ _ reads
        · exact tells.off
        · exact held
        · exact some
        · exact going.silent
        · exact more
        · rintro ⟨⟩
      next room =>
      rw [if_neg room]
      refine ⟨tells.off,tells.born,tells.plain,reads,fun _ => held,fun none => absurd none some,
        .inl ⟨going.silent,?_,?_⟩⟩
      · intro _
        refine (pending_of_parsing ?_).symm ▸ ?_
        · exact parsing
        · exact more
      intro _ rests
      rw [parsing] at rests
      cases rests
  · cases parsing.symm.trans at'
  · exact absurd held down

lemma Turn.tells (stable : Stable framer) (tells : Tells framer c) (reads : d.Reads)
    (steady : c.point = .parsing → fails framer c.inb.readBuf.readable → c.inb.batch.isEmpty)
    (turn : Turn framer c d) : Tells framer d := by
  cases turn with
  | aside calm held born out goes => exact tells.aside calm reads held born out goes
  | ended calm down born idle busy =>
    have some := tells.some_of_busy busy
    refine ⟨calm.on.trans tells.off,fun now => tells.born (born now),by rw [idle]; rfl,reads,by simp [idle],?_,?_⟩
    · rw [calm.received]
      exact fun none => absurd none some
    · exact tells.story.imp (fun going => going.ended calm down) fun failed => failed.ended calm down
  | next calm busy held same parsing cleared =>
    have some := tells.some_of_busy (by simp [busy,Point.rests])
    refine ⟨calm.on.trans tells.off,by simp [same],by simp [parsing,Point.plain],reads,fun _ => same,?_,?_⟩
    · rw [calm.received]
      exact fun none => absurd none some
    obtain going | ⟨at' | down,_⟩ := tells.story
    · refine .inl (going.aside calm tells.reads reads (fun _ => held) ?_ ?_)
      · rw [pending_of_parsing parsing,cleared,pending_of_ne (by simp [busy])]
      rw [parsing]
      rintro ⟨⟩
    · cases busy.symm.trans at'
    · exact absurd held down
  | fed _ some idle held same parsing cleared delivered reported received parsed on =>
    exact tells.fed stable reads some idle held same parsing cleared delivered reported received parsed on
  | parse _ parsing taken =>
    subst taken
    exact tells.parse parsing (steady parsing) reads

section
variable (framer : Framer M)
variable (c : Connection M)
variable (label : Event × Bool)

/-- An outstanding receive is respected, and the parse loop does not meet a frame error while it
holds messages that it has not delivered. -/
def Steady : Prop :=
  KeepsTarget framer c label ∧ (label.1 = .resume → c.point = .parsing →
    fails framer c.inb.readBuf.readable → c.inb.batch.isEmpty)

instance : Decidable (Steady framer c label) := instDecidableAnd

def Orderly : Prop := Plain label ∧ Steady framer c label

instance : Decidable (Orderly framer c label) := instDecidableAnd
end

lemma step_tells (stable : Stable framer) {label : Event × Bool}
    (taken : Guarded (Step framer) (Orderly framer) c label d) (tells : Tells framer c) : Tells framer d := by
  obtain ⟨⟨plain,keeps,whole⟩,taken⟩ := taken
  have reads := step_reads ⟨keeps,taken⟩ tells.reads
  apply (step_turn taken plain tells.off tells.born tells.plain).tells stable tells reads
  intro parsing
  obtain ⟨event,accept⟩ := label
  cases taken.move with
  | resume _ => exact whole rfl parsing
  | call _ out => exact absurd parsing out
  | enableCoro at' => cases parsing.symm.trans at'
  | connected _ idle | recvDone _ _ _ _ _ idle | sendDone _ _ _ idle | flush idle => cases parsing.symm.trans idle
end

def started (flow : FlowControl) (size : Nat) : Connection M := (create flow size).start

lemma started_tells (framer : Framer M) (flow : FlowControl) (size : Nat) : Tells framer (started flow size) := by
  refine ⟨rfl,nofun,rfl,.of_none (create_reads flow size).agrees rfl,nofun,fun _ => ⟨rfl,rfl,rfl⟩,
    .inl ⟨rfl,fun _ => ?_,fun _ _ some => absurd rfl some⟩⟩
  have empty : (create flow size : Connection M).inb.readBuf.readable = [] := by
    have whole := (create_reads (M := M) flow size).agrees.whole
    exact whole
  exact empty ▸ .nil []

def Complete (stream : Bytes) (c : Connection M) : Prop :=
  c.point = .idle ∧ (c.reported = [] ∧ c.state = .established ∧ c.inb.received = stream ∨
    c.reported ≠ [] ∧ c.inb.received <+: stream)

lemma Tells.complete {stream : Bytes} (stable : Stable framer)
    (tells : Tells framer c) (complete : c.Complete stream) (some : stream ≠ []) :
    ∃ rest, Framed framer stream c.delivered rest ∧ Stuck framer rest ∧ c.reported = match framer rest with
    | .error e => [e]
    | .message _ _ | .needMore _ => [] := by
  obtain ⟨idle,⟨silent,held,rfl⟩ | ⟨told,more,rfl⟩⟩ := complete
  · obtain going | ⟨_,e,_,failed,_⟩ := tells.story
    · have framed := going.framed held
      obtain ⟨_,found⟩ := going.hungry held (idle ▸ rfl) some
      rw [pending_of_ne (by simp [idle]),append_nil] at framed
      refine ⟨_,framed,?_,?_⟩
      · intro m n message
        rw [found] at message
        cases message
      · rw [found,silent]
    rw [silent] at failed
    cases failed
  obtain going | ⟨_,e,rest,failed,framed,error⟩ := tells.story
  · exact absurd going.silent told
  have still := stable.error error more
  exact ⟨rest++more,framed.append stable more,stuck_of_error still,by rw [still,failed]⟩

/-- Any two connections that run under the condition and have worked off the same stream agree on what is delivered. -/
def SegmentationFree (framer : Framer M) (ok : Connection M → Event × Bool → Prop) : Prop :=
  ∀ (stream : Bytes) (flow flow' : FlowControl) (size size' : Nat)
    (labels labels' : List (Event × Bool)) (c c' : Connection M),
    Exec (Guarded (Step framer) ok) (started flow size) labels c →
    Exec (Guarded (Step framer) ok) (started flow' size') labels' c' →
    c.Complete stream → c'.Complete stream →
    c.delivered = c'.delivered ∧ c.reported = c'.reported

lemma run_tells (stable : Stable framer) {flow : FlowControl} {size : Nat} {labels : List (Event × Bool)}
    (run : Exec (Guarded (Step framer) (Orderly framer)) (started flow size) labels c) : Tells framer c :=
  run.invariant (Tells framer) (fun _ _ _ taken => step_tells stable taken) (started_tells framer flow size)

lemma segmentationFree_of_stable (stable : Stable framer) : SegmentationFree framer (Orderly framer) := by
  intro stream flow flow' size size' labels labels' c c' run run' complete complete'
  have tells := run_tells stable run
  have tells' := run_tells stable run'
  by_cases empty : stream = []
  · have none {d : Connection M} (complete : d.Complete stream) : d.inb.received = [] := by
      obtain ⟨_,⟨_,_,same⟩ | ⟨_,part⟩⟩ := complete
      · exact same.trans empty
      · exact prefix_nil.1 (empty ▸ part)
    obtain ⟨_,delivered,reported⟩ := tells.blank (none complete)
    obtain ⟨_,delivered',reported'⟩ := tells'.blank (none complete')
    exact ⟨delivered.trans delivered'.symm,reported.trans reported'.symm⟩
  obtain ⟨rest,framed,stuck,told⟩ := tells.complete stable complete empty
  obtain ⟨rest',framed',stuck',told'⟩ := tells'.complete stable complete' empty
  obtain ⟨same,rfl⟩ := framed.unique framed' stuck stuck'
  exact ⟨same,told.trans told'.symm⟩

/-- Two connections that work off the same stream, cut in any two ways, deliver the same messages and report the same
error, or none. -/
theorem delivery_ignores_cuts {H M : Type} (proto : FixedHeaderProtocol H M)
    (bounded : Bounded proto) (http : HttpProto) :
    SegmentationFree (FixedHeaderFramer.parse proto) (Orderly (FixedHeaderFramer.parse proto)) ∧
      SegmentationFree http.parse (Orderly http.parse) := by
  constructor
  · exact segmentationFree_of_stable (stable bounded)
  · exact segmentationFree_of_stable HttpProto.stable

def byteCounted : FixedHeaderProtocol UInt8 (UInt8 × Bytes) where
  headerSize := 1
  header bytes := bytes.headD 0
  validate h := if h = 255 then .error ⟨9,.frame⟩ else .ok ()
  bodySize h := .ok h.toNat
  message h body := (h,body)

lemma byteCounted_bounded : Bounded byteCounted := by
  intro h n size
  cases size
  have small := h.toNat_lt
  simp only [byteCounted]
  omega

def receive (bytes : Bytes) (turns : Nat) : List (Event × Bool) :=
  (.recvDone 0 (.data bytes) {},true)::replicate turns (.resume,true)

def framesThenBad : List (Event × Bool) := (.resume,true)::receive [1,7,2,8,9] 4++receive [255] 2

def framesInPieces : List (Event × Bool) :=
  (.resume,true)::receive [1] 1++receive [7,2,8] 3++receive [9] 3++receive [255] 2

def shortRequest : List (Event × Bool) := (.resume,true)::receive [71,32,47,32,72,13,10,13,10] 3

def requestInPieces : List (Event × Bool) :=
  (.resume,true)::receive [71,32] 1++receive [47,32,72,13,10,13] 1++receive [10] 3

def heard (framer : Framer M) (ok : Connection M → Event × Bool → Prop)
    [∀ c label, Decidable (ok c label)] (labels : List (Event × Bool)) :
    Option (List M × List Error × Point × ConnState × Bytes) :=
  ((started {} 65536).drive framer ok labels).map fun c => (c.delivered,c.reported,c.point,c.state,c.inb.received)

lemma complete_of_heard {ok : Connection M → Event × Bool → Prop} [∀ c label, Decidable (ok c label)]
    {labels : List (Event × Bool)} {messages : List M} {errors : List Error} {state : ConnState} {stream : Bytes}
    (ends : heard framer ok labels = some (messages,errors,.idle,state,stream))
    (settled : errors = [] → state = .established) : ∃ c, Exec (Guarded (Step framer) ok) (started {} 65536)
    labels c ∧ c.Complete stream ∧ c.delivered = messages ∧ c.reported = errors := by
  obtain ⟨c,driven,values⟩ := Option.map_eq_some_iff.1 ends
  simp only [Prod.mk.injEq] at values
  obtain ⟨delivered,reported,idle,held,received⟩ := values
  refine ⟨c,drive_exec driven,⟨idle,?_⟩,delivered,reported⟩
  by_cases silent : errors = []
  · exact .inl ⟨reported.trans silent,held.trans (settled silent),received⟩
  · exact .inr ⟨reported ▸ silent,received ▸ prefix_refl _⟩

theorem frames_in_pieces_agree :
    (∃ c c' : Connection (UInt8 × Bytes),
      Exec (Guarded (Step (FixedHeaderFramer.parse byteCounted))
        (Orderly (FixedHeaderFramer.parse byteCounted))) (started {} 65536) framesThenBad c ∧
      Exec (Guarded (Step (FixedHeaderFramer.parse byteCounted))
        (Orderly (FixedHeaderFramer.parse byteCounted))) (started {} 65536) framesInPieces c' ∧
      c.delivered = [(1,[7]),(2,[8,9])] ∧ c.reported = [⟨9,.frame⟩] ∧
      c'.delivered = c.delivered ∧ c'.reported = c.reported) ∧
    ∃ c c' : Connection HttpRequest,
      Exec (Guarded (Step (HttpProto.parse {})) (Orderly (HttpProto.parse {}))) (started {} 65536) shortRequest c ∧
      Exec (Guarded (Step (HttpProto.parse {})) (Orderly (HttpProto.parse {}))) (started {} 65536)
        requestInPieces c' ∧
      c.delivered = [⟨[71],[47],[],[72],[],0⟩] ∧ c.reported = [] ∧
      c'.delivered = c.delivered ∧ c'.reported = c.reported := by
  obtain ⟨framesAgree,requestsAgree⟩ := delivery_ignores_cuts byteCounted byteCounted_bounded {}
  constructor
  · have whole : heard (FixedHeaderFramer.parse byteCounted)
        (Orderly (FixedHeaderFramer.parse byteCounted)) framesThenBad =
          some ([(1,[7]),(2,[8,9])],[⟨9,.frame⟩],.idle,.closed,[1,7,2,8,9,255]) := by decide +kernel
    have cut : heard (FixedHeaderFramer.parse byteCounted)
        (Orderly (FixedHeaderFramer.parse byteCounted)) framesInPieces =
          some ([(1,[7]),(2,[8,9])],[⟨9,.frame⟩],.idle,.closed,[1,7,2,8,9,255]) := by decide +kernel
    obtain ⟨c,run,complete,delivered,reported⟩ := complete_of_heard whole nofun
    obtain ⟨c',run',complete',_⟩ := complete_of_heard cut nofun
    obtain ⟨same,same'⟩ := framesAgree _ _ _ _ _ _ _ _ _ run' run complete' complete
    exact ⟨c,c',run,run',delivered,reported,same,same'⟩
  have whole : heard (HttpProto.parse {}) (Orderly (HttpProto.parse {})) shortRequest =
      some ([⟨[71],[47],[],[72],[],0⟩],[],.idle,.established,[71,32,47,32,72,13,10,13,10]) := by
    decide +kernel
  have cut : heard (HttpProto.parse {}) (Orderly (HttpProto.parse {})) requestInPieces =
      some ([⟨[71],[47],[],[72],[],0⟩],[],.idle,.established,[71,32,47,32,72,13,10,13,10]) := by
    decide +kernel
  obtain ⟨c,run,complete,delivered,reported⟩ := complete_of_heard whole fun _ => rfl
  obtain ⟨c',run',complete',_⟩ := complete_of_heard cut fun _ => rfl
  obtain ⟨same,same'⟩ := requestsAgree _ _ _ _ _ _ _ _ _ run' run complete' complete
  exact ⟨c,c',run,run',delivered,reported,same,same'⟩

/-- Frames, each a header and the body it announces, are read back one by one. -/
theorem frames_read_back {H M : Type} (proto : FixedHeaderProtocol H M) (frames : List (Bytes × Bytes))
    (sound : ∀ f ∈ frames, f.1.length = proto.headerSize ∧ proto.validate (proto.header f.1) = .ok () ∧
      proto.bodySize (proto.header f.1) = .ok f.2.length ∧ (f.1++f.2).length < 2^64) :
    Framed (FixedHeaderFramer.parse proto) (frames.flatMap fun f => f.1++f.2)
      (frames.map fun f => proto.message (proto.header f.1) f.2) [] := by
  induction frames with
  | nil => exact .nil []
  | cons f frames ih =>
    obtain ⟨⟨size,valid,announced,fits⟩,others⟩ := forall_mem_cons.1 sound
    rw [length_append] at fits
    refine .cons (n := (f.1++f.2).length) ?_ (by simpa using ih others)
    simp only [FixedHeaderFramer.parse,flatMap_cons,← size,append_assoc,take_left,drop_left,valid,announced,length_append]
    rw [if_neg (by omega),Nat.mod_eq_of_lt fits,if_neg (by omega)]

theorem counted_read_back : Framed (FixedHeaderFramer.parse byteCounted) [1,7,2,8,9] [(1,[7]),(2,[8,9])] [] :=
  frames_read_back byteCounted [([1],[7]),([2],[8,9])] (by decide)

lemma prefix_of_framed {b rest rest' : Bytes} {ms ms' : List M} (framed : Framed framer b ms rest)
    (all : Framed framer b ms' rest') (stuck : Stuck framer rest') : ms <+: ms' := by
  induction framed generalizing ms' with
  | nil => exact nil_prefix
  | cons first _ ih =>
    cases all with
    | nil => exact absurd first (stuck _ _)
    | cons first' others =>
      rw [first] at first'
      cases first'
      exact (prefix_cons_inj _).2 (ih others)

/-- From a part of what one connection transmits, the other's handlers get the first messages, each once, and from all
of it all of them. -/
theorem messages_arrive {N : Type} {framer' : Framer N} (stable : Stable framer) {flow flow' : FlowControl}
    {size size' : Nat} {labels labels' : List (Event × Bool)} {a : Connection N}
    (keeps : flow.onOverflow ≠ .dropOldest) (sends : Exec (Step framer') (create flow size) labels a)
    (receives : Exec (Guarded (Step framer) (Orderly framer)) (started flow' size') labels' c)
    {stream rest : Bytes} (complete : c.Complete stream) (carried : stream <+: a.out.transmitted) (some : stream ≠ [])
    {ms : List M} (framed : Framed framer a.out.accepted ms rest) (stuck : Stuck framer rest) :
    c.delivered <+: ms ∧ (stream = a.out.accepted → c.delivered = ms) := by
  have sent : a.out.transmitted <+: a.out.accepted := by
    obtain ⟨_,streams | abandoned⟩ :=
      sends.invariant Flows (fun _ _ _ taken => step_flows taken) (create_flows flow size keeps)
    · exact streams.sound
    · exact abandoned.sound
  obtain ⟨left,heard,ends,_⟩ := (run_tells stable receives).complete stable complete some
  refine ⟨?_,fun same => ((same ▸ heard).unique framed ends stuck).1⟩
  obtain ⟨more,whole⟩ := carried.trans sent
  exact prefix_of_framed (whole ▸ heard.append stable more) framed stuck

def counted : Framer (UInt8 × Bytes) := FixedHeaderFramer.parse byteCounted

def fiveBytes : List (Event × Bool) := (.resume,true)::receive [1,2,3] 3++receive [4,5] 1

theorem five_bytes_arrive : ∃ c, Exec (Guarded (Step counted) (Orderly counted)) (started {} 65536) fiveBytes c ∧
    ∃ a, Exec (Step waiting) (create {} 65536) shortWrite a ∧ c.delivered = [(1,[2])] := by
  have read : heard counted (Orderly counted) fiveBytes =
      some ([(1,[2])],[],.idle,.established,[1,2,3,4,5]) := by decide +kernel
  obtain ⟨c,receives,complete,_⟩ := complete_of_heard read fun _ => rfl
  have framed : Framed counted [1,2,3,4,5] [(1,[2])] [3,4,5] := .cons (n := 2) rfl (.nil _)
  have short : counted [3,4,5] = .needMore 1 := rfl
  have stuck : Stuck counted [3,4,5] := fun _ _ same => by cases short.symm.trans same
  exact ⟨c,receives,Exec.run_of_drive
    (P := fun a => a.out.accepted = [1,2,3,4,5] ∧ a.out.transmitted = [1,2,3,4,5]) (by decide +kernel)
    fun a sends ⟨accepted,transmitted⟩ => (messages_arrive (stable byteCounted_bounded) (by decide) sends receives
      complete (transmitted ▸ prefix_rfl) (by decide) (accepted ▸ framed) stuck).2 accepted.symm⟩

def badInOneRead : List (Event × Bool) := (.resume,true)::receive [1,7,255] 3

def badInTwoReads : List (Event × Bool) := (.resume,true)::receive [1,7] 3++receive [255] 2

/-- The message before the error is delivered in the second run and lost in the first. -/
theorem error_discards_batch :
    ¬ SegmentationFree (FixedHeaderFramer.parse byteCounted) (fun _ label => Plain label) := by
  have once : heard (FixedHeaderFramer.parse byteCounted) (fun _ label => Plain label) badInOneRead =
      some ([],[⟨9,.frame⟩],.idle,.closed,[1,7,255]) := by decide +kernel
  have twice : heard (FixedHeaderFramer.parse byteCounted) (fun _ label => Plain label) badInTwoReads =
      some ([(1,[7])],[⟨9,.frame⟩],.idle,.closed,[1,7,255]) := by decide +kernel
  intro free
  obtain ⟨c,run,complete,delivered,_⟩ := complete_of_heard once nofun
  obtain ⟨c',run',complete',delivered',_⟩ := complete_of_heard twice nofun
  obtain ⟨same,_⟩ := free _ _ _ _ _ _ _ c c' run run' complete complete'
  rw [delivered,delivered'] at same
  cases same

end AffiniX.Connection
