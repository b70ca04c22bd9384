import AffiniX.ConnectionLifecycle
import AffiniX.ConnectionRead
import AffiniX.EpollSends

/-! A connection on the epoll backend: the flushes submit to the backend, and the send completions that its waits
return reach the connection. -/
namespace AffiniX
open Transition Connection Epoll Function List IoBuffer Nat Bool FdState

structure Wired (M : Type) where
  conn : Connection M
  ep : Epoll
  taken : Nat

def SentResult.ofResult (result : Int) : SentResult := if result = -ecanceled then .canceled
  else if result < 0 then .error
  else .sent result.toNat

def Connection.Event.sends : Event → Bool
  | .flush | .sendDone _ => true
  | _ => false

def Connection.flushes {M : Type} (c : Connection M) : Bool :=
  c.out.writeInflight == 0 && !c.out.writeBuf.empty && (c.state == .established || c.state == .shutdownWrite)

namespace Wired
variable {M : Type}

/-- Completions of receives may come at any time; what is submitted for them is among the actions of others. -/
inductive Move
  | conn (event : Event) (accept : Bool)
  | flush (reply : SendReply) (add : Bool)
  | backend (action : Action)
  | dispatch (accept : Bool)
deriving DecidableEq

/-- The connection goes on as `c`, and takes its descriptor off the backend if it closed it. -/
def follow (w : Wired M) (fd : Fd) (c : Connection M) : Wired M :=
  { w with conn := c, ep := if w.conn.fdOpen && !c.fdOpen then w.ep.detach fd else w.ep }

def step (framer : Framer M) (fd : Fd) (tag : UserData) (w : Wired M) : Move → Option (Wired M)
  | .conn event accept =>
    if w.ep.phase = .idle ∧ event.sends = false then
      (w.conn.step framer accept event).map (w.follow fd)
    else none
  | .flush reply add =>
    if w.ep.phase = .idle ∧ reply.possible then
      if w.conn.flushes then
        let next := w.ep.submitSend tag fd w.conn.out.writeBuf.readable reply add
        (w.conn.step framer next.2 .flush).map fun c => { w with conn := c, ep := next.1 }
      else (w.conn.step framer true .flush).map fun c => { w with conn := c }
    else none
  | .backend action => if action.foreign fd tag then (w.ep.step action).map fun ep => { w with ep := ep } else none
  | .dispatch accept =>
    if w.ep.phase = .idle ∧ w.conn.point = .idle then
      match w.ep.reaped[w.taken]? with
      | none => none
      | some c =>
        if c.user = tag then
          some { w.follow fd (w.conn.sendDone (.ofResult c.result) accept) with taken := w.taken+1 }
        else some { w with taken := w.taken+1 }
    else none

def Step (framer : Framer M) (fd : Fd) (tag : UserData) (w : Wired M) (move : Move) (w' : Wired M) : Prop :=
  w.step framer fd tag move = some w'

def start (flow : FlowControl) (readBufferSize : Nat) : Wired M := ⟨.create flow readBufferSize,.create,0⟩

def wire (w : Wired M) (fd : Fd) : Bytes := (w.ep.sockets fd).wire

def Move.answered : SendReply → Bool
  | .wrote _ | .again => true
  | .intr | .error _ => false

def Move.mild (fd : Fd) (w : Wired M) : Move → Bool
  | .conn event _ =>
    match event.payload with
    | none => true
    | some parts =>
      w.conn.flow.onOverflow != .dropOldest ||
        w.conn.out.writeBuf.size+(parts.map List.length).sum ≤ w.conn.flow.writeHighWatermark
  | .flush reply _ => answered reply
  | .backend action => action.sound fd w.ep
  | .dispatch _ => w.conn.flow.onOverflow != .dropOldest || w.conn.coro.sendParked.isNone

/-- The kernel takes a whole submission at once or nothing of it, and its length fits the result
of a completion. -/
def Move.whole (w : Wired M) : Move → Bool
  | .flush reply _ =>
    !w.conn.flushes || w.conn.out.writeBuf.size < 2^31 && match reply with
      | .wrote n => w.conn.out.writeBuf.size ≤ n
      | _ => true
  | _ => true

inductive Carried (fd : Fd) (tag : UserData) (state : ConnState) (o : Outbound) (ep : Epoll) (taken k : Nat) : Prop
  | idle (free : o.writeInflight = 0) (none' : k = 0) (sendq : (ep.state fd).sendq = [])
      (tagged : ep.tagged tag taken = [])
  | queued (req : SendReq) (sendq : (ep.state fd).sendq = [req]) (far : k = req.off)
      (bytes : req.bytes = o.writeBuf.readable.take o.writeInflight)
      (part : req.off ≤ o.writeInflight) (within : o.writeInflight ≤ o.writeBuf.size)
      (busy : 0 < o.writeInflight) (small : o.writeInflight < 2^31)
      (tagged : ep.tagged tag taken = [])
  | reported (c : Completion) (sendq : (ep.state fd).sendq = []) (tagged : ep.tagged tag taken = [c])
      (result : c.result = o.writeInflight) (far : k = o.writeInflight) (busy : 0 < o.writeInflight)
  -- The completion found no room in the output of a wait, or a closed connection.
  | lost (sendq : (ep.state fd).sendq = []) (tagged : ep.tagged tag taken = [])
      (far : k = o.writeInflight) (busy : 0 < o.writeInflight)
  | dropped (closed : state = .closed) (sendq : (ep.state fd).sendq = []) (tagged : ep.tagged tag taken = [])

structure Joined (fd : Fd) (tag : UserData) (state : ConnState) (o : Outbound) (ep : Epoll)
    (taken : Nat) : Prop where
  valid : o.writeBuf.Valid
  flow : ∃ k, Carried fd tag state o ep taken k ∧ k ≤ o.writeBuf.size ∧
    (ep.sockets fd).wire++o.writeBuf.readable.drop k = o.accepted

section
variable {fd : Fd} {tag : UserData} {state state' : ConnState} {o : Outbound} {ep ep' : Epoll}
  {taken : Nat}

lemma Joined.congr (joined : Joined fd tag state o ep taken) {taken' : Nat}
    (stays : state = .closed → state' = .closed) (next : ep.tagged tag taken = ep.tagged tag taken') :
    Joined fd tag state' o ep taken' := by
  obtain ⟨k,carried,within,whole⟩ := joined.flow
  refine ⟨joined.valid,k,?_,within,whole⟩
  cases carried with
  | idle free none' sendq tagged => exact .idle free none' sendq (next ▸ tagged)
  | queued req sendq far bytes part within busy small tagged =>
    exact .queued req sendq far bytes part within busy small (next ▸ tagged)
  | reported c sendq tagged result far busy => exact .reported c sendq (next ▸ tagged) result far busy
  | lost sendq tagged far busy => exact .lost sendq (next ▸ tagged) far busy
  | dropped closed sendq tagged => exact .dropped (stays closed) sendq (next ▸ tagged)

lemma Joined.queue (joined : Joined fd tag state o ep taken) (open' : state ≠ .closed)
    (parts : List Bytes) : Joined fd tag state ((o.append parts).note parts) ep taken := by
  obtain ⟨k,carried,within,whole⟩ := joined.flow
  obtain ⟨grown,valid⟩ := appendAll_spec joined.valid parts
  have readable : ((o.append parts).note parts).writeBuf.readable = o.writeBuf.readable++parts.flatten := grown
  have longer : o.writeBuf.size ≤ ((o.append parts).note parts).writeBuf.size := by
    have lengths := congrArg List.length readable
    simp only [length_append,readable_length] at lengths
    omega
  refine ⟨valid,k,?_,Nat.le_trans within longer,?_⟩
  · cases carried with
    | idle free none' sendq tagged => exact .idle free none' sendq tagged
    | queued req sendq far bytes part inside busy small tagged =>
      refine .queued req sendq far ?_ part (Nat.le_trans inside longer) busy small tagged
      change req.bytes = ((o.append parts).note parts).writeBuf.readable.take o.writeInflight
      rw [readable,take_append_of_le_length (by simpa using inside)]
      exact bytes
    | reported c sendq tagged result far busy => exact .reported c sendq tagged result far busy
    | lost sendq tagged far busy => exact .lost sendq tagged far busy
    | dropped closed => exact absurd closed open'
  rw [readable,drop_append_of_le_length (by simpa using within),← append_assoc,whole]
  rfl

lemma Joined.offered {c : Connection M} {parts : List Bytes}
    (joined : Joined fd tag state c.out ep taken) (offered : Offered c parts o)
    (open' : c.state = .established → state ≠ .closed)
    (keeps : c.flow.onOverflow = .dropOldest →
    c.out.writeBuf.size+(parts.map List.length).sum ≤ c.flow.writeHighWatermark) :
    Joined fd tag state o ep taken := by
  cases offered with
  | refused => exact joined
  | queued established => exact joined.queue (open' established) parts
  | evicted _ full policy => exact absurd (keeps policy) (Nat.not_le.2 full)

lemma Joined.detach (joined : Joined fd tag state o ep taken) : Joined fd tag .closed o (ep.detach fd) taken := by
  obtain ⟨k,carried,within,whole⟩ := joined.flow
  have same : (ep.detach fd).sockets = ep.sockets ∧ (ep.detach fd).tagged tag taken = ep.tagged tag taken := by
    unfold Epoll.detach
    split <;> exact ⟨rfl,rfl⟩
  have sendq : ((ep.detach fd).state fd).sendq = [] := by
    unfold Epoll.detach
    split
    next none' => simp [Epoll.state,none']
    · simp [Epoll.state]
  refine ⟨joined.valid,k,?_,within,by rw [same.1]; exact whole⟩
  cases carried with
  | idle free none' _ tagged => exact .idle free none' sendq (same.2.trans tagged)
  | queued _ _ _ _ _ _ _ _ tagged | dropped _ _ tagged => exact .dropped rfl sendq (same.2.trans tagged)
  | reported c _ tagged result far busy => exact .reported c sendq (same.2.trans tagged) result far busy
  | lost _ tagged far busy => exact .lost sendq (same.2.trans tagged) far busy

lemma Carried.front {k : Nat} {req : SendReq} {queue : List SendReq} (carried : Carried fd tag state o ep taken k)
    (front : (ep.state fd).sendq = req::queue) : queue = [] ∧ k = req.off ∧
    req.bytes = o.writeBuf.readable.take o.writeInflight ∧ req.bytes.length = o.writeInflight ∧
    req.off ≤ o.writeInflight ∧ o.writeInflight ≤ o.writeBuf.size ∧ 0 < o.writeInflight ∧
    o.writeInflight < 2^31 ∧ ep.tagged tag taken = [] := by
  obtain ⟨_,_,none',_⟩ | ⟨req',one,far,bytes,part,inside,busy,small,none'⟩ | ⟨_,none',_⟩ |
    ⟨none',_⟩ | ⟨_,none',_⟩ := carried
  case queued =>
    cases front.symm.trans one
    refine ⟨rfl,far,bytes,?_,part,inside,busy,small,none'⟩
    rw [bytes,length_take,readable_length]
    omega
  all_goals cases front.symm.trans none'

lemma Joined.progress (joined : Joined fd tag state o ep taken) (progress : Progress fd tag ep ep')
    (early : taken ≤ ep.reaped.length) : Joined fd tag state o ep' taken := by
  obtain ⟨k,carried,within,whole⟩ := joined.flow
  cases progress with
  | aside same =>
    have tagged := same.tagged taken early
    refine ⟨joined.valid,k,?_,within,by rw [same.wire]; exact whole⟩
    cases carried with
    | idle free none' sendq none'' => exact .idle free none' (same.sendq.trans sendq) (tagged.trans none'')
    | queued req sendq far bytes part inside busy small none' =>
      exact .queued req (same.sendq.trans sendq) far bytes part inside busy small (tagged.trans none')
    | reported c sendq one result far busy =>
      exact .reported c (same.sendq.trans sendq) (tagged.trans one) result far busy
    | lost sendq none' far busy => exact .lost (same.sendq.trans sendq) (tagged.trans none') far busy
    | dropped closed sendq none' => exact .dropped closed (same.sendq.trans sendq) (tagged.trans none')
  | wrote req _ n front sendq more wire tagged =>
    obtain ⟨rfl,far,bytes,length,_,inside,busy,small,none'⟩ := carried.front front
    rw [length] at more
    refine ⟨joined.valid,k+n,?_,by omega,?_⟩
    · refine .queued _ sendq ?_ bytes ?_ inside busy small ((tagged taken).trans none')
      · exact congrArg (·+n) far
      change req.off+n ≤ o.writeInflight
      omega
    rw [wire,← whole,append_assoc]
    congr 1
    have cut : (req.bytes.drop req.off).take n = (o.writeBuf.readable.drop k).take n := by
      rw [bytes,far,drop_take,take_take,Nat.min_eq_left more]
    rw [cut,← drop_drop,take_append_drop]
  | finished req _ front sendq wire c _ result tagged =>
    obtain ⟨rfl,far,bytes,length,_,inside,busy,small,none'⟩ := carried.front front
    have whole' : (ep'.sockets fd).wire++o.writeBuf.readable.drop o.writeInflight = o.accepted := by
      rw [wire,← whole,append_assoc]
      congr 1
      have cut : req.bytes.drop req.off = (o.writeBuf.readable.drop k).take (o.writeInflight-k) := by
        rw [bytes,far,drop_take]
      have rest : o.writeBuf.readable.drop o.writeInflight = (o.writeBuf.readable.drop k).drop (o.writeInflight-k) := by
        rw [drop_drop]
        congr 1
        omega
      rw [cut,rest,take_append_drop]
    refine ⟨joined.valid,o.writeInflight,?_,inside,whole'⟩
    obtain same | new := tagged taken
    · exact .lost sendq (same.trans none') rfl busy
    refine .reported c sendq (new none') ?_ rfl busy
    rw [result,length]
    exact int32_of_lt small

lemma enter_eq (s : Epoll) (fd : Fd) (st : FdState) (serial : Nat) (add : Bool) :
    ∃ refused, (s.enter fd st serial add).1 = { s.setFd fd (st.request add).1 with refused := refused } := by
  unfold enter
  dsimp only
  split
  · exact ⟨s.refused,rfl⟩
  · exact ⟨_,rfl⟩

lemma cut_of_le {n left : Nat} (all : left ≤ n) : cut n left = left := by
  unfold cut
  omega

lemma Joined.submit (joined : Joined fd tag state o ep taken) (free : o.writeInflight = 0) (open' : state ≠ .closed)
    (queued : o.writeBuf.size ≠ 0) (small : o.writeBuf.size < 2^31) {reply : SendReply}
    (answered : Move.answered reply) (whole' : ∀ n, reply = .wrote n → o.writeBuf.size ≤ n) (accept add : Bool) :
    Joined fd tag state (o.submit accept) (ep.submitSend tag fd o.writeBuf.readable reply add).1 taken := by
  obtain ⟨k,carried,within,whole⟩ := joined.flow
  have positive : 0 < o.writeBuf.size := Nat.pos_of_ne_zero queued
  have idle : k = 0 ∧ (ep.state fd).sendq = [] ∧ ep.tagged tag taken = [] := by
    cases carried with
    | idle _ none' sendq tagged => exact ⟨none',sendq,tagged⟩
    | queued _ _ _ _ _ _ busy | reported _ _ _ _ _ busy | lost _ _ _ busy =>
      exact absurd free (Nat.pos_iff_ne_zero.1 busy)
    | dropped closed => exact absurd closed open'
  obtain ⟨rfl,sendq,tagged⟩ := idle
  unfold submitSend submitSendv
  simp only [sendq,isEmpty_nil,Bool.not_true,Bool.false_eq_true,if_false,List.take,
    flatten_cons,flatten_nil,append_nil,readable_length]
  cases reply with
  | intr | error => cases answered
  | wrote n =>
    -- All of the submission is with the kernel, and its completion is ready.
    simp only [cut_of_le (whole' n rfl),sendTail,readable_length,if_true]
    refine ⟨joined.valid,o.writeBuf.size,?_,Nat.le_refl _,?_⟩
    · refine .reported ⟨tag,int32 o.writeBuf.size,.send fd (ep.serials fd) o.writeBuf.size⟩ ?_ ?_
        (int32_of_lt small) rfl positive
      · change ((Epoll.setFd _ fd (ep.state fd)).state fd).sendq = []
        rw [state_setFd,if_pos rfl]
        exact sendq
      simp only [Epoll.tagged,queueCompletion,queueAll,setFd,setSocket,countOp,filter_append,
        append_eq_nil_iff] at tagged ⊢
      simp [tagged]
    change (update ep.sockets fd _ fd).wire++_ = o.accepted
    rw [update_self,← whole,append_assoc]
    exact congrArg ((ep.sockets fd).wire++·) (take_append_drop _ _)
  | again =>
    have left : ¬ 0 = o.writeBuf.size := fun zero => queued zero.symm
    simp only [sendTail,readable_length,if_neg left,take_zero,append_nil, drop_zero]
    obtain ⟨_,entered⟩ := enter_eq ((ep.countOp fd).setSocket fd { ep.sockets fd with }) fd
      { ep.state fd with sendq := [⟨tag,o.writeBuf.readable,0,ep.serials fd⟩] } (ep.serials fd) add
    refine ⟨joined.valid,0,?_,within,?_⟩
    · refine .queued ⟨tag,o.writeBuf.readable,0,ep.serials fd⟩ ?_ rfl ?_ (Nat.zero_le _) (Nat.le_refl _)
        positive small ?_
      · exact (congrArg (fun s => (s.state fd).sendq) entered).trans (by
          change (Epoll.state (Epoll.setFd _ fd _) fd).sendq = _
          rw [state_setFd,if_pos rfl,FdState.request_sendq])
      · exact (take_of_length_le (by simp [Outbound.submit])).symm
      · exact (congrArg (fun s => s.tagged tag taken) entered).trans tagged
    refine Eq.trans (congrArg (·++o.writeBuf.readable.drop 0) ?_) whole
    refine (congrArg (fun s => (s.sockets fd).wire) entered).trans ?_
    exact congrArg Socket.wire (update_self fd _ ep.sockets)

lemma Joined.settle {c : Completion} (joined : Joined fd tag state o ep taken)
    (next : ep.tagged tag taken = c::ep.tagged tag (taken+1)) : SentResult.ofResult c.result = .sent o.writeInflight ∧
    Joined fd tag state (o.transmit o.writeInflight) ep (taken+1) ∧
    Joined fd tag state ((o.transmit o.writeInflight).settle (.sent o.writeInflight)) ep (taken+1) := by
  obtain ⟨k,carried,within,whole⟩ := joined.flow
  obtain ⟨_,_,_,none'⟩ | ⟨_,_,_,_,_,_,_,_,none'⟩ | ⟨c',sendq,one,result,far,busy⟩ |
    ⟨_,none',_,_⟩ | ⟨_,_,none'⟩ := carried
  case reported =>
    obtain ⟨rfl,last⟩ : c' = c ∧ ep.tagged tag (taken+1) = [] := by
      rw [next] at one
      exact ⟨(List.cons.inj one).1.symm,(List.cons.inj one).2⟩
    subst far
    have same : (o.transmit o.writeInflight).writeBuf = o.writeBuf ∧
        (o.transmit o.writeInflight).writeInflight = o.writeInflight ∧
        (o.transmit o.writeInflight).accepted = o.accepted := by
      unfold Outbound.transmit
      split <;> exact ⟨rfl,rfl,rfl⟩
    refine ⟨?_,⟨?_,o.writeInflight,?_,?_,?_⟩,?_,0,?_,zero_le _,?_⟩
    · rw [SentResult.ofResult,result,if_neg (by unfold ecanceled; omega),if_neg (by omega)]
      rfl
    · rw [same.1]
      exact joined.valid
    · exact .lost sendq last same.2.1.symm (by rw [same.2.1]; exact busy)
    · rw [same.1]
      exact within
    · rw [same.1,same.2.2]
      exact whole
    · change ((o.transmit o.writeInflight).writeBuf.consume o.writeInflight).Valid
      rw [same.1]
      exact consume_valid joined.valid _
    · exact .idle rfl rfl sendq last
    · change _++((o.transmit o.writeInflight).writeBuf.consume o.writeInflight).readable.drop 0 =
        (o.transmit o.writeInflight).accepted
      rw [same.1,same.2.2,consume_readable]
      exact whole
  all_goals exact absurd (next.symm.trans none') (by simp)

lemma tagged_next {c : Completion} (next : ep.reaped[taken]? = some c) :
    ep.tagged tag taken = if c.user = tag then c::ep.tagged tag (taken+1) else ep.tagged tag (taken+1) := by
  obtain ⟨inside,at'⟩ := List.getElem?_eq_some_iff.1 next
  unfold Epoll.tagged
  rw [drop_eq_getElem_cons inside,at',cons_append,cons_append,filter_cons]
  simp only [beq_iff_eq]

lemma submitSend_owns (owns : ep.Owns fd tag) (bytes : Bytes) (reply : SendReply) (add : Bool) :
    (ep.submitSend tag fd bytes reply add).1.Owns fd tag := by
  have strange := owns.strange fd
  have sends := owns.sends fd
  have same : (ep.setFd fd (ep.state fd)).Owns fd tag := owns.setFd strange sends
  have tail (sent : Nat) : ((ep.countOp fd).sendTail tag fd (ep.state fd) [bytes].flatten
      (ep.serials fd) sent add).1.Owns fd tag := by
    unfold sendTail
    dsimp only
    split
    · exact ⟨same.strange,same.sends⟩
    obtain ⟨refused,entered⟩ := enter_eq ((ep.countOp fd).setSocket fd { ep.sockets fd with
      wire := (ep.sockets fd).wire++[bytes].flatten.take sent }) fd { ep.state fd with
        sendq := [⟨tag,[bytes].flatten.drop sent,0,ep.serials fd⟩] } (ep.serials fd) add
    have stored : (ep.setFd fd (request { ep.state fd with
        sendq := [⟨tag,[bytes].flatten.drop sent,0,ep.serials fd⟩] } add).1).Owns fd tag := by
      apply owns.setFd
      · apply Strange.request
        exact ⟨strange.watch,strange.recv,strange.accept,strange.connect⟩
      rw [request_sendq]
      intro req queued
      rw [mem_singleton.1 queued]
      exact iff_of_true rfl rfl
    exact (congrArg (Owns · fd tag) entered).mpr ⟨stored.strange,stored.sends⟩
  unfold submitSend submitSendv
  dsimp only
  split
  · have stored : (ep.setFd fd (updateEvents { ep.state fd with
        sendq := (ep.state fd).sendq++[⟨tag,[bytes].flatten,0,ep.serials fd⟩] })).Owns fd tag := by
      apply owns.setFd
      · apply Strange.updateEvents
        exact ⟨strange.watch,strange.recv,strange.accept,strange.connect⟩
      rw [updateEvents_sendq]
      intro req queued
      obtain old | new := mem_append.1 queued
      · exact sends req old
      rw [mem_singleton.1 new]
      exact iff_of_true rfl rfl
    exact ⟨stored.strange,stored.sends⟩
  · cases reply with
    | wrote | again => exact tail _
    | intr | error => exact ⟨same.strange,same.sends⟩

lemma detach_owns (owns : ep.Owns fd tag) (named : (0 : UserData) ≠ tag) : (ep.detach fd).Owns fd tag := by
  unfold Epoll.detach
  split
  · exact owns
  have blank : (ep.setFd fd {}).Owns fd tag := owns.setFd ⟨named,named,named,named⟩ nofun
  have same (f : Fd) : Epoll.state { ep with fds := update ep.fds fd none } f = (ep.setFd fd {}).state f := by
    rw [state_setFd]
    simp only [Epoll.state,update_apply]
    split <;> rfl
  refine ⟨fun f => ?_,fun f => ?_⟩
  · exact (same f).symm ▸ blank.strange f
  · exact (same f).symm ▸ blank.sends f
end
section
variable {framer : Framer M} {fd : Fd} {tag : UserData} {w w' : Wired M} {move : Move}
variable {c : Connection M} {accept : Bool}

lemma signalWritable_of_unparked (unparked : c.coro.sendParked = none) : c.signalWritable.outward = c.outward := by
  have after := outward_of_sendSide (afterSent_avoids c).sendSide
  unfold signalWritable coroWritable
  rw [unparked]
  split
  · exact after
  split
  · rfl
  · exact after

lemma onSent_of_unparked (unparked : c.coro.sendParked = none) (n : Nat)
    (accept : Bool) : (c.onSent (.sent n) accept).out = c.out.settle (.sent n) := by
  simp only [onSent]
  obtain ⟨_,fin⟩ := finAfterDrain_eq { c with out := c.out.settle (.sent n) }
  rw [fin]
  apply out_of_outward (c := { c with out := c.out.settle (.sent n) })
  unfold drained release
  split
  · simp only
    split
    · refine (signalWritable_of_unparked ?_).trans (rearmRecv_outward _ _)
      exact (rearmRecv_arms _ _).sendParked.trans unparked
    · exact signalWritable_of_unparked unparked
  · exact outward_of_sendSide (afterSent_avoids _).sendSide

lemma sendDone_joined {ep : Epoll} {taken : Nat} {conn : Connection M} {c : Completion}
    (joined : Joined fd tag conn.state conn.out ep taken) (next : ep.tagged tag taken = c::ep.tagged tag (taken+1))
    (keeps : conn.flow.onOverflow = .dropOldest → conn.coro.sendParked = none) :
    Joined fd tag conn.state (conn.sendDone (.ofResult c.result) accept).out ep (taken+1) := by
  obtain ⟨result,skipped,settled⟩ := joined.settle next
  rw [result]
  unfold sendDone
  simp only [SentResult.count]
  split
  · exact skipped
  next open' =>
  by_cases policy : conn.flow.onOverflow = .dropOldest
  · have out := onSent_of_unparked (c := { conn with
      out := conn.out.transmit conn.out.writeInflight }) (keeps policy) conn.out.writeInflight accept
    rw [out]
    exact settled
  obtain ⟨_,d,_,same,offered⟩ := onSent_offered
    { conn with out := conn.out.transmit conn.out.writeInflight } (.sent conn.out.writeInflight) accept
  have out : d.out = _ := congrArg Prod.snd same
  have flow : d.flow = conn.flow := congrArg Prod.fst same
  apply Joined.offered (out ▸ settled) offered fun _ => open'
  intro evicts
  exact absurd (flow ▸ evicts) policy

structure Synced (fd : Fd) (tag : UserData) (w : Wired M) : Prop where
  placed : Placed w.ep
  owns : w.ep.Owns fd tag
  early : w.taken ≤ w.ep.reaped.length
  lives : w.conn.Lives anything 0
  joined : Joined fd tag w.conn.state w.conn.out w.ep w.taken

lemma closed_of_rank (last : ConnState.closed.rank ≤ c.state.rank) : c.state = .closed := by
  cases state : c.state with
  | closed => rfl
  | _ =>
    rw [state] at last
    exact absurd last (by decide)

lemma Synced.follow (synced : Synced fd tag w) (named : (0 : UserData) ≠ tag) (idle : w.ep.phase = .idle)
    {taken : Nat} (lives : c.Lives anything w.conn.state.rank) (early : taken ≤ w.ep.reaped.length)
    (joined : Joined fd tag w.conn.state c.out w.ep taken) : Synced fd tag { w.follow fd c with taken := taken } := by
  have alive : c.Lives anything 0 := ⟨zero_le _,lives.life⟩
  unfold Wired.follow
  split
  next closes =>
    have ended : c.fdOpen = false := by simpa using (and_eq_true_iff.1 closes).2
    have reaped : (w.ep.detach fd).reaped = w.ep.reaped := by
      unfold Epoll.detach
      split <;> rfl
    have placed : Placed (w.ep.detach fd) := turn_placed (a := .detach fd) (.call idle rfl) synced.placed
    refine ⟨placed,detach_owns synced.owns named,?_,alive,?_⟩
    · exact reaped ▸ early
    rw [alive.closed_iff.1 ended]
    exact joined.detach
  · refine ⟨synced.placed,synced.owns,early,alive,joined.congr ?_ rfl⟩
    intro closed
    apply closed_of_rank
    rw [← closed]
    exact lives.rank

lemma ranked (synced : Synced fd tag w) : w.conn.Lives anything w.conn.state.rank := ⟨Nat.le_refl _,synced.lives.life⟩

lemma conn_synced {event : Event} (synced : Synced fd tag w) (named : (0 : UserData) ≠ tag)
    (idle : w.ep.phase = .idle) (own : event.sends = false) (mild : Move.mild fd w (.conn event accept))
    (stepped : Connection.Step framer w.conn (event,accept) c) : Synced fd tag (w.follow fd c) := by
  have lives : c.Lives anything w.conn.state.rank := step_anything (ranked synced) stepped
  apply synced.follow named idle lives synced.early
  obtain ⟨_,moved⟩ := step_outStep stepped
  generalize c.out = o at moved
  cases moved with
  | quiet => exact synced.joined
  | offered _ _ _ payload offered =>
    apply synced.joined.offered offered
    · intro established
      rw [established]
      decide
    intro policy
    simpa [Move.mild,Event.payload,payload,policy] using mild
  | submitted | skipped | finished => cases own

lemma flushWrite_eq (c : Connection M) (accept : Bool) : c.flushWrite accept =
    if c.flushes then { c with out := c.out.submit accept }.emit .submitSend else c := by
  unfold flushWrite flushes
  cases c.out.writeBuf.empty <;> cases c.state <;> by_cases free : c.out.writeInflight = 0 <;> simp [free]

lemma flushed_spec (stepped : Connection.Step framer w.conn (.flush,accept) c) : c.state = w.conn.state ∧
    c.out = if w.conn.flushes then w.conn.out.submit accept else w.conn.out := by
  cases stepped.move with
  | flush =>
    rw [flushWrite_eq]
    change _ ∧ _ = if Connection.flushes { w.conn with writePending := false } then _ else _
    split <;> exact ⟨rfl,rfl⟩

lemma reaped_submitSend (ep : Epoll) (bytes : Bytes) (reply : SendReply) (add : Bool) :
    (ep.submitSend tag fd bytes reply add).1.reaped = ep.reaped := by
  have entered (s : Epoll) (st : FdState) (serial : Nat) (same : s.reaped = ep.reaped) :
      (s.enter fd st serial add).1.reaped = ep.reaped := by
    obtain ⟨_,entered⟩ := enter_eq s fd st serial add
    rw [entered]
    exact same
  have tail (sent : Nat) : ((ep.countOp fd).sendTail tag fd (ep.state fd) [bytes].flatten
      (ep.serials fd) sent add).1.reaped = ep.reaped := by
    unfold sendTail
    dsimp only
    split
    · rfl
    · exact entered _ _ _ rfl
  unfold submitSend submitSendv
  dsimp only
  split
  · rfl
  cases reply with
  | wrote | again => exact tail _
  | intr | error => rfl

lemma flush_synced {reply : SendReply} {add : Bool} (synced : Synced fd tag w)
    (idle : w.ep.phase = .idle) (possible : reply.possible) (mild : Move.mild fd w (.flush reply add))
    (whole : Move.whole w (.flush reply add)) (flushes : w.conn.flushes)
    (stepped : Connection.Step framer w.conn
    (.flush,(w.ep.submitSend tag fd w.conn.out.writeBuf.readable reply add).2) c) :
    Synced fd tag { w with
    conn := c, ep := (w.ep.submitSend tag fd w.conn.out.writeBuf.readable reply add).1 } := by
  have lives : c.Lives anything 0 := step_anything synced.lives stepped
  obtain ⟨state,out⟩ := flushed_spec stepped
  rw [if_pos flushes] at out
  obtain ⟨⟨free,queued⟩,live⟩ : (w.conn.out.writeInflight = 0 ∧ w.conn.out.writeBuf.size ≠ 0) ∧
      (w.conn.state = .established ∨ w.conn.state = .shutdownWrite) := by
    simpa [Connection.flushes,IoBuffer.empty] using flushes
  have open' : w.conn.state ≠ .closed := by
    obtain at' | at' := live <;> rw [at'] <;> decide
  obtain ⟨small,all⟩ : w.conn.out.writeBuf.size < 2^31 ∧ ∀ n, reply = .wrote n → w.conn.out.writeBuf.size ≤ n := by
    simp only [Move.whole,flushes,Bool.not_true,Bool.false_or,Bool.and_eq_true, decide_eq_true_eq] at whole
    refine ⟨whole.1,?_⟩
    rintro n rfl
    simpa using whole.2
  have placed : Placed (w.ep.submitSend tag fd w.conn.out.writeBuf.readable reply add).1 := by
    apply turn_placed (a := .submitSendv tag fd [w.conn.out.writeBuf.readable] reply add) _ synced.placed
    exact .call idle (if_pos possible)
  refine ⟨placed,submitSend_owns synced.owns _ _ _,?_,lives,?_⟩
  · rw [reaped_submitSend]
    exact synced.early
  rw [state,out]
  exact synced.joined.submit free open' queued small mild all _ add

lemma step_synced (named : (0 : UserData) ≠ tag) (moved : Step framer fd tag w move w')
    (mild : move.mild fd w) (whole : move.whole w) (synced : Synced fd tag w) : Synced fd tag w' := by
  unfold Step step at moved
  split at moved
  next =>
    split at moved
    next may =>
      obtain ⟨c,stepped,rfl⟩ := Option.map_eq_some_iff.1 moved
      exact conn_synced synced named may.1 may.2 mild stepped
    · cases moved
  next =>
    split at moved
    next may =>
      split at moved
      next flushes =>
        obtain ⟨c,stepped,rfl⟩ := Option.map_eq_some_iff.1 moved
        exact flush_synced synced may.1 may.2 mild whole flushes stepped
      next nothing =>
      obtain ⟨c,taken,rfl⟩ := Option.map_eq_some_iff.1 moved
      have stepped : Connection.Step framer w.conn (.flush,true) c := taken
      obtain ⟨state,out⟩ := flushed_spec stepped
      rw [if_neg nothing] at out
      refine ⟨synced.placed,synced.owns,synced.early,?_,?_⟩
      · exact step_anything synced.lives stepped
      rw [state,out]
      exact synced.joined
    · cases moved
  next =>
    split at moved
    next foreign =>
      obtain ⟨ep,stepped,rfl⟩ := Option.map_eq_some_iff.1 moved
      have turn := step_turn stepped
      have progress := turn_progress turn foreign mild synced.owns named synced.placed
      have owns : ep.Owns fd tag ∧ w.ep.reaped.length ≤ ep.reaped.length := by
        cases progress with
        | aside same => exact ⟨same.owns synced.owns,same.reaped⟩
        | wrote _ _ _ _ _ _ _ _ reaped owns | finished _ _ _ _ _ _ _ _ _ reaped owns =>
          exact ⟨owns,Nat.le_of_eq (congrArg List.length reaped.symm)⟩
      exact ⟨turn_placed turn synced.placed,owns.1,Nat.le_trans synced.early owns.2,synced.lives,
        synced.joined.progress progress synced.early⟩
    · cases moved
  next accept =>
  split at moved
  next may =>
    split at moved
    · cases moved
    next c next =>
    have early : w.taken+1 ≤ w.ep.reaped.length := (List.getElem?_eq_some_iff.1 next).1
    have tagged : w.ep.tagged tag w.taken = if c.user = tag then
        c::w.ep.tagged tag (w.taken+1) else w.ep.tagged tag (w.taken+1) :=
      tagged_next next
    split at moved
    next own =>
      cases moved
      rw [if_pos own] at tagged
      apply synced.follow named may.1 _ early
      · apply sendDone_joined synced.joined tagged
        intro policy
        simpa [Move.mild,policy] using mild
      · exact sendDone_lives (ranked synced) (fun _ _ => rfl) _ accept
    next other =>
    cases moved
    rw [if_neg other] at tagged
    exact ⟨synced.placed,synced.owns,early,synced.lives,synced.joined.congr id tagged⟩
  · cases moved

lemma start_synced (named : (0 : UserData) ≠ tag) (flow : FlowControl) (readBufferSize : Nat) :
    Synced fd tag (start flow readBufferSize : Wired M) := by
  refine ⟨⟨fun _ => rfl,nofun,nofun⟩,⟨fun _ => ⟨named,named,named,named⟩,fun _ => nofun⟩,
    Nat.le_refl 0,create_anything flow readBufferSize,?_⟩
  exact ⟨create_valid _ _,0,.idle rfl rfl rfl rfl,Nat.zero_le _,rfl⟩

/-- What the kernel was handed is a prefix of the accepted payloads, all of them once the queue is empty, and a result
on its way is what was written. -/
theorem wire_prefix_accepted {flow : FlowControl} {readBufferSize : Nat} {moves : List Move}
    (named : (0 : UserData) ≠ tag)
    (run : Exec (Guarded (Step framer fd tag) fun w move => move.mild fd w ∧ move.whole w)
      (start flow readBufferSize) moves w) :
    w.wire fd <+: w.conn.out.accepted ∧ (w.conn.out.writeBuf.empty → w.wire fd = w.conn.out.accepted) ∧
      ∀ c ∈ w.ep.tagged tag w.taken, c.result = w.conn.out.writeInflight ∧
        w.wire fd++w.conn.out.writeBuf.readable.drop w.conn.out.writeInflight = w.conn.out.accepted := by
  have synced : Synced fd tag w := run.invariant (Synced fd tag)
    (fun _ _ _ moved => step_synced named moved.2 moved.1.1 moved.1.2)
    (start_synced named flow readBufferSize)
  obtain ⟨k,carried,_,whole⟩ := synced.joined.flow
  refine ⟨⟨_,whole⟩,?_,?_⟩
  · intro empty
    have none' : w.conn.out.writeBuf.readable = [] := readable_eq_nil.2 (by simpa [IoBuffer.empty] using empty)
    rwa [none',drop_nil,append_nil] at whole
  intro c waits
  obtain ⟨_,_,_,none'⟩ | ⟨_,_,_,_,_,_,_,_,none'⟩ | ⟨c',_,one,result,far,_⟩ | ⟨_,none',_,_⟩ |
    ⟨_,_,none'⟩ := carried
  case reported =>
    rw [one] at waits
    rw [mem_singleton.1 waits]
    exact ⟨result,far ▸ whole⟩
  all_goals
    rw [none'] at waits
    exact absurd waits not_mem_nil

end

/-- One wait in which the kernel reports `fd` writable and answers the send loop in turn. -/
def writableWait (fd : Fd) (replies : List SendReply) : List Move :=
  [.backend (.wait 8),.backend .pending,.backend (.poll [(fd,{ output := true })]),.backend .event,
    .backend (.dispatch (.errorish 0)),.backend (.dispatch .readable),
    .backend (.dispatch (.writable 0))]++
  replies.map (fun reply => .backend (.dispatch (.send reply)))++
  [.backend (.dispatch .sent),.backend (.dispatch .watch),.backend .event]

def sentInParts : List Move :=
  [.conn (.connected .ok) true,.conn .resume true,.conn (.call (.send [1,2,3])) true,.flush .again true]++
  writableWait 5 [.wrote 2,.wrote 1]++
  [.dispatch true,.conn (.call (.send [4])) true,.flush (.wrote 1) true,.backend (.wait 1),.dispatch true]

theorem sentInParts_wire : ∃ w : Wired Unit,
    Exec (Guarded (Step waiting 5 3) fun w move => move.mild 5 w ∧ move.whole w) (start {} 65536)
      sentInParts w ∧ w.conn.out.accepted = [1,2,3,4] ∧ w.wire 5 = w.conn.out.accepted :=
  Exec.shown_of_drive (P := fun w => w.conn.out.accepted = [1,2,3,4] ∧ w.conn.out.writeBuf.empty)
    (by decide +kernel) fun _ run ⟨accepted,empty⟩ => ⟨accepted,(wire_prefix_accepted (by decide) run).2.1 empty⟩

def shortFlush : List Move :=
  [.conn (.connected .ok) true,.conn .resume true,.conn (.call (.send [1,2,3,4])) true, .flush (.wrote 2) true]++
  writableWait 5 [.wrote 2]++[.dispatch true,.flush (.wrote 2) true]

/-- The completion reports only the rest, and the connection sends it once more. -/
theorem shortFlush_repeats : ∃ w : Wired Unit,
    Exec (Guarded (Step waiting 5 3) fun w move => move.mild 5 w) (start {} 65536) shortFlush w ∧
      w.conn.out.accepted = [1,2,3,4] ∧ w.wire 5 = [1,2,3,4,3,4] ∧
      w.ep.reaped.map (·.result) = [2] ∧ ¬ w.wire 5 <+: w.conn.out.accepted :=
  Exec.end_of_drive (by decide +kernel)

end Wired
end AffiniX
