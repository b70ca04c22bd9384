import AffiniX.Connection
import AffiniX.Epoll

/-! Descriptors that come in with the bytes of a connection: the backend collects them during a drain, whose
completion tells the connection to hand them over. -/
namespace AffiniX
open List Option Epoll
namespace FdPassing
inductive Cmsg
  | rights (fds : List Fd)
  | other
deriving DecidableEq

def Cmsg.fds : Cmsg → List Fd
  | .rights fds => fds
  | .other => []

/-- The answers of `recvmsg`. Descriptors travel with at least one byte. -/
inductive Recvmsg
  | data (n : Nat) (control : List Cmsg) (ctrunc : Bool)
  | eof
  | again
  | intr
  | failed (errno : Nat)
deriving DecidableEq

def Recvmsg.fds : Recvmsg → List Fd
  | .data _ control _ => control.flatMap Cmsg.fds
  | .eof | .again | .intr | .failed _ => []

/-- What a drain has collected: `buf` is the used part of the inbox, `closed` did not fit into it. -/
structure Harvest where
  buf : List Fd := []
  truncated : Bool := false
  closed : List Fd := []
deriving DecidableEq

def collectFd (cap : Nat) (h : Harvest) (fd : Fd) : Harvest :=
  if h.buf.length < cap then { h with buf := h.buf++[fd] }
  else { h with closed := h.closed++[fd], truncated := true }

def collectRights (cap : Nat) (control : List Cmsg) (ctrunc : Bool) (h : Harvest) : Harvest :=
  (control.flatMap Cmsg.fds).foldl (collectFd cap) { h with truncated := h.truncated || ctrunc }

/-- The drain loop of `on_readable`, with `room` left in the buffer: the result of the completion and what was
collected. -/
def drain (cap : Nat) : (room total : Nat) → Harvest → List Recvmsg → Option (Int × Harvest)
  | 0, total, h, [] => some (int32 total,h)
  | 0, _, _, _::_ => none
  | _+1, _, _, [] => none
  | room+1, total, h, r::rest =>
    match r with
    | .data n control ctrunc =>
      if 0 < n ∧ n ≤ room+1 then drain cap (room+1-n) (total+n) (collectRights cap control ctrunc h) rest
      else none
    | .eof => if rest = [] then some (if total = 0 then 0 else int32 total,h) else none
    | .again => if rest = [] then some (if total = 0 then -11 else int32 total,h) else none
    | .intr => drain cap (room+1) total h rest
    | .failed errno => if rest = [] ∧ failure errno then some (-errno,h) else none
termination_by structural _ _ _ rs => rs

structure Completion where
  result : Int
  hasFds : Bool := false
  fdTrunc : Bool := false
deriving DecidableEq

def kFdInboxCap : Nat := 8
end FdPassing

open FdPassing

/-- A connection with `fd_passing`. `inbox`: the entries of `fd_inbox_`; `inflight`: a completion not dispatched yet. -/
structure FdPassing where
  state : ConnState
  coro : Bool
  onFds : Bool
  recvArmed : Bool
  inflight : Option FdPassing.Completion
  inbox : List Fd
  installed : List Fd
  passed : List Fd
  closed : List Fd

namespace FdPassing
open Transition

def create (coro onFds : Bool) : FdPassing := ⟨.established,coro,onFds,true,none,[],[],[],[]⟩

variable (s : FdPassing)

/-- `on_readable`; `fits` says whether the output span has room for the completion. -/
def onReadable (result : Int) (h : Harvest) (fits : Bool) : FdPassing :=
  if result = -11 ∧ h.buf = [] then { s with closed := s.closed++h.closed }
  else
    { s with
      closed := s.closed++h.closed
      inbox := h.buf
      recvArmed := !fits
      inflight := if fits then some ⟨result,h.buf ≠ [],h.truncated⟩ else none }

def close : FdPassing := { s with state := .closed, recvArmed := false }

def deliverFds : FdPassing := if s.onFds then { s with passed := s.passed++s.inbox, inbox := [] }
  else { s with closed := s.closed++s.inbox, inbox := [] }

/-- `on_recv`. Handlers and framer leave the connection in the state `after`; `arms`: a read is armed in the end. -/
def onRecv (c : Completion) (after : ConnState) (arms : Bool) : FdPassing := match s.state with
  | .established =>
    if c.result < 0 then
      if c.result = -11 ∨ c.result = -ecanceled then { s with recvArmed := s.recvArmed || arms }
      else s.close
    else if c.result = 0 then s.close
    else
      let s := if c.hasFds || c.fdTrunc then s.deliverFds else s
      match after with
      | .established => { s with recvArmed := s.recvArmed || arms }
      | .shutdownWrite => { s with state := .shutdownWrite, recvArmed := s.recvArmed || !s.coro }
      | _ => s.close
  | .shutdownWrite =>
    if s.coro then s
    else if c.result = 0 then s.close
    else if c.result < 0 ∧ c.result ≠ -11 ∧ c.result ≠ -ecanceled then s.close
    else { s with recvArmed := true }
  | _ => s

/-- `failRecv` is a receive that the backend completes without a drain, `arm` one that is armed by
`recv()` or when reading goes on after a pause. -/
inductive Move
  | readable (room : Nat) (answers : List Recvmsg) (fits : Bool)
  | failRecv (result : Int)
  | dispatch (after : ConnState) (arms : Bool)
  | arm
  | shutdownWrite
  | close

def step : Move → Option FdPassing
  | .readable room answers fits =>
    let fds := answers.flatMap Recvmsg.fds
    -- All completions of one wait are dispatched before the next one.
    if s.recvArmed ∧ s.inflight = none ∧ (s.installed++fds).Nodup then do
      let (result,h) ← drain kFdInboxCap room 0 {} answers
      return { s with installed := s.installed++fds }.onReadable result h fits
    else none
  | .failRecv result =>
    if s.recvArmed ∧ s.inflight = none ∧ result ≤ 0 then
      some { s with recvArmed := false, inflight := some { result := result } }
    else none
  | .dispatch after arms => do
    let c ← s.inflight
    return { s with inflight := none }.onRecv c after arms
  | .arm => if s.state = .established then some { s with recvArmed := true } else none
  | .shutdownWrite => if s.state = .established then some { s with state := .shutdownWrite } else none
  | .close =>
    match s.state with
    | .established | .shutdownWrite => some s.close
    | _ => none

/-- Descriptors come while the connection is established, in a drain with a result whose completion fits, and nobody
closes it before it is told. -/
def Careful : Move → Prop
  | .readable room answers fits => ∀ r ∈ drain kFdInboxCap room 0 {} answers,
      r.2.buf ≠ [] → fits ∧ 0 < r.1 ∧ s.state = .established
  | .shutdownWrite | .close => s.inbox = []
  | .failRecv _ | .dispatch _ _ | .arm => True

instance (s : FdPassing) (m : Move) : Decidable (Careful s m) := match m with
  | .readable room answers _ => inferInstanceAs (Decidable (∀ r ∈ drain kFdInboxCap room 0 {} answers, _ → _ ∧ _))
  | .shutdownWrite | .close => inferInstanceAs (Decidable (s.inbox = []))
  | .failRecv _ | .dispatch _ _ | .arm => .isTrue trivial

section
variable {cap : Nat} {h : Harvest}

lemma collectFd_spec (fd : Fd) : ((collectFd cap h fd).buf++(collectFd cap h fd).closed).Perm (h.buf++h.closed++[fd]) ∧
    (h.buf.length ≤ cap → (collectFd cap h fd).buf.length ≤ cap) := by
  unfold collectFd
  split
  next =>
    constructor
    · simp only [append_assoc]
      exact perm_append_comm.append_left _
    intro _
    simp
    omega
  · constructor
    · simp
    · exact id

lemma collectFds_spec (fds : List Fd) :
    ((fds.foldl (collectFd cap) h).buf++(fds.foldl (collectFd cap) h).closed).Perm (h.buf++h.closed++fds) ∧
    (h.buf.length ≤ cap → (fds.foldl (collectFd cap) h).buf.length ≤ cap) := by
  induction fds generalizing h with
  | nil => simp
  | cons fd fds ih =>
    obtain ⟨kept,bound⟩ := @collectFd_spec cap h fd
    obtain ⟨rest,bound'⟩ := ih
    refine ⟨?_,fun room => bound' (bound room)⟩
    rw [foldl_cons,append_cons]
    exact rest.trans (kept.append_right fds)

lemma collectRights_spec (control : List Cmsg) (ctrunc : Bool) :
    ((collectRights cap control ctrunc h).buf++(collectRights cap control ctrunc h).closed).Perm
    (h.buf++h.closed++control.flatMap Cmsg.fds) ∧
    (h.buf.length ≤ cap → (collectRights cap control ctrunc h).buf.length ≤ cap) :=
  collectFds_spec _

lemma drain_spec {room total : Nat} {answers : List Recvmsg} {result : Int} {h' : Harvest}
    (drained : drain cap room total h answers = some (result,h')) :
    (h'.buf++h'.closed).Perm (h.buf++h.closed++answers.flatMap Recvmsg.fds) ∧
    (h.buf.length ≤ cap → h'.buf.length ≤ cap) := by
  induction answers generalizing room total h with
  | nil =>
    cases room with
    | zero =>
      cases drained
      simp
    | succ => cases drained
  | cons r _ ih =>
    cases room with
    | zero => cases drained
    | succ room =>
      rw [flatMap_cons]
      cases r with
      | data n control ctrunc =>
        obtain ⟨_,more⟩ := ite_none_right_eq_some.1 drained
        obtain ⟨kept,bound⟩ := @collectRights_spec cap h control ctrunc
        obtain ⟨onward,bound'⟩ := ih more
        refine ⟨?_,fun room => bound' (bound room)⟩
        rw [← append_assoc]
        exact onward.trans (kept.append_right _)
      | eof | again =>
        obtain ⟨rfl,same⟩ := enabled drained
        cases same
        simp [Recvmsg.fds]
      | intr => exact ih drained
      | failed =>
        obtain ⟨⟨rfl,_⟩,same⟩ := enabled drained
        cases same
        simp [Recvmsg.fds]
end
variable {s t : FdPassing}

def Ledger (s : FdPassing) : Prop := (s.passed++s.closed++s.inbox).Perm s.installed

structure Inv (s : FdPassing) : Prop where
  ledger : s.Ledger
  nodup : s.installed.Nodup
  told : s.inbox ≠ [] → s.state = .established ∧ ∃ c, s.inflight = some c ∧ c.hasFds = true ∧ 0 < c.result

lemma create_inv (coro onFds : Bool) : Inv (create coro onFds) := ⟨.nil,.nil,fun some' => absurd rfl some'⟩

lemma Inv.congr (inv : Inv s) (passed : t.passed = s.passed) (closed : t.closed = s.closed)
    (inbox : t.inbox = s.inbox) (installed : t.installed = s.installed)
    (told : s.inbox ≠ [] → t.state = s.state ∧ t.inflight = s.inflight) : Inv t := by
  refine ⟨?_,installed ▸ inv.nodup,?_⟩
  · unfold Ledger
    rw [passed,closed,inbox,installed]
    exact inv.ledger
  rw [inbox]
  intro some'
  rw [(told some').1,(told some').2]
  exact inv.told some'

lemma Inv.empty (inv : Inv s) (quiet : ∀ c, s.inflight = some c → c.hasFds = false) : s.inbox = [] := by
  by_contra some'
  obtain ⟨_,c,flies,has,_⟩ := inv.told some'
  rw [quiet c flies] at has
  contradiction

lemma readable_inv {room : Nat} {answers : List Recvmsg} {fits : Bool} (inv : Inv s)
    (careful : Careful s (.readable room answers fits)) (taken : s.step (.readable room answers fits) = some t) :
    Inv t := by
  obtain ⟨⟨_,none',nodup⟩,taken⟩ := ite_none_right_eq_some.1 taken
  obtain ⟨⟨result,h⟩,drained,taken⟩ := bind_eq_some_iff.1 taken
  cases taken
  have empty : s.inbox = [] := inv.empty (by simp [none'])
  have collected := (drain_spec drained).1
  have ledger : (s.passed++s.closed++(h.buf++h.closed)).Perm (s.installed++answers.flatMap Recvmsg.fds) := by
    have before := inv.ledger
    unfold Ledger at before
    rw [empty,append_nil] at before
    exact before.append collected
  unfold onReadable
  split
  next nothing =>
    refine ⟨?_,nodup,fun some' => absurd empty some'⟩
    unfold Ledger
    simp only [empty,nothing.2,nil_append,append_nil,append_assoc] at ledger ⊢
    exact ledger
  · refine ⟨?_,nodup,?_⟩
    · unfold Ledger
      refine List.Perm.trans ?_ ledger
      simp only [append_assoc]
      exact (perm_append_comm.append_left _).append_left _
    intro some'
    obtain ⟨fits,positive,established⟩ := careful (result,h) drained some'
    refine ⟨established,_,if_pos fits,?_,positive⟩
    simpa using some'

lemma deliverFds_ledger (ledger : s.Ledger) : s.deliverFds.Ledger ∧ s.deliverFds.inbox = [] := by
  unfold deliverFds
  split
  · refine ⟨?_,rfl⟩
    refine List.Perm.trans ?_ ledger
    simp only [append_nil,append_assoc]
    exact perm_append_comm.append_left _
  refine ⟨?_,rfl⟩
  refine List.Perm.trans ?_ ledger
  simp

lemma deliverFds_installed (s : FdPassing) : s.deliverFds.installed = s.installed := by
  unfold deliverFds
  split <;> rfl

lemma onRecv_ledger {c : Completion} {after : ConnState} {arms : Bool} (ledger : s.Ledger)
    (told : s.inbox ≠ [] → s.state = .established ∧ c.hasFds = true ∧ 0 < c.result) : (s.onRecv c after arms).Ledger ∧
    (s.onRecv c after arms).inbox = [] ∧ (s.onRecv c after arms).installed = s.installed := by
  have quiet (out : ¬ (s.state = .established ∧ c.hasFds = true ∧ 0 < c.result)) : s.inbox = [] := by
    by_contra some'
    exact out (told some')
  unfold onRecv
  split
  next =>
    split
    · have empty : s.inbox = [] := quiet (by omega)
      split <;> exact ⟨ledger,empty,rfl⟩
    split
    · exact ⟨ledger,quiet (by omega),rfl⟩
    have handed : (if c.hasFds || c.fdTrunc then s.deliverFds else s).Ledger ∧
        (if c.hasFds || c.fdTrunc then s.deliverFds else s).inbox = [] ∧
        (if c.hasFds || c.fdTrunc then s.deliverFds else s).installed = s.installed := by
      split
      · obtain ⟨after,empty⟩ := deliverFds_ledger ledger
        exact ⟨after,empty,deliverFds_installed s⟩
      next flags =>
      refine ⟨ledger,quiet ?_,rfl⟩
      intro told
      simp [told.2.1] at flags
    dsimp only
    split <;> exact handed
  next half =>
    have empty : s.inbox = [] := quiet (by simp [half])
    split
    · exact ⟨ledger,empty,rfl⟩
    split
    · exact ⟨ledger,empty,rfl⟩
    · split <;> exact ⟨ledger,empty,rfl⟩
  next established _ => exact ⟨ledger,quiet fun told => established told.1,rfl⟩

lemma dispatch_inv {after : ConnState} {arms : Bool} (inv : Inv s)
    (taken : s.step (.dispatch after arms) = some t) : Inv t := by
  obtain ⟨c,flies,taken⟩ := bind_eq_some_iff.1 taken
  cases taken
  have told : s.inbox ≠ [] → s.state = .established ∧ c.hasFds = true ∧ 0 < c.result := by
    intro some'
    obtain ⟨established,d,flies',has,positive⟩ := inv.told some'
    cases flies.symm.trans flies'
    exact ⟨established,has,positive⟩
  obtain ⟨ledger,empty,installed⟩ := @onRecv_ledger { s with inflight := none } c after arms inv.ledger told
  refine ⟨ledger,?_,fun some' => absurd empty some'⟩
  rw [installed]
  exact inv.nodup

lemma step_inv {m : Move} (inv : Inv s) (careful : Careful s m) (taken : s.step m = some t) : Inv t := by
  cases m with
  | readable => exact readable_inv inv careful taken
  | failRecv =>
    obtain ⟨⟨_,none',_⟩,rfl⟩ := enabled taken
    have empty : s.inbox = [] := inv.empty (by simp [none'])
    exact inv.congr rfl rfl rfl rfl fun some' => absurd empty some'
  | dispatch => exact dispatch_inv inv taken
  | arm =>
    obtain ⟨_,rfl⟩ := enabled taken
    exact inv.congr rfl rfl rfl rfl fun _ => ⟨rfl,rfl⟩
  | shutdownWrite =>
    obtain ⟨_,rfl⟩ := enabled taken
    exact inv.congr rfl rfl rfl rfl fun some' => absurd careful some'
  | close =>
    have empty : s.inbox = [] := careful
    have closed : Inv s.close := inv.congr rfl rfl rfl rfl fun some' => absurd empty some'
    rw [step] at taken
    split at taken
    · cases taken
      exact closed
    · cases taken
      exact closed
    · cases taken

lemma onRecv_inbox (c : Completion) (after : ConnState) (arms : Bool) :
    (s.onRecv c after arms).inbox = s.inbox ∨ (s.onRecv c after arms).inbox = [] := by
  have handed : (if c.hasFds || c.fdTrunc then s.deliverFds else s).inbox = s.inbox ∨
      (if c.hasFds || c.fdTrunc then s.deliverFds else s).inbox = [] := by
    unfold deliverFds
    split
    · split <;> exact .inr rfl
    · exact .inl rfl
  unfold onRecv close
  cases s.state with
  | established =>
    dsimp only
    split
    · split <;> exact .inl rfl
    split
    · exact .inl rfl
    cases after with
    | _ => exact handed
  | shutdownWrite =>
    dsimp only
    split
    · exact .inl rfl
    split
    · exact .inl rfl
    · split <;> exact .inl rfl
  | connecting | closing | closed => exact .inl rfl

lemma step_inbox {m : Move} (fits : s.inbox.length ≤ kFdInboxCap) (taken : s.step m = some t) :
    t.inbox.length ≤ kFdInboxCap := by
  cases m with
  | readable =>
    obtain ⟨_,taken⟩ := ite_none_right_eq_some.1 taken
    obtain ⟨⟨_,h⟩,drained,taken⟩ := bind_eq_some_iff.1 taken
    cases taken
    unfold onReadable
    split
    · exact fits
    · exact (drain_spec drained).2 (Nat.zero_le _)
  | failRecv | arm | shutdownWrite =>
    obtain ⟨_,rfl⟩ := enabled taken
    exact fits
  | dispatch after arms =>
    obtain ⟨c,_,taken⟩ := bind_eq_some_iff.1 taken
    cases taken
    rcases onRecv_inbox c after arms with same | none'
    · rw [same]
      exact fits
    rw [none']
    exact Nat.zero_le _
  | close =>
    rw [step] at taken
    split at taken
    · cases taken
      exact fits
    · cases taken
      exact fits
    · cases taken

/-- The inbox keeps to its capacity, and a closed connection has passed on or closed every descriptor that came in,
once. -/
theorem descriptors_conserved {coro onFds : Bool} {moves : List Move} :
    (∀ s, Exec (Via step) (create coro onFds) moves s → s.inbox.length ≤ kFdInboxCap) ∧
    ∀ s, Exec (Guarded (Via step) Careful) (create coro onFds) moves s → s.state = .closed →
      ∀ fd, s.passed.count fd+s.closed.count fd = if fd ∈ s.installed then 1 else 0 := by
  constructor
  · intro s run
    exact run.invariant (fun s => s.inbox.length ≤ kFdInboxCap) (fun _ _ _ taken fits => step_inbox fits taken)
      (Nat.zero_le _)
  intro s run closed fd
  have inv : Inv s := run.invariant Inv (fun _ _ _ taken inv => step_inv inv taken.1 taken.2) (create_inv _ _)
  have empty : s.inbox = [] := by
    by_contra some'
    have established := (inv.told some').1
    rw [closed] at established
    cases established
  have counts := inv.ledger.count_eq fd
  rw [empty,append_nil,count_append] at counts
  rw [counts]
  split
  next came => exact count_eq_one_of_mem inv.nodup came
  next never => exact count_eq_zero.2 never

theorem nine_descriptors :
    ∃ s, Exec (Guarded (Via step) Careful) (create false true)
      [.readable 4096 [.data 10 [.rights [1,2,3,4],.other] false,.data 3 [.rights [5,6,7,8,9]] false,.again] true,
        .dispatch .established true,.failRecv 0,.dispatch .closed false] s ∧
      s.passed = [1,2,3,4,5,6,7,8] ∧ s.installed = [1,2,3,4,5,6,7,8,9] ∧ s.closed.count 9 = 1 := by
  refine Exec.shown_of_drive (P := fun s => s.state = .closed ∧ s.passed = [1,2,3,4,5,6,7,8] ∧
    s.installed = [1,2,3,4,5,6,7,8,9]) (by decide +kernel) ?_
  rintro s run ⟨closed,passed,installed⟩
  have once := descriptors_conserved.2 s run closed 9
  rw [passed,installed] at once
  exact ⟨passed,installed,by simpa using once⟩

/-- Lost is a descriptor that comes after `shutdown_write` or before an error, does not fit, or meets a close. -/
theorem descriptors_lost :
    (∃ s, Exec (Guarded (Via step) fun _ _ => True) (create false true)
      [.shutdownWrite,.readable 4096 [.data 1 [.rights [7]] false,.again] true,.dispatch .closed false,
        .readable 4096 [.eof] true,.dispatch .closed false] s ∧
      s.state = .closed ∧ s.installed = [7] ∧ s.passed = [] ∧ s.closed = []) ∧
    (∃ s, Exec (Guarded (Via step) fun _ _ => True) (create false true)
      [.readable 4096 [.data 1 [.rights [7]] false,.failed 104] true,.dispatch .closed false] s ∧
      s.state = .closed ∧ s.installed = [7] ∧ s.passed = [] ∧ s.closed = []) ∧
    (∃ s, Exec (Guarded (Via step) fun _ _ => True) (create false true)
      [.readable 4096 [.data 1 [.rights [7]] false,.again] false,.readable 4096 [.eof] true,
        .dispatch .closed false] s ∧
      s.state = .closed ∧ s.installed = [7] ∧ s.passed = [] ∧ s.closed = []) ∧
    ∃ s, Exec (Guarded (Via step) fun _ _ => True) (create false true)
      [.readable 4096 [.data 1 [.rights [7]] false,.again] true,.close,.dispatch .closed false] s ∧
      s.state = .closed ∧ s.installed = [7] ∧ s.passed = [] ∧ s.closed = [] :=
  ⟨Exec.end_of_drive (by decide +kernel),Exec.end_of_drive (by decide +kernel),
    Exec.end_of_drive (by decide +kernel),Exec.end_of_drive (by decide +kernel)⟩

end FdPassing
end AffiniX
