import AffiniX.Transition

/-! The receive contexts that a backend keeps under descriptor numbers. -/
namespace AffiniX
open Option
open Function (update update_of_ne update_self)
namespace RecvContexts
inductive BackendKind
  | epoll
  | uring
deriving DecidableEq

/-- A `RecvmsgCtx`, or the like part of an `FdState`. A field that is set says for which connection. -/
structure RecvCtx where
  tsOn : Option Nat := none
  inbox : Option Nat := none
  msg : Option Nat := none
deriving DecidableEq

structure Conn where
  fd : Nat
  timestamping : Bool
  fdPassing : Bool
  started : Bool
  closed : Bool
end RecvContexts

open RecvContexts in
structure RecvContexts where
  kind : BackendKind
  ctx : Nat → Option RecvCtx
  watched : Nat → Bool
  conns : List Conn
  holder : Nat → Option Nat
  recvs : List (Nat × Option RecvCtx)

namespace RecvContexts
open Transition

def create (kind : BackendKind) : RecvContexts := ⟨kind,fun _ => none,fun _ => false,[],fun _ => none,[]⟩

variable (s : RecvContexts)

def setCtx (fd : Nat) (ctx : Option RecvCtx) : RecvContexts := { s with ctx := update s.ctx fd ctx }

/-- A setter has written to the context. The io_uring backend keeps one that is of use and makes its
message header, the epoll backend keeps it. -/
def store (c fd : Nat) (ctx : RecvCtx) : RecvContexts := match s.kind with
  | .epoll => s.setCtx fd (some ctx)
  | .uring =>
    if ctx.tsOn = none ∧ ctx.inbox = none then s.setCtx fd none
    else s.setCtx fd (some { ctx with msg := some c })

def setTimestamping (c fd : Nat) (on : Bool) : RecvContexts :=
  s.store c fd { (s.ctx fd).getD {} with tsOn := if on then some c else none }

def setFdInbox (c fd : Nat) (given : Bool) : RecvContexts :=
  s.store c fd { (s.ctx fd).getD {} with inbox := if given then some c else none }

/-- `detach`; `room` says that the ring has room for another entry, if need be after a flush. -/
def detach (fd : Nat) (room : Bool) : RecvContexts := match s.kind with
  | .epoll => { s.setCtx fd none with watched := update s.watched fd false }
  | .uring => if s.watched fd ∧ room then { s.setCtx fd none with watched := update s.watched fd false } else s

def setConn (c : Nat) (conn : Conn) : RecvContexts := { s with conns := s.conns.set c conn }

def start (c : Nat) (conn : Conn) : RecvContexts := let s := s.setConn c { conn with started := true }
  let s := if conn.timestamping then s.setTimestamping c conn.fd true else s
  if conn.fdPassing then s.setFdInbox c conn.fd true else s

def submitRecv (c fd : Nat) : RecvContexts := { s with recvs := (c,s.ctx fd)::s.recvs }

def teardown (c : Nat) (conn : Conn) (room : Bool) : RecvContexts :=
  let s := (s.detach conn.fd room).setConn c { conn with closed := true }
  { s with holder := update s.holder conn.fd none }

/-- The events. A socket gets a number that no other has; the application may watch and unwatch any
descriptor. -/
inductive Move
  | connect (fd : Nat) (timestamping fdPassing : Bool)
  | start (c : Nat)
  | recv (c : Nat)
  | watch (fd : Nat)
  | unwatch (fd : Nat) (room : Bool)
  | close (c : Nat) (room : Bool)

def step : Move → Option RecvContexts
  | .connect fd timestamping fdPassing =>
    if s.holder fd = none then
      some { s with
        conns := s.conns++[⟨fd,timestamping,fdPassing,false,false⟩]
        holder := update s.holder fd (some s.conns.length) }
    else none
  | .start c => s.conns[c]?.bind fun conn =>
    if conn.started = false ∧ conn.closed = false then some (s.start c conn) else none
  | .recv c => s.conns[c]?.bind fun conn =>
    if conn.started ∧ conn.closed = false then some (s.submitRecv c conn.fd) else none
  | .watch fd => some { s with watched := update s.watched fd true }
  | .unwatch fd room => some (s.detach fd room)
  | .close c room => s.conns[c]?.bind fun conn => if conn.closed = false then some (s.teardown c conn room) else none

structure RecvCtx.For (ctx : RecvCtx) (c : Nat) : Prop where
  tsOn : ∀ d ∈ ctx.tsOn, d = c
  inbox : ∀ d ∈ ctx.inbox, d = c
  msg : ∀ d ∈ ctx.msg, d = c

/-- A connection of the io_uring backend whose descriptor has a context is torn down while it is watched
and the ring has room. -/
def Forgets : Move → Prop
  | .close c room => s.kind = .uring → ∀ conn ∈ s.conns[c]?, s.ctx conn.fd ≠ none → s.watched conn.fd ∧ room
  | .connect _ _ _ | .start _ | .recv _ | .watch _ | .unwatch _ _ => True

structure Inv (s : RecvContexts) : Prop where
  own : ∀ fd ctx, s.ctx fd = some ctx → ∃ c, s.holder fd = some c ∧ ctx.For c
  held : ∀ c conn, s.conns[c]? = some conn → conn.closed = false → s.holder conn.fd = some c
  used : ∀ c ctx, (c,some ctx) ∈ s.recvs → ctx.For c

section
variable {s t : RecvContexts} {c fd : Nat}

lemma create_inv (kind : BackendKind) : Inv (create kind) := ⟨nofun,nofun,nofun⟩

lemma Inv.setCtx (inv : Inv s) {ctx : Option RecvCtx}
    (own : ∀ new ∈ ctx, ∃ c, s.holder fd = some c ∧ new.For c) : Inv (s.setCtx fd ctx) := by
  refine ⟨?_,inv.held,inv.used⟩
  intro fd' new there
  change update s.ctx fd ctx fd' = some new at there
  by_cases same : fd' = fd
  · subst same
    rw [update_self] at there
    exact own new there
  rw [update_of_ne same] at there
  exact inv.own fd' new there

lemma Inv.forget (inv : Inv s) : Inv (s.setCtx fd none) := inv.setCtx nofun

lemma Inv.getD (inv : Inv s) (holds : s.holder fd = some c) : ((s.ctx fd).getD {}).For c := by
  cases there : s.ctx fd with
  | none => exact ⟨nofun,nofun,nofun⟩
  | some ctx =>
    obtain ⟨_,holds',own⟩ := inv.own fd ctx there
    rw [holds] at holds'
    cases holds'
    exact own

lemma store_inv {ctx : RecvCtx} (inv : Inv s) (holds : s.holder fd = some c) (own : ctx.For c) :
    Inv (s.store c fd ctx) := by
  unfold store
  split
  · refine inv.setCtx ?_
    rintro _ ⟨⟩
    exact ⟨c,holds,own⟩
  split
  · exact inv.forget
  refine inv.setCtx ?_
  rintro _ ⟨⟩
  exact ⟨c,holds,own.tsOn,own.inbox,fun d same => (mem_some.1 same).symm⟩

lemma store_holder (s : RecvContexts) (c fd : Nat) (ctx : RecvCtx) : (s.store c fd ctx).holder = s.holder := by
  unfold store
  split
  · rfl
  · split <;> rfl

lemma eq_of_mem_ite {on : Bool} : ∀ d ∈ (if on then some c else none : Option Nat), d = c := by
  cases on with
  | true => exact fun d same => (mem_some.1 same).symm
  | false => nofun

lemma setTimestamping_inv (inv : Inv s) (holds : s.holder fd = some c) (on : Bool) :
    Inv (s.setTimestamping c fd on) := by
  have before := inv.getD holds
  exact store_inv inv holds ⟨eq_of_mem_ite,before.inbox,before.msg⟩

lemma setFdInbox_inv (inv : Inv s) (holds : s.holder fd = some c) (given : Bool) : Inv (s.setFdInbox c fd given) := by
  have before := inv.getD holds
  exact store_inv inv holds ⟨before.tsOn,eq_of_mem_ite,before.msg⟩

lemma detach_inv (inv : Inv s) (room : Bool) : Inv (s.detach fd room) := by
  have forgotten : Inv (s.setCtx fd none) := inv.forget
  unfold detach
  split
  · exact ⟨forgotten.own,inv.held,inv.used⟩
  split
  · exact ⟨forgotten.own,inv.held,inv.used⟩
  · exact inv

lemma Inv.setConn (inv : Inv s) {conn new : Conn} (there : s.conns[c]? = some conn) (number : new.fd = conn.fd)
    (closed : new.closed = false → conn.closed = false) : Inv (s.setConn c new) := by
  refine ⟨inv.own,?_,inv.used⟩
  intro c' conn' there' opened
  rw [RecvContexts.setConn,List.getElem?_set] at there'
  split at there'
  next same =>
    subst same
    split at there'
    · cases there'
      rw [number]
      exact inv.held c conn there (closed opened)
    · cases there'
  · exact inv.held c' conn' there' opened

lemma start_inv {conn : Conn} (inv : Inv s) (there : s.conns[c]? = some conn)
    (opened : conn.closed = false) : Inv (s.start c conn) := by
  have holds : s.holder conn.fd = some c := inv.held c conn there opened
  have begun : Inv (s.setConn c { conn with started := true }) := inv.setConn there rfl id
  have stamped : ∃ u, u = (if conn.timestamping then
      (s.setConn c { conn with started := true }).setTimestamping c conn.fd true
      else s.setConn c { conn with started := true }) ∧ Inv u ∧ u.holder conn.fd = some c := by
    refine ⟨_,rfl,?_⟩
    split
    · refine ⟨setTimestamping_inv begun holds true,?_⟩
      rw [setTimestamping,store_holder]
      exact holds
    · exact ⟨begun,holds⟩
  obtain ⟨u,same,inv,holds⟩ := stamped
  unfold start
  dsimp only
  rw [← same]
  split
  · exact setFdInbox_inv inv holds true
  · exact inv

lemma detach_ctx (room : Bool)
    (forgets : s.kind = .uring → s.ctx fd ≠ none → s.watched fd ∧ room) : (s.detach fd room).ctx fd = none := by
  unfold detach
  cases kind : s.kind with
  | epoll => exact update_self _ _ _
  | uring =>
    by_cases there : s.ctx fd = none
    · dsimp only
      split
      · exact update_self _ _ _
      · exact there
    dsimp only
    rw [if_pos (forgets kind there)]
    exact update_self _ _ _

lemma detach_holder (s : RecvContexts) (fd : Nat) (room : Bool) : (s.detach fd room).holder = s.holder := by
  unfold detach
  split
  · rfl
  · split <;> rfl

lemma detach_conns (s : RecvContexts) (fd : Nat) (room : Bool) : (s.detach fd room).conns = s.conns := by
  unfold detach
  split
  · rfl
  · split <;> rfl

lemma teardown_inv {conn : Conn} {room : Bool} (inv : Inv s) (there : s.conns[c]? = some conn)
    (opened : conn.closed = false) (forgets : s.kind = .uring → s.ctx conn.fd ≠ none → s.watched conn.fd ∧ room) :
    Inv (s.teardown c conn room) := by
  have holds : s.holder conn.fd = some c := inv.held c conn there opened
  have detached : Inv (s.detach conn.fd room) := detach_inv inv room
  have there' : (s.detach conn.fd room).conns[c]? = some conn := by rw [detach_conns]; exact there
  have marked : Inv ((s.detach conn.fd room).setConn c { conn with closed := true }) :=
    detached.setConn there' rfl nofun
  refine ⟨?_,?_,marked.used⟩
  · intro fd ctx found
    have other : fd ≠ conn.fd := by
      rintro rfl
      have none' : (s.detach conn.fd room).ctx conn.fd = none := detach_ctx room forgets
      cases found.symm.trans none'
    obtain ⟨c',holds',own⟩ := marked.own fd ctx found
    exact ⟨c',(update_of_ne other _ _).trans holds',own⟩
  intro c' conn' found opened'
  have holds' := marked.held c' conn' found opened'
  have other : conn'.fd ≠ conn.fd := by
    intro same
    -- The number leads back to `c`, which is closed.
    have back : (s.detach conn.fd room).holder conn'.fd = some c' := holds'
    rw [same,detach_holder,holds] at back
    cases back
    change ((s.detach conn.fd room).conns.set c { conn with closed := true })[c]? = some conn' at found
    rw [List.getElem?_set_self' ,there'] at found
    cases found
    cases opened'
  exact (update_of_ne other _ _).trans holds'

lemma connect_inv {timestamping fdPassing : Bool} (inv : Inv s) (free : s.holder fd = none) :
    Inv { s with
      conns := s.conns++[⟨fd,timestamping,fdPassing,false,false⟩]
      holder := update s.holder fd (some s.conns.length) } := by
  refine ⟨?_,?_,inv.used⟩
  · intro fd' ctx there
    obtain ⟨c,holds,own⟩ := inv.own fd' ctx there
    have other : fd' ≠ fd := by
      rintro rfl
      rw [free] at holds
      cases holds
    exact ⟨c,(update_of_ne other _ _).trans holds,own⟩
  intro c conn there opened
  rw [List.getElem?_append] at there
  split at there
  · have holds := inv.held c conn there opened
    have other : conn.fd ≠ fd := by
      rintro same
      rw [same,free] at holds
      cases holds
    exact (update_of_ne other _ _).trans holds
  next past =>
  have last : c = s.conns.length := by
    have inside := (List.getElem?_eq_some_iff.1 there).1
    simp at inside
    omega
  subst last
  rw [Nat.sub_self] at there
  cases there
  exact update_self _ _ _

lemma step_inv {m : Move} (inv : Inv s) (forgets : s.Forgets m) (taken : s.step m = some t) : Inv t := by
  cases m with
  | connect fd timestamping fdPassing =>
    obtain ⟨free,rfl⟩ := enabled taken
    exact connect_inv inv free
  | start c =>
    obtain ⟨conn,there,taken⟩ := bind_eq_some_iff.1 taken
    obtain ⟨fresh,rfl⟩ := enabled taken
    exact start_inv inv there fresh.2
  | recv c =>
    obtain ⟨conn,there,taken⟩ := bind_eq_some_iff.1 taken
    obtain ⟨live,rfl⟩ := enabled taken
    refine ⟨inv.own,inv.held,?_⟩
    intro c' ctx used
    rcases List.mem_cons.1 used with now | before
    · obtain ⟨rfl,found⟩ := Prod.mk.inj now
      obtain ⟨d,holds,own⟩ := inv.own conn.fd ctx found.symm
      rw [inv.held c' conn there live.2] at holds
      cases holds
      exact own
    · exact inv.used c' ctx before
  | watch fd =>
    cases taken
    exact ⟨inv.own,inv.held,inv.used⟩
  | unwatch fd room =>
    cases taken
    exact detach_inv inv room
  | close c room =>
    obtain ⟨conn,there,taken⟩ := bind_eq_some_iff.1 taken
    obtain ⟨opened,rfl⟩ := enabled taken
    exact teardown_inv inv there opened fun kind => forgets kind conn there

/-- A receive uses no context, or one that was set for its own connection alone. With epoll this needs no condition. -/
theorem recv_uses_own_context {kind : BackendKind} {moves : List Move}
    (run : Exec (Guarded (Via step) Forgets) (create kind) moves s)
    {ctx : RecvCtx} (used : (c,some ctx) ∈ s.recvs) : ctx.For c := by
  have inv : Inv s := by
    refine run.invariant Inv ?_ (create_inv kind)
    rintro s m t ⟨forgets,taken⟩ inv
    exact step_inv inv forgets taken
  exact inv.used c ctx used

end

instance (s : RecvContexts) (m : Move) : Decidable (s.Forgets m) := match m with
  | .close c _ => inferInstanceAs (Decidable (_ → ∀ conn ∈ s.conns[c]?, _ → _ ∧ _))
  | .connect _ _ _ | .start _ | .recv _ | .watch _ | .unwatch _ _ => .isTrue trivial

def reused : List Move := [.connect 5 false true,.start 0,.recv 0,.close 0 true,.connect 5 false false,.start 1,.recv 1]

theorem reused_forgotten :
    (∃ s, Exec (Guarded (Via step) Forgets) (create .epoll) reused s ∧
      s.recvs.head? = some (1,none) ∧ RecvCtx.For { inbox := some 0 } 0) ∧
    ∃ s, Exec (Guarded (Via step) Forgets) (create .uring) (.watch 5::reused) s ∧
      s.recvs.head? = some (1,none) ∧ RecvCtx.For { inbox := some 0, msg := some 0 } 0 := by
  have epoll : ∃ s, Exec (Guarded (Via step) Forgets) (create .epoll) reused s ∧
      s.recvs.head? = some (1,none) ∧ (0,some { inbox := some 0 }) ∈ s.recvs :=
    Exec.end_of_drive (by decide +kernel)
  have uring : ∃ s, Exec (Guarded (Via step) Forgets) (create .uring) (.watch 5::reused) s ∧
      s.recvs.head? = some (1,none) ∧ (0,some { inbox := some 0, msg := some 0 }) ∈ s.recvs :=
    Exec.end_of_drive (by decide +kernel)
  obtain ⟨s,run,last,first⟩ := epoll
  obtain ⟨s',run',last',first'⟩ := uring
  exact ⟨⟨s,run,last,recv_uses_own_context run first⟩,s',run',last',recv_uses_own_context run' first'⟩

/-- With io_uring it receives with the header and into the array of the first, also if it asks for timestamps of its
own. -/
theorem context_outlives_connection :
    (∃ s, Exec (Guarded (Via step) fun _ _ => True) (create .uring) reused s ∧
      s.recvs.head? = some (1,some { inbox := some 0, msg := some 0 })) ∧
    ∃ s, Exec (Guarded (Via step) fun _ _ => True) (create .uring)
      [.connect 5 false true,.start 0,.close 0 true,.connect 5 true false,.start 1,.recv 1] s ∧
      s.recvs.head? = some (1,some { tsOn := some 1, inbox := some 0, msg := some 1 }) :=
  ⟨Exec.end_of_drive (by decide +kernel),Exec.end_of_drive (by decide +kernel)⟩

end RecvContexts
end AffiniX
