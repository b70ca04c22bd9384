import AffiniX.ConnectionOwners

/-! When connections are destroyed and their containers change, against what is on the call stack. -/
namespace AffiniX
open Owners Transition Function List Option
namespace Owners.Frame
variable {σ κ : Type}

def destroys : Frame σ κ → Bool
  | .replaceConn _ | .afterGone _ _ | .destroyAll _ _ | .destroyClosed _ | .destroyConn _ _ => true
  | _ => false

def quiet : Frame σ κ → Bool
  | .heTimeout _ _ => false
  | f => !f.destroys

def Apart (f g : Frame σ κ) : Prop := f.destroys → g.member = none

lemma quiet_apart {f : Frame σ κ} (quiet : f.quiet) (g : Frame σ κ) : f.Apart g := by
  intro _
  cases f <;> simp_all [Frame.quiet,Frame.destroys]
end Owners.Frame
namespace Shard
variable {σ κ : Type}

/-- What a step may destroy and change: no connection with a call of its own on the stack, and
no container that a call on the stack loops over. -/
structure Safe (s t : Shard σ κ) : Prop where
  destroyed : ∀ a, s.live a → ¬ t.live a → ∀ f ∈ s.stack, f.member ≠ some a
  modified : ∀ box, t.members box ≠ s.members box → ∀ f ∈ s.stack, f.loop ≠ some box

lemma Safe.of_kept {s t : Shard σ κ} (live : ∀ a, s.live a → t.live a)
    (members : ∀ box, t.members box = s.members box) : Safe s t where
  destroyed a before gone := absurd (live a before) gone
  modified box changed := absurd (members box) changed

lemma Safe.of_calm {s t : Shard σ κ} (calm : ∀ f ∈ s.stack, f.member = none)
    (members : ∀ box, t.members box = s.members box) : Safe s t where
  destroyed a _ _ f member here := by
    rw [calm f member] at here
    cases here
  modified box changed := absurd (members box) changed

structure Inv (s : Shard σ κ) : Prop where
  apart : s.stack.Pairwise Frame.Apart
  pending : ∀ k j, .heTimeout k j ∈ s.stack → (s.client k).pending ≠ []

namespace Inv
variable {s t : Shard σ κ}

lemma pairwise_of_quiet {frames : List (Frame σ κ)} (quiet : ∀ f ∈ frames, f.quiet) : frames.Pairwise Frame.Apart :=
  pairwise_iff_forall_sublist.2 fun sub => Frame.quiet_apart (quiet _ (sub.subset (mem_cons_self ..))) _

lemma of_quiet (quiet : s.stack.all Frame.quiet) : Inv s := by
  have each : ∀ f ∈ s.stack, f.quiet := all_eq_true.1 quiet
  exact ⟨pairwise_of_quiet each,fun k j member => nomatch each _ member⟩

lemma of_calm (calm : ∀ f ∈ s.stack, f.member = none ∧ f.loop = none) : Inv s where
  apart := pairwise_iff_forall_sublist.2 fun sub _ => (calm _ (sub.subset (by simp))).1
  pending k j member := nomatch (calm _ member).2

lemma of_empty (empty : s.stack = []) : Inv s := of_quiet (by rw [empty]; rfl)

variable {f : Frame σ κ}

lemma tail {rest : List (Frame σ κ)} (inv : Inv s) (top : s.stack = f::rest) : Inv { s with stack := rest } where
  apart := (pairwise_cons.1 (top ▸ inv.apart)).2
  pending k j member := inv.pending k j (top ▸ mem_cons_of_mem _ member)

lemma congr (inv : Inv s) (stack : t.stack = s.stack)
    (pending : ∀ k, (t.client k).pending = (s.client k).pending) : Inv t where
  apart := stack ▸ inv.apart
  pending k j member := pending k ▸ inv.pending k j (stack ▸ member)

lemma grow (inv : Inv s) (more : ∃ new, t.stack = new++s.stack ∧ new.all Frame.quiet)
    (pending : ∀ k, (s.client k).pending <+: (t.client k).pending) : Inv t := by
  obtain ⟨new,stack,all⟩ := more
  have quiet : ∀ f ∈ new, f.quiet := all_eq_true.1 all
  constructor
  · rw [stack,pairwise_append]
    exact ⟨pairwise_of_quiet quiet,inv.apart, fun f member g _ => Frame.quiet_apart (quiet f member) g⟩
  intro k j member empty
  rw [stack] at member
  rcases mem_append.1 member with there | there
  · cases quiet _ there
  · exact inv.pending k j there (prefix_nil.1 (empty ▸ pending k))

lemma put (inv : Inv s) (apart : ∀ g ∈ s.stack, f.Apart g)
    (looping : ∀ k j, f = .heTimeout k j → (s.client k).pending ≠ []) : Inv (s.push [f]) where
  apart := pairwise_cons.2 ⟨apart,inv.apart⟩
  pending k j member := by
    rcases mem_cons.1 member with here | there
    · exact looping k j here.symm
    · exact inv.pending k j there

lemma calm {rest : List (Frame σ κ)} (inv : Inv s) (top : s.stack = f::rest)
    (destroys : f.destroys) : ∀ g ∈ rest, g.member = none := by
  have apart : (f::rest).Pairwise Frame.Apart := top ▸ inv.apart
  exact fun g member => (pairwise_cons.1 apart).1 g member destroys
end Inv

structure Extends (s t : Shard σ κ) : Prop where
  live : ∀ a, s.live a → t.live a
  members : ∀ box, t.members box = s.members box
  stack : ∃ new, t.stack = new++s.stack ∧ new.all Frame.quiet

structure Launches (k : κ) (s t : Shard σ κ) : Prop where
  live : ∀ a, s.live a → t.live a
  members : ∀ box, box ≠ .pending k → t.members box = s.members box
  grows : (s.client k).pending <+: (t.client k).pending
  stack : ∃ new, t.stack = new++s.stack ∧ new.all Frame.quiet

namespace Launches
lemma refl (k : κ) (s : Shard σ κ) : Launches k s s := ⟨fun _ => id,fun _ _ => rfl,prefix_rfl,[],rfl,rfl⟩

variable {k : κ} {s t : Shard σ κ}

lemma trans {u : Shard σ κ} (first : Launches k s t) (second : Launches k t u) : Launches k s u := by
  obtain ⟨new,stack,quiet⟩ := first.stack
  obtain ⟨new',stack',quiet'⟩ := second.stack
  refine ⟨fun a => second.live a ∘ first.live a,
    fun box other => (second.members box other).trans (first.members box other),
    first.grows.trans second.grows,new'++new,by rw [stack',stack,append_assoc],?_⟩
  rw [all_append,quiet',quiet]
  rfl

lemma pending (launches : Launches k s t) (k' : κ) : (s.client k').pending <+: (t.client k').pending := by
  by_cases same : k' = k
  · subst same
    exact launches.grows
  have kept : (t.client k').pending = (s.client k').pending :=
    launches.members (.pending k') fun equal => same (Container.pending.inj equal)
  exact kept.symm ▸ prefix_rfl

lemma inv (launches : Launches k s t) (inv : Inv s) : Inv t := inv.grow launches.stack launches.pending

lemma safe (launches : Launches k s t) (idle : ∀ f ∈ s.stack, f.loop ≠ some (.pending k)) : Safe s t where
  destroyed a before gone := absurd (launches.live a before) gone
  modified box changed := by
    by_cases same : box = .pending k
    · subst same
      exact idle
    · exact absurd (launches.members box same) changed
end Launches
namespace Extends
lemma refl (s : Shard σ κ) : Extends s s := ⟨fun _ => id,fun _ => rfl,[],rfl,rfl⟩

variable {s t : Shard σ κ}

lemma trans {u : Shard σ κ} (first : Extends s t) (second : Extends t u) : Extends s u := by
  obtain ⟨new,stack,quiet⟩ := first.stack
  obtain ⟨new',stack',quiet'⟩ := second.stack
  refine ⟨fun a => second.live a ∘ first.live a, fun box => (second.members box).trans (first.members box),
    new'++new,by rw [stack',stack,append_assoc],?_⟩
  rw [all_append,quiet',quiet]
  rfl

lemma launches (more : Extends s t) (k : κ) : Launches k s t where
  live := more.live
  members box _ := more.members box
  grows := by
    have kept : (t.client k).pending = (s.client k).pending := more.members (.pending k)
    exact kept.symm ▸ prefix_rfl
  stack := more.stack

lemma inv (more : Extends s t) (inv : Inv s) : Inv t := by
  refine inv.grow more.stack fun k => ?_
  have kept : (t.client k).pending = (s.client k).pending := more.members (.pending k)
  exact kept.symm ▸ prefix_rfl

lemma under (more : Extends s t) (same : t.stack = s.stack)
    (frames : List (Frame σ κ)) : Extends (s.push frames) (t.push frames) :=
  ⟨more.live,more.members,[],by rw [push,push,same]; rfl,rfl⟩
end Extends
section
variable (s : Shard σ κ)

lemma push_extends {frames : List (Frame σ κ)} (quiet : frames.all Frame.quiet) : Extends s (s.push frames) :=
  ⟨fun _ => id,fun _ => rfl,frames,rfl,quiet⟩

lemma update_live (objects : Nat → Option (ConnObject σ κ)) (a b : Nat) (c : ConnObject σ κ)
    (before : objects b ≠ none) : update objects a (some c) b ≠ none := by
  by_cases same : b = a
  · rw [same,update_self]
    nofun
  · rwa [update_of_ne same]

lemma setObject_extends (a : Nat) (c : ConnObject σ κ) : Extends s (s.setObject a c) :=
  ⟨fun b => update_live s.objects a b c,fun _ => rfl,[],rfl,rfl⟩

lemma construct_extends (owner : Owner σ κ) (attempt : Bool) : Extends s (s.construct owner attempt) :=
  ⟨fun b => update_live s.objects s.born b _,fun _ => rfl,[],rfl,rfl⟩

lemma after_extends (t : Timer κ) : Extends s (s.after t) := ⟨fun _ => id,fun _ => rfl,[],rfl,rfl⟩

lemma armIdleTimer_extends [DecidableEq κ] (c : ConnObject σ κ) : Extends s (s.armIdleTimer c) := by
  unfold armIdleTimer
  split
  · split
    · exact ⟨fun _ => id,fun _ => rfl,[],rfl,rfl⟩
    · exact .refl s
  · exact .refl s

lemma notifyShutdown_extends (sv : σ) (j : Nat) : Extends s (s.notifyShutdown sv j) := by
  unfold notifyShutdown
  split
  · exact push_extends s rfl
  · exact .refl s

lemma foldl_destroy (objects : List Nat) :
    (objects.foldl destroy s).stack = s.stack ∧ ∀ box, (objects.foldl destroy s).members box = s.members box := by
  induction objects generalizing s with
  | nil => exact ⟨rfl,fun _ => rfl⟩
  | cons a _ ih => exact ih (s.destroy a)
end
section
variable [DecidableEq κ] (s : Shard σ κ)

lemma setClient_extends (k : κ) {f : TcpClient → TcpClient}
    (same : (f (s.client k)).pending = (s.client k).pending) : Extends s (s.setClient k f) := by
  refine ⟨fun _ => id,?_,[],rfl,rfl⟩
  rintro (sv | k')
  · rfl
  by_cases here : k' = k
  · subst here
    simpa [members,setClient] using same
  · simp [members,setClient,update_of_ne here]

lemma close_extends (a : Nat) (reason : CloseReason) : Extends s (s.close a reason) := by
  unfold close
  split
  · exact .refl s
  next =>
  split
  · exact .refl s
  refine ⟨fun b => update_live s.objects a b _,fun _ => rfl,_,rfl,?_⟩
  split <;> rfl

lemma shutdownWrite_extends (a : Nat) : Extends s (s.shutdownWrite a) := by
  unfold shutdownWrite
  split
  · exact .refl s
  split
  · exact (setObject_extends s a _).trans (armIdleTimer_extends _ _)
  · exact .refl s

lemma openConn_extends (k : κ) (built : Bool) : Extends s (s.openConn k built) := by
  unfold openConn
  split
  · exact ((construct_extends s _ _).trans (setClient_extends _ k rfl)).trans (push_extends _ rfl)
  · exact push_extends s rfl

lemma replaceOrOpen_cases (k : κ) (built : Bool) : Extends s (s.replaceOrOpen k built) ∨ (s.client k).conn ≠ none ∧
    Extends (s.push [.replaceConn k]) (s.replaceOrOpen k built) := by
  unfold replaceOrOpen
  split
  next a held =>
    refine .inr ⟨?_,close_extends _ a _⟩
    rw [held]
    nofun
  · exact .inl (openConn_extends s k built)

lemma connectNext_cases (k : κ) (built : Bool) (sockets : List Bool) : Extends s (connectNext k built sockets s) ∨
    (s.client k).conn ≠ none ∧ Extends (s.push [.replaceConn k]) (connectNext k built sockets s) := by
  have advance (s : Shard σ κ) (next : Shard σ κ → Shard σ κ)
      (cases : ∀ t, Extends t (next t) ∨ (t.client k).conn ≠ none ∧ Extends (t.push [.replaceConn k]) (next t)) :
      let t := s.setClient k fun c => { c with addrIdx := c.addrIdx+1 }
      Extends s (next t) ∨ (s.client k).conn ≠ none ∧ Extends (s.push [.replaceConn k]) (next t) := by
    intro t
    have moved : Extends s t := setClient_extends s k rfl
    have conn : (t.client k).conn = (s.client k).conn := by simp [t,setClient]
    rcases cases t with more | ⟨held,more⟩
    · exact .inl (moved.trans more)
    · exact .inr ⟨conn ▸ held,(moved.under rfl _).trans more⟩
  induction sockets generalizing s with
  | nil =>
    rw [connectNext]
    split
    · exact .inl (push_extends s rfl)
    · exact advance s (fun t => t.replaceOrOpen k built) fun t => replaceOrOpen_cases t k built
  | cons ok rest ih =>
    rw [connectNext]
    split
    · exact .inl (push_extends s rfl)
    cases ok with
    | false => exact advance s (connectNext k built rest) ih
    | true => exact advance s (fun t => t.replaceOrOpen k built) fun t => replaceOrOpen_cases t k built

omit [DecidableEq κ] in
lemma heAttemptDone_launches (k : κ) {launch : Shard σ κ → Shard σ κ}
    (launches : ∀ t, Launches k t (launch t)) : Launches k s (heAttemptDone k launch s) := by
  unfold heAttemptDone
  split
  · exact .refl k s
  split
  · exact launches s
  · exact (push_extends s rfl).launches k

lemma attempt_launches (k : κ) : Launches k s (((s.construct (.client k) true).setClient k fun c =>
    { c with pending := c.pending++[s.born] }).push [.setState k .connecting,.submitAttempt s.born]) := by
  refine ⟨fun b => update_live s.objects s.born b _,?_,?_,_,rfl,rfl⟩
  · rintro (sv | k') other
    · rfl
    have away : k' ≠ k := fun same => other (by rw [same])
    simp [members,setClient,push,construct,update_of_ne away]
  · simp [setClient,push,construct]

lemma heLaunch_launches (k : κ) (sockets : List Bool) : Launches k s (heLaunch k sockets s) := by
  induction sockets generalizing s with
  | nil =>
    rw [heLaunch]
    split
    · exact .refl k s
    · exact ((setClient_extends s k rfl).launches k).trans (attempt_launches _ k)
  | cons ok _ ih =>
    rw [heLaunch]
    split
    · exact .refl k s
    cases ok with
    | false => exact ((setClient_extends s k rfl).launches k).trans (heAttemptDone_launches _ k ih)
    | true => exact ((setClient_extends s k rfl).launches k).trans (attempt_launches _ k)

lemma heBegin_launches (k : κ) (i : Inputs) : Launches k s (s.heBegin k i) := by
  have armed : Extends s (((s.setClient k fun c =>
      { c with heWon := false, heNext := 0, heAddrs := c.addrs }).after (.heDeadline k)).push [.armStagger k]) :=
    ((setClient_extends s k rfl).trans (after_extends _ _)).trans (push_extends _ rfl)
  exact (armed.launches k).trans (heLaunch_launches _ k i.sockets)

lemma beginConnect_cases (k : κ) (i : Inputs) : Launches k s (s.beginConnect k i) ∨ (s.client k).conn ≠ none ∧
    Extends (s.push [.replaceConn k]) (s.beginConnect k i) := by
  have rewound := setClient_extends s k (f := fun c => { c with addrIdx := 0 }) rfl
  unfold beginConnect
  split
  · exact .inl ((rewound.launches k).trans (heBegin_launches _ k i))
  rcases connectNext_cases (s.setClient k fun c => { c with addrIdx := 0 }) k i.built i.sockets with more | ⟨held,more⟩
  · exact .inl ((rewound.trans more).launches k)
  refine .inr ⟨?_,(rewound.under rfl _).trans more⟩
  simpa [setClient] using held

lemma heTimeout_inv (k : κ) (j : Nat) (inv : Inv s) : Inv (s.heTimeout k j) := by
  unfold heTimeout
  split
  next a found =>
    refine (close_extends _ a _).inv (inv.put (fun g _ => nofun) ?_)
    intro _ _ same
    cases same
    intro empty
    rw [empty] at found
    cases found
  · exact inv

lemma heTimeout_kept (k : κ) (j : Nat) : (∀ a, s.live a → (s.heTimeout k j).live a) ∧
    ∀ box, (s.heTimeout k j).members box = s.members box := by
  unfold heTimeout
  split
  next a _ =>
    have closed := close_extends (s.push [.heTimeout k (j+1)]) a .connectFailed
    exact ⟨closed.live,closed.members⟩
  · exact ⟨fun _ => id,fun _ => rfl⟩

lemma destroyConn_members (k : κ) (box : Container σ κ) : (s.destroyConn k).members box = s.members box := by
  unfold destroyConn
  split
  · rfl
  · exact (setClient_extends _ k rfl).members box

lemma destroyConn_stack (k : κ) : (s.destroyConn k).stack = s.stack := by
  unfold destroyConn
  split <;> rfl

lemma heWin_stack (k : κ) (id : Handle) : ∃ new, (s.heWin k id).stack = new++s.stack ∧ new.all Frame.quiet := by
  unfold heWin
  split
  · exact ⟨[],rfl,rfl⟩
  split
  · exact (close_extends s _ _).stack
  · exact ⟨_,rfl,rfl⟩

lemma start_stack (a : Nat) : ∃ new, (s.start a).stack = new++s.stack ∧ new.all Frame.quiet := by
  unfold start
  split
  · exact ⟨[],rfl,rfl⟩
  next c _ =>
  simp only
  split
  · exact ⟨[.app,.start a],rfl,rfl⟩
  next k _ =>
  split
  · obtain ⟨new,stack,quiet⟩ := heWin_stack ((s.setObject a { c with state := .established }).push [.start a]) k c.id
    exact ⟨new++[.start a],by rw [stack,append_assoc]; rfl,by rw [all_append,quiet]; rfl⟩
  · exact ⟨[.setState k .connected,.app,.start a],rfl,rfl⟩

lemma onCompletion_inv (a : Nat) (c : ConnObject σ κ) (op : Op) (inv : Inv s)
    (idle : s.stack = []) : Inv (s.onCompletion a c op) := by
  have entered : Inv (s.push [.onCompletion a .done]) := (push_extends s rfl).inv inv
  unfold onCompletion
  cases op <;> simp only
  case connected =>
    split
    · obtain ⟨_,stack,quiet⟩ := start_stack (s.push [.onCompletion a .done]) a
      refine .of_quiet ?_
      rw [stack,push,idle,all_append,quiet]
      rfl
    · exact entered
  case writable => exact (push_extends _ rfl).inv entered
  case recvData =>
    split
    · exact (push_extends s rfl).inv inv
    · exact entered
  case sendError => exact (close_extends _ _ _).inv entered
  case connectError | recvFin | recvError | retryOverflow =>
    split
    · exact (close_extends _ _ _).inv entered
    · exact entered
  all_goals exact entered

lemma onRecv_extends (a : Nat) (c : ConnObject σ κ) (point : CompletionPoint)
    (reading : Reading) : Extends s (s.onRecv a c point reading) := by
  unfold onRecv
  cases point with
  | fds =>
    simp only
    split
    · exact push_extends s rfl
    · exact (armIdleTimer_extends s c).trans (push_extends _ rfl)
  | parse =>
    cases reading with
    | fds | needMore => exact .refl s
    | overflow => exact (push_extends s rfl).trans (close_extends _ _ _)
    | batch | held | failed => exact push_extends s rfl
  | full =>
    simp only
    split
    · exact push_extends s rfl
    · exact .refl s
  | failed => exact (push_extends s rfl).trans (close_extends _ _ _)
  | done => exact .refl s

lemma beginConnect_inv (k : κ) (i : Inputs) (idle : s.stack = []) : Inv (s.beginConnect k i) := by
  have inv : Inv s := .of_empty idle
  rcases beginConnect_cases s k i with launches | ⟨_,more⟩
  · exact launches.inv inv
  · exact more.inv (inv.put (by rw [idle]; nofun) nofun)

lemma fireTimer_inv (i : Inputs) (timer : Timer κ) (idle : s.stack = []) : Inv (s.fireTimer i timer) := by
  have inv : Inv s := .of_empty idle
  cases timer with
  | idle =>
    rw [fireTimer]
    split
    · exact inv
    · exact (close_extends s _ _).inv inv
  | connectTimeout =>
    rw [fireTimer]
    split
    · exact inv
    split
    · exact (close_extends s _ _).inv inv
    · exact inv
  | reconnect k => exact beginConnect_inv s k i idle
  | stagger k => exact (heLaunch_launches _ k i.sockets).inv ((push_extends s rfl).inv inv)
  | heDeadline k => exact heTimeout_inv _ k 0 ((setClient_extends s k rfl).inv inv)
  | app => exact (push_extends s rfl).inv inv

lemma startClient_spec (k : κ) (how : Resolution) (i : Inputs) (inv : Inv s) :
    Inv (s.startClient k how i) ∧ Safe s (s.startClient k how i) := by
  unfold startClient
  split
  · exact ⟨inv,.of_kept (fun _ => id) fun _ => rfl⟩
  next fresh =>
  simp only [not_or,not_not,Bool.not_eq_true] at fresh
  obtain ⟨conn,_,empty,_⟩ := fresh
  have idle : ∀ f ∈ s.stack, f.loop ≠ some (.pending k) := by
    intro f member looping
    cases f <;> cases looping
    exact inv.pending k _ member empty
  cases how with
  | failed => exact ⟨inv,.of_kept (fun _ => id) fun _ => rfl⟩
  | later =>
    have more : Extends s (s.push [.setState k .connecting,.resolve k]) := push_extends s rfl
    exact ⟨more.inv inv,.of_kept more.live more.members⟩
  | addrs n =>
    have set := setClient_extends s k (f := fun c => { c with addrs := n }) rfl
    rcases beginConnect_cases (s.setClient k fun c => { c with addrs := n }) k i with launches | ⟨held,_⟩
    · have launches := (set.launches k).trans launches
      exact ⟨launches.inv inv,launches.safe idle⟩
    refine absurd ?_ held
    simpa [setClient] using conn

lemma foldl_shutdownWrite_extends (objects : List Nat) : Extends s (objects.foldl shutdownWrite s) := by
  induction objects generalizing s with
  | nil => exact .refl s
  | cons a _ ih => exact (shutdownWrite_extends s a).trans (ih _)

lemma apiCall_spec {t : Shard σ κ} (c : ApiCall σ κ) (inv : Inv s) (taken : s.apiCall c = some t) :
    Inv t ∧ Safe s t := by
  have kept {t : Shard σ κ} (more : Extends s t) : Inv t ∧ Safe s t := ⟨more.inv inv,.of_kept more.live more.members⟩
  cases c with
  | close a reason =>
    obtain ⟨_,rfl⟩ := enabled taken
    exact kept (close_extends s a reason)
  | overflow a =>
    obtain ⟨c,_,rfl⟩ := map_eq_some_iff.1 taken
    split
    · exact kept (close_extends s a _)
    · exact kept (.refl s)
  | shutdownWrite a =>
    obtain ⟨_,rfl⟩ := enabled taken
    exact kept (shutdownWrite_extends s a)
  | enableCoro a =>
    obtain ⟨c,_,rfl⟩ := map_eq_some_iff.1 taken
    exact kept (setObject_extends s a _)
  | startClient k how i =>
    cases taken
    exact startClient_spec s k how i inv
  | notifyShutdown sv =>
    cases taken
    exact kept (notifyShutdown_extends s sv 0)
  | halfCloseAll =>
    cases taken
    exact kept (foldl_shutdownWrite_extends s _)
  | defer =>
    cases taken
    exact kept ⟨fun _ => id,fun _ => rfl,[],rfl,rfl⟩
  | after =>
    cases taken
    exact kept (after_extends s _)
end

def listed (s : Shard σ κ) (id : Handle) : Owner σ κ → Bool
  | .server sv => ((s.server sv).conns.find? (·.1 = id)).isSome
  | .client k => (s.client k).conn.any (s.hasId id) || (s.findPending k id).isSome ||
      ((s.client k).closing.find? (s.hasId id)).isSome

section
variable [DecidableEq σ] [DecidableEq κ] (s : Shard σ κ)

lemma onConnGone_unlisted {owner : Owner σ κ} {id : Handle} (reason : CloseReason) (i : Inputs)
    (unlisted : s.listed id owner = false) : s.onConnGone owner id reason i = s := by
  cases owner with
  | server =>
    rw [listed,isSome_eq_false_iff,isNone_iff_eq_none] at unlisted
    rw [onConnGone,serverGone,unlisted]
  | client =>
    simp only [listed,Bool.or_eq_false_iff,isSome_eq_false_iff, isNone_iff_eq_none] at unlisted
    obtain ⟨⟨conn,pending⟩,closing⟩ := unlisted
    simp [onConnGone,clientGone,conn,pending,closing]

lemma onConnGone_inv (owner : Owner σ κ) (id : Handle) (reason : CloseReason) (i : Inputs)
    (idle : s.stack = []) : Inv (s.onConnGone owner id reason i) := by
  have after (t : Shard σ κ) (k : κ) (stack : t.stack = s.stack) : Inv (t.push [.afterGone k reason]) :=
    (Inv.of_empty (stack.trans idle)).put (by rw [stack,idle]; nofun) nofun
  cases owner with
  | server =>
    rw [onConnGone,serverGone]
    split <;> exact .of_empty idle
  | client k =>
    rw [onConnGone,clientGone]
    split
    · refine after _ k ?_
      unfold destroyConn
      split <;> rfl
    split
    · exact (heAttemptDone_launches _ k fun t => heLaunch_launches t k _).inv (after _ k rfl)
    split
    · exact after _ k rfl
    · exact .of_empty idle

lemma onAccept_inv (sv : σ) (built : Bool) (idle : s.stack = []) : Inv (s.onAccept sv built) := by
  unfold onAccept
  split
  · refine .of_quiet ?_
    obtain ⟨new,stack,quiet⟩ := start_stack ((s.construct (.server sv) false).setServer sv fun v => { v with
        conns := (s.sinks.nextHandle,s.born)::v.conns.filter (·.1 ≠ s.sinks.nextHandle) }) s.born
    have below : new++s.stack = new := by rw [idle,append_nil]
    rw [stack]
    exact below.symm ▸ quiet
  · exact .of_empty idle

variable {t : Shard σ κ}

lemma begin_inv (m : Owners.Move σ κ) (idle : s.stack = []) (taken : s.begin m = some t) : Inv t := by
  have inv : Inv s := .of_empty idle
  cases m with
  | run | stop | poll | postpone | destroy =>
    obtain ⟨_,rfl⟩ := enabled taken
    exact .of_empty idle
  | next =>
    rw [begin,nextStage] at taken
    split at taken
    case h_4 =>
      obtain ⟨_,rfl⟩ := enabled taken
      exact .of_empty idle
    all_goals
      cases taken
      try exact .of_empty idle
  | app =>
    rw [begin] at taken
    split at taken
    · cases taken
    cases taken
    exact (push_extends s rfl).inv inv
  | resolved k addrs i =>
    obtain ⟨_,rfl⟩ := enabled taken
    cases addrs with
    | none => exact ((setClient_extends s k rfl).trans (push_extends _ rfl)).inv inv
    | some => exact beginConnect_inv _ k i idle
  | fire j i =>
    rw [begin] at taken
    split at taken
    · obtain ⟨timer,_,rfl⟩ := map_eq_some_iff.1 taken
      exact fireTimer_inv _ i timer idle
    · cases taken
  | complete _ op =>
    rw [begin] at taken
    split at taken
    · obtain ⟨a,_,taken⟩ := bind_eq_some_iff.1 taken
      obtain ⟨c,_,taken⟩ := bind_eq_some_iff.1 taken
      cases taken
      exact onCompletion_inv s a c op inv idle
    · cases taken
  | accept sv built =>
    obtain ⟨_,rfl⟩ := enabled taken
    exact onAccept_inv s sv built idle
  | deferred i =>
    rw [begin] at taken
    split at taken
    · obtain ⟨task,_,rfl⟩ := map_eq_some_iff.1 taken
      cases task with
      | app => exact (push_extends _ rfl).inv (.of_empty idle)
      | gone owner id reason => exact onConnGone_inv _ owner id reason i idle
    · cases taken
  | deleteServer =>
    obtain ⟨_,rfl⟩ := enabled taken
    exact .of_calm (by simp [push,setServer,idle,Frame.member,Frame.loop])
  | deleteClient =>
    obtain ⟨_,rfl⟩ := enabled taken
    exact .of_calm (by simp [push,setClient,idle,Frame.member,Frame.loop])
  | call | ret | throws | resume => cases taken

def Deferring (s : Shard σ κ) (_ : Owners.Move σ κ) : Prop := match s.stack with
  | .close a _ .notify::_ => s.running ∨ (s.objects a).all fun c => !s.listed c.id c.owner
  | _ => True

instance (m : Owners.Move σ κ) : Decidable (s.Deferring m) := by
  unfold Deferring
  split <;> infer_instance

lemma teardown_extends (a : Nat) (c : ConnObject σ κ) (reason : CloseReason) (point : ClosePoint)
    (i : Inputs) (deferring : point = .notify → s.running ∨ s.listed c.id c.owner = false) :
    Extends s (s.teardown a c reason point i) := by
  cases point with
  | handled =>
    have closed : Extends s { s.setObject a { c with state := .closed } with
        sinks := s.sinks.release c.id } :=
      ⟨fun b => update_live s.objects a b _,fun _ => rfl,[],rfl,rfl⟩
    refine closed.trans (push_extends _ ?_)
    split <;> rfl
  | sendWaiter =>
    refine push_extends s ?_
    split <;> rfl
  | notify =>
    rw [teardown]
    split
    · exact ⟨fun _ => id,fun _ => rfl,[],rfl,rfl⟩
    next stopped =>
    have unlisted : s.listed c.id c.owner = false := (deferring rfl).resolve_left stopped
    rw [onConnGone_unlisted (s.push _) reason i unlisted]
    exact push_extends s rfl
  | notified => exact .refl s

lemma resume_spec {f : Frame σ κ} {rest : List (Frame σ κ)} (i : Inputs)
    (inv : Inv s) (top : s.stack = f::rest) (m : Owners.Move σ κ) (deferring : s.Deferring m)
    (taken : resume { s with stack := rest } i f = some t) : Inv t ∧ Safe s t := by
  have below := inv.tail top
  have kept {t : Shard σ κ} (more : Extends { s with stack := rest } t) : Inv t ∧ Safe s t :=
    ⟨more.inv below,.of_kept more.live more.members⟩
  -- calls that destroy are put back on the stack, or act, only over calls of no connection
  have again {t : Shard σ κ} {g : Frame σ κ} (destroys : f.destroys) (plain : g.quiet = false → g.destroys)
      (more : Extends ({ s with stack := rest }.push [g]) t) : Inv t ∧ Safe s t := by
    refine ⟨more.inv (below.put ?_ ?_),.of_kept more.live more.members⟩
    · exact fun h member _ => inv.calm top destroys h member
    rintro k j rfl
    cases plain rfl
  have calm (destroys : f.destroys) : ∀ g ∈ s.stack, g.member = none := by
    intro g member
    rw [top] at member
    rcases mem_cons.1 member with rfl | there
    · cases g <;> first | rfl | cases destroys
    · exact inv.calm top destroys g there
  cases f with
  | app => cases taken
  | onCompletion a point =>
    cases point with
    | done =>
      cases taken
      exact kept (.refl _)
    | fds | parse | full | failed =>
      obtain ⟨c,_,rfl⟩ := map_eq_some_iff.1 taken
      exact kept (onRecv_extends _ a c _ _)
  | start =>
    obtain ⟨c,_,rfl⟩ := map_eq_some_iff.1 taken
    exact kept (armIdleTimer_extends _ c)
  | close a reason point =>
    cases point with
    | notified =>
      cases taken
      exact kept (.refl _)
    | handled | sendWaiter =>
      obtain ⟨c,_,rfl⟩ := map_eq_some_iff.1 taken
      exact kept (teardown_extends _ a c reason _ i nofun)
    | notify =>
      obtain ⟨c,held,rfl⟩ := map_eq_some_iff.1 taken
      refine kept (teardown_extends _ a c reason _ i fun _ => ?_)
      rw [Deferring,top] at deferring
      have held : s.objects a = some c := held
      change s.running ∨ s.listed c.id c.owner = false
      simpa [held] using deferring
  | notifyShutdown sv j =>
    cases taken
    exact kept (notifyShutdown_extends _ sv j)
  | heTimeout k j =>
    cases taken
    obtain ⟨live,members⟩ := heTimeout_kept { s with stack := rest } k j
    exact ⟨heTimeout_inv _ k j below,.of_kept live members⟩
  | heWin k losers =>
    cases losers with
    | nil =>
      cases taken
      exact kept ⟨fun _ => id,fun _ => rfl,_,rfl,rfl⟩
    | cons =>
      cases taken
      exact kept (((setClient_extends _ k rfl).trans (push_extends _ rfl)).trans (close_extends _ _ _))
  | setState k =>
    cases taken
    split
    · exact kept (.refl _)
    · exact kept ((setClient_extends _ k rfl).trans (push_extends _ rfl))
  | resolve k =>
    cases taken
    exact kept (setClient_extends _ k rfl)
  | scheduleReconnect =>
    cases taken
    split
    · exact kept (push_extends _ rfl)
    · exact kept (.refl _)
  | armReconnect =>
    cases taken
    exact kept (after_extends _ _)
  | armStagger =>
    cases taken
    split
    · exact kept (.refl _)
    · exact kept (after_extends _ _)
  | submitConnect =>
    obtain ⟨a,_,taken⟩ := bind_eq_some_iff.1 taken
    obtain ⟨c,_,taken⟩ := bind_eq_some_iff.1 taken
    cases taken
    exact kept (after_extends _ _)
  | submitAttempt =>
    obtain ⟨c,_,rfl⟩ := map_eq_some_iff.1 taken
    exact kept (.refl _)
  | replaceConn k =>
    cases taken
    have opened := openConn_extends (destroyConn { s with stack := rest } k) k i.built
    refine ⟨opened.inv (below.congr (destroyConn_stack _ k) fun k' =>
      destroyConn_members _ k (.pending k')),.of_calm (calm rfl) fun box => ?_⟩
    exact (opened.members box).trans (destroyConn_members _ k box)
  | afterGone k =>
    cases taken
    split
    · split
      · rcases connectNext_cases { s with stack := rest } k i.built i.sockets with more | ⟨_,more⟩
        · exact kept more
        · exact again rfl (fun _ => rfl) more
      · exact kept (.refl _)
    split
    · exact kept (push_extends _ rfl)
    · exact kept (.refl _)
  | destroyAll objects closed =>
    cases objects with
    | nil =>
      cases taken
      exact kept (.refl _)
    | cons a others =>
      cases closed with
      | false =>
        cases taken
        exact again rfl (fun _ => rfl) (close_extends _ _ _)
      | true =>
        cases taken
        have put : Inv ({ s with stack := rest }.push [.destroyAll others false]) :=
          (again rfl (fun _ => rfl) (.refl _)).1
        exact ⟨put.congr rfl fun _ => rfl,.of_calm (calm rfl) fun _ => rfl⟩
  | destroyClosed objects =>
    cases taken
    obtain ⟨stack,members⟩ := foldl_destroy { s with stack := rest } objects
    exact ⟨below.congr stack fun k => members (.pending k),.of_calm (calm rfl) members⟩
  | destroyConn k closed =>
    cases closed with
    | false =>
      cases taken
      split
      · exact kept (.refl _)
      · exact again rfl (fun _ => rfl) (close_extends _ _ _)
    | true =>
      cases taken
      exact ⟨below.congr (destroyConn_stack _ k) fun k' => destroyConn_members _ k (.pending k'),
        .of_calm (calm rfl) (destroyConn_members _ k)⟩

lemma step_spec (m : Owners.Move σ κ) (inv : Inv s) (deferring : s.Deferring m)
    (taken : s.step m = some t) : Inv t ∧ Safe s t := by
  rw [step] at taken
  split at taken
  next idle => exact ⟨begin_inv s m idle taken,by rw [idle]; nofun,by rw [idle]; nofun⟩
  next top =>
    split at taken
    · exact apiCall_spec s _ inv taken
    · cases taken
      exact ⟨inv.tail top,.of_kept (fun _ => id) fun _ => rfl⟩
    · split at taken
      · cases taken
      cases taken
      exact ⟨.of_empty rfl,.of_kept (fun _ => id) fun _ => rfl⟩
    · cases taken
  next top =>
  split at taken
  · exact resume_spec s _ inv top _ deferring taken
  · cases taken

/-- If the loop runs whenever an owner is told, no connection is destroyed under a call of its own, and no container
changes under a loop. -/
theorem destruction_deferred {firstGen : Nat} {server : σ → Nat × Bool} {client : κ → Bool × Bool}
    {moves : List (Owners.Move σ κ)} {s t : Shard σ κ} {m : Owners.Move σ κ}
    (run : Exec (Guarded (Via step) Deferring) (create firstGen server client) moves s)
    (deferring : s.Deferring m) (taken : s.step m = some t) : Safe s t := by
  have inv : Inv s := run.invariant Inv
    (fun s m t head inv => (step_spec s m inv head.1 head.2).1) (.of_empty rfl)
  exact (step_spec s m inv deferring taken).2

end

def pair : Shard Unit Unit := create 1 (fun _ => (4,false)) (fun _ => (true,true))

def closedByHandler : List (Owners.Move Unit Unit) :=
  [.poll,.next,.next,.accept () true,.ret,.resume {},.complete ⟨0,1⟩ .recvData,.resume {},
    .resume { reading := .batch false },.call (.close 0 .localClose),.ret,.resume {},.resume {}]

def closedByShutdown : List (Owners.Move Unit Unit) :=
  [.poll,.next,.next,.accept () true,.ret,.resume {},.next,.next,.next,.next,.poll,.app,
    .call (.notifyShutdown ()),.call (.close 0 .localClose),.ret,.resume {},.resume {}]

def timedOut : List (Owners.Move Unit Unit) :=
  [.app,.call (.startClient () (.addrs 2) {}),.resume {},.ret,.resume {},.resume {},.ret,.poll,.next,
    .fire 0 {},.resume {},.resume {}]

theorem handlerClose_deferred : ∃ s t, Exec (Guarded (Via step) Deferring) pair
    (.run::closedByHandler++[.resume {},.ret,.resume {},.next]) s ∧ step s (.deferred {}) = some t ∧
      (s.live 0 ∧ ¬ t.live 0) ∧ Safe s t :=
  Exec.stepped_of_drive (P := fun s t => s.Deferring (.deferred {}) ∧ s.live 0 ∧ ¬ t.live 0)
    (by decide +kernel) fun _ _ run taken ⟨deferring,destroyed⟩ =>
      ⟨destroyed,destruction_deferred run deferring taken⟩

/-- A loop driven by `poll_once` alone is not running: connections go under their own calls, and containers change
under loops. -/
theorem pollDriven_destroys :
    (∃ s t, Exec (Guarded (Via step) fun _ _ => True) pair closedByHandler s ∧
      step s (.resume {}) = some t ∧ s.running = false ∧ s.live 0 ∧ ¬ t.live 0 ∧
        .onCompletion 0 .done ∈ s.stack ∧ .onCompletion 0 .done ∈ t.stack) ∧
    (∃ s t, Exec (Guarded (Via step) fun _ _ => True) pair closedByShutdown s ∧
      step s (.resume {}) = some t ∧ s.running = false ∧ t.members (.conns ()) ≠ s.members (.conns ()) ∧
        .notifyShutdown () 1 ∈ s.stack ∧ .notifyShutdown () 1 ∈ t.stack) ∧
    ∃ s t, Exec (Guarded (Via step) fun _ _ => True) pair timedOut s ∧
      step s (.resume {}) = some t ∧ s.running = false ∧ t.members (.pending ()) ≠ s.members (.pending ()) ∧
        .heTimeout () 1 ∈ s.stack ∧ .heTimeout () 1 ∈ t.stack :=
  ⟨Exec.step_of_drive (by decide +kernel),Exec.step_of_drive (by decide +kernel),
    Exec.step_of_drive (by decide +kernel)⟩

end Shard
end AffiniX
