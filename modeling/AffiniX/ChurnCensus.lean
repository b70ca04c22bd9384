import AffiniX.ChurnOwners

/-! What is left in the tables of an event manager after connections have come and gone. -/
namespace AffiniX.Churn
open Transition Function Option HandleTable Finset
variable {σ κ : Type} [DecidableEq σ] [DecidableEq κ]

def Fresh (s : Churn σ κ) (owner : Owner σ κ) : Prop :=
  (∀ a < s.born, ∀ c ∈ s.objects a, c.owner = owner → c.id ≠ s.sinks.nextHandle) ∧
    (owner,s.sinks.nextHandle) ∉ s.deferred

/-- Idle timers are armed for open connections only, a race is won while there is no connection, and generations of
sinks do not come round. -/
def Careful (s : Churn σ κ) : Move σ κ → Prop
  | .armIdleTimer a _ => ∀ c ∈ s.objects a, c.life = .active
  | .heWin k _ => (s.client k).conn = none
  | .accept sv => s.Fresh (.server sv)
  | .connect k | .heLaunch k => s.Fresh (.client k)
  | _ => True

instance (s : Churn σ κ) (owner : Owner σ κ) : Decidable (s.Fresh owner) := instDecidableAnd

instance (s : Churn σ κ) (m : Move σ κ) : Decidable (Careful s m) := match m with
  | .armIdleTimer _ _ => inferInstanceAs (Decidable (∀ c ∈ _, _ = _))
  | .heWin _ _ => inferInstanceAs (Decidable (_ = _))
  | .accept sv => inferInstanceAs (Decidable (s.Fresh (.server sv)))
  | .connect k | .heLaunch k => inferInstanceAs (Decidable (s.Fresh (.client k)))
  | .close _ | .releaseSink _ | .notify _ _ | .gone | .startClient _ | .replace _ | .armTimer _ _
  | .heBegin _ | .armHeTimer _ _ | .fire _ | .bookkeeping => .isTrue trivial

structure Inv (base : Timers) (sinks : HandleTable Nat) (s : Churn σ κ) : Prop where
  timers : TimerInv base s
  sinks : SinkInv sinks s
  owners : OwnerInv s

namespace Inv
variable {base : Timers} {table : HandleTable Nat} {s t : Churn σ κ}
variable {a : Nat} {c : Conn σ κ} {k : κ} {o : Owner σ κ} {id : Handle}

lemma change {d : Conn σ κ} {timers : Timers} (inv : Inv base table s)
    (here : s.objects a = some c) (id : d.id = c.id) (owner : d.owner = c.owner) (told : d.told = c.told)
    (life : d.life = .closed ↔ c.life = .closed)
    (after : TimerInv base ({ s with timers := timers }.setObject a d)) :
    Inv base table ({ s with timers := timers }.setObject a d) :=
  ⟨after,inv.sinks.change here id life rfl rfl rfl,
    inv.owners.change here id owner life.2 (.inl ⟨told,rfl⟩) rfl rfl rfl rfl rfl⟩

lemma regroup (inv : Inv base table s) (after : TimerInv base t) (sinks : t.sinks = s.sinks) (born : t.born = s.born)
    (pool : t.pool = s.pool) (conns : t.conns = s.conns) (rosters : ∀ k, (t.client k).roster.Perm (s.client k).roster)
    (objects : t.objects = s.objects) (deferred : t.deferred = s.deferred) : Inv base table t :=
  ⟨after,inv.sinks.frame sinks born objects,inv.owners.congr born pool conns rosters objects deferred⟩

omit [DecidableEq σ] in
lemma roster_setClient {f : Client → Client} (same : (f (s.client k)).roster.Perm (s.client k).roster)
    (k' : κ) : ((s.setClient k f).client k').roster.Perm (s.client k').roster := by
  change (update s.client k _ k').roster.Perm _
  by_cases here : k' = k
  · rw [here,update_self]
    exact same
  · rw [update_of_ne here]

variable (inv : Inv base table s)
include inv

lemma forget {u : Churn σ κ} {deferred : List (Owner σ κ × Handle)} (forgets : Roll.Forgets { s with deferred := deferred } o id a u)
    (closed : ∀ c, s.objects a = some c → c.life = .closed) (fewer : ∀ x ∈ deferred, x ∈ s.deferred)
    (kept : ∀ x ∈ s.deferred, x ≠ (o,id) → x ∈ deferred) : Inv base table (u.destroy a) := by
  have after := inv.owners.forget forgets fewer kept
  obtain ⟨same,groups,⟨c,here,_,_⟩,_⟩ := forgets
  have here' : u.objects a = some c := by
    rw [same]
    exact here
  have shut := closed c here
  have timers : TimerInv base u := by
    refine inv.timers.relist ?_ ?_ ?_ ?_ groups
    all_goals rw [same]
  have sinks : SinkInv table u := by
    refine inv.sinks.frame ?_ ?_ ?_
    all_goals rw [same]
  refine ⟨timers.destroy here' ?_,sinks.destroy here' shut,after⟩
  rw [shut]
  exact nofun

lemma enroll (fresh : s.Fresh o) (same : t = { s.construct o with conns := t.conns, client := t.client })
    (groups : ∀ k, (t.client k).group = (s.client k).group ∧ (t.client k).heGroup = (s.client k).heGroup)
    (conns : ∀ sv id b, (id,b) ∈ t.conns sv ↔
    (o = .server sv ∧ id = s.sinks.nextHandle ∧ b = s.born) ∨ (id,b) ∈ s.conns sv)
    (rosters : ∀ k b, b ∈ (t.client k).roster ↔ (o = .client k ∧ b = s.born) ∨ b ∈ (s.client k).roster)
    (nodup : ∀ k, (t.client k).roster.Nodup) : Inv base table t := by
  have unborn : s.objects s.born = none := by
    cases there : s.objects s.born with
    | none => rfl
    | some c => exact absurd (inv.sinks.bound _ c there) (Nat.lt_irrefl _)
  let c : Conn σ κ := { id := s.sinks.nextHandle, group := s.timers.makeTimerGroup.1, owner := o }
  have objects : t.objects = update s.objects s.born (some c) := by
    rw [same]
    rfl
  have roll : Roll t := by
    refine inv.owners.toRoll.enroll ?_ ?_ objects ?_ conns rosters nodup
    · intro a d there owner
      exact fresh.1 a (inv.sinks.bound a d there) d there owner
    · rw [same]
      rfl
    rw [same]
    rfl
  refine ⟨(inv.timers.construct unborn o).relist ?_ ?_ ?_ ?_ groups,(inv.sinks.construct o).frame ?_ ?_ ?_,
    inv.owners.enroll roll rfl fresh.2 ?_ objects⟩
  all_goals rw [same]
  rfl

lemma accept (sv : σ) (fresh : s.Fresh (.server sv)) : Inv base table ((s.construct (.server sv)).setConns sv
      ((s.sinks.nextHandle,s.born)::(s.conns sv).filter (·.1 ≠ s.sinks.nextHandle))) := by
  refine inv.enroll fresh rfl (fun _ => ⟨rfl,rfl⟩) ?_ ?_ inv.owners.nodup
  · intro sv' id b
    change (id,b) ∈ update s.conns sv _ sv' ↔ _
    by_cases here : sv' = sv
    · subst here
      rw [update_self,List.mem_cons,Prod.mk.injEq,List.mem_filter]
      apply or_congr
      · simp
      refine ⟨And.left,fun entry => ⟨entry,?_⟩⟩
      obtain ⟨c,there,same,owner⟩ := inv.owners.entries sv' id b entry
      have other := fresh.1 b (inv.sinks.bound b c there) c there owner
      rw [same] at other
      simpa using other
    rw [update_of_ne here]
    have other : (Owner.server sv : Owner σ κ) ≠ .server sv' := by
      rintro ⟨rfl⟩
      exact here rfl
    simp [other]
  · intro k b
    simp
    rfl

lemma attempt (k : κ) (fresh : s.Fresh (.client k)) {f : Client → Client}
    (groups : (f (s.client k)).group = (s.client k).group ∧ (f (s.client k)).heGroup = (s.client k).heGroup)
    (roster : (f (s.client k)).roster.Perm (s.born::(s.client k).roster)) :
    Inv base table ((s.construct (.client k)).setClient k f) := by
  have outside : s.born ∉ (s.client k).roster := by
    intro listed
    obtain ⟨c,here,_⟩ := inv.owners.rosters k _ listed
    exact absurd (inv.sinks.bound _ c here) (Nat.lt_irrefl _)
  have clients (k' : κ) : ((s.construct (.client k)).setClient k f).client k' =
      update s.client k (f (s.client k)) k' := rfl
  refine inv.enroll fresh rfl ?_ ?_ ?_ ?_
  · intro k'
    rw [clients]
    by_cases here : k' = k
    · rw [here,update_self]
      exact groups
    rw [update_of_ne here]
    exact ⟨rfl,rfl⟩
  · intro _ _ b
    simp
    rfl
  · intro k' b
    rw [clients]
    by_cases here : k' = k
    · rw [here,update_self,roster.mem_iff,List.mem_cons]
      simp
    have other : (Owner.client k : Owner σ κ) ≠ .client k' := by
      rintro ⟨rfl⟩
      exact here rfl
    rw [update_of_ne here]
    simp [other]
  intro k'
  rw [clients]
  by_cases here : k' = k
  · rw [here,update_self,roster.nodup_iff,List.nodup_cons]
    exact ⟨outside,inv.owners.nodup k⟩
  rw [update_of_ne here]
  exact inv.owners.nodup k'

lemma releaseSink (here : s.objects a = some c) (closing : c.life = .closing) :
    Inv base table ({ s with sinks := s.sinks.release c.id }.setObject a { c with life := .closed }) := by
  have shut : c.life ≠ .active := by
    rw [closing]
    exact nofun
  exact ⟨inv.timers.still (d := { c with life := .closed }) here shut nofun rfl rfl rfl rfl rfl rfl,
    inv.sinks.releaseSink here closing,
    inv.owners.change (d := { c with life := .closed }) here rfl rfl (fun _ => rfl) (.inl ⟨rfl,rfl⟩)
      rfl rfl rfl rfl rfl⟩

lemma post (here : s.objects a = some c) (closed : c.life = .closed) :
    Inv base table ({ s with deferred := s.deferred++[(c.owner,c.id)] }.setObject a { c with told := true }) := by
  have shut : c.life ≠ .active := by
    rw [closed]
    exact nofun
  exact ⟨inv.timers.still (d := { c with told := true }) here shut shut rfl rfl rfl rfl rfl rfl,
    inv.sinks.change (d := { c with told := true }) here rfl Iff.rfl rfl rfl rfl,
    inv.owners.change (d := { c with told := true }) here rfl rfl id (.inr ⟨closed,rfl,rfl⟩) rfl rfl rfl rfl rfl⟩

lemma tell (here : s.objects a = some c) (closed : c.life = .closed) : Inv base table (s.onConnGone c.owner c.id) := by
  rcases inv.owners.toRoll.onConnGone c.owner c.id with ⟨_,lost⟩ | ⟨b,u,after,forgets⟩
  · exact absurd rfl (lost a c here rfl)
  rw [after]
  refine inv.forget forgets ?_ (fun _ waits => waits) (fun _ waits _ => waits)
  intro d there
  obtain ⟨e,there',owner,own⟩ := forgets.found
  cases there.symm.trans there'
  have same := inv.owners.ids b a d c there here owner own
  subst same
  cases here.symm.trans there
  exact closed

lemma gone {rest : List (Owner σ κ × Handle)} (waiting : s.deferred = (o,id)::rest) :
    Inv base table (Churn.onConnGone { s with deferred := rest } o id) := by
  have fewer : ∀ x ∈ rest, x ∈ s.deferred := by
    intro x later
    rw [waiting]
    exact List.mem_cons_of_mem _ later
  have kept : ∀ x ∈ s.deferred, x ≠ (o,id) → x ∈ rest := by
    intro x waits other
    rw [waiting] at waits
    exact (List.mem_cons.1 waits).resolve_left other
  have roll : Roll { s with deferred := rest } :=
    inv.owners.toRoll.congr rfl rfl rfl (fun _ => .refl _) (fun a c here => ⟨c,here,rfl,rfl⟩)
      fun a c here => ⟨c,here,rfl,rfl⟩
  rcases roll.onConnGone o id with ⟨same,none'⟩ | ⟨a,u,after,forgets⟩
  · rw [same]
    refine ⟨inv.timers.relist rfl rfl rfl rfl fun _ => ⟨rfl,rfl⟩,inv.sinks.frame rfl rfl rfl,roll,?_,?_⟩
    · intro a c here told
      obtain ⟨shut,waits⟩ := inv.owners.told a c here told
      refine ⟨shut,kept _ waits ?_⟩
      intro equal
      rw [Prod.mk.injEq] at equal
      exact none' a c here equal.1 equal.2
    · exact fun a c here waits => inv.owners.waiting a c here (fewer _ waits)
  rw [after]
  refine inv.forget forgets ?_ fewer kept
  intro c here
  obtain ⟨d,there,owner,own⟩ := forgets.found
  cases here.symm.trans there
  have told : c.told = true := by
    apply inv.owners.waiting a c here
    rw [owner,own,waiting]
    exact List.mem_cons_self
  exact (inv.owners.told a c here told).1

lemma replace (conn : (s.client k).conn = some a) (here : s.objects a = some c) (told : c.told = true) :
    Inv base table ((s.setClient k fun c => { c with conn := none }).destroy a) := by
  have listed : a ∈ (s.client k).roster := by simp [Client.roster,conn]
  obtain ⟨d,there,owner⟩ := inv.owners.rosters k a listed
  cases here.symm.trans there
  have forgets : Roll.Forgets s (.client k) c.id a (s.setClient k fun c => { c with conn := none }) :=
    inv.owners.toRoll.forget here owner (by simp [Client.roster,conn]) ⟨rfl,rfl⟩
  refine inv.forget forgets ?_ (fun _ waits => waits) (fun _ waits _ => waits)
  intro d there
  cases here.symm.trans there
  exact (inv.owners.told a c here told).1

lemma fire (fired : s.fire id = some t) : Inv base table t := by
  have after := inv.timers.fire fired
  obtain ⟨_,taken⟩ := ite_none_right_eq_some.1 fired
  have quiet (timers : Timers) (after : TimerInv base { s with timers := timers }) :
      Inv base table { s with timers := timers } :=
    inv.regroup after rfl rfl rfl rfl (fun _ => .refl _) rfl rfl
  split at taken
  · cases taken
  · cases taken
    exact quiet _ after
  split at taken
  next here =>
    split at taken
    next active =>
      cases taken
      exact inv.change here rfl rfl rfl (by simp [active]) after
    · cases taken
      exact quiet _ after
  · cases taken
    exact quiet _ after

lemma startClient (k : κ) : Inv base table ((s.makeTimerGroup (.client k)).setClient k fun c =>
    { c with group := s.timers.makeTimerGroup.1 }) := by
  obtain ⟨_,_,held,maker,_⟩ := inv.timers.newGroup (.client k)
  have made := inv.timers.makeTimerGroup (.client k)
  exact inv.regroup (made.setClient (fun _ => ⟨held,maker⟩) (made.clients k).2) rfl rfl rfl rfl
    (roster_setClient (.refl _)) rfl rfl

lemma heBegin (k : κ) : Inv base table ((s.makeTimerGroup (.client k)).setClient k fun c =>
    { c with heGroup := s.timers.makeTimerGroup.1 }) := by
  obtain ⟨_,_,held,maker,_⟩ := inv.timers.newGroup (.client k)
  have made := inv.timers.makeTimerGroup (.client k)
  exact inv.regroup (made.setClient (made.clients k).1 (fun _ => ⟨held,maker⟩)) rfl rfl rfl rfl
    (roster_setClient (.refl _)) rfl rfl

lemma heWin {w : Nat} (free : (s.client k).conn = none)
    (won : w ∈ (s.client k).pending) : Inv base table (s.heWin k w) := by
  have cancelled := inv.timers.cancelClientGroup (inv.timers.clients k).2
  refine inv.regroup (cancelled.setClient (cancelled.clients k).1 nofun) rfl rfl rfl rfl (roster_setClient ?_) rfl rfl
  change (w::((s.client k).closing++(s.client k).pending.erase w)).Perm (s.client k).roster
  rw [Client.roster,free]
  have moved := (List.perm_cons_erase won).append_right (s.client k).closing
  exact (List.perm_append_comm.cons w).trans moved.symm

lemma step {m : Move σ κ} (careful : Careful s m) (taken : s.step m = some t) : Inv base table t := by
  cases m with
  | accept sv =>
    cases taken
    exact inv.accept sv careful
  | armIdleTimer a delay =>
    obtain ⟨c,here,taken⟩ := bind_eq_some_iff.1 taken
    have active := careful c here
    cases owner : c.owner with
    | server =>
      rw [owner] at taken
      cases taken
      exact inv.change here rfl rfl rfl Iff.rfl (inv.timers.armIdleTimer delay here active)
    | client =>
      rw [owner] at taken
      cases taken
  | close =>
    obtain ⟨c,here,taken⟩ := bind_eq_some_iff.1 taken
    obtain ⟨active,rfl⟩ := enabled taken
    exact inv.change here rfl rfl rfl (by simp [active]) (inv.timers.close here active)
  | releaseSink =>
    obtain ⟨c,here,taken⟩ := bind_eq_some_iff.1 taken
    obtain ⟨closing,rfl⟩ := enabled taken
    exact inv.releaseSink here closing
  | notify =>
    obtain ⟨c,here,taken⟩ := bind_eq_some_iff.1 taken
    obtain ⟨⟨closed,_⟩,taken⟩ := ite_none_right_eq_some.1 taken
    split at taken
    · cases taken
      exact inv.post here closed
    cases taken
    exact inv.tell here closed
  | gone =>
    rw [Churn.step] at taken
    split at taken
    · cases taken
    next waiting =>
    cases taken
    exact inv.gone waiting
  | startClient k =>
    obtain ⟨_,rfl⟩ := enabled taken
    exact inv.startClient k
  | connect k =>
    obtain ⟨free,rfl⟩ := enabled taken
    exact inv.attempt k careful ⟨rfl,rfl⟩ (by simp [Client.roster,free])
  | replace =>
    obtain ⟨a,conn,taken⟩ := bind_eq_some_iff.1 taken
    obtain ⟨c,here,taken⟩ := bind_eq_some_iff.1 taken
    obtain ⟨told,rfl⟩ := enabled taken
    exact inv.replace conn here told
  | armTimer k delay =>
    obtain ⟨valid,rfl⟩ := enabled taken
    exact inv.regroup (inv.timers.armClient delay (inv.timers.clients k).1 valid) rfl rfl rfl rfl
      (fun _ => .refl _) rfl rfl
  | heBegin k =>
    cases taken
    exact inv.heBegin k
  | heLaunch k =>
    cases taken
    refine inv.attempt k careful ⟨rfl,rfl⟩ ?_
    simp only [Client.roster,List.append_assoc]
    exact (List.perm_middle.append_left _).trans List.perm_middle
  | armHeTimer k delay =>
    obtain ⟨valid,rfl⟩ := enabled taken
    exact inv.regroup (inv.timers.armClient delay (inv.timers.clients k).2 valid) rfl rfl rfl rfl
      (fun _ => .refl _) rfl rfl
  | heWin =>
    obtain ⟨won,rfl⟩ := enabled taken
    exact inv.heWin careful won
  | fire => exact inv.fire taken
  | bookkeeping =>
    cases taken
    exact ⟨inv.timers.bookkeeping,inv.sinks.reclaim, inv.owners.congr rfl rfl rfl (fun _ => .refl _) rfl rfl⟩
end Inv
section
variable (s : Churn σ κ)

def Settled : Prop :=
  s.timers.dead = [] ∧ s.deferred = [] ∧ ∀ a < s.born, ∀ c ∈ s.objects a, c.life = .active ∨ c.told = true

instance : Decidable s.Settled := inferInstanceAs (Decidable (_ ∧ _ ∧ _))

def openOf (o : Owner σ κ) : Finset Nat :=
  (range s.born).filter fun a => (s.objects a).any fun c => c.life = .active ∧ c.owner = o

def inUse (i : NodeRef) : Bool := match (s.timers.node i).groupLink with
  | none => false
  | some g =>
    match s.maker g with
    | none => false
    | some (.client _) => true
    | some (.conn a) => (s.objects a).any fun c => c.life = .active ∧ c.group.idx = g

def timersInUse : Nat := (s.timers.timers.aliveSet.filter fun i => s.inUse i).card
end
section
variable {base : Timers} {table : HandleTable Nat} {s t : Churn σ κ}
section
variable (inv : Inv base table s)
include inv

lemma Inv.all_open (settled : s.Settled) {a : Nat} {c : Conn σ κ} (here : s.objects a = some c) : c.life = .active := by
  obtain ⟨_,none',ended⟩ := settled
  rcases ended a (inv.sinks.bound a c here) c here with active | told
  · exact active
  have waits := (inv.owners.told a c here told).2
  rw [none'] at waits
  cases waits

lemma Inv.mem_openOf {a : Nat} {o : Owner σ κ} :
    a ∈ s.openOf o ↔ ∃ c, s.objects a = some c ∧ c.life = .active ∧ c.owner = o := by
  simp only [openOf,mem_filter,mem_range,any_eq_true,decide_eq_true_eq]
  constructor
  · exact fun ⟨_,c,here,open'⟩ => ⟨c,here,open'⟩
  · exact fun ⟨c,here,open'⟩ => ⟨inv.sinks.bound a c here,c,here,open'⟩

lemma Inv.pooled_eq (settled : s.Settled) (o : Owner σ κ) : s.pooled o = s.openOf o := by
  ext a
  rw [mem_pooled inv.sinks.bound,inv.mem_openOf]
  constructor
  · exact fun ⟨c,here,owner⟩ => ⟨c,here,inv.all_open settled here,owner⟩
  · exact fun ⟨c,here,_,owner⟩ => ⟨c,here,owner⟩

lemma Inv.mem_registered (settled : s.Settled) {a : Nat} : a ∈ s.registered ↔ ∃ o, a ∈ s.openOf o := by
  simp only [Churn.mem_registered inv.sinks.bound,inv.mem_openOf]
  constructor
  · exact fun ⟨c,here,_⟩ => ⟨c.owner,c,here,inv.all_open settled here,rfl⟩
  intro ⟨_,c,here,active,_⟩
  refine ⟨c,here,?_⟩
  rw [active]
  exact nofun

lemma Inv.timers_live (counted : base.timers.Counted) (wf : base.timers.Wf)
    (settled : s.Settled) : s.timers.timers.live = base.timers.live+s.timersInUse := by
  have wf' := inv.timers.rest.sound.life.timers
  have own {i : NodeRef} (used : s.inUse i = true) : s.Own i := by
    unfold inUse at used
    split at used
    · contradiction
    next g linked =>
    cases maker : s.maker g with
    | none =>
      rw [maker] at used
      contradiction
    | some m => exact ⟨g,m,linked,maker⟩
  have used {i : NodeRef} (own : s.Own i) : s.inUse i = true := by
    obtain ⟨g,m,linked,maker⟩ := own
    unfold inUse
    rw [linked]
    dsimp only
    rw [maker]
    cases m with
    | client => rfl
    | conn a =>
      obtain ⟨c,here,active,group⟩ := inv.timers.members i g a linked maker
      simp [here,active,group]
  have split : s.timers.timers.aliveSet =
      base.timers.aliveSet ∪ s.timers.timers.aliveSet.filter fun i => s.inUse i := by
    ext i
    rw [mem_union,mem_filter,mem_aliveSet wf',mem_aliveSet wf]
    constructor
    · intro live
      rcases inv.timers.known i live with old | dead | ⟨mine,_⟩
      · exact .inl old
      · rw [settled.1] at dead
        cases dead
      · exact .inr ⟨live,used mine⟩
    rintro (old | ⟨live,_⟩)
    · exact (inv.timers.kept i old).1
    · exact live
  have apart : Disjoint base.timers.aliveSet (s.timers.timers.aliveSet.filter fun i => s.inUse i) := by
    rw [disjoint_left]
    intro i old new
    rw [mem_aliveSet wf] at old
    exact (inv.timers.kept i old).2.2 (own (mem_filter.1 new).2)
  have all := inv.timers.counted
  rw [all,split,card_union_of_disjoint apart,counted]
  rfl
end

lemma destroy_counts (a : Nat) : (s.destroy a).born = s.born ∧ (s.destroy a).made = s.made := by
  unfold destroy
  split <;> exact ⟨rfl,rfl⟩

lemma onConnGone_counts (o : Owner σ κ) (id : Handle) :
    (s.onConnGone o id).born = s.born ∧ (s.onConnGone o id).made = s.made := by
  cases o with
  | server sv =>
    change (s.serverGone sv id).born = _ ∧ (s.serverGone sv id).made = _
    unfold serverGone
    split
    · exact ⟨rfl,rfl⟩
    · exact destroy_counts _
  | client k =>
    change (s.clientGone k id).born = _ ∧ (s.clientGone k id).made = _
    unfold clientGone
    split
    · exact destroy_counts _
    split
    · exact destroy_counts _
    split
    · exact destroy_counts _
    · exact ⟨rfl,rfl⟩

omit [DecidableEq σ] [DecidableEq κ] in
lemma fire_counts {id : Handle} (fired : s.fire id = some t) : t.born = s.born ∧ t.made = s.made := by
  obtain ⟨_,taken⟩ := ite_none_right_eq_some.1 fired
  split at taken
  · cases taken
  · cases taken
    exact ⟨rfl,rfl⟩
  split at taken
  · split at taken
    · cases taken
      exact ⟨rfl,rfl⟩
    cases taken
    exact ⟨rfl,rfl⟩
  cases taken
  exact ⟨rfl,rfl⟩

lemma step_counts {m : Move σ κ} (taken : s.step m = some t) : s.born ≤ t.born ∧ s.made+t.born ≤ t.made+s.born := by
  have still {u : Churn σ κ} (counts : u.born = s.born ∧ u.made = s.made) :
      s.born ≤ u.born ∧ s.made+u.born ≤ u.made+s.born := by
    omega
  cases m with
  | accept | heLaunch =>
    cases taken
    change s.born ≤ s.born+1 ∧ s.made+(s.born+1) ≤ s.made+1+s.born
    omega
  | armIdleTimer =>
    obtain ⟨c,_,taken⟩ := bind_eq_some_iff.1 taken
    split at taken
    · cases taken
      exact still ⟨rfl,rfl⟩
    · cases taken
  | close | releaseSink =>
    obtain ⟨c,_,taken⟩ := bind_eq_some_iff.1 taken
    obtain ⟨_,rfl⟩ := enabled taken
    exact still ⟨rfl,rfl⟩
  | notify =>
    obtain ⟨c,_,taken⟩ := bind_eq_some_iff.1 taken
    obtain ⟨_,taken⟩ := ite_none_right_eq_some.1 taken
    split at taken
    · cases taken
      exact still ⟨rfl,rfl⟩
    cases taken
    exact still (onConnGone_counts _ _)
  | gone =>
    rw [step] at taken
    split at taken
    · cases taken
    cases taken
    exact still (onConnGone_counts _ _)
  | startClient =>
    obtain ⟨_,rfl⟩ := enabled taken
    change s.born ≤ s.born ∧ s.made+s.born ≤ s.made+1+s.born
    omega
  | connect =>
    obtain ⟨_,rfl⟩ := enabled taken
    change s.born ≤ s.born+1 ∧ s.made+(s.born+1) ≤ s.made+1+s.born
    omega
  | replace =>
    obtain ⟨a,_,taken⟩ := bind_eq_some_iff.1 taken
    obtain ⟨c,_,taken⟩ := bind_eq_some_iff.1 taken
    obtain ⟨_,rfl⟩ := enabled taken
    exact still (destroy_counts _)
  | armTimer | armHeTimer | heWin =>
    obtain ⟨_,rfl⟩ := enabled taken
    exact still ⟨rfl,rfl⟩
  | heBegin =>
    cases taken
    change s.born ≤ s.born ∧ s.made+s.born ≤ s.made+1+s.born
    omega
  | fire => exact still (fire_counts taken)
  | bookkeeping =>
    cases taken
    exact still ⟨rfl,rfl⟩

lemma run_inv {moves : List (Move σ κ)} (rest : base.Rest) (counted : base.timers.Counted) (clean : base.dead = [])
    (wf : table.Wf) (run : Exec (Guarded (Via step) Careful) (create base table) moves s) :
    Inv base table s := by
  refine run.invariant (Inv base table) ?_ ?_
  · exact fun s m t taken inv => inv.step taken.1 taken.2
  · exact ⟨create_timerInv rest counted clean table,create_sinkInv wf base,create_ownerInv base table⟩

lemma run_counts {moves : List (Move σ κ)} (run : Exec (Guarded (Via step) Careful) s moves t) :
    s.born ≤ t.born ∧ s.made+t.born ≤ t.made+s.born := by
  refine run.invariant (fun t => s.born ≤ t.born ∧ s.made+t.born ≤ t.made+s.born) ?_ ⟨le_rfl,le_rfl⟩
  intro t m u taken _
  have next := step_counts taken.2
  omega

/-- Connections come and go until the same ones are open as before: sinks and pool slots are back, and every connection
has left its timer group. -/
theorem churn_returns {moves moves' : List (Move σ κ)} (rest : base.Rest) (counted : base.timers.Counted)
    (clean : base.dead = []) (wf : table.Wf)
    (before : Exec (Guarded (Via step) Careful) (create base table) moves s)
    (run : Exec (Guarded (Via step) Careful) s moves' t)
    (settled : s.Settled) (settled' : t.Settled) (same : ∀ o, t.openOf o = s.openOf o) :
    t.sinks.live = s.sinks.live ∧ (∀ o, t.pool o = s.pool o) ∧
      t.timers.timers.live+s.timersInUse = s.timers.timers.live+t.timersInUse ∧
      s.timers.groups.live+(t.born-s.born) ≤ t.timers.groups.live := by
  have inv := run_inv rest counted clean wf before
  have inv' := run_inv rest counted clean wf (before.append run)
  have counts := run_counts run
  have timersWf := rest.sound.life.timers
  have registered : t.registered = s.registered := by
    ext a
    simp only [inv.mem_registered settled,inv'.mem_registered settled',same]
  refine ⟨?_,?_,?_,?_⟩
  · rw [inv.sinks.live,inv'.sinks.live,registered]
  · intro o
    rw [inv.owners.pool,inv'.owners.pool,inv.pooled_eq settled,inv'.pooled_eq settled',same]
  · rw [inv.timers_live counted timersWf settled,inv'.timers_live counted timersWf settled']
    omega
  rw [inv.timers.groups,inv'.timers.groups]
  omega

end

def idle : Churn Unit Unit := create (Timers.create 1000000 1 0) (.create 1 0)

def closed (a : Nat) : List (Move Unit Unit) := [.close a,.releaseSink a,.notify a true,.gone,.bookkeeping]

def accepted (a : Nat) : List (Move Unit Unit) := [.accept (),.armIdleTimer a 60000000000]

def attempted : List (Move Unit Unit) := [.startClient (),.connect (),.armTimer () 5000000000]

theorem comes_and_goes :
    ∃ s t, Exec (Guarded (Via step) Careful) idle (accepted 0) s ∧
      Exec (Guarded (Via step) Careful) s
        (accepted 1++closed 1++attempted++.fire ⟨1,2⟩::closed 2) t ∧
      s.timers.timers.live = 1 ∧ s.timers.groups.live = 1 ∧ t.born = 3 ∧
      t.sinks.live = s.sinks.live ∧ (∀ o, t.pool o = s.pool o) ∧ t.timers.timers.live = 1 ∧
      3 ≤ t.timers.groups.live := by
  have both : ((drive step Careful idle (accepted 0)).bind fun s =>
      (drive step Careful s (accepted 1++closed 1++attempted++.fire ⟨1,2⟩::closed 2)).map fun t =>
      decide (s.Settled ∧ t.Settled ∧ t.openOf (.server ()) = s.openOf (.server ()) ∧
        t.openOf (.client ()) = s.openOf (.client ()) ∧ s.timersInUse = 1 ∧ t.timersInUse = 1 ∧
        s.timers.timers.live = 1 ∧ s.timers.groups.live = 1 ∧ s.born = 1 ∧ t.born = 3)) = some true := by
    decide +kernel
  obtain ⟨s,first,last⟩ := bind_eq_some_iff.1 both
  obtain ⟨t,second,decided⟩ := map_eq_some_iff.1 last
  obtain ⟨settled,settled',server,client,_,_,timers,groups,_,born'⟩ := of_decide_eq_true decided
  have same : ∀ o, t.openOf o = s.openOf o := by
    rintro (⟨⟩ | ⟨⟩)
    · exact server
    · exact client
  have returns := churn_returns (Timers.create_rest _ _ _) (create_counted _ _) rfl
    (create_wf _ _) (.of_drive first) (.of_drive second) settled settled' same
  refine ⟨s,t,.of_drive first,.of_drive second,timers,groups,born',returns.1,returns.2.1,?_,?_⟩ <;> omega

/-- A connection leaves its timer group; one closed in `on_open` leaves its idle timer too, and an attempt its timer. -/
theorem churn_leaves :
    (∃ s, Exec (Guarded (Via step) Careful) idle (.accept ()::closed 0) s ∧
      s.Settled ∧ s.objects 0 = none ∧ idle.timers.groups.live = 0 ∧ s.timers.groups.live = 1) ∧
    (∃ s, Exec (Guarded (Via step) fun _ _ => True) idle
      [.accept (),.close 0,.releaseSink 0,.notify 0 true,.armIdleTimer 0 60000000000,.gone,.bookkeeping] s ∧
      s.Settled ∧ s.objects 0 = none ∧ idle.timers.timers.live = 0 ∧ s.timers.timers.live = 1) ∧
    ∃ s, Exec (Guarded (Via step) Careful) idle (attempted++closed 0) s ∧
      s.Settled ∧ s.objects 0 = none ∧ s.timers.timers.live = 1 :=
  ⟨Exec.end_of_drive (by decide +kernel),Exec.end_of_drive (by decide +kernel), Exec.end_of_drive (by decide +kernel)⟩

end AffiniX.Churn
