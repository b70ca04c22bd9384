import AffiniX.ChurnTimers

/-! The sinks that connections are registered with and the pool slots that they live in. -/
namespace AffiniX.Churn
open Transition Function List HandleTable Option
variable {σ κ : Type} {s t : Churn σ κ}

def registered (s : Churn σ κ) : Finset Nat :=
  (Finset.range s.born).filter fun a => (s.objects a).any (·.life ≠ .closed)

structure SinkInv (base : HandleTable Nat) (s : Churn σ κ) : Prop where
  wf : s.sinks.Wf
  bound : ∀ a c, s.objects a = some c → a < s.born
  held : ∀ a c, s.objects a = some c → c.life ≠ .closed → s.sinks.holds c.id = true
  distinct : ∀ a b c d, s.objects a = some c → s.objects b = some d → c.life ≠ .closed →
    d.life ≠ .closed → c.id = d.id → a = b
  live : s.sinks.live = base.live+s.registered.card

lemma mem_registered (bound : ∀ a c, s.objects a = some c → a < s.born) {a : Nat} :
    a ∈ s.registered ↔ ∃ c, s.objects a = some c ∧ c.life ≠ .closed := by
  simp only [registered,Finset.mem_filter,Finset.mem_range,Option.any_eq_true,decide_eq_true_eq]
  constructor
  · exact fun ⟨_,c,here,open'⟩ => ⟨c,here,open'⟩
  · exact fun ⟨c,here,open'⟩ => ⟨bound a c here,c,here,open'⟩

lemma create_sinkInv {base : HandleTable Nat} (wf : base.Wf) (timers : Timers) :
    SinkInv base (create timers base : Churn σ κ) :=
  ⟨wf,nofun,nofun,nofun,rfl⟩

namespace SinkInv
variable {base : HandleTable Nat}
section
variable (inv : SinkInv base s)
include inv

lemma congr (sinks : t.sinks = s.sinks) (born : t.born = s.born)
    (back : ∀ a c, t.objects a = some c → ∃ before, s.objects a = some before ∧ before.id = c.id ∧
    (c.life ≠ .closed → before.life ≠ .closed))
    (forth : ∀ a c, s.objects a = some c → c.life ≠ .closed → ∃ after, t.objects a = some after ∧
    after.life ≠ .closed) : SinkInv base t := by
  have bound : ∀ a c, t.objects a = some c → a < t.born := by
    intro a c here
    obtain ⟨before,there,_⟩ := back a c here
    rw [born]
    exact inv.bound a before there
  have same : t.registered = s.registered := by
    ext a
    rw [mem_registered bound,mem_registered inv.bound]
    constructor
    · intro ⟨c,here,open'⟩
      obtain ⟨before,there,_,was⟩ := back a c here
      exact ⟨before,there,was open'⟩
    · exact fun ⟨c,here,open'⟩ => forth a c here open'
  refine ⟨sinks ▸ inv.wf,bound,?_,?_,?_⟩
  · intro a c here open'
    obtain ⟨before,there,id,was⟩ := back a c here
    rw [sinks,← id]
    exact inv.held a before there (was open')
  · intro a b c d here there open' open'' equal
    obtain ⟨c',here',id,was⟩ := back a c here
    obtain ⟨d',there',id',was'⟩ := back b d there
    exact inv.distinct a b c' d' here' there' (was open') (was' open'') (by rw [id,id',equal])
  rw [sinks,same]
  exact inv.live

lemma frame (sinks : t.sinks = s.sinks) (born : t.born = s.born)
    (objects : t.objects = s.objects) : SinkInv base t := by
  refine inv.congr sinks born ?_ ?_
  · rw [objects]
    exact fun a c here => ⟨c,here,rfl,id⟩
  rw [objects]
  exact fun a c here open' => ⟨c,here,open'⟩

lemma change {a : Nat} {c d : Conn σ κ} (here : s.objects a = some c) (id : d.id = c.id)
    (life : d.life = .closed ↔ c.life = .closed) (sinks : t.sinks = s.sinks) (born : t.born = s.born)
    (objects : t.objects = update s.objects a (some d)) : SinkInv base t := by
  refine inv.congr sinks born ?_ ?_
  · intro b e there
    rw [objects] at there
    obtain ⟨rfl,rfl⟩ | ⟨_,there⟩ := lookup there
    · exact ⟨c,here,id.symm,fun open' closed => open' (life.2 closed)⟩
    · exact ⟨e,there,rfl,fun open' => open'⟩
  intro b e there open'
  rw [objects]
  by_cases same : b = a
  · subst same
    cases here.symm.trans there
    exact ⟨d,update_self _ _ _,fun closed => open' (life.1 closed)⟩
  · exact ⟨e,(update_of_ne same _ _).trans there,open'⟩

lemma reclaim : SinkInv base s.bookkeeping := ⟨reclaim_wf inv.wf,inv.bound,inv.held,inv.distinct,inv.live⟩

lemma releaseSink {a : Nat} {c : Conn σ κ} (here : s.objects a = some c) (closing : c.life = .closing) :
    SinkInv base ({ s with sinks := s.sinks.release c.id }.setObject a { c with life := .closed }) := by
  have open' : c.life ≠ .closed := by
    rw [closing]
    exact nofun
  have held := inv.held a c here open'
  have others {b : Nat} {d : Conn σ κ} (there : update s.objects a (some { c with life := .closed }) b =
      some d) (open'' : d.life ≠ .closed) : b ≠ a ∧ s.objects b = some d := by
    obtain ⟨rfl,rfl⟩ | ⟨same,there⟩ := lookup there
    · exact absurd rfl open''
    · exact ⟨same,there⟩
  have bound : ∀ b d, update s.objects a (some { c with life := .closed }) b = some d → b < s.born := by
    intro b d there
    by_cases same : b = a
    · exact same ▸ inv.bound a c here
    · exact inv.bound b d ((update_of_ne same _ _).symm.trans there)
  refine ⟨release_wf inv.wf c.id,bound,?_,?_,?_⟩
  · intro b d there open''
    obtain ⟨other,before⟩ := others there open''
    refine (release_holds _ _ _).2 ⟨inv.held b d before open'',?_⟩
    intro equal
    exact other (inv.distinct b a d c before here open'' open' equal)
  · intro b e d d' there there' open'' open''' equal
    exact inv.distinct b e d d' (others there open'').2 (others there' open''').2 open'' open''' equal
  have fewer : registered ({ s with sinks := s.sinks.release c.id }.setObject a { c with life := .closed }) =
      s.registered.erase a := by
    ext b
    rw [mem_registered bound,Finset.mem_erase,mem_registered inv.bound]
    constructor
    · intro ⟨d,there,open''⟩
      obtain ⟨other,before⟩ := others there open''
      exact ⟨other,d,before,open''⟩
    intro ⟨other,d,before,open''⟩
    exact ⟨d,(update_of_ne other _ _).trans before,open''⟩
  have member : a ∈ s.registered := (mem_registered inv.bound).2 ⟨c,here,open'⟩
  have some' : 0 < s.registered.card := Finset.card_pos.2 ⟨a,member⟩
  have count : (s.sinks.release c.id).live = s.sinks.live-1 := by simp [release,held]
  change (s.sinks.release c.id).live = _
  rw [count,fewer,Finset.card_erase_of_mem member,inv.live]
  omega
end
variable [DecidableEq σ] [DecidableEq κ]

lemma construct (inv : SinkInv base s) (owner : Owner σ κ) : SinkInv base (s.construct owner) := by
  have fresh : s.objects s.born = none := by
    cases there : s.objects s.born with
    | none => rfl
    | some c => exact absurd (inv.bound _ c there) (Nat.lt_irrefl _)
  have stale : s.sinks.holds s.sinks.nextHandle = false := by
    rw [← Bool.not_eq_true]
    intro held
    have live := ((holds_iff _ _).1 held).2.2.1
    change s.sinks.alive s.sinks.nextIdx = true at live
    rw [nextIdx_dead inv.wf] at live
    contradiction
  have cases' {a : Nat} {c : Conn σ κ} (here : (s.construct owner).objects a = some c) :
      (a = s.born ∧ c.id = s.sinks.nextHandle) ∨ a ≠ s.born ∧ s.objects a = some c := by
    obtain ⟨rfl,rfl⟩ | ⟨same,here⟩ := lookup here
    · exact .inl ⟨rfl,rfl⟩
    · exact .inr ⟨same,here⟩
  have bound : ∀ a c, (s.construct owner).objects a = some c → a < (s.construct owner).born := by
    intro a c here
    change a < s.born+1
    rcases cases' here with ⟨same,_⟩ | ⟨_,before⟩
    · omega
    · exact Nat.lt_succ_of_lt (inv.bound a c before)
  have unlike {b : Nat} {d : Conn σ κ} (there : s.objects b = some d) (open' : d.life ≠ .closed) :
      d.id ≠ s.sinks.nextHandle := by
    intro equal
    have held := inv.held b d there open'
    rw [equal,stale] at held
    contradiction
  refine ⟨emplace_wf inv.wf _,bound,?_,?_,?_⟩
  · intro a c here open'
    apply (emplace_holds inv.wf _ _).2
    rcases cases' here with ⟨_,new⟩ | ⟨_,before⟩
    · exact .inl new
    · exact .inr (inv.held a c before open')
  · intro a b c d here there open' open'' equal
    rcases cases' here with ⟨same,new⟩ | ⟨_,before⟩
    · rcases cases' there with ⟨same',_⟩ | ⟨_,before'⟩
      · rw [same,same']
      · exact absurd (equal.symm.trans new) (unlike before' open'')
    rcases cases' there with ⟨_,new⟩ | ⟨_,before'⟩
    · exact absurd (equal.trans new) (unlike before open')
    · exact inv.distinct a b c d before before' open' open'' equal
  have more : (s.construct owner).registered = insert s.born s.registered := by
    ext a
    rw [mem_registered bound,Finset.mem_insert,mem_registered inv.bound]
    constructor
    · intro ⟨c,here,open'⟩
      rcases cases' here with ⟨same,_⟩ | ⟨_,before⟩
      · exact .inl same
      · exact .inr ⟨c,before,open'⟩
    rintro (same | ⟨c,before,open'⟩)
    · subst same
      exact ⟨_,update_self _ _ _,nofun⟩
    have other : a ≠ s.born := by
      intro same
      rw [same,fresh] at before
      cases before
    exact ⟨c,(update_of_ne other _ _).trans before,open'⟩
  have outside : s.born ∉ s.registered := by
    rw [mem_registered inv.bound]
    intro ⟨c,here,_⟩
    rw [fresh] at here
    cases here
  change s.sinks.live+1 = _
  rw [more,Finset.card_insert_of_notMem outside,inv.live]
  omega

lemma destroy {a : Nat} {c : Conn σ κ} (inv : SinkInv base s) (here : s.objects a = some c)
    (closed : c.life = .closed) : SinkInv base (s.destroy a) := by
  rw [destroy_eq here]
  refine inv.congr rfl rfl ?_ ?_
  · intro b d there
    by_cases same : b = a
    · subst same
      cases (update_self _ _ _).symm.trans there
    · exact ⟨d,(update_of_ne same _ _).symm.trans there,rfl,id⟩
  intro b d there open'
  have other : b ≠ a := by
    intro same
    rw [same,here] at there
    cases there
    exact open' closed
  exact ⟨d,(update_of_ne other _ _).trans there,open'⟩
end SinkInv

def Client.roster (c : Client) : List Nat := c.conn.toList++c.pending++c.closing

variable [DecidableEq σ] [DecidableEq κ]

def pooled (s : Churn σ κ) (o : Owner σ κ) : Finset Nat :=
  (Finset.range s.born).filter fun a => (s.objects a).any (·.owner = o)

def Tracks (s : Churn σ κ) (a : Nat) (id : Handle) : Owner σ κ → Prop
  | .server sv => (id,a) ∈ s.conns sv
  | .client k => a ∈ (s.client k).roster

structure Roll (s : Churn σ κ) : Prop where
  bound : ∀ a c, s.objects a = some c → a < s.born
  pool : ∀ o, s.pool o = (s.pooled o).card
  tracked : ∀ a c, s.objects a = some c → s.Tracks a c.id c.owner
  entries : ∀ sv id a, (id,a) ∈ s.conns sv → ∃ c, s.objects a = some c ∧ c.id = id ∧ c.owner = .server sv
  rosters : ∀ k a, a ∈ (s.client k).roster → ∃ c, s.objects a = some c ∧ c.owner = .client k
  nodup : ∀ k, (s.client k).roster.Nodup
  ids : ∀ a b c d, s.objects a = some c → s.objects b = some d → c.owner = d.owner → c.id = d.id → a = b

structure OwnerInv (s : Churn σ κ) : Prop extends Roll s where
  told : ∀ a c, s.objects a = some c → c.told → c.life = .closed ∧ (c.owner,c.id) ∈ s.deferred
  waiting : ∀ a c, s.objects a = some c → (c.owner,c.id) ∈ s.deferred → c.told

lemma mem_pooled (bound : ∀ a c, s.objects a = some c → a < s.born) {a : Nat} {o : Owner σ κ} :
    a ∈ s.pooled o ↔ ∃ c, s.objects a = some c ∧ c.owner = o := by
  simp only [pooled,Finset.mem_filter,Finset.mem_range,Option.any_eq_true,decide_eq_true_eq]
  constructor
  · exact fun ⟨_,c,here,own⟩ => ⟨c,here,own⟩
  · exact fun ⟨c,here,own⟩ => ⟨bound a c here,c,here,own⟩

lemma create_ownerInv (timers : Timers) (sinks : HandleTable Nat) : OwnerInv (create timers sinks : Churn σ κ) :=
  ⟨⟨nofun,fun _ => rfl,nofun,nofun,nofun,fun _ => nodup_nil,nofun⟩,nofun,nofun⟩

namespace Roll
lemma congr (roll : Roll s) (born : t.born = s.born) (pool : t.pool = s.pool)
    (conns : t.conns = s.conns) (rosters : ∀ k, (t.client k).roster.Perm (s.client k).roster)
    (back : ∀ a c, t.objects a = some c → ∃ before, s.objects a = some before ∧ before.id = c.id ∧
    before.owner = c.owner)
    (forth : ∀ a c, s.objects a = some c → ∃ after, t.objects a = some after ∧ after.id = c.id ∧
    after.owner = c.owner) : Roll t := by
  have bound : ∀ a c, t.objects a = some c → a < t.born := by
    intro a c here
    obtain ⟨before,there,_⟩ := back a c here
    rw [born]
    exact roll.bound a before there
  have same (o : Owner σ κ) : t.pooled o = s.pooled o := by
    ext a
    rw [mem_pooled bound,mem_pooled roll.bound]
    constructor
    · intro ⟨c,here,own⟩
      obtain ⟨before,there,_,owner⟩ := back a c here
      exact ⟨before,there,owner.trans own⟩
    intro ⟨c,here,own⟩
    obtain ⟨after,there,_,owner⟩ := forth a c here
    exact ⟨after,there,owner.trans own⟩
  have tracks (a : Nat) (id : Handle) (o : Owner σ κ) : t.Tracks a id o ↔ s.Tracks a id o := by
    cases o with
    | server => rw [Tracks,Tracks,conns]
    | client k => exact (rosters k).mem_iff
  refine ⟨bound,?_,?_,?_,?_,?_,?_⟩
  · intro o
    rw [pool,same]
    exact roll.pool o
  · intro a c here
    obtain ⟨before,there,id,owner⟩ := back a c here
    rw [tracks,← id,← owner]
    exact roll.tracked a before there
  · intro sv id a listed
    rw [conns] at listed
    obtain ⟨c,here,id',owner⟩ := roll.entries sv id a listed
    obtain ⟨after,there,id'',owner'⟩ := forth a c here
    exact ⟨after,there,id''.trans id',owner'.trans owner⟩
  · intro k a listed
    obtain ⟨c,here,owner⟩ := roll.rosters k a ((rosters k).mem_iff.1 listed)
    obtain ⟨after,there,_,owner'⟩ := forth a c here
    exact ⟨after,there,owner'.trans owner⟩
  · intro k
    exact (rosters k).nodup_iff.2 (roll.nodup k)
  intro a b c d here there owner id
  obtain ⟨c',here',id',owner'⟩ := back a c here
  obtain ⟨d',there',id'',owner''⟩ := back b d there
  exact roll.ids a b c' d' here' there' (by rw [owner',owner'',owner]) (by rw [id',id'',id])

variable {a : Nat} {c : Conn σ κ}

lemma pooled_new (bound : ∀ b d, s.objects b = some d → b < s.born) (bound' : ∀ b d, t.objects b = some d → b < t.born)
    (there : ∀ {b d}, t.objects b = some d ↔ (b = a ∧ d = c) ∨ s.objects b = some d)
    {o : Owner σ κ} : t.pooled o = if o = c.owner then insert a (s.pooled o) else s.pooled o := by
  ext b
  have before := mem_pooled bound (a := b) (o := o)
  have after := mem_pooled bound' (a := b) (o := o)
  split
  next same =>
    rw [Finset.mem_insert,after,before]
    constructor
    · intro ⟨d,here,own⟩
      rcases there.1 here with ⟨new,_⟩ | old
      · exact .inl new
      · exact .inr ⟨d,old,own⟩
    rintro (new | ⟨d,old,own⟩)
    · exact ⟨c,there.2 (.inl ⟨new,rfl⟩),same.symm⟩
    · exact ⟨d,there.2 (.inr old),own⟩
  next other =>
  rw [after,before]
  constructor
  · intro ⟨d,here,own⟩
    rcases there.1 here with ⟨_,rfl⟩ | old
    · exact absurd own.symm other
    · exact ⟨d,old,own⟩
  · exact fun ⟨d,old,own⟩ => ⟨d,there.2 (.inr old),own⟩

lemma enroll (roll : Roll s) (fresh : ∀ a d, s.objects a = some d → d.owner = c.owner → d.id ≠ c.id)
    (born : t.born = s.born+1) (objects : t.objects = update s.objects s.born (some c))
    (pool : t.pool = update s.pool c.owner (s.pool c.owner+1))
    (conns : ∀ sv id b, (id,b) ∈ t.conns sv ↔ (c.owner = .server sv ∧ id = c.id ∧ b = s.born) ∨ (id,b) ∈ s.conns sv)
    (rosters : ∀ k b, b ∈ (t.client k).roster ↔ (c.owner = .client k ∧ b = s.born) ∨ b ∈ (s.client k).roster)
    (nodup : ∀ k, (t.client k).roster.Nodup) : Roll t := by
  have unborn {d : Conn σ κ} : s.objects s.born ≠ some d := by
    intro there
    exact absurd (roll.bound _ d there) (Nat.lt_irrefl _)
  have there {b : Nat} {d : Conn σ κ} : t.objects b = some d ↔ (b = s.born ∧ d = c) ∨ s.objects b = some d := by
    rw [objects]
    by_cases same : b = s.born
    · subst same
      simp [unborn,eq_comm]
    rw [update_of_ne same]
    simp [same]
  have bound : ∀ b d, t.objects b = some d → b < t.born := by
    intro b d here
    rw [born]
    rcases there.1 here with ⟨new,_⟩ | old
    · omega
    · exact Nat.lt_succ_of_lt (roll.bound b d old)
  refine ⟨bound,?_,?_,?_,?_,nodup,?_⟩
  · intro o
    rw [pool]
    by_cases same : o = c.owner
    · subst same
      have outside : s.born ∉ s.pooled c.owner := by
        rw [mem_pooled roll.bound]
        exact fun ⟨_,here,_⟩ => unborn here
      rw [update_self,pooled_new roll.bound bound there,if_pos rfl, Finset.card_insert_of_notMem outside,roll.pool]
    · rw [update_of_ne same,pooled_new roll.bound bound there,if_neg same,roll.pool]
  · intro b d here
    rcases there.1 here with ⟨new,rfl⟩ | old
    · cases owner : d.owner with
      | server sv => exact (conns sv d.id b).2 (.inl ⟨owner,rfl,new⟩)
      | client k => exact (rosters k b).2 (.inl ⟨owner,new⟩)
    have tracked := roll.tracked b d old
    cases owner : d.owner with
    | server sv =>
      rw [owner] at tracked
      exact (conns sv d.id b).2 (.inr tracked)
    | client k =>
      rw [owner] at tracked
      exact (rosters k b).2 (.inr tracked)
  · intro sv id b listed
    rcases (conns sv id b).1 listed with ⟨owner,same,new⟩ | old
    · exact ⟨c,there.2 (.inl ⟨new,rfl⟩),same.symm,owner⟩
    obtain ⟨d,here,same,owner⟩ := roll.entries sv id b old
    exact ⟨d,there.2 (.inr here),same,owner⟩
  · intro k b listed
    rcases (rosters k b).1 listed with ⟨owner,new⟩ | old
    · exact ⟨c,there.2 (.inl ⟨new,rfl⟩),owner⟩
    obtain ⟨d,here,owner⟩ := roll.rosters k b old
    exact ⟨d,there.2 (.inr here),owner⟩
  intro b b' d d' here here' owner id
  rcases there.1 here with ⟨new,rfl⟩ | old
  · rcases there.1 here' with ⟨new',_⟩ | old'
    · rw [new,new']
    · exact absurd id.symm (fresh b' d' old' owner.symm)
  rcases there.1 here' with ⟨_,rfl⟩ | old'
  · exact absurd id (fresh b d old owner)
  · exact roll.ids b b' d d' old old' owner id

lemma remove (roll : Roll s) (here : s.objects a = some c) (born : t.born = s.born)
    (objects : t.objects = update s.objects a none) (pool : t.pool = update s.pool c.owner (s.pool c.owner-1))
    (conns : ∀ sv id b, (id,b) ∈ t.conns sv ↔ (id,b) ∈ s.conns sv ∧ b ≠ a)
    (rosters : ∀ k b, b ∈ (t.client k).roster ↔ b ∈ (s.client k).roster ∧ b ≠ a)
    (nodup : ∀ k, (t.client k).roster.Nodup) : Roll t := by
  have left {b : Nat} {d : Conn σ κ} : t.objects b = some d ↔ b ≠ a ∧ s.objects b = some d := by
    rw [objects]
    by_cases same : b = a
    · subst same
      simp
    rw [update_of_ne same]
    simp [same]
  have bound : ∀ b d, t.objects b = some d → b < t.born := by
    intro b d there
    rw [born]
    exact roll.bound b d (left.1 there).2
  refine ⟨bound,?_,?_,?_,?_,nodup,?_⟩
  · intro o
    have fewer : t.pooled o = (s.pooled o).erase a := by
      ext b
      rw [mem_pooled bound,Finset.mem_erase,mem_pooled roll.bound]
      constructor
      · intro ⟨d,there,own⟩
        exact ⟨(left.1 there).1,d,(left.1 there).2,own⟩
      intro ⟨other,d,there,own⟩
      exact ⟨d,left.2 ⟨other,there⟩,own⟩
    rw [pool,fewer]
    by_cases same : o = c.owner
    · subst same
      have member : a ∈ s.pooled c.owner := (mem_pooled roll.bound).2 ⟨c,here,rfl⟩
      rw [update_self,Finset.card_erase_of_mem member,roll.pool]
    have outside : a ∉ s.pooled o := by
      rw [mem_pooled roll.bound]
      intro ⟨d,there,own⟩
      cases here.symm.trans there
      exact same own.symm
    rw [update_of_ne same,Finset.erase_eq_of_notMem outside,roll.pool]
  · intro b d there
    obtain ⟨other,before⟩ := left.1 there
    have tracked := roll.tracked b d before
    cases owner : d.owner with
    | server sv =>
      rw [owner] at tracked
      exact (conns sv d.id b).2 ⟨tracked,other⟩
    | client k =>
      rw [owner] at tracked
      exact (rosters k b).2 ⟨tracked,other⟩
  · intro sv id b listed
    obtain ⟨old,other⟩ := (conns sv id b).1 listed
    obtain ⟨d,there,same,owner⟩ := roll.entries sv id b old
    exact ⟨d,left.2 ⟨other,there⟩,same,owner⟩
  · intro k b listed
    obtain ⟨old,other⟩ := (rosters k b).1 listed
    obtain ⟨d,there,owner⟩ := roll.rosters k b old
    exact ⟨d,left.2 ⟨other,there⟩,owner⟩
  · intro b e d d' there there' owner id
    exact roll.ids b e d d' (left.1 there).2 (left.1 there').2 owner id

omit [DecidableEq σ] [DecidableEq κ] in
lemma hasId_iff {id : Handle} : s.hasId id a = true ↔ ∃ c, s.objects a = some c ∧ c.id = id := by
  simp [hasId,Option.any_eq_true]

structure Forgets (s : Churn σ κ) (o : Owner σ κ) (id : Handle) (a : Nat) (u : Churn σ κ) : Prop where
  same : u = { s with conns := u.conns, client := u.client }
  groups : ∀ k, (u.client k).group = (s.client k).group ∧ (u.client k).heGroup = (s.client k).heGroup
  found : ∃ c, s.objects a = some c ∧ c.owner = o ∧ c.id = id
  roll : Roll (u.destroy a)

lemma serverGone (roll : Roll s) (sv : σ) (id : Handle) :
    (s.serverGone sv id = s ∧ ∀ a c, s.objects a = some c → c.owner = .server sv → c.id ≠ id) ∨
    ∃ a u, s.serverGone sv id = u.destroy a ∧ Forgets s (.server sv) id a u := by
  unfold Churn.serverGone
  cases search : (s.conns sv).find? (·.1 = id) with
  | none =>
    refine .inl ⟨rfl,?_⟩
    intro a c here owner same
    have tracked := roll.tracked a c here
    rw [owner] at tracked
    have other := find?_eq_none.1 search (c.id,a) tracked
    simp [same] at other
  | some found =>
    obtain ⟨id',a⟩ := found
    have listed := mem_of_find?_eq_some search
    have same : id' = id := by simpa using find?_some search
    subst same
    obtain ⟨c,here,own,owner⟩ := roll.entries sv id' a listed
    refine .inr ⟨a,_,rfl,rfl,fun _ => ⟨rfl,rfl⟩,⟨c,here,owner,own⟩,?_⟩
    have equal := destroy_eq (s := s.setConns sv ((s.conns sv).filter (·.1 ≠ id'))) here
    rw [equal]
    refine roll.remove here rfl rfl rfl ?_ ?_ roll.nodup
    · intro sv' id b
      change (id,b) ∈ update s.conns sv _ sv' ↔ _
      by_cases here' : sv' = sv
      · subst here'
        rw [update_self,mem_filter]
        apply and_congr_right
        intro entry
        obtain ⟨d,there,id'',owner'⟩ := roll.entries sv' id b entry
        simp only [decide_eq_true_eq,ne_eq]
        constructor
        · intro other equal
          subst equal
          cases here.symm.trans there
          exact other (id''.symm.trans own)
        intro other equal
        subst equal
        exact other (roll.ids b a d c there here (owner'.trans owner.symm) (id''.trans own.symm))
      rw [update_of_ne here']
      refine ⟨fun entry => ⟨entry,?_⟩,And.left⟩
      rintro rfl
      obtain ⟨d,there,_,owner'⟩ := roll.entries sv' id b entry
      cases here.symm.trans there
      cases owner.symm.trans owner'
      exact here' rfl
    intro k b
    refine ⟨fun listed => ⟨listed,?_⟩,And.left⟩
    rintro rfl
    obtain ⟨d,there,owner'⟩ := roll.rosters k b listed
    cases here.symm.trans there
    cases owner.symm.trans owner'

lemma forget {k : κ} {f : Client → Client} (roll : Roll s) (here : s.objects a = some c) (owner : c.owner = .client k)
    (roster : (f (s.client k)).roster = (s.client k).roster.erase a)
    (groups : (f (s.client k)).group = (s.client k).group ∧ (f (s.client k)).heGroup = (s.client k).heGroup) :
    Forgets s (.client k) c.id a (s.setClient k f) := by
  refine ⟨rfl,?_,⟨c,here,owner,rfl⟩,?_⟩
  · intro k'
    change (update s.client k _ k').group = _ ∧ (update s.client k _ k').heGroup = _
    by_cases same : k' = k
    · rw [same,update_self]
      exact groups
    rw [update_of_ne same]
    exact ⟨rfl,rfl⟩
  have equal := destroy_eq (s := s.setClient k f) here
  rw [equal]
  refine roll.remove here rfl rfl rfl ?_ ?_ ?_
  · intro sv id b
    refine ⟨fun entry => ⟨entry,?_⟩,And.left⟩
    rintro rfl
    obtain ⟨d,there,_,owner'⟩ := roll.entries sv id b entry
    cases here.symm.trans there
    cases owner.symm.trans owner'
  · intro k' b
    change b ∈ (update s.client k _ k').roster ↔ _
    by_cases same : k' = k
    · rw [same,update_self,roster,(roll.nodup k).mem_erase_iff]
      exact and_comm
    rw [update_of_ne same]
    refine ⟨fun listed => ⟨listed,?_⟩,And.left⟩
    rintro rfl
    obtain ⟨d,there,owner'⟩ := roll.rosters k' b listed
    cases here.symm.trans there
    cases owner.symm.trans owner'
    exact same rfl
  intro k'
  change (update s.client k _ k').roster.Nodup
  by_cases same : k' = k
  · rw [same,update_self,roster]
    exact (roll.nodup k).erase a
  rw [update_of_ne same]
  exact roll.nodup k'

lemma clientGone (roll : Roll s) (k : κ) (id : Handle) :
    (s.clientGone k id = s ∧ ∀ a c, s.objects a = some c → c.owner = .client k → c.id ≠ id) ∨
    ∃ a u, s.clientGone k id = u.destroy a ∧ Forgets s (.client k) id a u := by
  have nodup := roll.nodup k
  have found {a : Nat} (listed : a ∈ (s.client k).roster) (own : s.hasId id a = true) :
      ∃ c, s.objects a = some c ∧ c.owner = .client k ∧ c.id = id := by
    obtain ⟨c,here,same⟩ := hasId_iff.1 own
    obtain ⟨d,there,owner⟩ := roll.rosters k a listed
    cases here.symm.trans there
    exact ⟨c,here,owner,same⟩
  unfold Churn.clientGone
  cases first : (s.client k).conn.filter (s.hasId id) with
  | some a =>
    obtain ⟨conn,own⟩ := filter_eq_some_iff.1 first
    have roster : (s.client k).roster = a::((s.client k).pending++(s.client k).closing) := by
      simp [Client.roster,conn]
    obtain ⟨c,here,owner,rfl⟩ := found (by simp [roster]) own
    refine .inr ⟨a,_,rfl,roll.forget here owner ?_ ⟨rfl,rfl⟩⟩
    rw [roster]
    simp [Client.roster]
  | none =>
    cases second : (s.client k).pending.find? (s.hasId id) with
    | some a =>
      have listed := mem_of_find?_eq_some second
      obtain ⟨c,here,owner,rfl⟩ := found (by simp [Client.roster,listed]) (find?_some second)
      refine .inr ⟨a,_,rfl,roll.forget here owner ?_ ⟨rfl,rfl⟩⟩
      have outside : a ∉ (s.client k).conn.toList := by
        intro inside
        have disjoint := (nodup_append.1 (nodup_append.1 nodup).1).2.2
        exact disjoint a inside a listed rfl
      rw [Client.roster,Client.roster,erase_append_left _ (mem_append_right _ listed), erase_append_right _ outside]
    | none =>
      cases third : (s.client k).closing.find? (s.hasId id) with
      | some a =>
        have listed := mem_of_find?_eq_some third
        obtain ⟨c,here,owner,rfl⟩ := found (by simp [Client.roster,listed]) (find?_some third)
        refine .inr ⟨a,_,rfl,roll.forget here owner ?_ ⟨rfl,rfl⟩⟩
        have outside : a ∉ (s.client k).conn.toList++(s.client k).pending := by
          intro inside
          exact (nodup_append.1 nodup).2.2 a inside a listed rfl
        rw [Client.roster,Client.roster,erase_append_right _ outside]
      | none =>
        refine .inl ⟨rfl,?_⟩
        intro a c here owner same
        have own : s.hasId id a = true := hasId_iff.2 ⟨c,here,same⟩
        have tracked := roll.tracked a c here
        rw [owner] at tracked
        change a ∈ (s.client k).roster at tracked
        rw [Client.roster,mem_append,mem_append] at tracked
        rcases tracked with (conn | pending) | closing
        · have kept := filter_eq_none_iff.1 first a (mem_toList.1 conn)
          exact kept own
        · exact find?_eq_none.1 second a pending own
        · exact find?_eq_none.1 third a closing own

lemma onConnGone (roll : Roll s) (o : Owner σ κ) (id : Handle) :
    (s.onConnGone o id = s ∧ ∀ a c, s.objects a = some c → c.owner = o → c.id ≠ id) ∨
    ∃ a u, s.onConnGone o id = u.destroy a ∧ Forgets s o id a u := by
  cases o with
  | server sv => exact roll.serverGone sv id
  | client k => exact roll.clientGone k id
end Roll
namespace OwnerInv
lemma congr (inv : OwnerInv s) (born : t.born = s.born) (pool : t.pool = s.pool)
    (conns : t.conns = s.conns) (rosters : ∀ k, (t.client k).roster.Perm (s.client k).roster)
    (objects : t.objects = s.objects) (deferred : t.deferred = s.deferred) : OwnerInv t := by
  refine ⟨inv.toRoll.congr born pool conns rosters ?_ ?_,?_,?_⟩
  · rw [objects]
    exact fun a c here => ⟨c,here,rfl,rfl⟩
  · rw [objects]
    exact fun a c here => ⟨c,here,rfl,rfl⟩
  · rw [objects,deferred]
    exact inv.told
  rw [objects,deferred]
  exact inv.waiting

lemma change {a : Nat} {c d : Conn σ κ} (inv : OwnerInv s) (here : s.objects a = some c)
    (id : d.id = c.id) (owner : d.owner = c.owner) (closed : c.life = .closed → d.life = .closed)
    (told : (d.told = c.told ∧ t.deferred = s.deferred) ∨
    c.life = .closed ∧ d.told = true ∧ t.deferred = s.deferred++[(c.owner,c.id)])
    (born : t.born = s.born) (pool : t.pool = s.pool) (conns : t.conns = s.conns)
    (client : t.client = s.client) (objects : t.objects = update s.objects a (some d)) :
    OwnerInv t := by
  have cases' {b : Nat} {e : Conn σ κ} (there : t.objects b = some e) :
      (b = a ∧ e = d) ∨ b ≠ a ∧ s.objects b = some e := by
    rw [objects] at there
    obtain ⟨rfl,rfl⟩ | ⟨same,there⟩ := lookup there
    · exact .inl ⟨rfl,rfl⟩
    · exact .inr ⟨same,there⟩
  have more : ∀ x ∈ s.deferred, x ∈ t.deferred := by
    intro x waits
    rcases told with ⟨_,same⟩ | ⟨_,_,longer⟩
    · rwa [same]
    rw [longer]
    exact mem_append_left _ waits
  refine ⟨inv.toRoll.congr born pool conns ?_ ?_ ?_,?_,?_⟩
  · rw [client]
    exact fun _ => .refl _
  · intro b e there
    rcases cases' there with ⟨rfl,rfl⟩ | ⟨_,old⟩
    · exact ⟨c,here,id.symm,owner.symm⟩
    · exact ⟨e,old,rfl,rfl⟩
  · intro b e there
    rw [objects]
    by_cases same : b = a
    · subst same
      cases here.symm.trans there
      exact ⟨d,update_self _ _ _,id,owner⟩
    · exact ⟨e,(update_of_ne same _ _).trans there,rfl,rfl⟩
  · intro b e there isTold
    rcases cases' there with ⟨rfl,rfl⟩ | ⟨_,old⟩
    · rw [owner,id]
      rcases told with ⟨as,_⟩ | ⟨shut,_,longer⟩
      · rw [as] at isTold
        obtain ⟨shut,waits⟩ := inv.told b c here isTold
        exact ⟨closed shut,more _ waits⟩
      refine ⟨closed shut,?_⟩
      rw [longer]
      simp
    obtain ⟨shut,waits⟩ := inv.told b e old isTold
    exact ⟨shut,more _ waits⟩
  intro b e there waits
  rcases told with ⟨as,same⟩ | ⟨_,yes,longer⟩
  · rw [same] at waits
    rcases cases' there with ⟨rfl,rfl⟩ | ⟨_,old⟩
    · rw [owner,id] at waits
      rw [as]
      exact inv.waiting b c here waits
    · exact inv.waiting b e old waits
  rcases cases' there with ⟨rfl,rfl⟩ | ⟨other,old⟩
  · exact yes
  rw [longer,mem_append,mem_singleton] at waits
  rcases waits with before | new
  · exact inv.waiting b e old before
  rw [Prod.mk.injEq] at new
  exact absurd (inv.ids b a e c old here new.1 new.2) other

lemma forget {o : Owner σ κ} {id : Handle} {a : Nat} {u : Churn σ κ} {deferred : List (Owner σ κ × Handle)}
    (inv : OwnerInv s) (forgets : Roll.Forgets { s with deferred := deferred } o id a u)
    (fewer : ∀ x ∈ deferred, x ∈ s.deferred) (kept : ∀ x ∈ s.deferred, x ≠ (o,id) → x ∈ deferred) :
    OwnerInv (u.destroy a) := by
  obtain ⟨same,_,⟨c,here,owner,own⟩,roll⟩ := forgets
  have here' : u.objects a = some c := by
    rw [same]
    exact here
  have there {b : Nat} {d : Conn σ κ} (there : (u.destroy a).objects b = some d) : b ≠ a ∧ s.objects b = some d := by
    rw [destroy_eq here',same] at there
    by_cases equal : b = a
    · subst equal
      cases (update_self _ _ _).symm.trans there
    · exact ⟨equal,(update_of_ne equal _ _).symm.trans there⟩
  have left : (u.destroy a).deferred = deferred := by
    rw [destroy_eq here',same]
    rfl
  refine ⟨roll,?_,?_⟩
  · intro b d at_b told
    obtain ⟨other,old⟩ := there at_b
    obtain ⟨shut,waits⟩ := inv.told b d old told
    refine ⟨shut,?_⟩
    rw [left]
    refine kept _ waits ?_
    intro equal
    rw [Prod.mk.injEq] at equal
    exact other (inv.ids b a d c old here (equal.1.trans owner.symm) (equal.2.trans own.symm))
  intro b d at_b waits
  rw [left] at waits
  exact inv.waiting b d (there at_b).2 (fewer _ waits)

lemma enroll {c : Conn σ κ} (inv : OwnerInv s) (roll : Roll t) (untold : c.told = false)
    (waits : (c.owner,c.id) ∉ s.deferred) (deferred : t.deferred = s.deferred)
    (objects : t.objects = update s.objects s.born (some c)) : OwnerInv t := by
  have cases' {b : Nat} {d : Conn σ κ} (there : t.objects b = some d) : d = c ∨ s.objects b = some d := by
    rw [objects] at there
    obtain ⟨rfl,rfl⟩ | ⟨_,there⟩ := lookup there
    · exact .inl rfl
    · exact .inr there
  refine ⟨roll,?_,?_⟩
  · intro b d there told
    rw [deferred]
    rcases cases' there with rfl | old
    · rw [untold] at told
      contradiction
    · exact inv.told b d old told
  intro b d there waits'
  rw [deferred] at waits'
  rcases cases' there with rfl | old
  · exact absurd waits' waits
  · exact inv.waiting b d old waits'
end OwnerInv
end AffiniX.Churn
