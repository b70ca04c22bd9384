import AffiniX.ConnectionChurn

/-! The timers and timer groups that connections and clients hold. -/
namespace AffiniX.Churn
open Timers Transition Function HandleTable Option
variable {σ κ : Type}

def Own (s : Churn σ κ) (i : NodeRef) : Prop := ∃ g m, (s.timers.node i).groupLink = some g ∧ s.maker g = some m

structure Grouped (s : Churn σ κ) (a : Nat) (c : Conn σ κ) : Prop where
  held : s.timers.groups.holds c.group = true
  maker : s.maker c.group.idx = some (.conn a)
  idle : c.idleTimer.valid → s.timers.timers.holds c.idleTimer = true ∧
    (s.timers.node c.idleTimer.idx).groupLink = some c.group.idx

def ClientGroup (s : Churn σ κ) (k : κ) (g : Handle) : Prop :=
  g.valid → s.timers.groups.holds g = true ∧ s.maker g.idx = some (.client k)

structure TimerInv (base : Timers) (s : Churn σ κ) : Prop where
  rest : s.timers.Rest
  counted : s.timers.timers.Counted
  groups : s.timers.groups.live = base.groups.live+s.made
  made : ∀ g m, s.maker g = some m → s.timers.groups.alive g = true ∧ base.groups.alive g = false
  others : ∀ g, base.groups.alive g = true → s.timers.groups.alive g = true
  grouped : ∀ a c, s.objects a = some c → c.life = .active → s.Grouped a c
  shut : ∀ a c, s.objects a = some c → c.life ≠ .active → c.group = .none
  known : ∀ i, s.timers.timers.alive i = true →
    base.timers.alive i = true ∨ (s.timers.node i).id ∈ s.timers.dead ∨ s.Own i ∧ (s.timers.node i).period = 0
  kept : ∀ i, base.timers.alive i = true →
    s.timers.timers.alive i = true ∧ (s.timers.node i).id ∉ s.timers.dead ∧ ¬ s.Own i
  members : ∀ i g a, (s.timers.node i).groupLink = some g → s.maker g = some (.conn a) →
    ∃ c, s.objects a = some c ∧ c.life = .active ∧ c.group.idx = g
  clients : ∀ k, s.ClientGroup k (s.client k).group ∧ s.ClientGroup k (s.client k).heGroup

variable {base : Timers} {s t : Churn σ κ}

lemma create_timerInv (rest : base.Rest) (counted : base.timers.Counted) (clean : base.dead = [])
    (sinks : HandleTable Nat) : TimerInv base (create base sinks : Churn σ κ) where
  rest := rest
  counted := counted
  groups := rfl
  made := nofun
  others _ := id
  grouped := nofun
  shut := nofun
  known _ := .inl
  kept i live := ⟨live,by simp [create,clean],fun ⟨_,_,_,unmade⟩ => by cases unmade⟩
  members := nofun
  clients k := ⟨nofun,nofun⟩

lemma destroy_eq [DecidableEq σ] [DecidableEq κ] {a : Nat} {c : Conn σ κ} (here : s.objects a = some c) :
    s.destroy a = { s.cancelGroup c.group with
      objects := update s.objects a none
      pool := update s.pool c.owner (s.pool c.owner-1) } := by
  unfold destroy
  rw [here]

namespace TimerInv
lemma congr (inv : TimerInv base s) (timers : t.timers = s.timers) (maker : t.maker = s.maker) (made : t.made = s.made)
    (active : ∀ a c, c.life = .active → (t.objects a = some c ↔ s.objects a = some c))
    (shut : ∀ a c, t.objects a = some c → c.life ≠ .active → c.group = .none)
    (clients : ∀ k, (t.client k).group = (s.client k).group ∧ (t.client k).heGroup = (s.client k).heGroup) :
    TimerInv base t where
  rest := timers ▸ inv.rest
  counted := timers ▸ inv.counted
  groups := by
    rw [timers,made]
    exact inv.groups
  made := by
    rw [timers,maker]
    exact inv.made
  others := timers ▸ inv.others
  grouped := by
    intro a c here open'
    obtain ⟨held,own,idle⟩ := inv.grouped a c ((active a c open').1 here) open'
    exact ⟨timers ▸ held,maker ▸ own,timers ▸ idle⟩
  shut := shut
  known := by
    unfold Own
    rw [timers,maker]
    exact inv.known
  kept := by
    unfold Own
    rw [timers,maker]
    exact inv.kept
  members := by
    intro i g a linked own
    rw [timers] at linked
    rw [maker] at own
    obtain ⟨c,here,open',same⟩ := inv.members i g a linked own
    exact ⟨c,(active a c open').2 here,open',same⟩
  clients := by
    intro k
    unfold ClientGroup
    rw [timers,maker,(clients k).1,(clients k).2]
    exact inv.clients k

variable {timers : Timers} {g : Handle} {a : Nat} {c : Conn σ κ} {k : κ}

lemma retire {gone : NodeRef → Prop} {objects : Nat → Option (Conn σ κ)}
    (inv : TimerInv base s) (rest : timers.Rest) (retires : Retires gone s.timers timers)
    (own : ∀ i, gone i → s.Own i)
    (active : ∀ a c, objects a = some c → c.life = .active → ∃ before, s.objects a = some before ∧
    before.life = .active ∧ c.group = before.group ∧
    (c.idleTimer.valid → c.idleTimer = before.idleTimer ∧ ¬ gone c.idleTimer.idx))
    (shut : ∀ a c, objects a = some c → c.life ≠ .active → c.group = .none)
    (members : ∀ i g a, ¬ gone i → (s.timers.node i).groupLink = some g → s.maker g = some (.conn a) →
    ∃ c, objects a = some c ∧ c.life = .active ∧ c.group.idx = g) :
    TimerInv base { s with timers := timers, objects := objects } := by
  have linked (i : NodeRef) (g : Nat) : (timers.node i).groupLink = some g →
      ¬ gone i ∧ (s.timers.node i).groupLink = some g := by
    intro link
    have stays : ¬ gone i := by
      intro left
      rw [retires.unlinked i left] at link
      cases link
    exact ⟨stays,(retires.kept i stays).1 ▸ link⟩
  refine ⟨rest,retires.table.counted inv.counted,?_,?_,?_,?_,shut,?_,?_,?_,?_⟩
  · exact retires.groupTable.live.trans inv.groups
  · intro g m made
    rw [retires.groupTable.alive]
    exact inv.made g m made
  · intro g live
    rw [retires.groupTable.alive]
    exact inv.others g live
  · intro a c here open'
    obtain ⟨before,there,was,same,idle⟩ := active a c here open'
    obtain ⟨held,maker,timer⟩ := inv.grouped a before there was
    constructor
    · change timers.groups.holds c.group = true
      rw [same,retires.groupTable.holds]
      exact held
    · rw [same]
      exact maker
    intro valid
    obtain ⟨equal,stays⟩ := idle valid
    have old := timer (equal ▸ valid)
    rw [retires.table.holds,(retires.kept _ stays).1,same,equal]
    exact old
  · intro i live
    rw [retires.table.alive] at live
    change _ ∨ (timers.node i).id ∈ timers.dead ∨ (∃ g m, (timers.node i).groupLink = some g ∧ _) ∧
      (timers.node i).period = 0
    rw [retires.ids,retires.dead,retires.period]
    by_cases left : gone i
    · exact .inr (.inl (.inr ⟨i,left,rfl⟩))
    rw [(retires.kept i left).1]
    exact (inv.known i live).imp_right (.imp_left .inl)
  · intro i live
    obtain ⟨still,undead,unowned⟩ := inv.kept i live
    rw [retires.table.alive,retires.ids,retires.dead]
    refine ⟨still,?_,?_⟩
    · rintro (dead | ⟨j,left,same⟩)
      · exact undead dead
      -- a handle in the table belongs to one node
      have alive : s.timers.timers.alive j = true := by
        obtain ⟨g,_,link,_⟩ := own j left
        exact (inv.rest.sound.life.grouped j g link).1
      have ids := inv.rest.sound.life.ids
      rw [ids i still,ids j alive] at same
      have equal : i = j := congrArg Handle.idx same
      exact unowned (equal ▸ own j left)
    rintro ⟨g,m,link,made⟩
    exact unowned ⟨g,m,(linked i g link).2,made⟩
  · intro i g a link made
    obtain ⟨stays,link'⟩ := linked i g link
    exact members i g a stays link' made
  intro k
  change (_ → timers.groups.holds (s.client k).group = true ∧ _) ∧
    (_ → timers.groups.holds (s.client k).heGroup = true ∧ _)
  rw [retires.groupTable.holds,retires.groupTable.holds]
  exact inv.clients k

lemma member_iff (inv : TimerInv base s) {g : Nat} {i : NodeRef} :
    i ∈ s.timers.groups.node g ↔ (s.timers.node i).groupLink = some g :=
  inv.rest.sound.life.members g i

lemma shutGroup (inv : TimerInv base s) (here : s.objects a = some c) (open' : c.life = .active) (rest : timers.Rest)
    (retires : Retires (· ∈ s.timers.groups.node c.group.idx) s.timers timers) :
    TimerInv base ({ s with timers := timers }.setObject a { c with life := .closing, group := .none }) := by
  have maker := (inv.grouped a c here open').maker
  apply inv.retire rest retires
  · intro i member
    exact ⟨c.group.idx,.conn a,inv.member_iff.1 member,maker⟩
  · intro b d there active
    have other : b ≠ a := by
      intro same
      rw [same,update_self] at there
      cases there
      cases active
    rw [update_of_ne other] at there
    refine ⟨d,there,active,rfl,fun valid => ⟨rfl,?_⟩⟩
    intro member
    have own := inv.grouped b d there active
    have link := (own.idle valid).2
    rw [inv.member_iff.1 member] at link
    have same : c.group.idx = d.group.idx := some.inj link
    have makers := own.maker
    rw [← same,maker] at makers
    cases makers
    exact other rfl
  · intro b d there shut
    obtain ⟨rfl,rfl⟩ | ⟨_,there⟩ := lookup there
    · rfl
    · exact inv.shut b d there shut
  intro i g b stays link made
  obtain ⟨d,there,active,same⟩ := inv.members i g b link made
  have other : b ≠ a := by
    intro equal
    rw [equal,here] at there
    cases there
    exact stays (inv.member_iff.2 (same ▸ link))
  exact ⟨d,by rw [update_of_ne other]; exact there,active,same⟩

lemma cancelGroup_rest (rest : timers.Rest) (g : Handle) : (timers.cancelGroup g).2.Rest := by
  obtain ⟨sound,keeps⟩ := cancelGroup_sound rest.sound g
  exact ⟨sound,keeps.firing.trans rest.quiet,keeps.toStays.drained rest.drained⟩

section
variable (inv : TimerInv base s)
include inv

lemma close (here : s.objects a = some c) (open' : c.life = .active) : TimerInv base (s.close a c) := by
  apply inv.shutGroup here open' (cancelGroup_rest inv.rest c.group)
  apply (cancelGroup_retires inv.rest.sound c.group).congr
  intro i
  rw [(inv.grouped a c here open').held]
  simp

lemma retireClient {gone : NodeRef → Prop} {g : Nat} (rest : timers.Rest) (retires : Retires gone s.timers timers)
    (own : ∀ i, gone i → (s.timers.node i).groupLink = some g) (maker : s.maker g = some (.client k)) :
    TimerInv base { s with timers := timers } := by
  apply inv.retire rest retires
  · exact fun i left => ⟨g,.client k,own i left,maker⟩
  · intro a c here active
    refine ⟨c,here,active,rfl,fun valid => ⟨rfl,?_⟩⟩
    intro left
    have grouped := inv.grouped a c here active
    have link := (grouped.idle valid).2
    rw [own _ left] at link
    have same : g = c.group.idx := some.inj link
    have makers := grouped.maker
    rw [← same,maker] at makers
    cases makers
  · exact inv.shut
  · exact fun i g a _ => inv.members i g a

lemma fire {id : Handle} (fired : s.fire id = some t) : TimerInv base t := by
  obtain ⟨⟨held,queued⟩,taken⟩ := ite_none_right_eq_some.1 fired
  have live : s.timers.timers.alive id.idx = true := ((holds_iff _ _).1 held).2.2.1
  have once {m : Maker κ} (owner : (s.timers.node id.idx).groupLink.bind s.maker = some m) :
      (s.timers.node id.idx).period = 0 ∧ ∃ g, (s.timers.node id.idx).groupLink = some g ∧ s.maker g = some m := by
    obtain ⟨g,link,made⟩ := bind_eq_some_iff.1 owner
    have own : s.Own id.idx := ⟨g,m,link,made⟩
    refine ⟨?_,g,link,made⟩
    rcases inv.known id.idx live with old | dead | ⟨_,oneShot⟩
    · exact absurd own (inv.kept id.idx old).2.2
    · have unlinked := (inv.rest.sound.life.dead _ dead).2.1
      rw [inv.rest.sound.life.ids _ live] at unlinked
      exact absurd queued unlinked
    · exact oneShot
  split at taken
  · cases taken
  next owner =>
    cases taken
    obtain ⟨oneShot,g,link,made⟩ := once owner
    obtain ⟨rest,retires⟩ := fireTimer_retires inv.rest queued oneShot none
    refine inv.retireClient rest retires ?_ made
    rintro i (rfl | ⟨_,impossible,_⟩)
    · exact link
    · cases impossible
  next a owner =>
  obtain ⟨oneShot,g,link,made⟩ := once owner
  obtain ⟨c,here,active,same⟩ := inv.members id.idx g a link made
  rw [here] at taken
  dsimp only at taken
  rw [if_pos active] at taken
  cases taken
  obtain ⟨rest,retires⟩ := fireTimer_retires inv.rest queued oneShot (some c.group)
  apply inv.shutGroup here active rest
  apply retires.congr
  intro i
  have group := (inv.grouped a c here active).held
  constructor
  · rintro (rfl | ⟨_,equal,_,member⟩)
    · rw [same]
      exact inv.member_iff.2 link
    cases equal
    exact member
  · exact fun member => .inr ⟨c.group,rfl,group,member⟩

lemma cancelClientGroup (client : s.ClientGroup k g) : TimerInv base (s.cancelGroup g) := by
  cases held : s.timers.groups.holds g with
  | false =>
    have stale : s.timers.groups.get g = none := by simp [HandleTable.get,held]
    have same : (s.timers.cancelGroup g).2 = s.timers := by rw [Timers.cancelGroup,stale]
    unfold Churn.cancelGroup
    rw [same]
    exact inv
  | true =>
    have valid : g.valid = true := by
      simp [HandleTable.holds] at held
      exact held.1.1.1
    refine inv.retireClient (cancelGroup_rest inv.rest g) (cancelGroup_retires inv.rest.sound g) ?_ (client valid).2
    exact fun i left => inv.member_iff.1 left.2
end

lemma makeTimerGroup_rest (rest : timers.Rest) : timers.makeTimerGroup.2.Rest :=
  ⟨makeTimerGroup_sound rest.sound,rest.quiet,rest.drained⟩

lemma newGroup (inv : TimerInv base s) (m : Maker κ) :
    (∀ g m', s.maker g = some m' → (s.makeTimerGroup m).maker g = some m') ∧
    (∀ h, s.timers.groups.holds h = true → (s.makeTimerGroup m).timers.groups.holds h = true) ∧
    (s.makeTimerGroup m).timers.groups.holds s.timers.makeTimerGroup.1 = true ∧
    (s.makeTimerGroup m).maker s.timers.makeTimerGroup.1.idx = some m ∧
    ∀ i g, (s.timers.node i).groupLink = some g → (s.makeTimerGroup m).maker g = s.maker g := by
  have wf := inv.rest.sound.life.groups
  have dead : s.timers.groups.alive s.timers.makeTimerGroup.1.idx = false := nextIdx_dead wf
  have apart {g : Nat} (live : s.timers.groups.alive g = true) : g ≠ s.timers.makeTimerGroup.1.idx := by
    intro same
    rw [same,dead] at live
    contradiction
  refine ⟨?_,?_,?_,update_self _ _ _,?_⟩
  · intro g m' made
    exact (update_of_ne (apart (inv.made g m' made).1) _ _).trans made
  · intro h held
    exact (emplace_holds wf [] h).2 (.inr held)
  · exact emplace_holds_new wf []
  intro i g link
  exact update_of_ne (apart (inv.rest.sound.life.grouped i g link).2.2) _ _

lemma makeTimerGroup (inv : TimerInv base s) (m : Maker κ) : TimerInv base (s.makeTimerGroup m) := by
  obtain ⟨makers,holds,_,_,links⟩ := inv.newGroup m
  have wf := inv.rest.sound.life.groups
  have alive {g : Nat} (live : s.timers.groups.alive g = true) : (s.makeTimerGroup m).timers.groups.alive g = true := by
    change (s.timers.groups.emplace []).2.alive g = true
    rw [emplace_alive]
    split
    · rfl
    · exact live
  have own (i : NodeRef) : (s.makeTimerGroup m).Own i ↔ s.Own i := by
    constructor
    · rintro ⟨g,m',link,made⟩
      exact ⟨g,m',link,(links i g link).symm.trans made⟩
    rintro ⟨g,m',link,made⟩
    exact ⟨g,m',link,(links i g link).trans made⟩
  refine ⟨makeTimerGroup_rest inv.rest,inv.counted,?_,?_,?_,?_,inv.shut,?_,?_,?_,?_⟩
  · change s.timers.groups.live+1 = base.groups.live+(s.made+1)
    rw [inv.groups]
    omega
  · intro g m' made
    by_cases same : g = s.timers.makeTimerGroup.1.idx
    · have fresh : s.timers.groups.alive g = false := same ▸ nextIdx_dead wf
      constructor
      · change (s.timers.groups.emplace []).2.alive g = true
        rw [emplace_alive]
        exact if_pos same
      rw [← Bool.not_eq_true]
      intro old
      rw [inv.others g old] at fresh
      contradiction
    have before : s.maker g = some m' := (update_of_ne same _ _).symm.trans made
    exact ⟨alive (inv.made g m' before).1,(inv.made g m' before).2⟩
  · exact fun g live => alive (inv.others g live)
  · intro a c here active
    obtain ⟨held,maker,idle⟩ := inv.grouped a c here active
    exact ⟨holds _ held,makers _ _ maker,idle⟩
  · intro i live
    rw [own]
    exact inv.known i live
  · intro i live
    rw [own]
    exact inv.kept i live
  · intro i g a link made
    exact inv.members i g a link ((links i g link).symm.trans made)
  intro k
  obtain ⟨group,heGroup⟩ := inv.clients k
  exact ⟨fun valid => ⟨holds _ (group valid).1,makers _ _ (group valid).2⟩,
    fun valid => ⟨holds _ (heGroup valid).1,makers _ _ (heGroup valid).2⟩⟩

lemma arm {m : Maker κ} {objects : Nat → Option (Conn σ κ)} (delay : Int64)
    (inv : TimerInv base s) (held : s.timers.groups.holds g = true) (maker : s.maker g.idx = some m)
    (back : ∀ a c, objects a = some c → c.life = .active → ∃ before, s.objects a = some before ∧
    before.life = .active ∧ c.group = before.group ∧ (c.idleTimer.valid → c.idleTimer = before.idleTimer ∨
    c.idleTimer = (s.timers.after delay g).1 ∧ c.group = g))
    (forth : ∀ a c, s.objects a = some c → c.life = .active →
    ∃ after, objects a = some after ∧ after.life = .active ∧ after.group = c.group)
    (shut : ∀ a c, objects a = some c → c.life ≠ .active → c.group = .none)
    (fits : ∀ a, m = .conn a → ∃ c, s.objects a = some c ∧ c.life = .active ∧ c.group = g) :
    TimerInv base { s with timers := (s.timers.after delay g).2, objects := objects } := by
  have sound := inv.rest.sound
  obtain ⟨handle,armed⟩ := arm_spec sound.filing sound.life (s.timers.now+delay.toInt) 0 .fixedRate g false
  let next := (s.timers.after delay g).2
  change Armed s.timers next _ 0 .fixedRate g false at armed
  have dead := nextIdx_dead sound.life.timers
  have apart {i : NodeRef} (live : s.timers.timers.alive i = true) : i ≠ s.timers.timers.nextIdx := by
    intro same
    rw [same,dead] at live
    contradiction
  have link : (next.node s.timers.timers.nextIdx).groupLink = some g.idx := by
    rw [armed.self]
    simp [held]
  have holds := armed.holds_iff sound.life
  have alive (i : NodeRef) : next.timers.alive i = true ↔
      i = s.timers.timers.nextIdx ∨ s.timers.timers.alive i = true := by
    rw [armed.alive_eq]
    split <;> simp [*]
  have keeps := armed.keeps sound.life
  refine ⟨⟨armed.sound sound,keeps.firing.trans inv.rest.quiet,keeps.toStays.drained inv.rest.drained⟩,
    armed.table.counted (emplace_counted sound.life.timers inv.counted _),?_,?_,?_,?_,shut,
    ?_,?_,?_,?_⟩
  · exact armed.groupTable.live.trans inv.groups
  · intro h m' made
    rw [armed.groupTable.alive]
    exact inv.made h m' made
  · intro h live
    rw [armed.groupTable.alive]
    exact inv.others h live
  · intro a c here active
    obtain ⟨before,there,was,same,idle⟩ := back a c here active
    obtain ⟨group,own,timer⟩ := inv.grouped a before there was
    constructor
    · change next.groups.holds c.group = true
      rw [same,armed.groupTable.holds]
      exact group
    · rw [same]
      exact own
    intro valid
    rw [holds]
    rcases idle valid with old | ⟨new,equal⟩
    · obtain ⟨was,linked⟩ := timer (old ▸ valid)
      have live := ((holds_iff _ _).1 was).2.2.1
      rw [old,armed.others _ (apart live),same]
      exact ⟨.inr was,linked⟩
    have handle' : c.idleTimer = s.timers.timers.nextHandle := new.trans handle
    rw [handle',equal]
    exact ⟨.inl rfl,link⟩
  · intro i live
    change next.timers.alive i = true at live
    change _ ∨ (next.node i).id ∈ next.dead ∨ (∃ g m, (next.node i).groupLink = some g ∧ _) ∧ (next.node i).period = 0
    rcases (alive i).1 live with same | old
    · refine .inr (.inr ⟨⟨g.idx,m,same ▸ link,maker⟩,?_⟩)
      rw [same,armed.self]
      rfl
    rw [armed.others i (apart old),armed.dead]
    exact inv.known i old
  · intro i live
    obtain ⟨still,undead,unowned⟩ := inv.kept i live
    change next.timers.alive i = true ∧ (next.node i).id ∉ next.dead ∧ ¬ ∃ g m, (next.node i).groupLink = some g ∧ _
    rw [armed.others i (apart still),armed.dead]
    exact ⟨(alive i).2 (.inr still),undead,unowned⟩
  · intro i h a linked made
    change (next.node i).groupLink = some h at linked
    by_cases same : i = s.timers.timers.nextIdx
    · rw [same,link] at linked
      cases linked
      have conn : m = .conn a := some.inj (maker.symm.trans made)
      obtain ⟨c,here,active,equal⟩ := fits a conn
      obtain ⟨after,there,still,group⟩ := forth a c here active
      exact ⟨after,there,still,by rw [group,equal]⟩
    rw [armed.others i same] at linked
    obtain ⟨c,here,active,equal⟩ := inv.members i h a linked made
    obtain ⟨after,there,still,group⟩ := forth a c here active
    exact ⟨after,there,still,by rw [group,equal]⟩
  intro k
  unfold ClientGroup
  change (_ → next.groups.holds (s.client k).group = true ∧ _) ∧ (_ → next.groups.holds (s.client k).heGroup = true ∧ _)
  rw [armed.groupTable.holds,armed.groupTable.holds]
  exact inv.clients k

lemma armClient (delay : Int64) (inv : TimerInv base s) (client : s.ClientGroup k g)
    (valid : g.valid = true) : TimerInv base { s with timers := (s.timers.after delay g).2 } := by
  refine inv.arm delay (client valid).1 (client valid).2 ?_ ?_ inv.shut nofun
  · exact fun a c here active => ⟨c,here,active,rfl,fun _ => .inl rfl⟩
  · exact fun a c here active => ⟨c,here,active,rfl⟩

lemma cancel_rest (rest : timers.Rest) (id : Handle) : (timers.cancel id).2.Rest := by
  obtain ⟨sound,keeps⟩ := cancel_sound rest.sound id
  exact ⟨sound,keeps.firing.trans rest.quiet,keeps.toStays.drained rest.drained⟩

lemma cancelIdle (inv : TimerInv base s) (here : s.objects a = some c)
    (open' : c.life = .active) (valid : c.idleTimer.valid = true) :
    TimerInv base ({ s with timers := (s.timers.cancel c.idleTimer).2 }.setObject a { c with idleTimer := .none }) := by
  have own := inv.grouped a c here open'
  refine inv.retire (cancel_rest inv.rest _) (cancel_retires inv.rest.sound c.idleTimer) ?_ ?_ ?_ ?_
  · rintro i ⟨_,_,rfl⟩
    exact ⟨c.group.idx,.conn a,(own.idle valid).2,own.maker⟩
  · intro b d there active
    obtain ⟨rfl,rfl⟩ | ⟨same,there⟩ := lookup there
    · exact ⟨c,here,open',rfl,nofun⟩
    refine ⟨d,there,active,rfl,fun valid' => ⟨rfl,?_⟩⟩
    rintro ⟨_,_,equal⟩
    have other := inv.grouped b d there active
    have link := (other.idle valid').2
    rw [equal,(own.idle valid).2] at link
    have makers := other.maker
    rw [← some.inj link,own.maker] at makers
    cases makers
    exact same rfl
  · intro b d there shut
    obtain ⟨rfl,rfl⟩ | ⟨_,there⟩ := lookup there
    · exact absurd open' shut
    · exact inv.shut b d there shut
  intro i g b _ link made
  obtain ⟨d,there,active,group⟩ := inv.members i g b link made
  by_cases same : b = a
  · rw [same,here] at there
    cases there
    exact ⟨{ c with idleTimer := .none },by rw [same]; exact update_self _ _ _,active,group⟩
  · exact ⟨d,by rw [update_of_ne same]; exact there,active,group⟩

lemma armIdle (delay : Int64) (inv : TimerInv base s) (here : s.objects a = some c) (open' : c.life = .active) :
    TimerInv base ({ s with timers := (s.timers.after delay c.group).2 }.setObject a
      { c with idleTimer := (s.timers.after delay c.group).1 }) := by
  have own := inv.grouped a c here open'
  refine inv.arm delay own.held own.maker ?_ ?_ ?_ ?_
  · intro b d there active
    obtain ⟨rfl,rfl⟩ | ⟨_,there⟩ := lookup there
    · exact ⟨c,here,open',rfl,fun _ => .inr ⟨rfl,rfl⟩⟩
    · exact ⟨d,there,active,rfl,fun _ => .inl rfl⟩
  · intro b d there active
    by_cases same : b = a
    · rw [same,here] at there
      cases there
      exact ⟨{ c with idleTimer := (s.timers.after delay c.group).1 },by rw [same]; exact update_self _ _ _,active,rfl⟩
    · exact ⟨d,by rw [update_of_ne same]; exact there,active,rfl⟩
  · intro b d there shut
    obtain ⟨rfl,rfl⟩ | ⟨_,there⟩ := lookup there
    · exact absurd open' shut
    · exact inv.shut b d there shut
  intro b same
  cases same
  exact ⟨c,here,open',rfl⟩

lemma armIdleTimer (delay : Int64) (inv : TimerInv base s)
    (here : s.objects a = some c) (open' : c.life = .active) : TimerInv base (s.armIdleTimer a c delay) := by
  unfold Churn.armIdleTimer
  split
  next valid =>
    have cancelled := inv.cancelIdle here open' valid
    have armed := cancelled.armIdle delay (update_self _ _ _) open'
    simpa only [setObject,update_idem] using armed
  · exact inv.armIdle delay here open'

lemma bookkeeping (inv : TimerInv base s) : TimerInv base s.bookkeeping := by
  have life := inv.rest.sound.life
  obtain ⟨wf,nodes,holds⟩ := bookkeeping_spec life
  have survives (i : NodeRef) : s.timers.bookkeeping.timers.alive i = true ↔
      s.timers.timers.alive i = true ∧ (s.timers.node i).id ∉ s.timers.dead := by
    constructor
    · intro live
      obtain ⟨before,undead⟩ := (holds _).1 (wf.holds_own live)
      have alive := ((holds_iff _ _).1 before).2.2.1
      have own := life.id_of_holds before
      exact ⟨alive,by rw [own]; exact undead⟩
    intro ⟨live,undead⟩
    have held := (holds _).2 ⟨life.holds_id live,undead⟩
    rw [life.ids i live] at held
    exact ((holds_iff _ _).1 held).2.2.1
  refine ⟨bookkeeping_rest inv.rest,releaseAll_counted life.timers inv.counted s.timers.dead,
    inv.groups,inv.made,inv.others,?_,inv.shut,?_,?_,?_,inv.clients⟩
  · intro a c here active
    obtain ⟨held,maker,idle⟩ := inv.grouped a c here active
    refine ⟨held,maker,?_⟩
    intro valid
    obtain ⟨timer,link⟩ := idle valid
    change s.timers.bookkeeping.timers.holds c.idleTimer = true ∧
      (s.timers.bookkeeping.node c.idleTimer.idx).groupLink = _
    rw [holds,nodes]
    refine ⟨⟨timer,?_⟩,link⟩
    intro dead
    rw [(life.dead _ dead).2.2] at link
    cases link
  · intro i live
    obtain ⟨before,undead⟩ := (survives i).1 live
    change _ ∨ _ ∨ (∃ g m, (s.timers.bookkeeping.node i).groupLink = some g ∧ _) ∧
      (s.timers.bookkeeping.node i).period = 0
    rw [nodes]
    exact (inv.known i before).imp_right fun known => .inr (known.resolve_left undead)
  · intro i live
    obtain ⟨still,undead,unowned⟩ := inv.kept i live
    refine ⟨(survives i).2 ⟨still,undead⟩,nofun,?_⟩
    rintro ⟨g,m,link,made⟩
    change (s.timers.bookkeeping.node i).groupLink = some g at link
    rw [nodes] at link
    exact unowned ⟨g,m,link,made⟩
  intro i g a link made
  change (s.timers.bookkeeping.node i).groupLink = some g at link
  rw [nodes] at link
  exact inv.members i g a link made

lemma still {d : Conn σ κ} (inv : TimerInv base s) (here : s.objects a = some c) (shut : c.life ≠ .active)
    (shut' : d.life ≠ .active) (group : d.group = c.group) (timers : t.timers = s.timers) (maker : t.maker = s.maker)
    (made : t.made = s.made) (client : t.client = s.client) (objects : t.objects = update s.objects a (some d)) :
    TimerInv base t := by
  refine inv.congr timers maker made ?_ ?_ (by simp [client])
  · intro b e active
    rw [objects]
    by_cases same : b = a
    · subst same
      rw [update_self,here]
      constructor
      · rintro ⟨rfl⟩
        exact absurd active shut'
      rintro ⟨rfl⟩
      exact absurd active shut
    · rw [update_of_ne same]
  intro b e there closed
  rw [objects] at there
  obtain ⟨rfl,rfl⟩ | ⟨_,there⟩ := lookup there
  · exact group.trans (inv.shut b c here shut)
  · exact inv.shut b e there closed

lemma relist (inv : TimerInv base s) (timers : t.timers = s.timers) (maker : t.maker = s.maker)
    (made : t.made = s.made) (objects : t.objects = s.objects)
    (clients : ∀ k, (t.client k).group = (s.client k).group ∧ (t.client k).heGroup = (s.client k).heGroup) :
    TimerInv base t :=
  inv.congr timers maker made (by simp [objects]) (objects ▸ inv.shut) clients

variable [DecidableEq σ] [DecidableEq κ]

lemma construct (inv : TimerInv base s) (fresh : s.objects s.born = none) (owner : Owner σ κ) :
    TimerInv base (s.construct owner) := by
  obtain ⟨_,_,held,maker,_⟩ := inv.newGroup (.conn s.born)
  have made := inv.makeTimerGroup (.conn s.born)
  refine ⟨made.rest,made.counted,made.groups,made.made,made.others,?_,?_,made.known,made.kept,?_, made.clients⟩
  · intro a c here active
    obtain ⟨rfl,rfl⟩ | ⟨_,here⟩ := lookup here
    · exact ⟨held,maker,nofun⟩
    obtain ⟨group,own,idle⟩ := made.grouped a c here active
    exact ⟨group,own,idle⟩
  · intro a c here shut
    obtain ⟨rfl,rfl⟩ | ⟨_,here⟩ := lookup here
    · exact absurd rfl shut
    · exact inv.shut a c here shut
  intro i g a link own
  obtain ⟨c,here,active,group⟩ := made.members i g a link own
  have other : a ≠ s.born := by
    intro same
    change s.objects a = some c at here
    rw [same,fresh] at here
    cases here
  exact ⟨c,(update_of_ne other _ _).trans here,active,group⟩

lemma destroy {a : Nat} {c : Conn σ κ} (inv : TimerInv base s) (here : s.objects a = some c)
    (shut : c.life ≠ .active) : TimerInv base (s.destroy a) := by
  have none' : (s.timers.cancelGroup c.group).2 = s.timers := by
    rw [inv.shut a c here shut]
    rfl
  rw [destroy_eq here]
  refine inv.congr none' rfl rfl ?_ ?_ ?_
  · intro b d active
    by_cases same : b = a
    · constructor
      · intro there
        change update s.objects a none b = some d at there
        rw [same,update_self] at there
        cases there
      intro there
      rw [same,here] at there
      cases there
      exact absurd active shut
    change update s.objects a none b = some d ↔ _
    rw [update_of_ne same]
  · intro b d there closed
    by_cases same : b = a
    · change update s.objects a none b = some d at there
      rw [same,update_self] at there
      cases there
    · exact inv.shut b d ((update_of_ne same _ _).symm.trans there) closed
  · exact fun k => ⟨rfl,rfl⟩

omit [DecidableEq σ] in
lemma setClient {k : κ} {f : Client → Client} (inv : TimerInv base s) (group : s.ClientGroup k (f (s.client k)).group)
    (heGroup : s.ClientGroup k (f (s.client k)).heGroup) : TimerInv base (s.setClient k f) := by
  refine ⟨inv.rest,inv.counted,inv.groups,inv.made,inv.others,?_,inv.shut,inv.known,inv.kept,inv.members,?_⟩
  · intro a c here active
    obtain ⟨held,own,idle⟩ := inv.grouped a c here active
    exact ⟨held,own,idle⟩
  intro k'
  by_cases same : k' = k
  · subst same
    simp only [Churn.setClient,update_self]
    exact ⟨group,heGroup⟩
  simp only [Churn.setClient,update_of_ne same]
  exact inv.clients k'
end TimerInv
end AffiniX.Churn
