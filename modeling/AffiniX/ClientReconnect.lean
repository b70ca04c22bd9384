import AffiniX.ClientRules

/-! What a reconnect timer leads to: `begin_connect` with the addresses that are there, under the context that the timer
was armed in. -/
namespace AffiniX.ClientLoop
open Function Transition List

/-- Between `s` and `t` an attempt was launched, with a timer at `due` that gives it up. -/
structure Dials (s t : ClientLoop) (due : Int) : Prop where
  born : t.book.born = s.book.born+1
  connecting : (t.book.conns s.book.born).state = .connecting
  bounded : ∃ timer ∈ t.timers, timer.due = due ∧
    (timer.alarm = .connectTimeout s.book.born ∨ timer.alarm = .deadline (s.sets+1))

/-- There is an address, and for the one connection that is made without a race the pool has room. -/
def Launches (s : ClientLoop) (d : Dial) : Prop :=
  s.client.addrs ≠ 0 ∧ (d.built ∨ s.client.happyEyeballs ∧ 1 < s.client.addrs)

section
variable {s t : ClientLoop} {d : Dial}

lemma openConn_dials (built : d.built) : Dials s (s.dropConn.openConn d) (s.now+s.connectBudget d) := by
  obtain ⟨book,born,same⟩ := dropConn_eq s
  rw [same,openConn,if_pos built]
  refine ⟨congrArg (·+1) born,?_,_,mem_append_right _ (mem_singleton_self _),rfl,.inl ?_⟩
  · simp [ConnBook.construct,born]
  · rw [← born]

lemma armStagger_dials {due : Int} (dials : Dials s t due) : Dials s t.armStagger due := by
  obtain ⟨born,connecting,timer,armed,ends⟩ := dials
  unfold armStagger
  split
  · exact ⟨born,connecting,timer,armed,ends⟩
  · exact ⟨born,connecting,timer,mem_append_left _ armed,ends⟩

lemma connectNext_made {sockets : List Bool} (made : false ∉ sockets) (named : s.client.addrIdx < s.client.addrs) :
    connectNext d sockets s = (s.setClient fun c => { c with addrIdx := c.addrIdx+1 }).dropConn.openConn d := by
  unfold connectNext
  rw [if_neg (Nat.not_le.2 named)]
  dsimp only
  split
  next unmade => simp at made
  · rfl

lemma beginConnect_dials (s : ClientLoop) (made : false ∉ d.sockets) (launches : s.Launches d) :
    Dials s (s.beginConnect d) (s.now+s.connectBudget d) := by
  obtain ⟨named,room⟩ := launches
  unfold beginConnect
  split
  · apply armStagger_dials
    unfold heLaunch
    rw [if_neg (by simp [heSet,setClient,named])]
    dsimp only
    split
    next unmade => simp [unmade] at made
    · refine ⟨rfl,?_,_,mem_append_right _ (mem_singleton_self _),rfl,.inr rfl⟩
      simp [launchAttempt,ConnBook.construct,heSet,setClient]
  next single =>
  rw [connectNext_made made (Nat.pos_of_ne_zero named)]
  have dials := openConn_dials (s := (s.setClient fun c => { c with addrIdx := 0 }).setClient
    fun c => { c with addrIdx := c.addrIdx+1 }) (room.resolve_right single)
  exact ⟨dials.born,dials.connecting,dials.bounded⟩

lemma beginConnect_silent (s : ClientLoop) (made : false ∉ d.sockets) (still : ¬ s.Launches d) :
    (s.beginConnect d).book.born = s.book.born := by
  unfold beginConnect
  split
  next race => exact absurd ⟨by omega,.inr race⟩ still
  have retry (s : ClientLoop) : (s.scheduleReconnect d).book = s.book := by
    obtain ⟨_,_,same⟩ := scheduleReconnect_eq d s
    rw [same]
  by_cases named : s.client.addrs = 0
  · unfold connectNext
    rw [if_pos (by simp [setClient,named]),retry]
    rfl
  have unbuilt : ¬ d.built = true := fun built => still ⟨named,.inl built⟩
  rw [connectNext_made made (Nat.pos_of_ne_zero named),openConn,if_neg unbuilt,retry]
  obtain ⟨book,born,same⟩ := dropConn_eq ((s.setClient fun c => { c with addrIdx := 0 }).setClient
    fun c => { c with addrIdx := c.addrIdx+1 })
  rw [same]
  exact born

/-- A reconnect timer that fires launches an attempt exactly when there is something to connect to. -/
lemma fire_dials {j : Nat} (armed : s.timers[j]?.map (·.alarm) = some .reconnect) (fired : s.step (.fire j d) = some t) (made : false ∉ d.sockets) :
    (s.Launches d → Dials s t (s.now+s.connectBudget d)) ∧ ∀ due, Dials s t due → s.Launches d := by
  obtain ⟨timer,armed,kind⟩ := Option.map_eq_some_iff.1 armed
  simp only [step,armed] at fired
  obtain ⟨_,rfl⟩ := enabled fired
  rw [kind]
  refine ⟨fun launches => ?_,fun due dials => by_contra fun still => ?_⟩
  · have dials := beginConnect_dials { s with timers := s.timers.eraseIdx j } made launches
    exact ⟨dials.born,dials.connecting,dials.bounded⟩
  · exact absurd ((beginConnect_silent { s with timers := s.timers.eraseIdx j } made still).symm.trans dials.born) (Nat.ne_of_lt (Nat.lt_succ_self _))
end

/-- The number of addresses, as resolutions set it. -/
def Move.addrs (n : Nat) : Move → Nat
  | .start (.addrs m) _ | .resolved (some m) _ => m
  | _ => n

lemma addrs_closed (n : Nat) : Closed fun s => s.client.addrs = n where
  client _ _ _ before same _ := same.trans before
  fewer _ _ before _ := before
  arm _ _ _ _ before _ _ := before
  set _ _ before := before
  rest _ _ _ _ _ before := before

lemma step_addrs {s t : ClientLoop} {m : Move} (taken : s.step m = some t) :
    t.client.addrs = m.addrs s.client.addrs := by
  cases m with
  | tick =>
    cases taken
    rfl
  | start how d =>
    obtain ⟨_,taken⟩ := Option.ite_none_left_eq_some.1 taken
    cases taken
    cases how with
    | addrs n => exact (addrs_closed n).beginConnect d rfl
    | failed | later => rfl
  | resolved addrs d =>
    obtain ⟨_,rfl⟩ := enabled taken
    cases addrs with
    | none => exact (addrs_closed _).scheduleReconnect d rfl
    | some n => exact (addrs_closed n).beginConnect d rfl
  | connected a =>
    obtain ⟨_,rfl⟩ := enabled taken
    unfold connected heWin cancelHeGroup
    split_ifs
    · rfl
    · dsimp only [Move.addrs]
      split <;> rfl
    · rfl
    · rfl
  | refused | close | message =>
    obtain ⟨_,rfl⟩ := enabled taken
    rfl
  | notify d =>
    rw [step] at taken
    split at taken
    · cases taken
    cases taken
    exact (addrs_closed _).onConnGone d _ _ rfl
  | fire j d =>
    rw [step] at taken
    split at taken
    · cases taken
    obtain ⟨_,rfl⟩ := enabled taken
    exact (addrs_closed _).ring d _ rfl

lemma run_addrs {s t : ClientLoop} {moves : List Move} (run : Exec (Via step) s moves t) :
    t.client.addrs = moves.foldl Move.addrs s.client.addrs := by
  induction run with
  | nil => rfl
  | cons s m u _ t taken _ ih => rw [ih,step_addrs taken,foldl_cons]

/-- A reconnect timer launches an attempt exactly if the resolutions have left an address and, where there is no race,
the pool has room. -/
theorem reconnect_dials {happyEyeballs autoReconnect : Bool} {connectTimeout heStagger : Int} {s t : ClientLoop}
    {moves : List Move} {j : Nat} {d : Dial}
    (run : Exec (Via step) (create happyEyeballs autoReconnect connectTimeout heStagger) moves s)
    (armed : s.timers[j]?.map (·.alarm) = some .reconnect) (fired : s.step (.fire j d) = some t)
    (made : false ∉ d.sockets) :
    (∃ due, Dials s t due) ↔ moves.foldl Move.addrs 0 ≠ 0 ∧
      (d.built ∨ s.client.happyEyeballs ∧ 1 < moves.foldl Move.addrs 0) := by
  obtain ⟨dials,only⟩ := fire_dials armed fired made
  have named : s.client.addrs = moves.foldl Move.addrs 0 := run_addrs run
  rw [← named]
  exact ⟨fun ⟨due,launched⟩ => only due launched,fun launches => ⟨_,dials launches⟩⟩

def redial : List Move := [.start (.addrs 1) {},.refused 0,.notify { delay := 1 },.tick 1]

theorem redial_dials : ∃ s t, Exec (Guarded (Via step) fun _ _ => True) (create false true 5 1)
    redial s ∧ step s (.fire 1 {}) = some t ∧ ∃ due, Dials s t due :=
  Exec.stepped_of_drive (P := fun s _ => s.timers[1]?.map (·.alarm) = some .reconnect) (by decide +kernel)
    fun _ _ run fired armed => (reconnect_dials run.of_guarded armed fired not_mem_nil).2
      ⟨by decide,.inl rfl⟩

def unresolved (now : Int) : ClientLoop :=
  { create false true 5 1 with
    client := { happyEyeballs := false, autoReconnect := true, state := .reconnectWait }
    started := true, now := now, groups := 1, group := 1, timers := [⟨now+1,1,.reconnect⟩] }

/-- After a resolution that failed, no number of reconnects launches an attempt or resolves again. -/
theorem unresolved_cycles : (∀ now, (unresolved now).book.born = 0 ∧ (unresolved now).client.resolving = false) ∧
    ∀ n : Nat, Exec (Via step) (create false true 5 1)
      (.start .later {}::.resolved none { delay := 1 }::(replicate n [.tick 1,.fire 0 { delay := 1 }]).flatten)
      (unresolved n) := by
  refine ⟨fun _ => ⟨rfl,rfl⟩,fun n => .cons _ _ _ _ _ rfl (.cons _ _ (unresolved 0) _ _ rfl ?_)⟩
  have cycles (now : Int) : Exec (Via step) (unresolved now)
      (replicate n [.tick 1,.fire 0 { delay := 1 }]).flatten (unresolved (now+n)) := by
    induction n generalizing now with
    | zero =>
      rw [Nat.cast_zero,add_zero]
      exact .nil _
    | succ n ih =>
      have next := ih (now+1)
      rw [add_assoc,add_comm 1,← Nat.cast_succ] at next
      exact .cons _ _ _ _ _ rfl (.cons _ _ (unresolved (now+1)) _ _ (if_pos le_rfl) next)
  exact zero_add (n : Int) ▸ cycles 0

/-- The client with `start` called under the deadline `ambient`; a timer is marked with the deadline and the reading it
was armed at. -/
structure Scoped where
  loop : ClientLoop
  ambient : Option Int
  marks : List (Option Int × Int)

namespace Scoped
variable (s : Scoped)

/-- A timer restores its context and a resolver's reply that of the request; a deferred task runs under the
empty one. -/
def scope : Move → Option Int
  | .start _ _ | .resolved _ _ => s.ambient
  | .fire j _ => s.marks[j]?.bind Prod.fst
  | _ => none

/-- The wheel fires no timer at the reading it was armed at. -/
def early : Move → Bool
  | .fire j _ => s.marks[j]?.any (s.loop.now ≤ ·.2)
  | _ => false

def remaining (deadline : Option Int) (now : Int) : Option Int := deadline.map fun t => max 0 (t-now)

def under (left : Option Int) : Move → Move
  | .start how d => .start how { d with remaining := left }
  | .resolved addrs d => .resolved addrs { d with remaining := left }
  | .notify d => .notify { d with remaining := left }
  | .fire j d => .fire j { d with remaining := left }
  | m => m

def step (m : Move) : Option Scoped := if s.early m then none
  else (s.loop.step (under (remaining (s.scope m) s.loop.now) m)).map fun t =>
    let old := s.loop.timers.zip s.marks
    let left := match m with
      | .fire j _ => old.eraseIdx j
      | _ => old
    -- A group is cancelled as a whole, and new timers come last.
    let kept := (left.filter fun p => t.timers.any (·.group = p.1.group)).map Prod.snd
    { s with loop := t, marks := kept++.replicate (t.timers.length-kept.length) (s.scope m,s.loop.now) }

/-- The timers of a client run under no deadline or under that of `start`. -/
def Inherited (s : Scoped) : Prop := ∀ mark ∈ s.marks, mark.1 = none ∨ mark.1 = s.ambient

lemma Inherited.scope {s : Scoped} (inherited : s.Inherited) (m : Move) : s.scope m = none ∨ s.scope m = s.ambient := by
  cases m with
  | start | resolved => exact .inr rfl
  | tick | connected | refused | close | message | notify => exact .inl rfl
  | fire j d =>
    simp only [Scoped.scope]
    cases marked : s.marks[j]? with
    | none => exact .inl rfl
    | some mark => exact inherited mark (mem_of_getElem? marked)

lemma step_inherited {s t : Scoped} {m : Move} (inherited : s.Inherited) (taken : s.step m = some t) :
    t.Inherited := by
  obtain ⟨_,taken⟩ := Option.ite_none_left_eq_some.1 taken
  obtain ⟨next,_,rfl⟩ := Option.map_eq_some_iff.1 taken
  intro _ member
  rcases mem_append.1 member with kept | armed
  · obtain ⟨⟨timer,mark⟩,paired,rfl⟩ := mem_map.1 kept
    replace paired := (mem_filter.1 paired).1
    have before : (timer,mark) ∈ s.loop.timers.zip s.marks := by
      split at paired
      · exact mem_of_mem_eraseIdx paired
      · exact paired
    exact inherited _ (of_mem_zip before).2
  · obtain rfl := (mem_replicate.1 armed).2
    exact inherited.scope m

/-- An attempt of a reconnect timer has the budget of the context of the timer, that of `start` or an empty one:
positive exactly while the deadline is to come. -/
theorem reconnect_budget {happyEyeballs autoReconnect : Bool} {connectTimeout heStagger : Int} {ambient : Option Int}
    {s t : Scoped} {moves : List Move} {j : Nat} {d : Dial}
    (run : Exec (Via step)
      ⟨create happyEyeballs autoReconnect connectTimeout heStagger,ambient,[]⟩ moves s)
    (armed : s.loop.timers[j]?.map (·.alarm) = some .reconnect) (fired : s.step (.fire j d) = some t)
    (made : false ∉ d.sockets) (launches : s.loop.Launches d) :
    (s.scope (.fire j d) = none ∨ s.scope (.fire j d) = s.ambient) ∧
    ∃ budget, Dials s.loop t.loop (s.loop.now+budget) ∧
      (0 < budget ↔ 0 < s.loop.connectTimeout ∧ ∀ deadline ∈ s.scope (.fire j d), s.loop.now < deadline) := by
  have inherited := run.invariant Inherited (fun _ _ _ taken inherited => step_inherited inherited taken) nofun
  obtain ⟨_,fired⟩ := Option.ite_none_left_eq_some.1 fired
  obtain ⟨next,rings,rfl⟩ := Option.map_eq_some_iff.1 fired
  refine ⟨inherited.scope _,_,(fire_dials armed rings made).1 launches,?_⟩
  unfold connectBudget remaining
  cases s.scope (.fire j d) with
  | none => simp
  | some deadline =>
    change 0 < min _ (max 0 _) ↔ _
    simp

theorem redial_budget : ∃ s t, Exec (Guarded (Via step) fun _ _ => True)
    ⟨create false true 5 1,some 3,[]⟩ redial s ∧ step s (.fire 1 {}) = some t ∧
      ∃ budget > 0, Dials s.loop t.loop (s.loop.now+budget) :=
  Exec.stepped_of_drive (P := fun s _ => s.loop.timers[1]?.map (·.alarm) = some .reconnect ∧ s.loop.client.addrs = 1 ∧
      s.loop.connectTimeout = 5 ∧ s.scope (.fire 1 {}) = none) (by decide +kernel)
    fun _ _ run fired ⟨armed,named,timeout,scope⟩ =>
      have ⟨_,budget,dials,positive⟩ := reconnect_budget run.of_guarded armed fired not_mem_nil ⟨by omega,.inl rfl⟩
      ⟨budget,positive.2 ⟨by omega,by simp [scope]⟩,dials⟩

/-- `start` gets no socket under its deadline of 3. The timer of the next try fires later, and the attempt is given up
at the next reading. -/
theorem late_attempt_ends : ∃ t, Exec (Via step) ⟨create false true 5 1,some 3,[]⟩
    [.start (.addrs 1) { sockets := [false], delay := 10 },.tick 10,.fire 0 {},.tick 1,.fire 0 {}] t ∧
      t.loop.now = 11 ∧ t.loop.book.born = 1 ∧ t.loop.book.deferred = [(0,.connectFailed)] :=
  Exec.run_of_drive (by decide +kernel) fun _ _ seen => seen
end Scoped
end AffiniX.ClientLoop
