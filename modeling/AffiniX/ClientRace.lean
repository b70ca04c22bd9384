import AffiniX.ClientRules

/-! Races of connection attempts: a client that waits to reconnect or holds a connection has no attempt. -/
namespace AffiniX.ClientLoop
open Transition List ConnBook.Sound Bool Nat

def reconnects (timers : List ArmedTimer) : Nat := timers.countP (·.alarm = .reconnect)

structure Control (c : TcpClient) (started : Bool) (timers : List ArmedTimer) : Prop where
  held : c.conn ≠ none → c.pending = [] ∧ Spent c
  won : c.heWon → c.pending = []
  tries : c.pending ≠ [] → c.state = .connecting
  mode : c.pending ≠ [] ∨ c.closing ≠ [] → c.heAddrs ≠ 0
  racer : c.heAddrs ≠ 0 → c.happyEyeballs
  waits : reconnects timers ≠ 0 → c.conn = none ∧ c.pending = [] ∧ Spent c
  single : reconnects timers ≤ 1
  early : c.resolving ∨ started = false → c.conn = none ∧ c.pending = [] ∧ reconnects timers = 0 ∧ Spent c
  resolver : c.resolving → started = true

structure Shown (c : TcpClient) (b : ConnBook) (sets : Nat) : Prop where
  winner : c.heWon → ∃ a ∈ b.opens, (b.conns a).attempt ∧ (b.conns a).set = sets
  state : ∀ a, c.conn = some a → a ∈ b.opens → c.state = .connected

structure Inv (s : ClientLoop) : Prop where
  control : Control s.client s.started s.timers
  book : s.book.Sound s.client.conn s.client.pending s.client.closing s.client.heWon s.sets
  shown : Shown s.client s.book s.sets

structure Free (c : TcpClient) (started : Bool) (timers : List ArmedTimer) : Prop where
  conn : c.conn = none
  waiting : reconnects timers = 0
  resolving : c.resolving = false
  started : started = true

structure Ready (s : ClientLoop) : Prop extends Free s.client s.started s.timers where
  pending : s.client.pending = []

lemma create_inv (happyEyeballs autoReconnect : Bool) (connectTimeout heStagger : Int) :
    Inv (create happyEyeballs autoReconnect connectTimeout heStagger) where
  control := ⟨nofun,nofun,nofun,nofun,nofun,nofun,zero_le _,fun _ => ⟨rfl,rfl,rfl,.inr le_rfl⟩,nofun⟩
  book := ConnBook.create_sound _ _
  shown := ⟨nofun,nofun⟩

section
variable {timers : List ArmedTimer} {t : ArmedTimer}

lemma reconnects_append (other : List ArmedTimer) :
    reconnects (timers++other) = reconnects timers+reconnects other := countP_append

lemma reconnects_arm (other : t.alarm ≠ .reconnect) : reconnects (timers++[t]) = reconnects timers := by
  rw [reconnects_append]
  simp [reconnects,other]

lemma reconnects_sublist {fewer : List ArmedTimer} (sub : fewer.Sublist timers) :
    reconnects fewer ≤ reconnects timers := sub.countP_le
end
section
variable {c : TcpClient} {started : Bool} {timers : List ArmedTimer}

lemma Control.fewer {fewer : List ArmedTimer} (control : Control c started timers)
    (less : reconnects fewer ≤ reconnects timers) : Control c started fewer :=
  { control with
    waits some' := control.waits (by omega)
    single := le_trans less control.single
    early first := by
      obtain ⟨conn,pending,_,spent⟩ := control.early first
      exact ⟨conn,pending,by omega,spent⟩ }

lemma Control.racing (control : Control c started timers) (racing : c.pending ≠ [] ∨ ¬ Spent c) :
    Free c started timers := by
  have none' (both : c.pending = [] ∧ Spent c) : False := by
    rcases racing with some' | unspent
    · exact some' both.1
    · exact unspent both.2
  constructor
  · exact not_not.1 fun held => none' (control.held held)
  · exact not_not.1 fun waits => none' (control.waits waits).2
  · rw [← not_eq_true]
    intro resolving
    obtain ⟨_,pending,_,spent⟩ := control.early (.inl resolving)
    exact none' ⟨pending,spent⟩
  rw [← not_eq_false]
  intro unstarted
  obtain ⟨_,pending,_,spent⟩ := control.early (.inr unstarted)
  exact none' ⟨pending,spent⟩

lemma Free.not_early (free : Free c started timers) : ¬ (c.resolving ∨ started = false) := by
  rintro (resolving | unstarted)
  · cases free.resolving.symm.trans resolving
  · cases free.started.symm.trans unstarted

lemma Free.control (free : Free c started timers) (won : c.heWon → c.pending = [])
    (tries : c.pending ≠ [] → c.state = .connecting)
    (mode : c.pending ≠ [] ∨ c.closing ≠ [] → c.heAddrs ≠ 0) (racer : c.heAddrs ≠ 0 → c.happyEyeballs) :
    Control c started timers where
  held some' := absurd free.conn some'
  won := won
  tries := tries
  mode := mode
  racer := racer
  waits some' := absurd free.waiting some'
  single := by rw [free.waiting]; exact zero_le _
  early first := absurd first free.not_early
  resolver _ := free.started
end
section
variable {s : ClientLoop} (d : Dial)

lemma scheduleReconnect_inv (inv : Inv s) (ready : Ready s) (spent : Spent s.client) : Inv (s.scheduleReconnect d) := by
  unfold scheduleReconnect
  split
  · have one : reconnects (s.timers++[⟨s.now+d.delay,s.group,.reconnect⟩]) = 1 := by
      rw [reconnects_append,ready.waiting]
      rfl
    refine ⟨⟨inv.control.held,inv.control.won,?_,inv.control.mode,inv.control.racer,?_,?_,?_,
      inv.control.resolver⟩,inv.book,inv.shown.winner,?_⟩
    · exact fun some' => absurd ready.pending some'
    · exact fun _ => ⟨ready.conn,ready.pending,spent⟩
    · exact le_of_eq one
    · exact fun first => absurd first ready.not_early
    · exact fun a held => nomatch ready.conn.symm.trans held
  · exact inv

lemma setState_inv (inv : Inv s) (state : ClientState) (ready : Ready s) : Inv (s.setState state) :=
  ⟨⟨inv.control.held,inv.control.won,fun some' => absurd ready.pending some',inv.control.mode,
    inv.control.racer,inv.control.waits,inv.control.single,inv.control.early,inv.control.resolver⟩,
    inv.book,inv.shown.winner,fun _ held => nomatch ready.conn.symm.trans held⟩

lemma Inv.winner_construct (inv : Inv s) (attempt : Bool) (set : Nat) (won : s.client.heWon) : ∃ a ∈ s.book.opens,
    ((s.book.construct attempt set).conns a).attempt ∧ ((s.book.construct attempt set).conns a).set = s.sets := by
  obtain ⟨a,opened,tried⟩ := inv.shown.winner won
  have old : a ≠ s.book.born := Nat.ne_of_lt (inv.book.opened a opened).1
  refine ⟨a,opened,?_⟩
  rw [construct_conns,if_neg old]
  exact tried

lemma openConn_inv (inv : Inv s) (ready : Ready s) (spent : Spent s.client) : Inv (s.openConn d) := by
  unfold openConn
  split
  · have same : reconnects (s.timers++[⟨s.now+s.connectBudget d,s.group,.connectTimeout s.book.born⟩]) =
        reconnects s.timers := reconnects_arm nofun
    have book := inv.book
    rw [ready.conn] at book
    refine ⟨⟨?_,inv.control.won,?_,inv.control.mode,inv.control.racer,?_,?_,?_,
      inv.control.resolver⟩,book.openConn _,?_⟩
    · exact fun _ => ⟨ready.pending,spent⟩
    · exact fun some' => absurd ready.pending some'
    · exact fun some' => absurd (same.trans ready.waiting) some'
    · exact le_trans (le_of_eq same) inv.control.single
    · exact fun first => absurd first ready.not_early
    refine ⟨inv.winner_construct false s.sets,?_⟩
    rintro a ⟨⟩ opened
    exact absurd opened inv.book.born_fresh.2.2.2.2.1
  · exact scheduleReconnect_inv d inv ready spent

lemma connectNext_inv (sockets : List Bool) (inv : Inv s) (ready : Ready s) (spent : Spent s.client) :
    Inv (connectNext d sockets s) := by
  have exhausted (s : ClientLoop) (inv : Inv s) (ready : Ready s) (spent : Spent s.client) :
      Inv ((s.setState .disconnected).scheduleReconnect d) :=
    scheduleReconnect_inv d (setState_inv inv _ ready) ⟨⟨ready.1.1,ready.1.2,ready.1.3,ready.1.4⟩,ready.2⟩ spent
  have opens (s : ClientLoop) (inv : Inv s) (ready : Ready s) (spent : Spent s.client) :
      Inv (openConn (dropConn s) d) := by
    have none' : dropConn s = s := by
      unfold dropConn
      rw [ready.conn]
    rw [none']
    exact openConn_inv d inv ready spent
  have advance (s : ClientLoop) (inv : Inv s) : Inv (s.setClient fun c => { c with addrIdx := c.addrIdx+1 }) :=
    ⟨⟨inv.control.1,inv.control.2,inv.control.3,inv.control.4,inv.control.5,inv.control.6,
      inv.control.7,inv.control.8,inv.control.9⟩,inv.book,inv.shown.1,inv.shown.2⟩
  induction sockets generalizing s with
  | nil =>
    rw [connectNext]
    split
    · exact exhausted s inv ready spent
    · exact opens _ (advance s inv) ⟨⟨ready.1.1,ready.1.2,ready.1.3,ready.1.4⟩,ready.2⟩ spent
  | cons ok _ ih =>
    rw [connectNext]
    split
    · exact exhausted s inv ready spent
    cases ok with
    | false => exact ih (advance s inv) ⟨⟨ready.1.1,ready.1.2,ready.1.3,ready.1.4⟩,ready.2⟩ spent
    | true => exact opens _ (advance s inv) ⟨⟨ready.1.1,ready.1.2,ready.1.3,ready.1.4⟩,ready.2⟩ spent
end
section
variable {s : ClientLoop} (d : Dial)

lemma launchAttempt_inv (inv : Inv s) (free : Free s.client s.started s.timers)
    (unwon : s.client.heWon = false) (candidates : s.client.heAddrs ≠ 0) : Inv s.launchAttempt where
  control := Free.control ⟨free.1,free.2,free.3,free.4⟩
    (fun won => absurd (unwon.symm.trans won) (by decide)) (fun _ => rfl) (fun _ => candidates)
    inv.control.racer
  book := inv.book.launch
  shown := ⟨fun won => absurd (unwon.symm.trans won) (by decide),fun _ held => nomatch free.conn.symm.trans held⟩

lemma heNext_inv (inv : Inv s) (free : Free s.client s.started s.timers) :
    Inv (s.setClient fun c => { c with heNext := c.heNext+1 }) where
  control := Free.control ⟨free.1,free.2,free.3,free.4⟩ inv.control.won inv.control.tries
    inv.control.mode inv.control.racer
  book := inv.book
  shown := ⟨inv.shown.winner,inv.shown.state⟩

lemma heLaunch_inv (sockets : List Bool) (inv : Inv s) : Inv (heLaunch d sockets s) := by
  -- the index of a candidate is taken only while the set can still be won
  let Racing (s : ClientLoop) : Prop := Inv s ∧ Free s.client s.started s.timers ∧
    s.client.heWon = false ∧ s.client.heAddrs ≠ 0
  refine heLaunch_rule d (N := Racing) ?_ ?_ ?_ ?_ ?_ ?_ sockets inv
  · exact fun s inv _ => inv
  · intro s inv unspent
    have free := inv.control.racing (.inr unspent)
    obtain ⟨unwon,_⟩ := not_or.1 unspent
    have candidates : s.client.heAddrs ≠ 0 := by omega
    exact ⟨heNext_inv inv free,⟨free.1,free.2,free.3,free.4⟩,eq_false_iff.2 unwon,candidates⟩
  · exact fun s racing => launchAttempt_inv racing.1 racing.2.1 racing.2.2.1 racing.2.2.2
  · exact fun s racing => racing.1
  · exact fun s racing => racing.1
  intro s racing idle spent
  obtain ⟨inv,free,_⟩ := racing
  exact scheduleReconnect_inv d (setState_inv inv _ ⟨free,idle⟩) ⟨⟨free.1,free.2,free.3,free.4⟩,idle⟩ spent

lemma heAttemptDone_inv (inv : Inv s) (free : Free s.client s.started s.timers) :
    Inv (heAttemptDone d (heLaunch d d.sockets) s) := by
  unfold heAttemptDone
  split
  · exact inv
  next idle =>
  have pending : s.client.pending = [] := not_not.1 (not_or.1 idle).2
  split
  · exact heLaunch_inv d _ inv
  next exhausted =>
  exact scheduleReconnect_inv d (setState_inv inv _ ⟨free,pending⟩)
    ⟨⟨free.1,free.2,free.3,free.4⟩,pending⟩ (.inr (Nat.le_of_not_lt exhausted))

lemma armStagger_inv (inv : Inv s) : Inv s.armStagger := by
  unfold armStagger
  split
  · exact inv
  · exact ⟨inv.control.fewer (le_of_eq (reconnects_arm nofun)),inv.book,inv.shown⟩

lemma heSet_inv (inv : Inv s) (ready : Ready s) (happy : s.client.happyEyeballs)
    (many : 1 < s.client.addrs) : Inv (s.heSet d) := by
  have same : reconnects (s.heSet d).timers = reconnects s.timers := reconnects_arm nofun
  have book := inv.book
  rw [ready.pending] at book
  have begins := book.begins
  rw [← ready.pending] at begins
  refine ⟨?_,begins,nofun,fun _ held => nomatch ready.conn.symm.trans held⟩
  exact Free.control ⟨ready.conn,same.trans ready.waiting,ready.resolving,ready.started⟩ nofun
    (fun some' => absurd ready.pending some') (fun _ => ne_of_gt (lt_of_succ_lt many))
    (fun _ => happy)

lemma heBegin_inv (inv : Inv s) (ready : Ready s) (happy : s.client.happyEyeballs)
    (many : 1 < s.client.addrs) : Inv (s.heBegin d) :=
  armStagger_inv (heLaunch_inv d _ (heSet_inv d inv ready happy many))

lemma beginConnect_inv (inv : Inv s) (ready : Ready s) (spent : Spent s.client) : Inv (s.beginConnect d) := by
  have first : Inv (s.setClient fun c => { c with addrIdx := 0 }) :=
    ⟨⟨inv.control.1,inv.control.2,inv.control.3,inv.control.4,inv.control.5,inv.control.6,
      inv.control.7,inv.control.8,inv.control.9⟩,inv.book,inv.shown.1,inv.shown.2⟩
  have ready' : Ready (s.setClient fun c => { c with addrIdx := 0 }) :=
    ⟨⟨ready.1.1,ready.1.2,ready.1.3,ready.1.4⟩,ready.2⟩
  unfold beginConnect
  split
  next races => exact heBegin_inv d first ready' races.1 races.2
  · exact connectNext_inv d _ first ready' spent
end
section
variable {s : ClientLoop}

lemma close_withOpens (b : ConnBook) (opens : List Nat) (conn : Option Nat) (a : Nat) (reason : CloseReason) :
    { b with opens := opens }.close conn a reason = { b.close conn a reason with opens := opens } := by
  unfold ConnBook.close
  by_cases open' : (b.conns a).alive ∧ (b.conns a).state ≠ .closed
  · rw [if_pos open',if_pos open']
    rfl
  · rw [if_neg open',if_neg open']

lemma closeAll_withOpens (b : ConnBook) (opens : List Nat) (conn : Option Nat) (as : List Nat) (reason : CloseReason) :
    as.foldl (fun b a => b.close conn a reason) { b with opens := opens } =
      { as.foldl (fun b a => b.close conn a reason) b with opens := opens } := by
  induction as generalizing b with
  | nil => rfl
  | cons _ _ ih => rw [foldl_cons,close_withOpens,ih,foldl_cons]

lemma close_inv (inv : Inv s) (a : Nat) (reason : CloseReason) : Inv (s.close a reason) where
  control := inv.control
  book := inv.book.close a reason
  shown := by
    refine ⟨fun won => ?_,fun x held opened => inv.shown.state x held (by simpa [close] using opened)⟩
    simpa [close] using inv.shown.winner won

lemma cancelHeGroup_inv (inv : Inv s) : Inv s.cancelHeGroup := by
  unfold cancelHeGroup
  split
  · exact inv
  · exact ⟨inv.control.fewer (reconnects_sublist filter_sublist),inv.book, inv.shown⟩

lemma cancelHeGroup_opened (s : ClientLoop) (a : Nat) : s.cancelHeGroup.opened a = (s.opened a).cancelHeGroup := by
  have same : (s.opened a).heGroup = s.heGroup := rfl
  unfold cancelHeGroup
  rw [same]
  cases s.heGroup <;> rfl

lemma heWin_inv {a : Nat} (inv : Inv s) (alive : (s.book.conns a).alive)
    (connecting : (s.book.conns a).state = .connecting) (attempt : (s.book.conns a).attempt) :
    Inv (heWin { s with book := s.book.establish a } a) := by
  have member := inv.book.pending_of_connecting alive attempt connecting
  have racing : s.client.pending ≠ [] := ne_nil_of_mem member
  have free := inv.control.racing (.inl racing)
  have unwon : s.client.heWon = false := eq_false_iff.2 fun won => racing (inv.control.won won)
  have distinct := inv.book.distinct.1
  have own := (inv.book.trying a member).2.2.1
  have places : ∀ x, s.client.conn = some x ∨ x ∈ s.client.pending → x = a ∨ x ∈ s.client.pending.erase a := by
    rintro x (held | there)
    · cases free.conn.symm.trans held
    by_cases same : x = a
    · exact .inl same
    · exact .inr ((mem_erase_of_ne same).2 there)
  have established : ConnBook.Sound { s.book.establish a with opens := a::s.book.opens } (some a)
      (s.client.pending.erase a) s.client.closing true s.sets :=
    inv.book.establish alive connecting rfl places (fun x there => distinct.mem_erase_iff.1 there)
      (distinct.erase a) (fun _ => ⟨own,unwon,rfl⟩) nofun
  have lost := established.loseAll
  rw [closeAll_withOpens] at lost
  have kept := closeAll_kept (s.book.establish a) (some a) (s.client.pending.erase a) .localClose a
  unfold heWin
  rw [if_pos member,if_neg (by simp [unwon]),cancelHeGroup_opened]
  apply cancelHeGroup_inv
  obtain ⟨opens,attempted,set⟩ := kept
  refine ⟨⟨?_,fun _ => rfl,nofun,?_,inv.control.racer,?_,inv.control.single,?_,?_⟩,?_,?_,?_⟩
  · exact fun _ => ⟨rfl,.inl rfl⟩
  · exact fun _ => inv.control.mode (.inl racing)
  · exact fun some' => absurd free.waiting some'
  · exact fun first => absurd first free.not_early
  · exact fun _ => free.started
  · simp only [opened,setState,setClient,loseAll]
    rw [opens]
    exact lost
  · refine fun _ => ⟨a,mem_cons_self,?_,?_⟩
    · rw [establish_conns,if_pos rfl] at attempted
      exact attempted.trans attempt
    rw [establish_conns,if_pos rfl] at set
    exact set.trans own
  · exact fun _ _ _ => rfl

lemma opened_inv {a : Nat} (inv : Inv s) (alive : (s.book.conns a).alive)
    (connecting : (s.book.conns a).state = .connecting) (sequential : (s.book.conns a).attempt = false) :
    Inv (opened { s with book := s.book.establish a } a) := by
  have held := inv.book.current_of_sequential alive sequential
  have some' : s.client.conn ≠ none := by rw [held]; nofun
  have idle := (inv.control.held some').1
  have out := (inv.book.current a held).2.1
  have places : ∀ x, s.client.conn = some x ∨ x ∈ s.client.pending → x = a ∨ x ∈ s.client.pending := by
    rintro x (same | there)
    · exact .inl (Option.some.inj (same.symm.trans held))
    · exact .inr there
  refine ⟨⟨inv.control.held,inv.control.won,fun some' => absurd idle some',inv.control.mode,
    inv.control.racer,inv.control.waits,inv.control.single,inv.control.early,inv.control.resolver⟩,
    ?_,?_,fun _ _ _ => rfl⟩
  · exact inv.book.establish alive connecting held places
      (fun x there => ⟨fun same => out (same ▸ there),there⟩) inv.book.distinct.1
      (fun attempt => nomatch sequential.symm.trans attempt) id
  intro won
  obtain ⟨w,there,attempt,set⟩ := inv.shown.winner won
  have other : w ≠ a := by
    rintro rfl
    cases sequential.symm.trans attempt
  refine ⟨w,mem_cons_of_mem _ there,?_⟩
  change ((s.book.establish a).conns w).attempt ∧ ((s.book.establish a).conns w).set = s.sets
  rw [establish_conns,if_neg other]
  exact ⟨attempt,set⟩

lemma connected_inv {a : Nat} (inv : Inv s) (alive : (s.book.conns a).alive)
    (connecting : (s.book.conns a).state = .connecting) : Inv (s.connected a) := by
  unfold connected
  split
  · exact heWin_inv inv alive connecting ‹_›
  · exact opened_inv inv alive connecting (eq_false_iff.2 ‹_›)
end
section
variable {s : ClientLoop} (d : Dial)

def config (s : ClientLoop) : Bool × Bool × Nat := (s.client.happyEyeballs,s.client.autoReconnect,s.client.heAddrs)

lemma scheduleReconnect_config : (s.scheduleReconnect d).config = s.config := by
  unfold scheduleReconnect
  split <;> rfl

lemma heLaunch_config (sockets : List Bool) : (heLaunch d sockets s).config = s.config :=
  heLaunch_rule d (P := fun t => t.config = s.config) (N := fun t => t.config = s.config)
    (Q := fun t => t.config = s.config) (fun _ same _ => same) (fun _ same _ => same)
    (fun _ same => same) (fun _ same => same) (fun _ same => same)
    (fun _ same _ _ => (scheduleReconnect_config d).trans same) sockets rfl

lemma heAttemptDone_config : (heAttemptDone d (heLaunch d d.sockets) s).config = s.config := by
  unfold heAttemptDone
  split
  · rfl
  split
  · exact heLaunch_config d _
  · exact scheduleReconnect_config d

lemma afterGone_inv (reason : CloseReason) (inv : Inv s) (ready : Ready s) (spent : Spent s.client) :
    Inv (s.afterGone reason d) := by
  unfold afterGone
  split
  · split
    · exact connectNext_inv d _ inv ready spent
    · exact inv
  split
  · exact scheduleReconnect_inv d inv ready spent
  · exact inv

lemma afterGone_of_racer {reason : CloseReason} (happy : s.client.happyEyeballs) (candidates : s.client.heAddrs ≠ 0)
    (quiet : reason = .connectFailed ∨ s.client.autoReconnect = false ∨ s.client.state = .disconnected) :
    s.afterGone reason d = s := by
  unfold afterGone
  split
  · rw [if_neg]
    rintro (sequential | none')
    · exact sequential happy
    · exact candidates none'
  next other =>
  split
  next on =>
    rcases quiet with failed | off | down
    · exact absurd failed other
    · unfold scheduleReconnect
      rw [if_neg (by simp [off])]
    · exact absurd down on
  · rfl

def Quiet (s : ClientLoop) (a : Nat) (reason : CloseReason) : Prop :=
  s.client.conn ≠ some a → a ∈ s.client.pending ∨ a ∈ s.client.closing →
    reason = .connectFailed ∨ s.client.autoReconnect = false ∨ s.client.state = .disconnected

instance (s : ClientLoop) (a : Nat) (reason : CloseReason) : Decidable (s.Quiet a reason) := instDecidableForall

def Reclaims (s : ClientLoop) : Move → Prop
  | .notify _ => ∀ e ∈ s.book.deferred.head?, s.Quiet e.1 e.2
  | _ => True

instance (s : ClientLoop) : (m : Move) → Decidable (s.Reclaims m)
  | .notify _ => inferInstanceAs (Decidable (∀ e ∈ s.book.deferred.head?, s.Quiet e.1 e.2))
  | .tick _ | .start _ _ | .resolved _ _ | .connected _ | .refused _ | .close _ _ | .message _
  | .fire _ _ => .isTrue trivial

variable {a : Nat} {reason : CloseReason} {rest : List (Nat × CloseReason)}
variable (inv : Inv s)
include inv

lemma gone_sound (next : s.book.deferred = (a,reason)::rest) (alive : (s.book.conns a).alive) :
    ({ s.book with deferred := rest }.destroy a).Sound
      (if s.client.conn = some a then none else s.client.conn) (s.client.pending.erase a)
      (s.client.closing.erase a) s.client.heWon s.sets := by
  have destroyed := inv.book.destroy alive
  refine destroyed.pop ?_ next
  rw [destroy_conns,if_pos rfl]

lemma winner_destroy (a : Nat) (won : s.client.heWon) :
    ∃ w ∈ s.book.opens, ((s.book.destroy a).conns w).attempt ∧ ((s.book.destroy a).conns w).set = s.sets := by
  obtain ⟨w,opened,tried⟩ := inv.shown.winner won
  refine ⟨w,opened,?_⟩
  rw [destroy_conns]
  split
  next same =>
    rw [← same]
    exact tried
  · exact tried

lemma connGone_inv (next : s.book.deferred = (a,reason)::rest) (held : s.client.conn = some a) :
    Inv (afterGone { s with
      client := { s.client with conn := none }
      book := { s.book with deferred := rest }.destroy a } reason d) := by
  have some' : s.client.conn ≠ none := by rw [held]; nofun
  obtain ⟨alive,idle,out,_⟩ := inv.book.current a held
  obtain ⟨pending,spent⟩ := inv.control.held some'
  have sound := gone_sound inv next alive
  rw [if_pos held,erase_of_not_mem idle,erase_of_not_mem out] at sound
  have free : Free { s.client with conn := none } s.started s.timers := by
    refine ⟨rfl,?_,?_,?_⟩
    · exact not_not.1 fun waits => some' (inv.control.waits waits).1
    · exact eq_false_iff.2 fun resolving => some' (inv.control.early (.inl resolving)).1
    rw [← not_eq_false]
    exact fun unstarted => some' (inv.control.early (.inr unstarted)).1
  refine afterGone_inv d reason ⟨?_,sound,winner_destroy inv a,nofun⟩ ⟨free,pending⟩ spent
  exact free.control inv.control.won inv.control.tries inv.control.mode inv.control.racer

lemma onConnGone_of_attempt (other : s.client.conn ≠ some a)
    (member : a ∈ s.client.pending) (quiet : s.Quiet a reason) :
    onConnGone { s with book := { s.book with deferred := rest } } a reason d =
      heAttemptDone d (heLaunch d d.sockets) { s with
        client := { s.client with pending := s.client.pending.erase a }
        book := { s.book with deferred := rest }.destroy a } := by
  have racing : s.client.pending ≠ [] := ne_nil_of_mem member
  have candidates := inv.control.mode (.inl racing)
  have off : reason = .connectFailed ∨ s.client.autoReconnect = false := by
    rcases quiet other (.inl member) with failed | off | down
    · exact .inl failed
    · exact .inr off
    · cases (inv.control.tries racing).symm.trans down
  have same := Prod.ext_iff.1 (heAttemptDone_config d (s := { s with
    client := { s.client with pending := s.client.pending.erase a }
    book := { s.book with deferred := rest }.destroy a }))
  unfold onConnGone
  rw [if_neg other,if_pos member,afterGone_of_racer]
  · exact same.1.trans (inv.control.racer candidates)
  · exact (congrArg Prod.snd same.2).trans_ne candidates
  · exact off.imp_right fun off => .inl ((congrArg Prod.fst same.2).trans off)

lemma attemptGone_inv (next : s.book.deferred = (a,reason)::rest)
    (other : s.client.conn ≠ some a) (member : a ∈ s.client.pending) :
    Inv (heAttemptDone d (heLaunch d d.sockets) { s with
      client := { s.client with pending := s.client.pending.erase a }
      book := { s.book with deferred := rest }.destroy a }) := by
  have racing : s.client.pending ≠ [] := ne_nil_of_mem member
  have free := inv.control.racing (.inl racing)
  obtain ⟨alive,_,_,_,out,_⟩ := inv.book.trying a member
  have sound := gone_sound inv next alive
  rw [if_neg other,erase_of_not_mem out] at sound
  refine heAttemptDone_inv d ⟨Free.control ⟨free.1,free.2,free.3,free.4⟩ ?_ ?_ ?_ inv.control.racer,
    sound,winner_destroy inv a,fun x held => nomatch free.conn.symm.trans held⟩
    ⟨free.1,free.2,free.3,free.4⟩
  · exact fun won => absurd (inv.control.won won) racing
  · exact fun _ => inv.control.tries racing
  · exact fun _ => inv.control.mode (.inl racing)

lemma onConnGone_of_loser (other : s.client.conn ≠ some a) (member : a ∈ s.client.closing) (quiet : s.Quiet a reason) :
    onConnGone { s with book := { s.book with deferred := rest } } a reason d = { s with
      client := { s.client with closing := s.client.closing.erase a }
      book := { s.book with deferred := rest }.destroy a } := by
  have out : a ∉ s.client.pending := fun there => (inv.book.trying a there).2.2.2.2.1 member
  have candidates := inv.control.mode (.inr (ne_nil_of_mem member))
  unfold onConnGone
  rw [if_neg other,if_neg out,if_pos member]
  exact afterGone_of_racer d (inv.control.racer candidates) candidates (quiet other (.inr member))

lemma onConnGone_inv (next : s.book.deferred = (a,reason)::rest) (quiet : s.Quiet a reason) :
    Inv (onConnGone { s with book := { s.book with deferred := rest } } a reason d) := by
  by_cases held : s.client.conn = some a
  · unfold onConnGone
    rw [if_pos held]
    exact connGone_inv (s := s) d inv next held
  by_cases member : a ∈ s.client.pending
  · rw [onConnGone_of_attempt d inv held member quiet]
    exact attemptGone_inv d inv next held member
  by_cases losing : a ∈ s.client.closing
  · rw [onConnGone_of_loser d inv held losing quiet]
    have sound := gone_sound inv next (inv.book.losing a losing).1
    rw [if_neg held,erase_of_not_mem member] at sound
    have mode : s.client.heAddrs ≠ 0 := inv.control.mode (.inr (ne_nil_of_mem losing))
    exact ⟨⟨inv.control.held,inv.control.won,inv.control.tries,fun _ => mode,inv.control.racer,
      inv.control.waits,inv.control.single,inv.control.early,inv.control.resolver⟩,sound,
      winner_destroy inv a,inv.shown.state⟩
  have dead : (s.book.conns a).alive = false := eq_false_iff.2 fun alive => by
    rcases inv.book.owned a alive with same | there | there
    · exact held same
    · exact member there
    · exact losing there
  unfold onConnGone
  rw [if_neg held,if_neg member,if_neg losing]
  exact ⟨inv.control,inv.book.pop dead next,inv.shown.winner,inv.shown.state⟩

end
variable {s t : ClientLoop}

lemma heTimeout_inv (inv : Inv s) : Inv s.heTimeout where
  control := by
    refine ⟨?_,inv.control.won,inv.control.tries,inv.control.mode,inv.control.racer,?_,
      inv.control.single,?_,inv.control.resolver⟩
    · exact fun held => ⟨(inv.control.held held).1,.inr (le_rfl)⟩
    · intro waits
      obtain ⟨conn,pending,_⟩ := inv.control.waits waits
      exact ⟨conn,pending,.inr (le_rfl)⟩
    intro first
    obtain ⟨conn,pending,none',_⟩ := inv.control.early first
    exact ⟨conn,pending,none',.inr le_rfl⟩
  book := inv.book.closeAll _ _
  shown := by
    have kept := closeAll_kept s.book s.client.conn s.client.pending .connectFailed
    refine ⟨fun won => ?_,fun a held opened => inv.shown.state a held ((kept a).1 ▸ opened)⟩
    obtain ⟨a,opened,attempt,set⟩ := inv.shown.winner won
    exact ⟨a,(kept a).1 ▸ opened,(kept a).2.1.trans attempt,(kept a).2.2.trans set⟩

lemma fired_inv (inv : Inv s) (j : Nat) : Inv { s with timers := s.timers.eraseIdx j } :=
  ⟨inv.control.fewer (reconnects_sublist (eraseIdx_sublist _ _)),inv.book, inv.shown⟩

lemma fired_ready {j : Nat} {u : ArmedTimer} (inv : Inv s) (armed : s.timers[j]? = some u)
    (retry : u.alarm = .reconnect) : Ready { s with timers := s.timers.eraseIdx j } ∧ Spent s.client := by
  obtain ⟨inside,there⟩ := List.getElem?_eq_some_iff.1 armed
  have counted : reconnects s.timers = reconnects (s.timers.eraseIdx j)+1 := by
    unfold reconnects
    rw [← (getElem_cons_eraseIdx_perm inside).countP_eq,there, countP_cons_of_pos (by simpa using retry)]
  have single := inv.control.single
  have some' : reconnects s.timers ≠ 0 := by omega
  obtain ⟨conn,pending,spent⟩ := inv.control.waits some'
  refine ⟨⟨⟨conn,?_,?_,?_⟩,pending⟩,spent⟩
  · change reconnects (s.timers.eraseIdx j) = 0
    omega
  · exact eq_false_iff.2 fun resolving => some' (inv.control.early (.inl resolving)).2.2.1
  change s.started = true
  rw [← not_eq_false]
  exact fun unstarted => some' (inv.control.early (.inr unstarted)).2.2.1

lemma ring_inv {j : Nat} {u : ArmedTimer} (d : Dial) (inv : Inv s) (armed : s.timers[j]? = some u) :
    Inv (ring { s with timers := s.timers.eraseIdx j } d u.alarm) := by
  have fired := fired_inv inv j
  cases named : u.alarm with
  | connectTimeout a =>
    rw [ring]
    split
    · exact close_inv fired a _
    · exact fired
  | reconnect =>
    obtain ⟨ready,spent⟩ := fired_ready inv armed named
    exact beginConnect_inv d fired ready spent
  | stagger => exact armStagger_inv (heLaunch_inv d _ fired)
  | deadline => exact heTimeout_inv fired

lemma start_inv (how : Owners.Resolution) (d : Dial) (inv : Inv s) (resolving : s.client.resolving = false)
    (idle : s.client.conn = none ∧ s.client.pending = [] ∧ reconnects s.timers = 0 ∧ Spent s.client) :
    Inv (s.start how d) := by
  obtain ⟨conn,pending,waiting,spent⟩ := idle
  have control (c : TcpClient) (same : c = { s.client with addrs := c.addrs }) : Control c true s.timers := by
    rw [same]
    exact Free.control ⟨conn,waiting,resolving,rfl⟩ inv.control.won inv.control.tries inv.control.mode inv.control.racer
  cases how with
  | addrs =>
    exact beginConnect_inv d ⟨control _ rfl,inv.book,inv.shown.1,inv.shown.2⟩
      ⟨⟨conn,waiting,resolving,rfl⟩,pending⟩ spent
  | failed => exact ⟨control _ rfl,inv.book,inv.shown⟩
  | later =>
    refine ⟨⟨inv.control.held,inv.control.won,fun _ => rfl,inv.control.mode,inv.control.racer,
      inv.control.waits,inv.control.single,?_,fun _ => rfl⟩,inv.book,inv.shown.winner,?_⟩
    · exact fun _ => ⟨conn,pending,waiting,spent⟩
    · exact fun _ held => nomatch conn.symm.trans held

lemma resolved_inv (addrs : Option Nat) (d : Dial) (inv : Inv s) (resolving : s.client.resolving) :
    Inv (s.resolved addrs d) := by
  obtain ⟨conn,pending,waiting,spent⟩ := inv.control.early (.inl resolving)
  have started := inv.control.resolver resolving
  cases addrs with
  | none =>
    refine scheduleReconnect_inv d ⟨?_,inv.book,inv.shown.winner,?_⟩ ⟨⟨conn,waiting,rfl,started⟩,pending⟩ spent
    · exact Free.control ⟨conn,waiting,rfl,started⟩ inv.control.won
        (fun some' => absurd pending some') inv.control.mode inv.control.racer
    · exact fun _ held => nomatch conn.symm.trans held
  | some =>
    refine beginConnect_inv d ⟨?_,inv.book,inv.shown.1,inv.shown.2⟩ ⟨⟨conn,waiting,rfl,started⟩,pending⟩ spent
    exact Free.control ⟨conn,waiting,rfl,started⟩ inv.control.won inv.control.tries inv.control.mode inv.control.racer

lemma step_inv {m : Move} (inv : Inv s) (reclaims : s.Reclaims m) (taken : s.step m = some t) : Inv t := by
  cases m with
  | tick =>
    cases taken
    exact ⟨inv.control,inv.book,inv.shown⟩
  | start how d =>
    rw [step] at taken
    split at taken
    · cases taken
    next fresh =>
    cases taken
    have still := eq_false_iff.2 fun resolving => fresh (inv.control.resolver resolving)
    exact start_inv how d inv still (inv.control.early (.inr (eq_false_iff.2 fresh)))
  | resolved addrs d =>
    obtain ⟨resolving,rfl⟩ := enabled taken
    exact resolved_inv addrs d inv resolving
  | connected =>
    obtain ⟨⟨alive,connecting⟩,rfl⟩ := enabled taken
    exact connected_inv inv alive connecting
  | refused a =>
    obtain ⟨_,rfl⟩ := enabled taken
    exact close_inv inv a _
  | close a reason =>
    obtain ⟨_,rfl⟩ := enabled taken
    exact close_inv inv a reason
  | message =>
    obtain ⟨⟨alive,established⟩,rfl⟩ := enabled taken
    exact ⟨inv.control,inv.book.message alive established,inv.shown.1,inv.shown.2⟩
  | notify d =>
    rw [step] at taken
    split at taken
    · cases taken
    next a reason _ next =>
    cases taken
    exact onConnGone_inv d inv next (reclaims (a,reason) (by rw [next]; rfl))
  | fire j d =>
    rw [step] at taken
    split at taken
    · cases taken
    next armed =>
    obtain ⟨_,rfl⟩ := enabled taken
    exact ring_inv d inv armed
end AffiniX.ClientLoop
