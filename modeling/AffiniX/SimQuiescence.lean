import AffiniX.Transition

/-! The scheduler of the simulated runtime. A shard is quiet if a further poll would report no work. -/
namespace AffiniX
open Transition Function List

structure SimEvent (τ : Type) where
  due : Nat
  shard : Nat
  post : Bool
  task : τ

/-- An event manager, by what its polls look at. -/
structure SimManager (τ : Type) where
  mailbox : List τ := []
  timers : List (Nat × τ) := []
  ready : List τ := []
  deferred : List τ := []

/-- The shards and the network, whose events are in the order of their instants. -/
structure SimWorld (τ : Type) where
  now : Nat
  events : List (SimEvent τ)
  em : Nat → SimManager τ

inductive Effect (τ : Type)
  | post (shard : Nat) (task : τ)
  | defer (task : τ)
  | arm (due : Nat) (task : τ)
  | complete (task : τ)
  | send (event : SimEvent τ)

structure SimRuntime (τ : Type) where
  shards : Nat
  maxItcBatch : Nat
  maxCompletions : Nat
  maxDeferBatch : Nat
  callback : τ → SimWorld τ → List (Effect τ)

namespace SimWorld
variable {τ : Type} (w : SimWorld τ)

def setEm (i : Nat) (f : SimManager τ → SimManager τ) : SimWorld τ := { w with em := update w.em i (f (w.em i)) }

def push (event : SimEvent τ) : SimWorld τ :=
  { w with events := w.events.takeWhile (·.due ≤ event.due)++event::w.events.dropWhile (·.due ≤ event.due) }

def perform (i : Nat) (w : SimWorld τ) : Effect τ → SimWorld τ
  | .post shard task => w.setEm shard fun em => { em with mailbox := em.mailbox++[task] }
  | .defer task => w.setEm i fun em => { em with deferred := em.deferred++[task] }
  | .arm due task => w.setEm i fun em => { em with timers := em.timers++[(due,task)] }
  | .complete task => w.setEm i fun em => { em with ready := em.ready++[task] }
  | .send event => w.push event

def dueNext : Bool := w.events.head?.any (·.due ≤ w.now)

def nextDue : Option Nat := w.events.head?.map SimEvent.due

/-- Between `w` and `t` only shard `i` worked. -/
structure Keeps (i : Nat) (w t : SimWorld τ) : Prop where
  now : t.now = w.now
  em : ∀ j, j ≠ i → t.em j = { w.em j with mailbox := (t.em j).mailbox }

variable {w}

lemma Keeps.refl {i : Nat} : Keeps i w w := ⟨rfl,fun _ _ => rfl⟩

lemma Keeps.trans {i : Nat} {t u : SimWorld τ} (first : Keeps i w t) (second : Keeps i t u) : Keeps i w u :=
  ⟨second.now.trans first.now,fun j other => by rw [second.em j other,first.em j other]⟩

lemma setEm_keeps (i : Nat) (f : SimManager τ → SimManager τ) : Keeps i w (w.setEm i f) :=
  ⟨rfl,fun j other => by simp [setEm,other]⟩

lemma perform_keeps (i : Nat) (effect : Effect τ) : Keeps i w (w.perform i effect) := by
  cases effect with
  | post shard task =>
    refine ⟨rfl,fun j _ => ?_⟩
    by_cases same : j = shard <;> simp [perform,setEm,same]
  | defer | arm | complete =>
    rw [perform]
    exact setEm_keeps i _
  | send => exact ⟨rfl,fun _ _ => rfl⟩
end SimWorld

namespace SimRuntime
open SimWorld
variable {τ : Type} (e : SimRuntime τ) (i : Nat)

def run (w : SimWorld τ) (task : τ) : SimWorld τ := (e.callback task w).foldl (SimWorld.perform i) w

def drainMailbox : Nat → SimWorld τ → SimWorld τ × Bool
  | 0, w => (w,false)
  | n+1, w =>
    match (w.em i).mailbox with
    | [] => (w,false)
    | task::rest => ((drainMailbox n (e.run i (w.setEm i fun em => { em with mailbox := rest }) task)).1,true)

def expireTimers (w : SimWorld τ) : SimWorld τ × Bool := let fired := (w.em i).timers.filter (·.1 ≤ w.now)
  ((fired.map Prod.snd).foldl (e.run i) (w.setEm i fun em => { em with timers := em.timers.filter (w.now < ·.1) }),
    !fired.isEmpty)

def dispatchCompletions (w : SimWorld τ) : SimWorld τ × Bool := let taken := (w.em i).ready.take e.maxCompletions
  (taken.foldl (e.run i) (w.setEm i fun em => { em with ready := em.ready.drop e.maxCompletions }),!taken.isEmpty)

def runDeferred (w : SimWorld τ) : SimWorld τ × Bool := let batch := (w.em i).deferred
  if batch.isEmpty then (w,false)
  else (((batch.take e.maxDeferBatch).foldl (e.run i) (w.setEm i fun em => { em with deferred := [] })).setEm i
    fun em => { em with deferred := em.deferred++batch.drop e.maxDeferBatch },true)

def pollOnce (w : SimWorld τ) : SimWorld τ × Bool := let mailbox := e.drainMailbox i e.maxItcBatch w
  let timers := e.expireTimers i mailbox.1
  let io := e.dispatchCompletions i timers.1
  let deferred := e.runDeferred i io.1
  (deferred.1,mailbox.2 || timers.2 || io.2 || deferred.2)

/-- Where `run_until` and `run_until_idle` stand. A pass of `drain_all` has the shards `rest` before it and has polled
the first `polls` times; `any`: it did work; `applied`: it follows an event. -/
inductive Point
  | outside
  | top
  | pass (rest : List Nat) (polls : Nat) (any applied : Bool)
  | settled
deriving DecidableEq

structure State (τ : Type) where
  world : SimWorld τ
  point : Point

/-- A jump has the target of `run_until`, and what the shards with timers answer to `next_wakeup`. -/
inductive Move (τ : Type)
  | enter (world : SimWorld τ)
  | pop (order : List Nat)
  | drain (order : List Nat)
  | poll
  | passed
  | jump (target : Option Nat) (wakeups : List Nat)
  | again
  | leave (target : Option Nat)

/-- An answer of `next_wakeup` may be early, since the wheel counts its cascades in. -/
def Wakes (w : SimWorld τ) (wakeups : List Nat) : Prop :=
  ∀ i ∈ range e.shards, ∀ timer ∈ (w.em i).timers, ∃ wakeup ∈ wakeups, wakeup ≤ timer.1

instance (w : SimWorld τ) (wakeups : List Nat) : Decidable (e.Wakes w wakeups) :=
  inferInstanceAs (Decidable (∀ i ∈ range e.shards, ∀ timer ∈ (w.em i).timers, ∃ wakeup ∈ wakeups, wakeup ≤ timer.1))

def nextInstant (w : SimWorld τ) (target : Option Nat) (wakeups : List Nat) : Option Nat :=
  (target.toList++w.nextDue.toList++wakeups).min?.map fun next => max next (w.now+1)

def apply (w : SimWorld τ) (event : SimEvent τ) : SimWorld τ :=
  if event.post then
    if event.shard < e.shards then w.setEm event.shard fun em => { em with mailbox := em.mailbox++[event.task] } else w
  else w.setEm event.shard fun em => { em with ready := em.ready++[event.task] }

def step (s : State τ) : Move τ → Option (State τ)
  | .enter world => if s.point = .outside then some ⟨world,.top⟩ else none
  | .pop order =>
    match s.world.events with
    | event::later =>
      if s.point = .top ∧ s.world.dueNext ∧ order.Perm (range e.shards) then
        some ⟨e.apply { s.world with events := later } event,.pass order 0 false true⟩
      else none
    | [] => none
  | .drain order =>
    if s.point = .top ∧ s.world.dueNext = false ∧ order.Perm (range e.shards) then
      some ⟨s.world,.pass order 0 false false⟩
    else none
  | .poll =>
    match s.point with
    | .pass (i::rest) polls any applied =>
      if polls < 1024 then
        let polled := e.pollOnce i s.world
        some ⟨polled.1,if polled.2 then .pass (i::rest) (polls+1) true applied
          else .pass rest 0 any applied⟩
      else some ⟨s.world,.pass rest 0 any applied⟩
    | _ => none
  | .passed =>
    match s.point with
    | .pass [] _ any applied => some ⟨s.world,if any || applied then .top else .settled⟩
    | _ => none
  | .jump target wakeups =>
    if s.point = .settled ∧ e.Wakes s.world wakeups then
      (nextInstant s.world target wakeups).map fun t => ⟨{ s.world with now := t },.top⟩
    else none
  | .again => if s.point = .settled then some ⟨s.world,.top⟩ else none
  | .leave target =>
    if s.point = .top ∨ s.point = .settled then some ⟨{ s.world with now := target.getD s.world.now },.outside⟩ else none

def Quiet (w : SimWorld τ) (i : Nat) : Prop := (e.pollOnce i w).2 = false

instance (w : SimWorld τ) : DecidablePred (e.Quiet w) := fun _ => inferInstanceAs (Decidable (_ = false))

section
variable {e} {i} {w t : SimWorld τ}

lemma run_keeps (task : τ) : Keeps i w (e.run i w task) := by
  unfold run
  generalize e.callback task w = effects
  induction effects generalizing w with
  | nil => exact .refl
  | cons effect _ ih => exact (perform_keeps i effect).trans ih

lemma runAll_keeps (tasks : List τ) : Keeps i w (tasks.foldl (e.run i) w) := by
  induction tasks generalizing w with
  | nil => exact .refl
  | cons task _ ih => exact (run_keeps task).trans ih

lemma drainMailbox_keeps (n : Nat) : Keeps i w (e.drainMailbox i n w).1 := by
  induction n generalizing w with
  | zero => exact .refl
  | succ n ih =>
    rw [drainMailbox]
    split
    · exact .refl
    · exact ((setEm_keeps i _).trans (run_keeps _)).trans ih

lemma runDeferred_keeps : Keeps i w (e.runDeferred i w).1 := by
  unfold runDeferred
  dsimp only
  split
  · exact .refl
  · dsimp only
    refine Keeps.trans ?_ (setEm_keeps i _)
    exact (setEm_keeps i _).trans (runAll_keeps _)

lemma pollOnce_keeps : Keeps i w (e.pollOnce i w).1 :=
  (drainMailbox_keeps _).trans (((setEm_keeps i _).trans (runAll_keeps _)).trans
    (((setEm_keeps i _).trans (runAll_keeps _)).trans runDeferred_keeps))

/-- No queued mailbox item, due timer, ready completion or deferred task. -/
structure Idle (e : SimRuntime τ) (em : SimManager τ) (now : Nat) : Prop where
  mailbox : em.mailbox.take e.maxItcBatch = []
  timers : ∀ timer ∈ em.timers, now < timer.1
  ready : em.ready.take e.maxCompletions = []
  deferred : em.deferred = []

lemma setEm_same {f : SimManager τ → SimManager τ} (same : f (w.em i) = w.em i) : w.setEm i f = w := by
  unfold setEm
  rw [same,update_eq_self]

lemma drainMailbox_quiet (n : Nat) (w : SimWorld τ) :
    ((e.drainMailbox i n w).2 = false ↔ (w.em i).mailbox.take n = []) ∧
      ((w.em i).mailbox.take n = [] → e.drainMailbox i n w = (w,false)) := by
  cases n with
  | zero => exact ⟨⟨fun _ => rfl,fun _ => rfl⟩,fun _ => rfl⟩
  | succ n =>
    rw [drainMailbox]
    split
    next empty => simp [empty]
    next task rest some' => simp [some']

lemma expireTimers_quiet (w : SimWorld τ) :
    ((e.expireTimers i w).2 = false ↔ ∀ timer ∈ (w.em i).timers, w.now < timer.1) ∧
      ((∀ timer ∈ (w.em i).timers, w.now < timer.1) → e.expireTimers i w = (w,false)) := by
  refine ⟨by simp [expireTimers,filter_eq_nil_iff],fun later => ?_⟩
  have none : (w.em i).timers.filter (·.1 ≤ w.now) = [] := by simpa [filter_eq_nil_iff] using later
  simp only [expireTimers,none,map_nil,foldl_nil]
  refine Prod.ext ?_ rfl
  dsimp only
  apply setEm_same
  rw [filter_eq_self.2 (by simpa using later)]

lemma dispatchCompletions_quiet (w : SimWorld τ) :
    ((e.dispatchCompletions i w).2 = false ↔ (w.em i).ready.take e.maxCompletions = []) ∧
      ((w.em i).ready.take e.maxCompletions = [] → e.dispatchCompletions i w = (w,false)) := by
  refine ⟨by simp [dispatchCompletions],fun none => ?_⟩
  have whole := take_append_drop e.maxCompletions (w.em i).ready
  rw [none,nil_append] at whole
  simp only [dispatchCompletions,none,foldl_nil]
  refine Prod.ext ?_ rfl
  dsimp only
  apply setEm_same
  rw [whole]

lemma runDeferred_quiet (w : SimWorld τ) :
    ((e.runDeferred i w).2 = false ↔ (w.em i).deferred = []) ∧
      ((w.em i).deferred = [] → e.runDeferred i w = (w,false)) := by
  unfold runDeferred
  dsimp only
  split
  next empty => simp [isEmpty_iff.1 empty]
  next some' => simpa using some'

lemma Idle.poll (idle : e.Idle (w.em i) w.now) : e.pollOnce i w = (w,false) := by
  simp only [pollOnce,(drainMailbox_quiet _ w).2 idle.mailbox,(expireTimers_quiet w).2 idle.timers,
    (dispatchCompletions_quiet w).2 idle.ready,(runDeferred_quiet w).2 idle.deferred,Bool.or_self]

/-- A poll reports no work only where there is none. -/
lemma quiet_iff : e.Quiet w i ↔ e.Idle (w.em i) w.now := by
  refine ⟨fun quiet => ?_,fun idle => congrArg Prod.snd idle.poll⟩
  simp only [Quiet,pollOnce,Bool.or_eq_false_iff] at quiet
  obtain ⟨⟨⟨mailbox,timers⟩,io⟩,deferred⟩ := quiet
  replace mailbox := (drainMailbox_quiet _ w).1.1 mailbox
  rw [(drainMailbox_quiet _ w).2 mailbox] at timers io deferred
  replace timers := (expireTimers_quiet w).1.1 timers
  rw [(expireTimers_quiet w).2 timers] at io deferred
  replace io := (dispatchCompletions_quiet w).1.1 io
  rw [(dispatchCompletions_quiet w).2 io] at deferred
  exact ⟨mailbox,timers,io,(runDeferred_quiet w).1.1 deferred⟩
end

/-- Of the shards that a pass does not have before it. -/
def QuietBut (w : SimWorld τ) (rest : List Nat) : Prop := ∀ i ∈ range e.shards, i ∉ rest → e.Quiet w i

/-- A run starts with no event due, a shard rests within 1024 polls and posts nothing to one left behind, and no timer
is due at the instant of the next event. -/
def Orderly (s : State τ) : Move τ → Prop
  | .enter world => world.dueNext = false
  | .jump _ _ => ∀ due ∈ s.world.nextDue, ∀ i ∈ range e.shards, ∀ timer ∈ (s.world.em i).timers, timer.1 ≠ due
  | .poll =>
    match s.point with
    | .pass (i::rest) polls _ _ => polls < 1024 ∧ ∀ j ∈ range e.shards, j ∉ i::rest →
        ((e.pollOnce i s.world).1.em j).mailbox.length = (s.world.em j).mailbox.length
    | _ => True
  | .pop _ | .drain _ | .passed | .again | .leave _ => True

instance (s : State τ) : DecidablePred (e.Orderly s)
  | .enter _ => inferInstanceAs (Decidable (_ = false))
  | .jump _ _ => inferInstanceAs (Decidable (∀ due ∈ s.world.nextDue, ∀ i ∈ range e.shards, ∀ timer ∈ (s.world.em i).timers, timer.1 ≠ due))
  | .poll => by
    unfold Orderly
    dsimp only
    split <;> infer_instance
  | .pop _ | .drain _ | .passed | .again | .leave _ => .isTrue trivial

def Inv (s : State τ) : Prop := match s.point with
  | .outside => True
  | .top => s.world.dueNext → e.QuietBut s.world []
  | .pass rest _ any applied => e.QuietBut s.world rest ∧ (any || applied || !s.world.dueNext)
  | .settled => e.QuietBut s.world [] ∧ s.world.dueNext = false

variable {e} {s t : State τ}

lemma quietBut_all {order : List Nat} (w : SimWorld τ) (all : order.Perm (range e.shards)) :
    e.QuietBut w order := fun _ inside outside => absurd (all.mem_iff.2 inside) outside

lemma next_quiet {w : SimWorld τ} {target : Option Nat} {wakeups : List Nat} {next : Nat} (quiet : e.QuietBut w [])
    (early : w.dueNext = false) (wakes : e.Wakes w wakeups) (jumps : nextInstant w target wakeups = some next)
    (apart : ∀ due ∈ w.nextDue, ∀ i ∈ range e.shards, ∀ timer ∈ (w.em i).timers, timer.1 ≠ due)
    (due : ({ w with now := next } : SimWorld τ).dueNext) : e.QuietBut { w with now := next } [] := by
  obtain ⟨least,found,rfl⟩ := Option.map_eq_some_iff.1 jumps
  have most := (min?_eq_some_iff.1 found).2
  obtain ⟨event,first,soon⟩ := (Option.any_eq_true _ _).1 due
  have later : w.now < event.due := by simpa [dueNext,first] using early
  have named : event.due ∈ w.nextDue := Option.mem_def.2 (by rw [nextDue,first]; rfl)
  intro i inside outside
  have idle := quiet_iff.1 (quiet i inside outside)
  refine quiet_iff.2 ⟨idle.mailbox,fun timer armed => ?_,idle.ready,idle.deferred⟩
  -- Both would be at the instant jumped to: neither was due before, and the jump goes no further than the first.
  obtain ⟨wakeup,told,bound⟩ := wakes i inside timer armed
  have first := most wakeup (by simp [told])
  have second := most event.due (by simp [Option.mem_def.1 named])
  have ahead := idle.timers timer armed
  have other := apart _ named i inside timer armed
  have soon := of_decide_eq_true soon
  change max least (w.now+1) < timer.1
  dsimp only at soon
  omega

lemma step_inv {m : Move τ} (inv : e.Inv s) (orderly : e.Orderly s m) (taken : e.step s m = some t) : e.Inv t := by
  obtain ⟨world,point⟩ := s
  cases m with
  | enter _ =>
    obtain ⟨_,rfl⟩ := enabled taken
    exact fun due => absurd (orderly.symm.trans due) Bool.false_ne_true
  | pop _ =>
    simp only [step] at taken
    split at taken
    · obtain ⟨⟨_,_,all⟩,rfl⟩ := enabled taken
      exact ⟨quietBut_all _ all,rfl⟩
    · cases taken
  | drain _ =>
    obtain ⟨⟨_,early,all⟩,rfl⟩ := enabled taken
    exact ⟨quietBut_all _ all,by rw [early]; rfl⟩
  | poll =>
    match point with
    | .pass (i::rest) polls any applied =>
      obtain ⟨few,unposted⟩ := orderly
      obtain ⟨quiet,early⟩ := inv
      simp only [step,if_pos few] at taken
      cases taken
      cases polled : (e.pollOnce i world).2 with
      | true =>
        refine ⟨fun j inside outside => ?_,rfl⟩
        have other : j ≠ i := fun same => outside (same ▸ mem_cons_self)
        have idle := quiet_iff.1 (quiet j inside outside)
        have keeps := pollOnce_keeps (e := e) (i := i) (w := world)
        refine quiet_iff.2 ?_
        dsimp only
        rw [keeps.em j other,keeps.now]
        refine ⟨?_,idle.timers,idle.ready,idle.deferred⟩
        have few := idle.mailbox
        rwa [take_eq_nil_iff,← length_eq_zero_iff,← unposted j inside outside,length_eq_zero_iff,← take_eq_nil_iff] at few
      | false =>
        have same := congrArg Prod.fst (quiet_iff.1 polled).poll
        rw [same]
        refine ⟨fun j inside outside => ?_,early⟩
        by_cases here : j = i
        · exact here ▸ polled
        · exact quiet j inside (by simp [here,outside])
    | .outside | .top | .settled | .pass [] _ _ _ => cases taken
  | passed =>
    match point with
    | .pass [] _ any applied =>
      cases taken
      obtain ⟨quiet,early⟩ := inv
      split_ifs with worked
      · exact fun _ => quiet
      · exact ⟨quiet,by simpa [worked] using early⟩
    | .outside | .top | .settled | .pass (_::_) _ _ _ => cases taken
  | jump target wakeups =>
    simp only [step] at taken
    split at taken
    next ready =>
      obtain ⟨rfl,wakes⟩ := ready
      obtain ⟨next,jumps,rfl⟩ := Option.map_eq_some_iff.1 taken
      exact next_quiet inv.1 inv.2 wakes jumps orderly
    · cases taken
  | again =>
    obtain ⟨rfl,rfl⟩ := enabled taken
    exact fun _ => inv.1
  | leave =>
    obtain ⟨_,rfl⟩ := enabled taken
    trivial

end SimRuntime
end AffiniX
