import AffiniX.Transition

/-! Requests to the admin endpoint: how one that needs every shard is answered, and which of several is. -/
namespace AffiniX.AdminServer
open List Transition

inductive Shard
  | queued
  | replying
  | counted
deriving DecidableEq

/-- `gather_start` is in its loop, has found that all have arrived, or has armed the deadline. -/
inductive Phase
  | fanning
  | whole
  | armed
deriving DecidableEq

/-- A request gathered from `size` shards, with the task of each shard reached. `deadline`: the handle is valid. -/
structure Gather where
  size : Nat
  shards : List Shard
  arrived : Nat
  phase : Phase
  deadline : Bool
  responses : Nat

namespace Gather
def create (size : Nat) : Gather := ⟨size,[],0,.fanning,false,0⟩

/-- A shard without a running loop, a refused task and a refused reply count as arrived. -/
inductive Move
  | fanOut (posted : Bool)
  | started
  | run (i : Nat) (posted : Bool)
  | arrive (i : Nat)
  | expire
deriving DecidableEq

variable (g : Gather)

def finish (timedOut : Bool) : Gather :=
  if g.deadline ∨ timedOut then { g with deadline := false, responses := g.responses+1 } else g

def post (shards : List Shard) (posted : Bool) : Gather :=
  { g with shards := shards, arrived := if posted then g.arrived else g.arrived+1 }

/-- The count and the size are compared as values of `int`. -/
def All : Prop := g.arrived % 2^32 = g.size % 2^32

instance : Decidable g.All := instDecidableEqNat _ _

def step : Move → Option Gather
  | .fanOut posted =>
    if g.phase = .fanning ∧ g.shards.length < g.size then
      some (g.post (g.shards++[if posted then .queued else .counted]) posted)
    else none
  | .started =>
    if g.phase = .fanning ∧ g.shards.length = g.size then
      some (if g.All then { g.finish false with phase := .whole } else { g with phase := .armed, deadline := true })
    else none
  | .run i posted =>
    if g.shards[i]? = some .queued then
      some (g.post (g.shards.set i (if posted then .replying else .counted)) posted)
    else none
  | .arrive i =>
    -- The admin loop runs this task, so never inside `gather_start`.
    if g.phase ≠ .fanning ∧ g.shards[i]? = some .replying then
      let h := g.post (g.shards.set i .counted) false
      some (if h.All then h.finish false else h)
    else none
  | .expire => if g.deadline then some (g.finish true) else none

def Move.refused : Move → Bool
  | .fanOut posted | .run _ posted => !posted
  | .started | .arrive _ | .expire => false

/-- The posts, of tasks and of replies, that are refused before the loop of `gather_start` has ended. -/
def refusals (moves : List Move) : Nat := (moves.takeWhile (· ≠ .started)).countP Move.refused

/-- In the loop the count is that of the shards that will not reply. -/
structure Fanning : Prop where
  phase : g.phase = .fanning
  silent : g.responses = 0 ∧ g.deadline = false
  arrived : g.arrived = g.shards.countP (· = .counted)

/-- There is one response, or the deadline is armed and leads to it. -/
def Answered : Prop := g.responses = 1 ∧ g.deadline = false ∨
  g.responses = 0 ∧ ∃ h, g.step .expire = some h ∧ h.responses = 1 ∧ h.deadline = false

variable {g}

lemma post_counted {shards : List Shard} {posted : Bool} (n : Nat)
    (arrived : g.arrived = g.shards.countP (· = .counted))
    (more : shards.countP (· = .counted) = g.shards.countP (· = .counted)+if posted then 0 else 1) :
    (g.post shards posted).arrived = (g.post shards posted).shards.countP (· = .counted) ∧
      (g.post shards posted).arrived+n = g.arrived+((if !posted then 1 else 0)+n) := by
  cases posted <;> simp_all [post]
  omega

lemma Fanning.step {h : Gather} {m : Move} (fans : g.Fanning) (taken : g.step m = some h) (on : m ≠ .started) (n : Nat) :
    h.Fanning ∧ h.size = g.size ∧ h.arrived+n = g.arrived+((if m.refused then 1 else 0)+n) := by
  have posts {shards : List Shard} {posted : Bool}
      (more : shards.countP (· = .counted) = g.shards.countP (· = .counted)+if posted then 0 else 1) :
      (g.post shards posted).Fanning ∧ (g.post shards posted).size = g.size ∧
        (g.post shards posted).arrived+n = g.arrived+((if !posted then 1 else 0)+n) :=
    have counted := post_counted n fans.arrived more
    ⟨⟨fans.phase,fans.silent,counted.1⟩,rfl,counted.2⟩
  cases m with
  | fanOut posted =>
    obtain ⟨_,rfl⟩ := enabled taken
    exact posts (by cases posted <;> simp)
  | started => exact absurd rfl on
  | run i posted =>
    obtain ⟨queued,rfl⟩ := enabled taken
    obtain ⟨inside,old⟩ := List.getElem?_eq_some_iff.1 queued
    refine posts ?_
    rw [countP_set inside,old]
    cases posted <;> simp
  | arrive => exact absurd fans.phase (enabled taken).1.1
  | expire => cases fans.silent.2.symm.trans (enabled taken).1

/-- After the loop the count no longer matters: one response is owed with the deadline, and none without it. -/
lemma owed_step {h : Gather} {m : Move} (taken : g.step m = some h) (past : g.phase ≠ .fanning) :
    h.phase ≠ .fanning ∧ h.responses+h.deadline.toNat = g.responses+g.deadline.toNat := by
  have finishes (k : Gather) (timedOut : Bool) (valid : timedOut → k.deadline) :
      (k.finish timedOut).responses+(k.finish timedOut).deadline.toNat = k.responses+k.deadline.toNat := by
    unfold finish
    cases held : k.deadline <;> simp_all
  cases m with
  | fanOut => exact absurd (enabled taken).1.1 past
  | started => exact absurd (enabled taken).1.1 past
  | run =>
    obtain ⟨_,rfl⟩ := enabled taken
    exact ⟨past,rfl⟩
  | arrive i =>
    obtain ⟨_,rfl⟩ := enabled taken
    split
    · refine ⟨?_,finishes _ false nofun⟩
      unfold finish
      split <;> exact past
    · exact ⟨past,rfl⟩
  | expire =>
    obtain ⟨valid,rfl⟩ := enabled taken
    refine ⟨?_,finishes g true fun _ => valid⟩
    rw [finish,if_pos (.inl valid)]
    exact past

lemma owed_after {h : Gather} {moves : List Move} (small : g.size < 2^32) (fans : g.Fanning)
    (run : Exec (Via step) g moves h) (started : .started ∈ moves) :
    h.responses+h.deadline.toNat = if g.arrived+refusals moves < g.size then 1 else 0 := by
  induction run with
  | nil => cases started
  | cons g m h moves u taken rest ih =>
    by_cases now : m = .started
    · subst now
      obtain ⟨⟨_,whole⟩,rfl⟩ := enabled taken
      have most : g.arrived ≤ g.size := by
        rw [fans.arrived,← whole]
        exact countP_le_length
      have all : g.All ↔ ¬ g.arrived < g.size := by
        unfold All
        rw [Nat.mod_eq_of_lt small,Nat.mod_eq_of_lt (Nat.lt_of_le_of_lt most small)]
        omega
      have none' : refusals (.started::moves) = 0 := rfl
      have later := rest.invariant (fun k => k.phase ≠ .fanning ∧ k.responses+k.deadline.toNat =
          if g.arrived < g.size then 1 else 0) ?_ ?_
      · rw [none']
        exact later.2
      · intro k m l moved before
        have after := owed_step moved before.1
        exact ⟨after.1,after.2.trans before.2⟩
      · split
        next counted => simp [finish,fans.silent,all.1 counted]
        next waits => simp [fans.silent,not_not.1 (mt all.2 waits)]
    have count : refusals (m::moves) = (if m.refused then 1 else 0)+refusals moves := by
      simp [refusals,now,countP_cons,Nat.add_comm]
    obtain ⟨fans',size,arrived⟩ := fans.step taken now (refusals moves)
    rw [ih (size ▸ small) fans' ((mem_cons.1 started).resolve_left (Ne.symm now)),size,arrived,count]

/-- A request is answered once if fewer posts than there are shards are refused before the deadline is armed, and else
never. -/
theorem answered_once {size : Nat} {g : Gather} {moves : List Move} (small : size < 2^32)
    (run : Exec (Via step) (create size) moves g) (started : .started ∈ moves) :
    (refusals moves < size → g.Answered) ∧ (size ≤ refusals moves → g.responses = 0 ∧ g.deadline = false) := by
  have owed := owed_after small ⟨rfl,⟨rfl,rfl⟩,rfl⟩ run started
  simp only [create,Nat.zero_add] at owed
  refine ⟨fun few => ?_,fun many => ?_⟩
  · rw [if_pos few] at owed
    cases valid : g.deadline with
    | false =>
      rw [valid] at owed
      exact .inl ⟨owed,valid⟩
    | true =>
      rw [valid] at owed
      have none' : g.responses = 0 := Nat.succ.inj owed
      exact .inr ⟨none',_,if_pos valid,by simp [finish,none'],by simp [finish]⟩
  · rw [if_neg (Nat.not_lt.2 many)] at owed
    cases valid : g.deadline <;> simp_all

def stats : List Move := [.fanOut true,.fanOut false,.started,.run 0 true,.arrive 0]

theorem stats_answered : ∃ g, Exec (Via step) (create 2) stats g ∧ g.responses = 1 :=
  Exec.run_of_drive (P := fun g => g.deadline = false) (by decide +kernel) fun _ run gone => by
    obtain ⟨one,_⟩ | ⟨_,_,fires,_⟩ := (answered_once (by decide) run (by decide)).1 (by decide)
    · exact one
    · simp [step,gone] at fires

/-- No shard runs: the handle is not valid yet, which `gather_finish` takes for a request that was answered. -/
theorem never_answered : ∃ g, Exec (Via step) (create 1) [.fanOut false,.started] g ∧
    g.responses = 0 ∧ ∀ m, g.step m = none := by
  refine ⟨⟨1,[.counted],1,.whole,false,0⟩,.cons _ _ _ _ _ rfl (.cons _ _ _ _ _ rfl (.nil _)),rfl,?_⟩
  intro m
  cases m with
  | run i | arrive i => cases i <;> rfl
  | _ => rfl

end Gather

/-- One connection: the requests of its stream are counted, those that are being gathered and the responses
written are known by their number. -/
structure Session where
  established : Bool
  routed : Nat
  gathers : List Nat
  sent : List Nat

namespace Session
def create : Session := ⟨true,0,[],[]⟩

/-- The next request, which its route answers at once or gathers, and the end of a gather. -/
inductive Move
  | route (sync : Bool)
  | finish (i : Nat)

variable (s : Session)

/-- `send` and `shutdown_write`, which refuse a connection that is not established. -/
def respond (i : Nat) : Session := if s.established then { s with sent := s.sent++[i], established := false } else s

def step : Move → Option Session
  | .route sync =>
    let t := { s with routed := s.routed+1 }
    some (if ¬ s.established then t else if sync then t.respond s.routed else { t with gathers := s.gathers++[s.routed] })
  | .finish i => if i ∈ s.gathers then some ({ s with gathers := s.gathers.erase i }.respond i) else none

/-- No request is routed while an earlier one is being gathered. -/
def Alone : Move → Prop
  | .route _ => s.gathers = []
  | .finish _ => True

instance (s : Session) : (m : Move) → Decidable (s.Alone m)
  | .route _ => inferInstanceAs (Decidable (_ = _))
  | .finish _ => .isTrue trivial

def Inv : Prop := s.sent = [0] ∧ s.established = false ∨
  s.sent = [] ∧ s.established = true ∧ (s.routed = 0 ∧ s.gathers = [] ∨ s.gathers = [0])

lemma step_inv {s t : Session} {m : Move} (alone : s.Alone m) (taken : s.step m = some t) (inv : s.Inv) : t.Inv := by
  obtain ⟨sent,half⟩ | ⟨none',established,first⟩ := inv
  · cases m with
    | route sync =>
      cases taken
      exact .inl (by simp [sent,half])
    | finish i =>
      obtain ⟨_,rfl⟩ := enabled taken
      exact .inl (by simp [respond,sent,half])
  cases m with
  | route sync =>
    have idle : s.gathers = [] := alone
    obtain ⟨start,_⟩ := first.resolve_right fun busy => nomatch idle.symm.trans busy
    cases taken
    cases sync with
    | true => exact .inl (by simp [respond,established,none',start])
    | false => exact .inr (by simp [established,none',start,idle])
  | finish i =>
    obtain ⟨own,rfl⟩ := enabled taken
    obtain ⟨_,nothing⟩ | one := first
    · simp [nothing] at own
    rw [one,mem_singleton] at own
    exact .inl (by simp [respond,established,none',own])

end Session
end AffiniX.AdminServer
