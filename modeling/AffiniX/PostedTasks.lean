import AffiniX.Mailbox

/-! The task objects that posts are given. Every entry point moves the task into an item before the ring has room. -/
namespace AffiniX.PostedTasks
open List
variable {τ : Type*}

/-- What one try meets: whether the ring has room and, if not, whether the loop is found dead. -/
structure Turn where
  room : Bool
  dead : Bool := false
deriving DecidableEq

inductive Ending
  | returned (result : PostResult)
  | aborted
  | spinning
deriving DecidableEq

abbrev Outcome (τ : Type*) := Ending × List (PostedItem (Option τ))

variable (policy : OverflowPolicy) (item : PostedItem (Option τ))

def refused (again : Outcome τ) : Outcome τ := match policy with
  | .fail => (.returned .full,[])
  | .abort => (.aborted,[])
  | .spinRetry => again

def pushOne : List Turn → Outcome τ
  | [] => (.spinning,[])
  | turn::turns =>
    if turn.room then (.returned .ok,[item])
    else refused policy (if turn.dead then (.returned .closed,[]) else pushOne turns)

def mailboxPost (dead : Bool) (turns : List Turn) : Outcome τ :=
  if dead then (.returned .closed,[]) else pushOne policy item turns

/-- A refused item is destroyed with the task in it, so `post_full` makes its items from an empty one. -/
def emPost : List Turn → Outcome τ
  | [] => (.spinning,[])
  | turn::turns =>
    if turn.room then (.returned .ok,[item])
    else refused policy (pushOne .spinRetry { item with fn := none } turns)

/-- The try at which a spinning post ends. -/
def deciding (turns : List Turn) : Option Turn := turns.find? fun turn => turn.room || turn.dead

/-- When the two entry points agree. A spinning event manager that is refused at first has lost the task, unless it
never gets in; and it sees a dead loop after its second refusal, a mailbox before its first try. -/
def Agrees (dead : Bool) (turns : List Turn) : Prop :=
  if dead then policy = .spinRetry ∧ (∃ turn ∈ turns.head?, turn.room = false) ∧
    ∃ turn ∈ deciding turns.tail, turn.room = false
  else policy = .spinRetry → ∀ turn ∈ turns.head?, turn.room = false →
    if turn.dead then ∃ turn ∈ deciding turns.tail, turn.room = false
    else item.fn = none ∨ ∀ turn ∈ deciding turns.tail, turn.room = false

variable {policy item}

lemma pushOne_ok {turns : List Turn} {got : List (PostedItem (Option τ))}
    (ok : pushOne policy item turns = (.returned .ok,got)) : got = [item] := by
  induction turns with
  | nil => cases ok
  | cons _ _ ih =>
    unfold pushOne at ok
    split at ok
    · exact (congrArg Prod.snd ok).symm
    cases policy with
    | fail | abort => cases ok
    | spinRetry =>
      split at ok
      · cases ok
      · exact ih ok

lemma pushOne_spin (item : PostedItem (Option τ)) (turns : List Turn) : pushOne .spinRetry item turns =
    (deciding turns).elim (.spinning,[]) fun turn => if turn.room then (.returned .ok,[item]) else (.returned .closed,[]) := by
  induction turns with
  | nil => rfl
  | cons turn turns ih =>
    unfold deciding at ih ⊢
    rw [find?_cons,pushOne,refused,ih]
    cases room : turn.room with
    | true => simp [room]
    | false => cases turn.dead <;> simp [room]

lemma emPost_eq_iff (dead : Bool) (turns : List Turn) :
    emPost policy item turns = mailboxPost policy item dead turns ↔ Agrees policy item dead turns := by
  obtain ⟨fn,ctx⟩ := item
  unfold mailboxPost Agrees
  cases turns with
  | nil => cases dead <;> simp [emPost,pushOne]
  | cons turn turns =>
    cases room : turn.room with
    | true => cases dead <;> simp [emPost,pushOne,room]
    | false =>
      cases policy with
      | fail | abort => cases dead <;> simp [emPost,pushOne,refused,room]
      | spinRetry =>
        -- From here on both are decided by the same try.
        cases dead <;> cases dies : turn.dead <;> cases last : deciding turns with
        | none => simp [emPost,pushOne,refused,room,dies,pushOne_spin,last]
        | some u => cases in' : u.room <;> simp [emPost,pushOne,refused,room,dies,pushOne_spin,last,in',@eq_comm _ none]

/-- A post that returns `Ok` has put the caller's task into the ring, once, and both entry points come to
the same: exactly under the condition. -/
theorem post_enqueues (policy : OverflowPolicy) (item : PostedItem (Option τ)) (dead : Bool) (turns : List Turn) :
    ((∀ got, mailboxPost policy item dead turns = (.returned .ok,got) → got = [item]) ∧
      (∀ got, emPost policy item turns = (.returned .ok,got) → got = [item]) ∧
      emPost policy item turns = mailboxPost policy item dead turns) ↔ Agrees policy item dead turns := by
  have mailbox : ∀ got, mailboxPost policy item dead turns = (.returned .ok,got) → got = [item] := by
    intro got ok
    unfold mailboxPost at ok
    split at ok
    · cases ok
    · exact pushOne_ok ok
  rw [← emPost_eq_iff]
  refine ⟨fun kept => kept.2.2,fun same => ⟨mailbox,fun got ok => ?_,same⟩⟩
  exact mailbox got (same ▸ ok)

def task : PostedItem (Option Nat) := ⟨some 7,.empty⟩

/-- The ring is full at the first try and has room at the second. -/
theorem retry_enqueues_nothing :
    emPost .spinRetry task [⟨false,false⟩,⟨true,false⟩] = (.returned .ok,[⟨none,.empty⟩]) ∧
    mailboxPost .spinRetry task false [⟨false,false⟩,⟨true,false⟩] = (.returned .ok,[task]) := by
  decide

/-- `post_batch` from one task on: what it returns, what the ring receives, and the span it leaves. -/
def pushBatch (ctx : Context) : List (Option τ) → (Nat → Bool) → Nat × List (PostedItem (Option τ)) × List (Option τ)
  | [], _ => (0,[],[])
  | f::fns, room =>
    if room 0 then
      let (n,got,left) := pushBatch ctx fns fun i => room (i+1)
      (n+1,⟨f,ctx⟩::got,none::left)
    else (0,[],none::fns)

def postBatch (dead : Bool) (ctx : Context) (fns : List (Option τ)) (room : Nat → Bool) :
    Nat × List (PostedItem (Option τ)) × List (Option τ) :=
  if dead then (0,[],fns) else pushBatch ctx fns room

lemma pushBatch_spec (ctx : Context) (fns : List (Option τ)) (room : Nat → Bool) :
    let (n,got,left) := pushBatch ctx fns room
    got = (fns.take n).map (⟨·,ctx⟩) ∧ (left.drop n = fns.drop n ↔
      ∀ i f, fns[i]? = some f → (∀ j < i, room j) → room i = false → f = none) := by
  induction fns generalizing room with
  | nil => simp [pushBatch]
  | cons f fns ih =>
    unfold pushBatch
    cases free : room 0 with
    | true =>
      obtain ⟨queued,kept⟩ := ih fun i => room (i+1)
      refine ⟨congrArg (_::·) queued,kept.trans ⟨fun spared i g here before full => ?_,fun spared i g here before => ?_⟩⟩
      · cases i with
        | zero => cases free.symm.trans full
        | succ i => exact spared i g here (fun j below => before (j+1) (Nat.succ_lt_succ below)) full
      · refine spared (i+1) g here fun j below => ?_
        cases j with
        | zero => exact free
        | succ j => exact before j (Nat.lt_of_succ_lt_succ below)
    | false =>
      refine ⟨rfl,fun same i g here before full => ?_,fun spared => ?_⟩
      · cases i with
        | zero =>
          cases here
          exact (cons.inj same).1.symm
        | succ i => cases free.symm.trans (before 0 i.succ_pos)
      · exact congrArg (·::fns) (spared 0 f rfl nofun free).symm

/-- The first `n` tasks have been enqueued and the caller still has the others, exactly when the first task for which
there is no room is empty. -/
theorem batch_transfers (dead : Bool) (ctx : Context) (fns : List (Option τ)) (room : Nat → Bool)
    {n : Nat} {got : List (PostedItem (Option τ))} {left : List (Option τ)}
    (returned : postBatch dead ctx fns room = (n,got,left)) :
    (got = (fns.take n).map (⟨·,ctx⟩) ∧ left.drop n = fns.drop n ∧ got.map (·.fn)++left.drop n = fns) ↔
      dead ∨ ∀ i f, fns[i]? = some f → (∀ j < i, room j) → room i = false → f = none := by
  have spec : got = (fns.take n).map (⟨·,ctx⟩) ∧ (left.drop n = fns.drop n ↔
      dead ∨ ∀ i f, fns[i]? = some f → (∀ j < i, room j) → room i = false → f = none) := by
    unfold postBatch at returned
    split at returned
    next closed =>
      cases returned
      exact ⟨rfl,fun _ => .inl closed,fun _ => rfl⟩
    next alive =>
    have spec := pushBatch_spec ctx fns room
    rw [returned] at spec
    exact ⟨spec.1,spec.2.trans (or_iff_right alive).symm⟩
  obtain ⟨rfl,kept⟩ := spec
  rw [← kept]
  refine ⟨fun whole => whole.2.1,fun same => ⟨rfl,same,?_⟩⟩
  rw [same,map_map]
  exact (congrArg (·++_) (map_id _)).trans (take_append_drop n fns)

theorem both_transferred : postBatch false .empty [some 7,some 8] (fun _ => true) =
    (2,[⟨some 7,.empty⟩,⟨some 8,.empty⟩],[none,none]) ∧ [none,none].drop 2 = [some 7,some 8].drop 2 :=
  ⟨rfl,((batch_transfers false .empty [some 7,some 8] (fun _ => true) rfl).2 (.inr nofun)).2.1⟩

/-- One cell is free: the second task is neither in the ring nor with the caller any more. -/
theorem refused_task_lost : postBatch false .empty [some 7,some 8] (· == 0) = (1,[⟨some 7,.empty⟩],[none,none]) := rfl

end AffiniX.PostedTasks
