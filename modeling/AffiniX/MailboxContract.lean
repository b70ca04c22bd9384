import AffiniX.Mailbox
import AffiniX.MpscSound

/-! What becomes of the items that a mailbox has accepted, and of the contexts of the thread that runs them. -/
namespace AffiniX
open Transition Contexts

/-- What a task does. `work` touches no context; a coroutine is resumed under its own as by a scope. -/
inductive Act (ε : Type*)
  | work
  | clock (now : Int)
  | enter (e : ε) (ctx : Context)
  | leave
  | move
  | throw
deriving DecidableEq

abbrev Posted (ε : Type*) := PostedItem (List (Act ε))

/-- In `task` the task has `todo` left; `guard` is the scope of `run_guarded`, `scopes` are the task's, and `before` is
what the thread saw first. -/
inductive Stage (ε : Type*)
  | idle
  | pop (n : Nat)
  | task (n : Nat) (item : Posted ε) (todo : List (Act ε)) (guard : Scope ε)
      (scopes : List (Scope ε)) (before : Contexts ε)

structure EventManager (ι ε : Type*) where
  em : ε
  maxItcBatch : Nat
  terminate : Bool
  ring : MpscRing.Threads ι (Posted ε)
  now : Int
  contexts : Contexts ε
  stage : Stage ε
  mailboxPops : Nat
  deadlineExpiredBeforeStart : Nat
  callbackErrors : Nat
  taken : List (Posted ε × Int)
  ran : List (Posted ε)

namespace EventManager
variable {ι ε : Type*} [DecidableEq ι] [DecidableEq ε]

inductive Move (ι ε : Type*)
  | push (i : ι) (item : Posted ε)
  | producer (i : ι) (spurious : Bool)
  | outside (contexts : Contexts ε)
  | poll (now : Int)
  | em

def create (n : Nat) (blank : Posted ε) (em : ε) (maxItcBatch : Nat) (terminate : Bool)
    (contexts : Contexts ε) : EventManager ι ε where
  em := em
  maxItcBatch := maxItcBatch
  terminate := terminate
  ring := .create n blank
  now := 0
  contexts := contexts
  stage := .idle
  mailboxPops := 0
  deadlineExpiredBeforeStart := 0
  callbackErrors := 0
  taken := []
  ran := []

variable (s : EventManager ι ε)

/-- The condition of the loop in `drain_mailbox` after `n` items. -/
def again (n : Nat) : EventManager ι ε :=
  if n < s.maxItcBatch then
    { s with ring := { s.ring with consumer := some .loadSeq }, stage := .pop n }
  else { s with stage := .idle }

/-- An item is out of the ring: it is dropped, or `run_guarded` installs its context. -/
def receive (n : Nat) (item : Posted ε) : EventManager ι ε :=
  let s := { s with
    ring := { s.ring with consumer := none }
    mailboxPops := s.mailboxPops+1, taken := s.taken++[(item,s.now)] }
  if item.ctx.deadline.expired s.now then
    again { s with deadlineExpiredBeforeStart := s.deadlineExpiredBeforeStart+1 } (n+1)
  else
    let installed := s.contexts.withContext s.em item.ctx
    { s with
      contexts := installed.1, ran := s.ran++[item]
      stage := .task (n+1) item item.fn installed.2 [] s.contexts }

def finish (n : Nat) (guard : Scope ε) (scopes : List (Scope ε)) : EventManager ι ε :=
  again { s with contexts := (s.contexts.unwind scopes).restore guard } n

def act (n : Nat) (item : Posted ε) (todo : List (Act ε))
    (guard : Scope ε) (scopes : List (Scope ε)) (before : Contexts ε) :
    Act ε → Option (EventManager ι ε)
  | .work => some { s with stage := .task n item todo guard scopes before }
  | .clock now => some { s with now := now, stage := .task n item todo guard scopes before }
  | .enter e ctx =>
    let entered := s.contexts.withContext e ctx
    some { s with
      contexts := entered.1, stage := .task n item todo guard (entered.2::scopes) before }
  | .leave =>
    match scopes with
    | [] => none
    | scope::scopes => some { s with
        contexts := s.contexts.restore scope, stage := .task n item todo guard scopes before }
  | .move =>
    match scopes with
    | [] => none
    | scope::scopes => some { s with stage := .task n item todo guard (scope.moved::scopes) before }
  | .throw =>
    if s.terminate then none
    else some (finish { s with callbackErrors := s.callbackErrors+1 } n guard scopes)

def emStep : Option (EventManager ι ε) := match s.stage with
  | .idle => none
  | .pop n =>
    match s.ring.consumer with
    | some (.popped item) => some (s.receive n item)
    | some .none => some { s with ring := { s.ring with consumer := none }, stage := .idle }
    | _ => (s.ring.step .consumer).map fun ring => { s with ring := ring }
  | .task n _ [] guard scopes _ => some (s.finish n guard scopes)
  | .task n item (a::todo) guard scopes before => s.act n item todo guard scopes before a

def step (s : EventManager ι ε) : Move ι ε → Option (EventManager ι ε)
  | .push i item => (s.ring.step (.push i item)).map fun ring => { s with ring := ring }
  | .producer i spurious => (s.ring.step (.producer i spurious)).map fun ring => { s with ring := ring }
  | .outside contexts =>
    match s.stage with
    | .idle => some { s with contexts := contexts }
    | _ => none
  | .poll now =>
    match s.stage with
    | .idle => some (again { s with now := now } 0)
    | _ => none
  | .em => s.emStep

def Step (move : Move ι ε) (s' : EventManager ι ε) : Prop := s.step move = some s'

def Orderly : Move ι ε → Prop
  | .producer i spurious => s.ring.Timely (.producer i spurious)
  | .em =>
    match s.stage with
    | .task _ _ (.move::_) _ _ _ => False
    | _ => True
  | _ => True

instance (s : EventManager ι ε) (move : Move ι ε) : Decidable (s.Orderly move) := by
  unfold Orderly
  split
  · infer_instance
  · split <;> infer_instance
  · infer_instance
end EventManager
end AffiniX
namespace AffiniX.EventManager
open Transition WrapCounter MpscRing Threads List Contexts
variable {ι ε : Type*} [DecidableEq ι] {n : Nat} {s t : EventManager ι ε}

def late (x : Posted ε × Int) : Bool := x.1.ctx.deadline.expired x.2

structure Books (n : Nat) (s : EventManager ι ε) : Prop where
  ring : s.ring.Sound n
  given : s.ring.past.popped = s.taken.map Prod.fst++s.ring.inHand
  pops : s.mailboxPops = s.taken.length
  ran : s.ran = (s.taken.filter (!late ·)).map Prod.fst
  shed : s.deadlineExpiredBeforeStart = (s.taken.filter late).length

lemma Books.same (books : s.Books n) (ring : t.ring = s.ring)
    (rest : (t.taken,t.mailboxPops,t.ran,t.deadlineExpiredBeforeStart) =
    (s.taken,s.mailboxPops,s.ran,s.deadlineExpiredBeforeStart)) : t.Books n := by
  simp only [Prod.mk.injEq] at rest
  obtain ⟨taken,pops,ran,shed⟩ := rest
  constructor
  · exact ring ▸ books.ring
  · rw [ring,taken]
    exact books.given
  · rw [pops,taken]
    exact books.pops
  · rw [ran,taken]
    exact books.ran
  rw [shed,taken]
  exact books.shed

lemma Books.moved (books : s.Books n) {ring : MpscRing.Threads ι (Posted ε)} (sound : ring.Sound n)
    {new : List (Posted ε)} (popped : ring.past.popped = s.ring.past.popped++new)
    (hand : ring.inHand = s.ring.inHand++new) : Books n { s with ring := ring } := by
  refine ⟨sound,?_,books.pops,books.ran,books.shed⟩
  rw [popped,hand,books.given,append_assoc]

lemma Books.turn (books : s.Books n) {p : Option (MpscRing.Pop (Posted ε))}
    (hand : s.ring.inHand = []) (after : inHand { s.ring with consumer := p } = [])
    (takes : s.ring.Takes p) : Books n { s with ring := { s.ring with consumer := p } } := by
  have sound : Sound n { s.ring with consumer := p } :=
    books.ring.look _ s.ring.ring.deqPos s.ring.past.popped takes books.ring.popped
  refine books.moved sound (append_nil _).symm ?_
  rw [hand]
  exact after

variable [DecidableEq ε]

def Staged (s : EventManager ι ε) : Stage ε → Prop
  | .idle => s.ring.consumer = none
  | .pop n => s.ring.consumer ≠ none ∧ n < s.maxItcBatch
  | .task n item _ guard scopes before =>
    s.ring.consumer = none ∧ n ≤ s.maxItcBatch ∧ s.ran.getLast? = some item ∧
      guard = (before.withContext s.em item.ctx).2 ∧
      s.contexts.unwind scopes = (before.withContext s.em item.ctx).1

structure Inv (n : Nat) (s : EventManager ι ε) : Prop where
  books : s.Books n
  staged : s.Staged s.stage

lemma Books.again (books : s.Books n) (free : s.ring.consumer = none) (k : Nat) : Inv n (s.again k) := by
  unfold EventManager.again
  split
  next more =>
    have takes := books.ring.takes
    rw [free] at takes
    have hand : s.ring.inHand = [] := by
      unfold inHand
      rw [free]
    have asked := books.turn (p := some .loadSeq) hand rfl takes
    exact ⟨asked.same rfl rfl,nofun,more⟩
  · exact ⟨books.same rfl rfl,free⟩

lemma Inv.produces (inv : s.Inv n) {ring : MpscRing.Threads ι (Posted ε)} (sound : ring.Sound n)
    (consumer : ring.consumer = s.ring.consumer) (popped : ring.past.popped = s.ring.past.popped) :
    Inv n { s with ring := ring } := by
  refine ⟨inv.books.moved sound (popped.trans (append_nil _).symm) ?_,?_⟩
  · unfold inHand
    rw [consumer,append_nil]
  have staged := inv.staged
  unfold Staged at staged ⊢
  simp only [consumer]
  exact staged

variable {k : Nat} {item : Posted ε} {todo : List (Act ε)} {guard : Scope ε}
  {scopes : List (Scope ε)} {before : Contexts ε}

lemma Inv.receive (inv : s.Inv n) (here : s.stage = .pop k)
    (done : s.ring.consumer = some (.popped item)) : Inv n (s.receive k item) := by
  have staged := inv.staged
  rw [here] at staged
  have takes := inv.books.ring.takes
  rw [done] at takes
  have sound : Sound n { s.ring with consumer := none } :=
    inv.books.ring.look none s.ring.ring.deqPos s.ring.past.popped takes inv.books.ring.popped
  have given : s.ring.past.popped = (s.taken++[(item,s.now)]).map Prod.fst++[] := by
    rw [inv.books.given,map_append,append_nil]
    unfold inHand
    rw [done]
    rfl
  have pops : s.mailboxPops+1 = (s.taken++[(item,s.now)]).length := by
    rw [inv.books.pops,length_append,length_singleton]
  unfold EventManager.receive
  simp only
  split
  next expired =>
    have expired : late (item,s.now) = true := expired
    refine Books.again ⟨sound,given,pops,?_,?_⟩ rfl (k+1)
    · change s.ran = _
      rw [inv.books.ran,filter_append]
      simp [expired]
    change s.deadlineExpiredBeforeStart+1 = _
    rw [inv.books.shed,filter_append]
    simp [expired]
  next fresh =>
  have fresh : late (item,s.now) = false := Bool.eq_false_iff.2 fresh
  refine ⟨⟨sound,given,pops,?_,?_⟩,rfl,staged.2,?_,rfl,rfl⟩
  · change s.ran++[item] = _
    rw [inv.books.ran,filter_append]
    simp [fresh]
  · change s.deadlineExpiredBeforeStart = _
    rw [inv.books.shed,filter_append]
    simp [fresh]
  · exact getLast?_concat

omit [DecidableEq ι] in
lemma finish_contexts
    (staged : s.Staged (.task k item todo guard scopes before)) :
    (s.contexts.unwind scopes).restore guard = before := by
  obtain ⟨_,_,_,rfl,unwound⟩ := staged
  rw [unwound]
  exact restore_withContext _ _ _

lemma Inv.act (inv : s.Inv n) {a : Act ε}
    (here : s.stage = .task k item (a::todo) guard scopes before) (still : a ≠ .move)
    (taken : s.act k item todo guard scopes before a = some t) : Inv n t := by
  have staged := inv.staged
  rw [here] at staged
  obtain ⟨free,batch,ran,saved,unwound⟩ := staged
  have books := inv.books
  cases a with
  | work | clock =>
    cases taken
    exact ⟨books.same rfl rfl,free,batch,ran,saved,unwound⟩
  | enter =>
    cases taken
    refine ⟨books.same rfl rfl,free,batch,ran,saved,?_⟩
    exact (unwind_withContext _ _ _ _).trans unwound
  | leave =>
    cases scopes with
    | nil => cases taken
    | cons =>
      cases taken
      exact ⟨books.same rfl rfl,free,batch,ran,saved,unwound⟩
  | move => exact absurd rfl still
  | throw =>
    simp only [EventManager.act,finish] at taken
    split at taken
    · cases taken
    cases taken
    refine Books.again ?_ ?_ k
    · exact books.same rfl rfl
    · exact free

lemma Inv.em (inv : s.Inv n) (positive : 0 < n) (small : n < 64) (taken : s.emStep = some t)
    (orderly : s.Orderly .em) : Inv n t := by
  have staged := inv.staged
  unfold emStep at taken
  split at taken
  · cases taken
  next here =>
    split at taken
    · cases taken
      exact inv.receive here ‹_›
    next done =>
      cases taken
      have takes := inv.books.ring.takes
      rw [done] at takes
      have hand : s.ring.inHand = [] := by
        unfold inHand
        rw [done]
      have left := inv.books.turn (p := none) hand rfl takes
      exact ⟨left.same rfl rfl,rfl⟩
    next popped empty =>
    obtain ⟨_,moved,rfl⟩ := Option.map_eq_some_iff.1 taken
    have sound := step_sound positive small moved trivial inv.books.ring
    obtain ⟨_,⟨_,given,hand⟩,asked,_⟩ := inv.books.ring.consumer_popped moved ⟨empty,popped⟩
    refine ⟨inv.books.moved sound given hand,?_⟩
    rw [here] at staged ⊢
    exact ⟨asked,staged.2⟩
  next k _ _ _ _ here =>
    cases taken
    rw [here] at staged
    have books := inv.books
    refine Books.again ?_ ?_ k
    · exact books.same rfl rfl
    · exact staged.1
  next here =>
  refine inv.act here ?_ taken
  rintro rfl
  unfold Orderly at orderly
  rw [here] at orderly
  exact orderly

lemma step_inv (positive : 0 < n) (small : n < 64) {move : Move ι ε} (taken : Step s move t)
    (orderly : s.Orderly move) (inv : s.Inv n) : Inv n t := by
  cases move with
  | push =>
    obtain ⟨_,moved,rfl⟩ := Option.map_eq_some_iff.1 taken
    have sound := step_sound positive small moved trivial inv.books.ring
    cases step_turn moved with
    | call => exact inv.produces sound rfl rfl
  | producer =>
    obtain ⟨_,moved,rfl⟩ := Option.map_eq_some_iff.1 taken
    have sound := step_sound positive small moved orderly inv.books.ring
    obtain ⟨consumer,_,popped,_⟩ := producer_published moved
    exact inv.produces sound consumer popped
  | outside =>
    simp only [Step,step] at taken
    split at taken
    next here =>
      cases taken
      have staged := inv.staged
      rw [here] at staged
      refine ⟨inv.books.same rfl rfl,?_⟩
      rw [here]
      exact staged
    · cases taken
  | poll =>
    simp only [Step,step] at taken
    split at taken
    next here =>
      cases taken
      have books := inv.books
      have staged := inv.staged
      rw [here] at staged
      refine Books.again ?_ ?_ 0
      · exact books.same rfl rfl
      · exact staged
    · cases taken
  | em => exact inv.em positive small taken orderly

structure Contract (s : EventManager ι ε) : Prop where
  /-- Items are taken in the order of their claims, each once. -/
  order : s.taken.map Prod.fst <+: s.ring.values
  pops : s.mailboxPops = s.taken.length
  /-- Exactly the items whose deadline has not passed are run. -/
  ran : s.ran = (s.taken.filter (!late ·)).map Prod.fst
  shed : s.deadlineExpiredBeforeStart = (s.taken.filter late).length
  starts : ∀ k t k' item todo guard scopes before, s.stage = .pop k → Step s .em t →
    t.stage = .task k' item todo guard scopes before → before = s.contexts ∧ scopes = []
  /-- Outside the scopes that it opens itself a task sees its own context. -/
  running : ∀ k item todo guard before, s.stage = .task k item todo guard [] before →
    s.contexts.slots s.em = item.ctx ∧ s.contexts.ambient = item.ctx
  /-- However a task ends, the thread sees what it saw when the item was taken. -/
  returns : ∀ k item todo guard scopes before t, s.stage = .task k item todo guard scopes before →
    Step s .em t → (∀ k' item' todo' guard' scopes' before',
      t.stage ≠ .task k' item' todo' guard' scopes' before') → t.contexts = before
  cutoff : ∀ k, s.stage = .pop k → k < s.maxItcBatch
  /-- A poll stops short of its batch only when it has taken all that is published in front. -/
  drained : ∀ k t, s.stage = .pop k → Step s .em t → t.ring.consumer = some .none →
    (∀ i, ¬ s.ring.Holding i) → s.taken.map Prod.fst = s.ring.values

omit [DecidableEq ε] in
lemma Books.order (books : s.Books n) : s.taken.map Prod.fst <+: s.ring.values := by
  have given : s.taken.map Prod.fst <+: s.ring.past.popped := ⟨s.ring.inHand,books.given.symm⟩
  have front := take_prefix s.ring.past.popped.length s.ring.values
  rw [values,← books.ring.popped] at front
  exact given.trans front

lemma Inv.running (inv : s.Inv n) (here : s.stage = .task k item todo guard [] before) :
    s.contexts.slots s.em = item.ctx ∧ s.contexts.ambient = item.ctx := by
  have staged := inv.staged
  rw [here] at staged
  obtain ⟨_,_,_,_,own⟩ := staged
  have own : s.contexts = _ := own
  rw [own]
  exact ⟨withContext_slots _ _ _,withContext_ambient _ _ _⟩

omit [DecidableEq ι] [DecidableEq ε] in
lemma again_contexts (s : EventManager ι ε) (k : Nat) : (s.again k).contexts = s.contexts := by
  unfold again
  split <;> rfl

lemma Inv.returns (inv : s.Inv n)
    (here : s.stage = .task k item todo guard scopes before) (taken : Step s .em t)
    (ending : ∀ k' item' todo' guard' scopes' before',
    t.stage ≠ .task k' item' todo' guard' scopes' before') : t.contexts = before := by
  have staged := inv.staged
  rw [here] at staged
  have back := finish_contexts staged
  change s.emStep = some t at taken
  unfold emStep at taken
  rw [here] at taken
  cases todo with
  | nil =>
    cases taken
    rw [finish,again_contexts]
    exact back
  | cons a =>
    cases a with
    | throw =>
      simp only [EventManager.act] at taken
      split at taken
      · cases taken
      cases taken
      rw [finish,again_contexts]
      exact back
    | leave | move =>
      cases scopes with
      | nil => cases taken
      | cons =>
        cases taken
        exact absurd rfl (ending _ _ _ _ _ _)
    | _ =>
      cases taken
      exact absurd rfl (ending _ _ _ _ _ _)

omit [DecidableEq ι] [DecidableEq ε] in
lemma again_asks (s : EventManager ι ε) (free : s.ring.consumer = none) (k : Nat) :
    (s.again k).ring.consumer ≠ some .none := by
  unfold again
  split
  · exact nofun
  rw [free]
  exact nofun

omit [DecidableEq ι] in
lemma receive_asks (s : EventManager ι ε) (k : Nat) (item : Posted ε) :
    (s.receive k item).ring.consumer ≠ some .none := by
  unfold receive
  simp only
  split
  · refine again_asks _ ?_ _
    rfl
  · exact nofun

omit [DecidableEq ι] [DecidableEq ε] in
lemma again_stage (s : EventManager ι ε) (k : Nat) {k' : Nat} :
    (s.again k).stage ≠ .task k' item todo guard scopes before := by
  unfold again
  split <;> exact nofun

lemma pop_starts {k' : Nat} (here : s.stage = .pop k) (taken : Step s .em t)
    (there : t.stage = .task k' item todo guard scopes before) : before = s.contexts ∧ scopes = [] := by
  change s.emStep = some t at taken
  unfold emStep at taken
  rw [here] at taken
  simp only at taken
  split at taken
  · cases taken
    unfold EventManager.receive at there
    simp only at there
    split at there
    · exact absurd there (again_stage _ _)
    cases there
    exact ⟨rfl,rfl⟩
  · cases taken
    cases there
  obtain ⟨_,_,rfl⟩ := Option.map_eq_some_iff.1 taken
  cases there

lemma Inv.drained (inv : s.Inv n) (here : s.stage = .pop k) (taken : Step s .em t)
    (none' : t.ring.consumer = some .none) (quiet : ∀ i, ¬ s.ring.Holding i) :
    s.taken.map Prod.fst = s.ring.values := by
  change s.emStep = some t at taken
  unfold emStep at taken
  rw [here] at taken
  simp only at taken
  split at taken
  · cases taken
    exact absurd none' (receive_asks _ _ _)
  · cases taken
    cases none'
  obtain ⟨_,moved,rfl⟩ := Option.map_eq_some_iff.1 taken
  cases step_turn moved with
  | empty at' unready =>
    have front := inv.books.ring.front at' unready
    have takes := inv.books.ring.takes
    rw [at'] at takes
    have level : s.ring.past.claimed.length ≤ s.ring.past.released := by
      by_contra behind
      obtain ⟨i,holds,_⟩ := inv.books.ring.held s.ring.past.released (by omega) (by simpa using front)
      exact quiet i holds
    have given := inv.books.given
    unfold inHand at given
    rw [at',append_nil] at given
    have all := inv.books.ring.popped
    rw [takes.2,take_of_length_le (by rw [length_map]; exact level)] at all
    exact given.symm.trans all
  | leave => cases none'
  | _ => cases none'

theorem contract_kept (positive : 0 < n) (small : n < 64) {blank : Posted ε} {em : ε} {batch : Nat}
    {terminate : Bool} {contexts : Contexts ε} {moves : List (Move ι ε)}
    (run : Exec (Guarded Step Orderly) (create n blank em batch terminate contexts) moves s) :
    s.Contract := by
  have inv : s.Inv n := run.invariant (Inv n) (fun _ _ _ taken => step_inv positive small taken.2 taken.1)
    ⟨⟨create_sound small blank,rfl,rfl,rfl,rfl⟩,rfl⟩
  refine ⟨inv.books.order,inv.books.pops,inv.books.ran,inv.books.shed,?_,?_,?_,?_,?_⟩
  · exact fun _ _ _ _ _ _ _ _ here taken there => pop_starts here taken there
  · exact fun _ _ _ _ _ here => inv.running here
  · exact fun _ _ _ _ _ _ _ here taken ending => inv.returns here taken ending
  · intro k here
    have staged := inv.staged
    rw [here] at staged
    exact staged.2
  · exact fun _ _ here taken none' quiet => inv.drained here taken none' quiet

def fresh : EventManager Unit Unit := create 1 ⟨[],.empty⟩ () 4 false ⟨fun _ => .empty,none⟩

def postAndPoll (item : Posted Unit) (k : Nat) : List (Move Unit Unit) :=
  .push () item::replicate 6 (.producer () false)++.poll 10::replicate k .em

def prioritized (priority : BitVec 32) (deadline : Option Int) : Context :=
  { Context.empty with priority := priority, deadline := ⟨deadline⟩ }

theorem throwAndShed_contract : ∃ moves s, Exec (Guarded Step Orderly) fresh moves s ∧
    s.ran.map (·.ctx.priority) = [1] ∧ s.deadlineExpiredBeforeStart = 1 ∧ s.Contract :=
  ⟨postAndPoll ⟨[.enter () (prioritized 3 none),.throw],prioritized 1 (some 11)⟩ 9++
      postAndPoll ⟨[.work],prioritized 2 (some 10)⟩ 7,
    Exec.shown_of_drive (P := fun s => s.ran.map (·.ctx.priority) = [1] ∧ s.deadlineExpiredBeforeStart = 1)
      (by decide +kernel) fun _ run ⟨ran,shed⟩ => ⟨ran,shed,contract_kept (by decide) (by decide) run⟩⟩

def strayed (s : EventManager Unit Unit) : Bool := match s.stage with
  | .task _ item _ _ [] _ => s.contexts.slots s.em ≠ item.ctx
  | _ => false

/-- A scope that was moved does not restore the context when it ends. -/
theorem movedScope_strays : ∃ moves s, Exec Step fresh moves s ∧
    ∃ k item todo guard before, s.stage = .task k item todo guard [] before ∧ s.contexts.slots s.em ≠ item.ctx := by
  refine ⟨postAndPoll ⟨[.enter () (prioritized 3 none),.move,.leave,.work],prioritized 1 none⟩ 8,
    Exec.run_of_drive (P := fun s => strayed s = true) (by decide +kernel) ?_⟩
  intro s _ stray
  unfold strayed at stray
  split at stray
  next k item todo guard before here => exact ⟨k,item,todo,guard,before,here,of_decide_eq_true stray⟩
  · cases stray

end AffiniX.EventManager
