import AffiniX.Coroutine
import AffiniX.Mailbox

/-! Where the exchange of a `post_and_reply` is, and what will resume the coroutine that waits. -/
namespace AffiniX
open Transition
open Function (update update_apply update_eq_self update_of_ne update_self)
namespace PostReply
inductive Job
  | request
  | reply
  | other
deriving DecidableEq

/-- What a loop executes: `await` is `await_suspend` in its `post`, `request` is `run_remote` in its function or its
`post`. -/
inductive Stage
  | idle
  | await (call : Posting Job)
  | request (ctx : Context) (call : Option (Posting Job))
  | reply

def Stage.isIdle : Stage → Bool
  | .idle => true
  | .await _ | .request _ _ | .reply => false

def Stage.isFree : Stage → Bool
  | .idle | .request _ none => true
  | .await _ | .request _ (some _) | .reply => false

inductive Waiter
  | running
  | parked
  | destroyed
deriving DecidableEq

inductive Outcome
  | answer
  | cancelled
  | full
  | closed
deriving DecidableEq
end PostReply

/-- Event loops with mailbox and clock, and what the two tasks of an exchange share. `accepted`: `await_suspend`
returned true; `fault`: a resumption after the frame was destroyed. -/
structure PostReply (ε : Type*) where
  home : ε
  target : ε
  boxes : ε → Mailbox PostReply.Job
  now : ε → Int
  stage : ε → PostReply.Stage
  promise : Promise Unit
  awaited : Bool
  accepted : Bool
  waiter : PostReply.Waiter
  waiterAlive : Bool
  cancelled : Bool
  outcome : Option PostReply.Outcome
  resumes : Nat
  fault : Bool

namespace PostReply
variable {ε : Type*} [DecidableEq ε]

def create (home target : ε) (cap : ε → Nat) (stopped : Bool) : PostReply ε where
  home := home
  target := target
  boxes := fun l => ⟨cap l,.fail,false,[]⟩
  now := fun _ => 0
  stage := fun _ => .idle
  promise := { stopped := stopped }
  awaited := false
  accepted := false
  waiter := .running
  waiterAlive := false
  cancelled := false
  outcome := none
  resumes := 0
  fault := false

section
variable (s : PostReply ε)

def setBox (l : ε) (box : Mailbox Job) : PostReply ε := { s with boxes := update s.boxes l box }

def setStage (l : ε) (stage : Stage) : PostReply ε := { s with stage := update s.stage l stage }

/-- `await_suspend` up to its call of `post`; `token` is the stop token of the context. -/
def awaitSuspend (ctx : Context) (token : Bool) : PostReply ε :=
  if s.promise.stopped || token then { s with awaited := true, outcome := some .cancelled }
  else setStage { s with awaited := true, waiterAlive := true, promise := s.promise.setCancel () } s.home
    (.await (.open' ⟨.request,ctx⟩))

/-- A step of the `post` in `await_suspend`, and what follows when it returns. -/
def awaitPost (call : Posting Job) : Option (PostReply ε) := let posted := (s.boxes s.target).postStep call
  let t := s.setBox s.target posted.1
  match posted.2 with
  | .returned .ok => some (setStage { t with accepted := true, waiter := .parked } s.home .idle)
  | .returned .full => some (setStage { t with
      waiterAlive := false, promise := s.promise.clearCancel, outcome := some .full } s.home .idle)
  | .returned .closed => some (setStage { t with
      waiterAlive := false, promise := s.promise.clearCancel, outcome := some .closed } s.home .idle)
  | .aborted => none
  | call => some (t.setStage s.home (.await call))

/-- A step of the `post` in `run_remote`, whose result is not looked at. -/
def replyPost (l : ε) (ctx : Context) (call : Posting Job) : Option (PostReply ε) :=
  let posted := (s.boxes s.home).postStep call
  let t := s.setBox s.home posted.1
  match posted.2 with
  | .returned _ => some (t.setStage l .idle)
  | .aborted => none
  | call => some (t.setStage l (.request ctx (some call)))

def reply : PostReply ε := if s.waiterAlive = false then s
  else
    let s := { s with
      outcome := some (if s.cancelled then .cancelled else .answer)
      promise := s.promise.clearCancel }
    match s.waiter with
    | .destroyed => { s with fault := true }
    | .running | .parked => { s with waiter := .running, waiterAlive := false, resumes := s.resumes+1 }

def take (l : ε) (item : PostedItem Job) (rest : List (PostedItem Job)) : PostReply ε :=
  let t := s.setBox l { s.boxes l with queue := rest }
  if item.ctx.deadline.expired (s.now l) then t
  else match item.fn with
    | .request => t.setStage l (.request item.ctx none)
    | .reply => t.setStage l .reply
    | .other => t

/-- The events. `run` is the next step of what a loop executes of the exchange; `post` puts a task of
someone else into a mailbox. -/
inductive Move (ε : Type*)
  | await (ctx : Context) (token : Bool)
  | run (l : ε)
  | take (l : ε)
  | post (l : ε) (ctx : Context)
  | clock (l : ε) (now : Int)
  | stop
  | destroy

def step : Move ε → Option (PostReply ε)
  | .await ctx token => if s.awaited ∨ (s.stage s.home).isIdle = false then none else some (s.awaitSuspend ctx token)
  | .run l =>
    match s.stage l with
    | .idle => none
    | .await call => s.awaitPost call
    | .request ctx none => some (s.setStage l (.request ctx (some (.open' ⟨.reply,ctx⟩))))
    | .request ctx (some call) => s.replyPost l ctx call
    | .reply => some (s.reply.setStage l .idle)
  | .take l =>
    if (s.stage l).isIdle then
      match (s.boxes l).queue with
      | [] => none
      | item::rest => some (s.take l item rest)
    else none
  | .post l ctx =>
    if (s.boxes l).full then none
    else some (s.setBox l { s.boxes l with queue := (s.boxes l).queue++[⟨.other,ctx⟩] })
  | .clock l now => some { s with now := update s.now l now }
  | .stop =>
    if (s.stage s.home).isFree ∧ s.waiter ≠ .destroyed then
      match s.promise.cancel with
      | none => some { s with promise := s.promise.requestStop }
      | some _ => some { s with promise := s.promise.requestStop, cancelled := true }
    else none
  | .destroy =>
    if (s.stage s.home).isFree ∧ s.waiter = .parked then
      some { s with waiter := .destroyed, waiterAlive := false }
    else none
end

def pending (box : Mailbox Job) (j : Job) : Nat := (box.queue.map PostedItem.fn).count j

inductive Place
  | unposted
  | asking
  | serving
  | answering
  | landing
  | gone
deriving DecidableEq

def Posts (call : Posting Job) (j : Job) : Prop := ∃ item, item.fn = j ∧ (call = .open' item ∨ call = .push item)

def Staged (home target : ε) (p : Place) (l : ε) : Stage → Prop
  | .idle => True
  | .await call => p = .unposted ∧ l = home ∧ Posts call .request
  | .request _ call => p = .serving ∧ l = target ∧ ∀ c, call = some c → Posts c .reply
  | .reply => p = .landing ∧ l = home

structure Located (home target : ε) (p : Place) (boxes : ε → Mailbox Job) (stage : ε → Stage) : Prop where
  usable : ∀ l, (boxes l).dead = false ∧ (boxes l).overflow = .fail
  requests : ∀ l, pending (boxes l) .request = if p = .asking ∧ l = target then 1 else 0
  replies : ∀ l, pending (boxes l) .reply = if p = .answering ∧ l = home then 1 else 0
  staged : ∀ l, Staged home target p l (stage l)
  serving : p = .serving → ∃ ctx call, stage target = .request ctx call
  landing : p = .landing → stage home = .reply

section
variable {box : Mailbox Job} {item : PostedItem Job} {rest : List (PostedItem Job)}

lemma pending_take (front : box.queue = item::rest) (j : Job) :
    pending box j = pending { box with queue := rest } j + if item.fn = j then 1 else 0 := by
  unfold pending
  rw [front,List.map_cons,List.count_cons]
  simp

lemma pending_push (j : Job) : pending { box with queue := box.queue++[item] } j =
    pending box j + if item.fn = j then 1 else 0 := by
  unfold pending
  rw [List.map_append,List.count_append]
  simp [List.count_cons]

lemma postStep_open (open' : box.dead = false) : box.postStep (.open' item) = (box,.push item) := by
  rw [Mailbox.postStep,open']
  rfl

lemma postStep_push (policy : box.overflow = .fail) : box.postStep (.push item) = if box.full then (box,.returned .full)
    else ({ box with queue := box.queue++[item] },.returned .ok) := by
  rw [Mailbox.postStep,policy]
end
namespace Located
variable {home target l : ε} {p q : Place} {boxes : ε → Mailbox Job} {stage : ε → Stage} {next : Stage}
  {item : PostedItem Job} {rest : List (PostedItem Job)}

lemma idle (at' : Located home target p boxes stage) (asks : p = .unposted → l ≠ home)
    (serves : p = .serving → l ≠ target) (lands : p = .landing → l ≠ home) : stage l = .idle := by
  have staged := at'.staged l
  cases here : stage l with
  | idle => rfl
  | await =>
    rw [here] at staged
    exact absurd staged.2.1 (asks staged.1)
  | request =>
    rw [here] at staged
    exact absurd staged.2.1 (serves staged.1)
  | reply =>
    rw [here] at staged
    exact absurd staged.2 (lands staged.1)

lemma staged_update (fits : Staged home target q l next) (others : ∀ x, x ≠ l → stage x = .idle) (x : ε) :
    Staged home target q x (update stage l next x) := by
  rw [update_apply]
  split
  next here => exact here ▸ fits
  next other =>
  rw [others x other]
  trivial

lemma usable_update (at' : Located home target p boxes stage) (queue : List (PostedItem Job)) (x : ε) :
    (update boxes l { boxes l with queue := queue } x).dead = false ∧
      (update boxes l { boxes l with queue := queue } x).overflow = .fail := by
  rw [update_apply]
  split
  · exact at'.usable l
  · exact at'.usable x

lemma pending_takes (front : (boxes l).queue = item::rest) (x : ε) (j : Job) :
    pending (boxes x) j = pending (update boxes l { boxes l with queue := rest } x) j +
      if x = l ∧ item.fn = j then 1 else 0 := by
  rw [update_apply]
  by_cases here : x = l
  · subst here
    rw [if_pos rfl,pending_take front]
    simp
  · simp [here]

lemma pending_pushes (x : ε) (j : Job) :
    pending (update boxes l { boxes l with queue := (boxes l).queue++[item] } x) j =
      pending (boxes x) j + if x = l ∧ item.fn = j then 1 else 0 := by
  rw [update_apply]
  by_cases here : x = l
  · subst here
    rw [if_pos rfl,pending_push]
    simp
  · simp [here]

section
variable (at' : Located home target p boxes stage)
include at'

lemma sameBox : Located home target p (update boxes l (boxes l)) stage := by
  rw [update_eq_self]
  exact at'

lemma goOn (fits : Staged home target p l next)
    (serving : p = .serving → l = target → ∃ ctx call, next = .request ctx call)
    (landing : p = .landing → l ≠ home) : Located home target p boxes (update stage l next) where
  usable := at'.usable
  requests := at'.requests
  replies := at'.replies
  staged x := by
    rw [update_apply]
    split
    next here => exact here ▸ fits
    · exact at'.staged x
  serving here := by
    rw [update_apply]
    split
    next same => exact serving here same.symm
    · exact at'.serving here
  landing here := by
    rw [update_of_ne (landing here).symm]
    exact at'.landing here

lemma pushOther (other : item.fn = .other) :
    Located home target p (update boxes l { boxes l with queue := (boxes l).queue++[item] }) stage where
  usable := at'.usable_update _
  requests x := by
    rw [pending_pushes,at'.requests x,other]
    simp
  replies x := by
    rw [pending_pushes,at'.replies x,other]
    simp
  staged := at'.staged
  serving := at'.serving
  landing := at'.landing

lemma takeOther (front : (boxes l).queue = item::rest) (other : item.fn = .other) :
    Located home target p (update boxes l { boxes l with queue := rest }) stage where
  usable := at'.usable_update _
  requests x := by
    have taken := pending_takes front x .request
    rw [other] at taken
    rw [← at'.requests x,taken]
    simp
  replies x := by
    have taken := pending_takes front x .reply
    rw [other] at taken
    rw [← at'.replies x,taken]
    simp
  staged := at'.staged
  serving := at'.serving
  landing := at'.landing
end

lemma ask (at' : Located home target .unposted boxes stage) (asks : item.fn = .request) : Located home target .asking
    (update boxes target { boxes target with queue := (boxes target).queue++[item] })
      (update stage home .idle) where
  usable := at'.usable_update _
  requests x := by
    rw [pending_pushes,at'.requests x,asks]
    simp
  replies x := by
    rw [pending_pushes,at'.replies x,asks]
    simp
  staged := staged_update trivial fun _ other => at'.idle (fun _ => other) nofun nofun
  serving := nofun
  landing := nofun

section
variable (at' : Located home target p boxes stage)
include at'

variable (front : (boxes l).queue = item::rest)
include front

lemma asking_of_front (asks : item.fn = .request) : p = .asking ∧ l = target := by
  have one := at'.requests l
  rw [pending_takes front l,asks] at one
  by_contra other
  rw [if_neg other] at one
  simp at one

lemma answering_of_front (answers : item.fn = .reply) : p = .answering ∧ l = home := by
  have one := at'.replies l
  rw [pending_takes front l,answers] at one
  by_contra other
  rw [if_neg other] at one
  simp at one

lemma takeOwn
    (own : item.fn ≠ .other) (asked : q ≠ .asking) (answered : q ≠ .answering)
    (fits : Staged home target q l next)
    (serving : q = .serving → l = target ∧ ∃ ctx call, next = .request ctx call)
    (landing : q = .landing → l = home ∧ next = .reply) :
    Located home target q (update boxes l { boxes l with queue := rest }) (update stage l next) := by
  have where' : p = .asking ∧ l = target ∧ item.fn = .request ∨ p = .answering ∧ l = home ∧ item.fn = .reply := by
    cases kind : item.fn with
    | request => exact .inl ⟨(at'.asking_of_front front kind).1,(at'.asking_of_front front kind).2,rfl⟩
    | reply => exact .inr ⟨(at'.answering_of_front front kind).1,(at'.answering_of_front front kind).2,rfl⟩
    | other => exact absurd kind own
  have others (x : ε) : stage x = .idle := by
    rcases where' with ⟨rfl,_⟩ | ⟨rfl,_⟩ <;> exact at'.idle nofun nofun nofun
  exact {
    usable := at'.usable_update _
    requests := fun x => by
      have taken := at'.requests x
      rw [pending_takes front x] at taken
      rw [if_neg fun here => asked here.1]
      rcases where' with ⟨rfl,rfl,kind⟩ | ⟨rfl,rfl,kind⟩ <;> rw [kind] at taken
      · by_cases here : x = l <;> simp [here] at taken ⊢ <;> exact taken
      · simpa using taken
    replies := fun x => by
      have taken := at'.replies x
      rw [pending_takes front x] at taken
      rw [if_neg fun here => answered here.1]
      rcases where' with ⟨rfl,rfl,kind⟩ | ⟨rfl,rfl,kind⟩ <;> rw [kind] at taken
      · simpa using taken
      · by_cases here : x = l <;> simp [here] at taken ⊢ <;> exact taken
    staged := staged_update fits fun x _ => others x
    serving := fun here => by
      obtain ⟨same,runs⟩ := serving here
      rw [← same,update_self]
      exact runs
    landing := fun here => by
      obtain ⟨same,runs⟩ := landing here
      rw [← same,update_self]
      exact runs }

end

lemma answer (at' : Located home target .serving boxes stage) (answers : item.fn = .reply) :
    Located home target .answering (update boxes home { boxes home with queue := (boxes home).queue++[item] })
      (update stage target .idle) where
  usable := at'.usable_update _
  requests x := by
    rw [pending_pushes,at'.requests x,answers]
    simp
  replies x := by
    rw [pending_pushes,at'.replies x,answers]
    simp
  staged := staged_update trivial fun _ other => at'.idle nofun (fun _ => other) nofun
  serving := nofun
  landing := nofun

lemma done (at' : Located home target p boxes stage) (here : p = .serving ∧ l = target ∨ p = .landing ∧ l = home) :
    Located home target .gone boxes (update stage l .idle) where
  usable := at'.usable
  requests x := by
    rw [at'.requests x]
    rcases here with ⟨rfl,_⟩ | ⟨rfl,_⟩ <;> simp
  replies x := by
    rw [at'.replies x]
    rcases here with ⟨rfl,_⟩ | ⟨rfl,_⟩ <;> simp
  staged := by
    refine staged_update trivial fun x other => ?_
    rcases here with ⟨rfl,rfl⟩ | ⟨rfl,rfl⟩
    · exact at'.idle nofun (fun _ => other) nofun
    · exact at'.idle nofun nofun fun _ => other
  serving := nofun
  landing := nofun
end Located

structure Waits (p : Place) (s : PostReply ε) : Prop where
  fresh : s.awaited = false → p = .unposted
  unposted : p = .unposted → s.accepted = false ∧ s.waiter = .running ∧ s.resumes = 0
  parked : s.waiter = .parked → s.waiterAlive ∧ s.resumes = 0 ∧ p ≠ .gone
  alive : s.waiterAlive → s.waiter = .parked ∨ p = .unposted
  settled : s.accepted → s.waiter = .parked ∨ s.resumes = 1 ∨ s.waiter = .destroyed
  once : s.resumes ≤ 1
  sound : s.fault = false

structure Inv (p : Place) (s : PostReply ε) : Prop where
  waits : Waits p s
  located : Located s.home s.target p s.boxes s.stage
  asks : ∀ l call, s.stage l = .await call → s.waiterAlive ∧ s.awaited

lemma Inv.posted {p : Place} {s : PostReply ε} (waits : Waits p s)
    (located : Located s.home s.target p s.boxes s.stage) (posted : p ≠ .unposted) : Inv p s := by
  refine ⟨waits,located,fun l call here => ?_⟩
  have staged := located.staged l
  rw [here] at staged
  exact absurd staged.1 posted

section
variable {s t : PostReply ε} {l : ε} {p q : Place} {ctx : Context} {token : Bool} {call : Posting Job}
  {item : PostedItem Job} {rest : List (PostedItem Job)}

omit [DecidableEq ε] in
lemma Waits.move (waits : Waits p s) (posted : p ≠ .unposted) (on : q ≠ .unposted)
    (still : s.waiter = .parked → q ≠ .gone) : Waits q s where
  fresh unawaited := absurd (waits.fresh unawaited) posted
  unposted here := absurd here on
  parked here := ⟨(waits.parked here).1,(waits.parked here).2.1,still here⟩
  alive here := .inl ((waits.alive here).resolve_right posted)
  settled := waits.settled
  once := waits.once
  sound := waits.sound

lemma create_inv (home target : ε) (cap : ε → Nat) (stopped : Bool) :
    Inv .unposted (create home target cap stopped) where
  waits := ⟨fun _ => rfl,fun _ => ⟨rfl,rfl,rfl⟩,nofun,nofun,nofun,Nat.zero_le 1,rfl⟩
  located := ⟨fun _ => ⟨rfl,rfl⟩,fun _ => rfl,fun _ => rfl,fun _ => trivial,nofun,nofun⟩
  asks := nofun

section
variable (inv : Inv p s)
include inv

lemma awaitSuspend_inv (unawaited : s.awaited = false) : Inv p (s.awaitSuspend ctx token) := by
  obtain rfl := inv.waits.fresh unawaited
  obtain ⟨_,running,_⟩ := inv.waits.unposted rfl
  unfold awaitSuspend
  split
  · exact ⟨{ inv.waits with fresh := fun _ => rfl },inv.located,fun l call here => ⟨(inv.asks l call here).1,rfl⟩⟩
  refine ⟨?_,?_,fun _ _ _ => ⟨rfl,rfl⟩⟩
  · exact { inv.waits with
      fresh := fun _ => rfl
      parked := fun parked => nomatch running.symm.trans parked
      alive := fun _ => .inr rfl }
  · exact inv.located.goOn ⟨rfl,rfl,_,rfl,.inl rfl⟩ nofun nofun

lemma awaitPost_inv (here : s.stage l = .await call) (taken : s.awaitPost call = some t) : ∃ q, Inv q t := by
  obtain ⟨alive,awaited⟩ := inv.asks l call here
  have staged := inv.located.staged l
  rw [here] at staged
  obtain ⟨rfl,rfl,item,asks,form⟩ := staged
  obtain ⟨_,running,zero⟩ := inv.waits.unposted rfl
  obtain ⟨open',policy⟩ := inv.located.usable s.target
  unfold awaitPost at taken
  rcases form with rfl | rfl
  · rw [postStep_open open'] at taken
    cases taken
    refine ⟨.unposted,{ inv.waits with },?_,fun _ _ _ => ⟨alive,awaited⟩⟩
    have pushes : Located s.home s.target .unposted s.boxes
        (update s.stage s.home (.await (.push item))) :=
      inv.located.goOn ⟨rfl,rfl,item,asks,.inr rfl⟩ nofun nofun
    exact pushes.sameBox
  rw [postStep_push policy] at taken
  split at taken
  · cases taken
    have refused : Located s.home s.target .unposted s.boxes (update s.stage s.home .idle) :=
      inv.located.goOn trivial nofun nofun
    refine ⟨.unposted,?_,refused.sameBox,fun x call here => ?_⟩
    · exact { inv.waits with
        parked := fun parked => nomatch running.symm.trans parked
        alive := nofun }
    have idle : update s.stage s.home .idle x = .idle := by
      rw [update_apply]
      split
      · rfl
      next other => exact inv.located.idle (fun _ => other) nofun nofun
    cases idle.symm.trans here
  cases taken
  refine ⟨.asking,.posted ?_ (inv.located.ask asks) nofun⟩
  exact {
    fresh := fun unawaited => nomatch awaited.symm.trans unawaited
    unposted := nofun
    parked := fun _ => ⟨alive,zero,nofun⟩
    alive := fun _ => .inl rfl
    settled := fun _ => .inl rfl
    once := inv.waits.once
    sound := inv.waits.sound }

lemma replyPost_inv (here : s.stage l = .request ctx (some call))
    (room : s.waiter = .parked → ∀ item, call = .push item → ¬ (s.boxes s.home).full)
    (taken : s.replyPost l ctx call = some t) : ∃ q, Inv q t := by
  have staged := inv.located.staged l
  rw [here] at staged
  obtain ⟨rfl,rfl,posts⟩ := staged
  obtain ⟨item,answers,form⟩ := posts call rfl
  obtain ⟨open',policy⟩ := inv.located.usable s.home
  unfold replyPost at taken
  rcases form with rfl | rfl
  · rw [postStep_open open'] at taken
    cases taken
    have pushes : Located s.home s.target .serving s.boxes
        (update s.stage s.target (.request ctx (some (.push item)))) := by
      refine inv.located.goOn ⟨rfl,rfl,?_⟩ (fun _ _ => ⟨_,_,rfl⟩) nofun
      rintro c ⟨⟩
      exact ⟨item,answers,.inr rfl⟩
    exact ⟨.serving,.posted { inv.waits with } pushes.sameBox nofun⟩
  rw [postStep_push policy] at taken
  split at taken
  · -- the reply is lost, and nobody waits for it
    rename_i full
    cases taken
    have given : Located s.home s.target .gone s.boxes (update s.stage s.target .idle) :=
      inv.located.done (.inl ⟨rfl,rfl⟩)
    refine ⟨.gone,.posted ?_ given.sameBox nofun⟩
    have moved : Waits .gone s := inv.waits.move nofun nofun fun parked => absurd full (room parked item rfl)
    exact { moved with }
  cases taken
  refine ⟨.answering,.posted ?_ (inv.located.answer answers) nofun⟩
  have moved : Waits .answering s := inv.waits.move nofun nofun fun _ => nofun
  exact { moved with }

lemma reply_inv (here : s.stage l = .reply) : Inv .gone (s.reply.setStage l .idle) := by
  have staged := inv.located.staged l
  rw [here] at staged
  obtain ⟨rfl,rfl⟩ := staged
  have gone : Located s.home s.target .gone s.boxes (update s.stage s.home .idle) := inv.located.done (.inr ⟨rfl,rfl⟩)
  unfold reply
  split
  next dead =>
    refine .posted ?_ gone nofun
    have moved : Waits .gone s := inv.waits.move nofun nofun fun parked =>
      nomatch dead.symm.trans (inv.waits.parked parked).1
    exact { moved with }
  next alive =>
  have parked : s.waiter = .parked := (inv.waits.alive (Bool.not_eq_false _ ▸ alive)).resolve_right nofun
  have zero := (inv.waits.parked parked).2.1
  rw [parked]
  refine .posted ?_ gone nofun
  exact {
    fresh := fun unawaited => nomatch inv.waits.fresh unawaited
    unposted := nofun
    parked := nofun
    alive := nofun
    settled := fun _ => .inr (.inl (congrArg (·+1) zero))
    once := Nat.le_of_eq (congrArg (·+1) zero)
    sound := inv.waits.sound }

lemma take_inv (idle : s.stage l = .idle) (front : (s.boxes l).queue = item::rest)
    (kept : s.waiter = .parked → item.fn ≠ .other → item.ctx.deadline.expired (s.now l) = false) :
    ∃ q, Inv q (s.take l item rest) := by
  have shed (own : item.fn ≠ .other) (late : item.ctx.deadline.expired (s.now l) = true) (posted : p ≠ .unposted) :
      ∃ q, Inv q (s.setBox l { s.boxes l with queue := rest }) := by
    have dropped : Located s.home s.target .gone _ (update s.stage l .idle) :=
      inv.located.takeOwn front own nofun nofun trivial nofun nofun
    have moved : Waits .gone s := inv.waits.move posted nofun fun parked => nomatch (kept parked own).symm.trans late
    rw [← idle,update_eq_self] at dropped
    exact ⟨.gone,.posted { moved with } dropped nofun⟩
  unfold take
  cases kind : item.fn with
  | other =>
    have left : Inv p (s.setBox l { s.boxes l with queue := rest }) :=
      ⟨{ inv.waits with },inv.located.takeOther front kind,inv.asks⟩
    refine ⟨p,?_⟩
    split <;> exact left
  | request =>
    obtain ⟨rfl,rfl⟩ := inv.located.asking_of_front front kind
    have own : item.fn ≠ .other := by rw [kind]; nofun
    split
    next late => exact shed own late nofun
    · have moved : Waits .serving s := inv.waits.move nofun nofun fun _ => nofun
      refine ⟨.serving,.posted { moved with } ?_ nofun⟩
      exact inv.located.takeOwn front own nofun nofun ⟨rfl,rfl,nofun⟩ (fun _ => ⟨rfl,_,_,rfl⟩) nofun
  | reply =>
    obtain ⟨rfl,rfl⟩ := inv.located.answering_of_front front kind
    have own : item.fn ≠ .other := by rw [kind]; nofun
    split
    next late => exact shed own late nofun
    · have moved : Waits .landing s := inv.waits.move nofun nofun fun _ => nofun
      refine ⟨.landing,.posted { moved with } ?_ nofun⟩
      exact inv.located.takeOwn front own nofun nofun ⟨rfl,rfl⟩ nofun fun _ => ⟨rfl,rfl⟩
end

def Stage.answers : Stage → Bool
  | .request _ (some (.push _)) => true
  | _ => false

/-- While the coroutine waits, no loop drops a task of the exchange, and the mailbox that the reply
goes to has room for it. -/
def Kept (s : PostReply ε) (m : Move ε) : Prop := match m with
  | .take l => s.waiter = .parked → ∀ item ∈ (s.boxes l).queue.head?, item.fn ≠ .other →
    item.ctx.deadline.expired (s.now l) = false
  | .run l => s.waiter = .parked → (s.stage l).answers → ¬ (s.boxes s.home).full
  | .await _ _ | .post _ _ | .clock _ _ | .stop | .destroy => True

lemma run_inv (inv : Inv p s) (kept : s.Kept (.run l)) (taken : s.step (.run l) = some t) : ∃ q, Inv q t := by
  rw [step] at taken
  cases here : s.stage l with
  | idle =>
    rw [here] at taken
    cases taken
  | await =>
    rw [here] at taken
    exact awaitPost_inv inv here taken
  | request _ call =>
    rw [here] at taken
    cases call with
    | none =>
      cases taken
      have staged := inv.located.staged l
      rw [here] at staged
      obtain ⟨rfl,rfl,_⟩ := staged
      refine ⟨.serving,.posted { inv.waits with } ?_ nofun⟩
      refine inv.located.goOn ⟨rfl,rfl,?_⟩ (fun _ _ => ⟨_,_,rfl⟩) nofun
      rintro c ⟨⟩
      exact ⟨_,rfl,.inl rfl⟩
    | some =>
      refine replyPost_inv inv here (fun parked item form => kept parked ?_) taken
      rw [here,form]
      rfl
  | reply =>
    rw [here] at taken
    cases taken
    exact ⟨.gone,reply_inv inv here⟩

lemma destroy_inv (inv : Inv p s) (parked : s.waiter = .parked) :
    Inv p { s with waiter := .destroyed, waiterAlive := false } := by
  have posted : p ≠ .unposted := fun here => nomatch (inv.waits.unposted here).2.1.symm.trans parked
  refine .posted ?_ inv.located posted
  exact {
    fresh := inv.waits.fresh
    unposted := fun here => absurd here posted
    parked := nofun
    alive := nofun
    settled := fun _ => .inr (.inr rfl)
    once := inv.waits.once
    sound := inv.waits.sound }

lemma step_inv {m : Move ε} (inv : Inv p s) (kept : s.Kept m) (taken : s.step m = some t) : ∃ q, Inv q t := by
  cases m with
  | await =>
    obtain ⟨ready,same⟩ := Option.ite_none_left_eq_some.1 taken
    cases same
    exact ⟨p,awaitSuspend_inv inv (Bool.eq_false_iff.2 fun awaited => ready (.inl awaited))⟩
  | run => exact run_inv inv kept taken
  | take l =>
    obtain ⟨free,taken⟩ := Option.ite_none_right_eq_some.1 taken
    have idle : s.stage l = .idle := by
      cases here : s.stage l with
      | idle => rfl
      | await | request | reply =>
        rw [here] at free
        cases free
    cases front : (s.boxes l).queue with
    | nil =>
      rw [front] at taken
      cases taken
    | cons item =>
      rw [front] at taken
      cases taken
      refine take_inv inv idle front fun parked => kept parked item ?_
      rw [front]
      rfl
  | post =>
    obtain ⟨_,same⟩ := Option.ite_none_left_eq_some.1 taken
    cases same
    exact ⟨p,{ inv.waits with },inv.located.pushOther rfl,inv.asks⟩
  | clock =>
    cases taken
    exact ⟨p,{ inv.waits with },inv.located,inv.asks⟩
  | stop =>
    obtain ⟨_,taken⟩ := Option.ite_none_right_eq_some.1 taken
    split at taken <;> cases taken <;> exact ⟨p,{ inv.waits with },inv.located,inv.asks⟩
  | destroy =>
    obtain ⟨⟨_,parked⟩,rfl⟩ := enabled taken
    exact ⟨p,destroy_inv inv parked⟩
end
variable {s : PostReply ε} {p : Place}

/-- At rest an accepted coroutine was resumed, unless its frame was destroyed first; at most once, and not after that.
-/
structure Completed (s : PostReply ε) : Prop where
  resumed : s.accepted → (s.boxes s.home).queue = [] → (s.boxes s.target).queue = [] →
    (s.stage s.home).isIdle → (s.stage s.target).isIdle →
    s.waiter ≠ .parked ∧ (s.resumes = 1 ∨ s.waiter = .destroyed)
  once : s.resumes ≤ 1
  sound : s.fault = false

lemma Inv.not_parked (inv : Inv p s) (home : (s.boxes s.home).queue = [])
    (target : (s.boxes s.target).queue = []) (homeIdle : (s.stage s.home).isIdle)
    (targetIdle : (s.stage s.target).isIdle) : s.waiter ≠ .parked := by
  intro parked
  cases p with
  | unposted => cases (inv.waits.unposted rfl).2.1.symm.trans parked
  | asking =>
    have one := inv.located.requests s.target
    unfold pending at one
    rw [target] at one
    simp at one
  | serving =>
    obtain ⟨ctx,call,here⟩ := inv.located.serving rfl
    rw [here] at targetIdle
    cases targetIdle
  | answering =>
    have one := inv.located.replies s.home
    unfold pending at one
    rw [home] at one
    simp at one
  | landing =>
    rw [inv.located.landing rfl] at homeIdle
    cases homeIdle
  | gone => exact (inv.waits.parked parked).2.2 rfl

lemma Inv.completed (inv : Inv p s) : Completed s where
  resumed accepted home target homeIdle targetIdle := by
    have woken := inv.not_parked home target homeIdle targetIdle
    exact ⟨woken,(inv.waits.settled accepted).resolve_left woken⟩
  once := inv.waits.once
  sound := inv.waits.sound

theorem reply_completes {home target : ε} {cap : ε → Nat} {stopped : Bool} {moves : List (Move ε)}
    (run : Exec (Guarded (Via step) Kept) (create home target cap stopped) moves s) :
    Completed s := by
  obtain ⟨p,inv⟩ : ∃ p, Inv p s := by
    refine run.invariant (fun s => ∃ p, Inv p s) ?_ ⟨.unposted,create_inv home target cap stopped⟩
    rintro s m t ⟨kept,taken⟩ ⟨p,inv⟩
    exact step_inv inv kept taken
  exact inv.completed

instance (s : PostReply ε) (m : Move ε) : Decidable (s.Kept m) := match m with
  | .take l => inferInstanceAs (Decidable (_ → ∀ item ∈ (s.boxes l).queue.head?, _ → _ = _))
  | .run _ => inferInstanceAs (Decidable (_ → _ → ¬ _))
  | .await _ _ | .post _ _ | .clock _ _ | .stop | .destroy => .isTrue trivial

def twoLoops : PostReply Bool := create false true (fun _ => 2) false

def dueAt (deadline : Option Int) : Context := { Context.empty with deadline := ⟨deadline⟩ }

def asked (deadline : Option Int) : List (Move Bool) := [.await (dueAt deadline) false,.run false,.run false]

def served : List (Move Bool) := [.take true,.run true,.run true,.run true]

theorem inTime_completes : ∃ s, Exec (Guarded (Via step) Kept) twoLoops
    (asked (some 5)++[.clock true 4]++served++[.clock false 4,.take false,.run false]) s ∧
      (s.accepted ∧ s.resumes = 1 ∧ s.outcome = some .answer) ∧ Completed s :=
  Exec.seen_of_drive (by decide +kernel) fun _ run _ => reply_completes run

def Stuck (s : PostReply Bool) : Prop :=
  s.accepted ∧ (s.boxes false).queue = [] ∧ (s.boxes true).queue = [] ∧
    (s.stage false).isIdle ∧ (s.stage true).isIdle ∧ s.waiter = .parked

instance (s : PostReply Bool) : Decidable s.Stuck := instDecidableAnd

/-- The target drops a request, the coroutine's own loop drops the reply, and its mailbox refuses it. -/
theorem reply_lost :
    (∃ s, Exec (Guarded (Via step) fun _ _ => True) twoLoops
      (asked (some 5)++[.clock true 5,.take true]) s ∧ s.Stuck) ∧
    (∃ s, Exec (Guarded (Via step) fun _ _ => True) twoLoops
      (asked (some 5)++served++[.clock false 5,.take false]) s ∧ s.Stuck) ∧
    ∃ s, Exec (Guarded (Via step) fun _ _ => True) twoLoops
      (asked none++[.post false .empty,.post false .empty]++served++[.take false,.take false]) s ∧ s.Stuck :=
  ⟨Exec.end_of_drive (by decide +kernel),Exec.end_of_drive (by decide +kernel), Exec.end_of_drive (by decide +kernel)⟩

end PostReply
end AffiniX
