import AffiniX.Context

/-! Posting to a mailbox, whose ring is taken as the bounded queue that it implements. -/
namespace AffiniX
inductive OverflowPolicy
  | fail
  | spinRetry
  | abort
deriving DecidableEq

inductive PostResult
  | ok
  | full
  | closed
deriving DecidableEq

structure PostedItem (τ : Type*) where
  fn : τ
  ctx : Context
deriving DecidableEq

structure Mailbox (τ : Type*) where
  cap : Nat
  overflow : OverflowPolicy
  dead : Bool
  queue : List (PostedItem τ)

inductive Posting (τ : Type*)
  | open' (item : PostedItem τ)
  | push (item : PostedItem τ)
  | spin (item : PostedItem τ)
  | returned (result : PostResult)
  | aborted

def Posting.item {τ : Type*} : Posting τ → Option (PostedItem τ)
  | .open' item | .push item | .spin item => some item
  | _ => none

namespace Mailbox
variable {τ : Type*}

def full (m : Mailbox τ) : Prop := m.cap ≤ m.queue.length

instance (m : Mailbox τ) : Decidable m.full := inferInstanceAs (Decidable (_ ≤ _))

def postStep (m : Mailbox τ) : Posting τ → Mailbox τ × Posting τ
  | .open' item => if m.dead then (m,.returned .closed) else (m,.push item)
  | .push item =>
    if m.full then
      match m.overflow with
      | .fail => (m,.returned .full)
      | .abort => (m,.aborted)
      | .spinRetry => (m,.spin item)
    else ({ m with queue := m.queue++[item] },.returned .ok)
  | .spin item => if m.dead then (m,.returned .closed) else (m,.push item)
  | .returned result => (m,.returned result)
  | .aborted => (m,.aborted)
end Mailbox
end AffiniX
