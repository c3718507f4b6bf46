import Cmlb.Domain.Task

/-!
# Permissions (`domain/authority.cpp`)

A user's level in a chat: the owner, a sudo user, anybody in an authorised chat, anyone else.
-/

namespace Cmlb

/-- `domain::Permission`, in ascending order. -/
inductive Permission
  | anyone | user | admin | owner
deriving DecidableEq, Repr

namespace Permission

def toNat : Permission → Nat
  | anyone => 0
  | user => 1
  | admin => 2
  | owner => 3

def toString : Permission → String
  | anyone => "anyone"
  | user => "user"
  | admin => "admin"
  | owner => "owner"

end Permission

structure Authority where
  owner : UserId
  sudoUsers : List UserId
  authorizedChats : List ChatId

namespace Authority

variable {A : Authority} {u : UserId} {c : ChatId} {p q : Permission}

def of (A : Authority) (user : UserId) (chat : ChatId) : Permission :=
  if user = A.owner then .owner
  else if user ∈ A.sudoUsers then .admin
  else if chat ∈ A.authorizedChats then .user
  else .anyone

def canRun (A : Authority) (user : UserId) (chat : ChatId) (required : Permission) : Bool :=
  required.toNat ≤ (A.of user chat).toNat

theorem canRun_mono (h : A.canRun u c p = true) (hpq : q.toNat ≤ p.toNat) : A.canRun u c q = true := by
  unfold canRun at h ⊢
  simp only [decide_eq_true_eq] at h ⊢
  omega

end Authority

end Cmlb
