/- A row of `users`, and what an administrator may do to it.

   `ManageUser` and `BatchManageUsers` look at the rows they have read before they change them. The
   checks are the same, but only single users are promoted and demoted.

   Correspondence (Go ↔ Lean): `common/constants.go`, `model/user.go` and `controller/user.go` have
   the source's names; `check` is the part of the two handlers that may refuse, and `change` what is
   written then. Of a row, the columns are modelled that identify and admit its user. The actions on
   quotas are left out. -/
namespace AmuxApi.Account

def userStatusEnabled : Int := 1
def userStatusDisabled : Int := 2

def roleGuestUser : Int := 0
def roleCommonUser : Int := 1
def roleAdminUser : Int := 10
def roleRootUser : Int := 100

structure User where
  id : Int
  username : String := ""
  role : Int := 0
  status : Int := 0
  group : String := ""
  email : String := ""
  accessToken : Option String := none
  deleted : Bool := false
  deriving DecidableEq, Repr

/-- What is cached of a user. -/
structure UserBase where
  group : String
  status : Int
  deriving DecidableEq

def User.toBaseUser (u : User) : UserBase := ⟨u.group, u.status⟩

/-- A column of `Updates` with a struct: written unless it is zero. -/
def orStored {α : Type} [DecidableEq α] (zero new stored : α) : α := if new = zero then stored else new

def User.nonZero (new stored : User) : User :=
  { stored with
    username := orStored "" new.username stored.username
    role := orStored 0 new.role stored.role
    status := orStored 0 new.status stored.status
    group := orStored "" new.group stored.group
    email := orStored "" new.email stored.email
    accessToken := orStored none new.accessToken stored.accessToken }

inductive Action
  | disable | enable | delete | promote | demote
  deriving DecidableEq, Repr

inductive Refused
  | userNoPermissionHigherLevel | userCannotDisableRootUser | userCannotDeleteRootUser
  | userAdminCannotPromote | userAlreadyAdmin | userCannotDemoteRootUser | userAlreadyCommon
  deriving DecidableEq, Repr

def Action.check (myRole : Int) (user : User) (action : Action) : Option Refused :=
  if myRole ≤ user.role ∧ myRole ≠ roleRootUser then some .userNoPermissionHigherLevel
  else match action with
    | .disable => if user.role = roleRootUser then some .userCannotDisableRootUser else none
    | .enable => none
    | .delete => if user.role = roleRootUser then some .userCannotDeleteRootUser else none
    | .promote =>
      if myRole ≠ roleRootUser then some .userAdminCannotPromote
      else if roleAdminUser ≤ user.role then some .userAlreadyAdmin
      else none
    | .demote =>
      if user.role = roleRootUser then some .userCannotDemoteRootUser
      else if user.role = roleCommonUser then some .userAlreadyCommon
      else none

def Action.change (user : User) : Action → User
  | .disable => { user with status := userStatusDisabled }
  | .enable => { user with status := userStatusEnabled }
  | .delete => { user with deleted := true }
  | .promote => { user with role := roleAdminUser }
  | .demote => { user with role := roleCommonUser }

/-- The first user of all, if the request has no id: a condition on zero is none. -/
def managed (users : List User) (id : Int) : Option User := users.find? fun u => id = 0 ∨ u.id = id

def maxBatchManageUsers : Nat := 1000

/-- The actions that are for many users at once. -/
def Action.forMany : Action → Bool
  | .enable | .disable | .delete => true
  | .promote | .demote => false

/-- What is wrong with the list of ids. -/
def invalidIDs (ids : List Int) : Bool := ids = [] ∨ maxBatchManageUsers < ids.length ∨ ids.any (· ≤ 0)

end AmuxApi.Account
