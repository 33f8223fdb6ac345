/-!
This module models the membership of `common/member.go` and the errors of `common/error.go`.
-/

namespace Web

inductive Role where
  | none
  | reader
  | writer
  | owner
  | admin
  deriving DecidableEq

def Role.toNat : Role → Nat
  | .none => 0
  | .reader => 1
  | .writer => 2
  | .owner => 3
  | .admin => 4

/--
A role of the source is any number. The five names are enough where no request can set another one.
-/
class IsRole (ρ : Type) where
  toInt : ρ → Int

instance : IsRole Role := ⟨fun role => role.toNat⟩

structure MemberShipOf (ρ : Type) where
  userID : Nat
  userName : String
  orgID : Nat
  orgName : String
  role : ρ
  deriving DecidableEq

abbrev MemberShip := MemberShipOf Role

namespace MemberShipOf

open IsRole

variable [IsRole ρ]

def isAdmin (m : MemberShipOf ρ) : Bool := toInt m.role == toInt Role.admin

-- whether the condition on the owner lets a row through
def getWhere (m : MemberShipOf ρ) (owner : Nat) : Bool := (m.orgName == "admin" && m.isAdmin) || owner == m.orgID

def checkPermission (m : MemberShipOf ρ) (reqRole : ρ) : Bool :=
  toInt reqRole ≤ toInt m.role
    || m.orgName == "admin" && m.isAdmin
    || m.orgName == "admin" && m.userName == "admin"

def validateOwner (m : MemberShipOf ρ) (reqRole : ρ) (owner : Nat) : Bool :=
  if owner = 0 then
    false
  else if toInt m.role < toInt reqRole then
    false
  else
    m.orgID == owner || m.isAdmin

end MemberShipOf

inductive ErrCode where
  | invalidParameter
  | permissionDenied
  | executeOnHyperFailed
  | ownerNotFound
  | databaseError
  | sqlSyntaxError
  | instanceNotFound
  | instanceUpdateFailed
  | instanceInvalidState
  | flavorNotFound
  | volumeNotFound
  | volumeUpdateFailed
  | volumeDeleteFailed
  | volumeInvalidState
  | volumeInvalidSize
  | volumeIsBusy
  | volumeInConsistencyGroup
  | cgNotFound
  | cgCreationFailed
  | cgUpdateFailed
  | cgDeleteFailed
  | cgInvalidState
  | cgIsBusy
  | cgSnapshotExists
  | cgVolumeIsBusy
  | cgVolumeInvalidState
  | cgSnapshotNotFound
  | cgSnapshotIsBusy
  | cgInstanceNotShutoff
  | cgNoVolumes
  | cgVolumeAttachedNoInstance
  | cgSnapshotCannotRestore
  | cgSnapshotRestoreInProgress
  | userNotFound
  | orgNotFound
  | memberNotFound
  | noRoleOnUser
  | passwordMismatch
  | passwordHashFailed
  | securityGroupNotFound
  | securityGroupCreateFailed
  | securityGroupUpdateFailed
  | cannotDeleteDefaultSG
  | sgHasInterfaces
  | securityRuleNotFound
  | routerNotFound
  | routerCreateFailed
  | routerUpdateFailed
  | loadBalancerNotFound
  | loadBalancerCreateFailed
  | vrrpInstanceCreateFailed
  | listenerNotFound
  | listenerCreateFailed
  | backendNotFound
  | backendListFailed
  | backendCreateFailed
  | backendDeleteFailed
  | dictionaryRecordsNotFound
  -- an error without a code
  | uncoded
  -- a nil pointer is followed
  | nilPointer
  deriving DecidableEq

structure CLError where
  code : ErrCode
  message : String
  deriving DecidableEq

end Web
