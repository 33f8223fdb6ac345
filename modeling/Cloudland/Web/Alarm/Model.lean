import Mathlib.Data.Rat.Defs
import Cloudland.Lib.Check

/-!
Alarm anchors (`apis/alarms.go`, `routes/n9ealarm.go`). VictoriaMetrics is a map from label sets to the last value.
-/

namespace Web.Alarm

inductive RuleType where
  | cpu
  | memory
  | bandwidth
  deriving DecidableEq

inductive AnchorType where
  | cpu
  | mem
  | bwIn
  | bwOut
  deriving DecidableEq

def AnchorType.ruleType : AnchorType → RuleType
  | .cpu => .cpu
  | .mem => .memory
  | .bwIn => .bandwidth
  | .bwOut => .bandwidth

structure Rule where
  owner : String
  businessGroupUUID : String
  deriving DecidableEq

structure BandwidthRule extends Rule where
  direction : String
  deriving DecidableEq

structure Rules where
  cpu : String → Option Rule
  memory : String → Option Rule
  bandwidth : String → Option BandwidthRule

def BandwidthRule.anchorType (rule : BandwidthRule) : AnchorType :=
  if rule.direction = "out" then .bwOut else .bwIn

def Rules.find (rules : Rules) (ruleUUID : String) : RuleType → Option (Rule × AnchorType)
  | .cpu => (rules.cpu ruleUUID).map (fun rule => (rule, .cpu))
  | .memory => (rules.memory ruleUUID).map (fun rule => (rule, .mem))
  | .bandwidth => (rules.bandwidth ruleUUID).map (fun rule => (rule.toRule, rule.anchorType))

structure Labels where
  anchorType : AnchorType
  ruleUUID : String
  region : String
  domain : String
  instanceID : String
  targetDevice : Option String
  owner : String
  tenantID : String
  deriving DecidableEq

structure Link where
  ruleType : RuleType
  ruleUUID : String
  businessGroupUUID : String
  vmUUID : String
  interface : String
  owner : String
  threshold : Rat
  tenantID : String
  deriving DecidableEq

abbrev Store := Labels → Option Rat

structure State where
  store : Store
  links : List Link

structure VM where
  instanceID : String
  interface : String
  deriving DecidableEq

structure Metadata where
  find : String → Option (String × String)
  named : find "" = none

inductive Failure where
  | binding
  | ruleNotFound (ruleType : RuleType)
  | interfaceRequired (idx : Nat)
  | noMetadata (idx : Nat) (instanceID : String)
  deriving DecidableEq

namespace Failure

def status : Failure → Nat
  | ruleNotFound _ => 404
  | _ => 400

def message : Failure → String
  -- the text is the validator's
  | binding => ""
  | ruleNotFound .cpu => "CPU rule not found"
  | ruleNotFound .memory => "Memory rule not found"
  | ruleNotFound .bandwidth => "Bandwidth rule not found"
  | interfaceRequired idx => s!"vms[{idx}]: interface is required for bandwidth rules"
  | noMetadata idx instanceID => s!"vms[{idx}]: failed to get metadata for instance {instanceID}: instance not found"

end Failure

structure AnchorInstance where
  ruleUUID : String
  region : String
  domain : String
  instanceID : String
  interface : String
  owner : String
  tenantID : String
  threshold : Rat
  deriving DecidableEq

def AnchorInstance.labels (anchorType : AnchorType) (inst : AnchorInstance) : Labels :=
  ⟨anchorType, inst.ruleUUID, inst.region, inst.domain, inst.instanceID,
    if anchorType.ruleType = .bandwidth then some inst.interface else none, inst.owner, inst.tenantID⟩

def writeAnchorThresholdBatch (anchorType : AnchorType) (instances : List AnchorInstance) (store : Store) : Store :=
  instances.foldl (fun store inst => Function.update store (inst.labels anchorType) (some inst.threshold)) store

def Labels.matches (l : Labels) (anchorType : AnchorType) (ruleUUID instanceID interfaceName : String) : Prop :=
  l.anchorType = anchorType ∧ l.ruleUUID = ruleUUID ∧ l.instanceID = instanceID ∧
    (interfaceName ≠ "" → l.targetDevice = some interfaceName)

instance (l : Labels) (anchorType : AnchorType) (ruleUUID instanceID interfaceName : String)
    : Decidable (l.matches anchorType ruleUUID instanceID interfaceName) :=
  inferInstanceAs (Decidable (_ ∧ _))

def deleteAnchorSeries (anchorType : AnchorType) (ruleUUID instanceID interfaceName : String) (store : Store) : Store :=
  fun l => if l.matches anchorType ruleUUID instanceID interfaceName then none else store l

/--
The conditions on the machine and the interface are left out where they are empty.
-/
def deleteVMRuleLink (ruleUUID vmUUID iface : String) (links : List Link) : List Link :=
  links.filter (fun link => ¬(link.ruleUUID = ruleUUID ∧ (vmUUID ≠ "" → link.vmUUID = vmUUID) ∧
    (iface ≠ "" → link.interface = iface)))

def getVMRuleLinks (ruleUUID : String) (links : List Link) : List Link :=
  links.filter (fun link => link.ruleUUID = ruleUUID)

structure LinkRequest where
  ruleUUID : String
  ruleType : RuleType
  tenantID : String
  regionID : String
  threshold : Rat
  vms : List VM
  metadata : Metadata

structure UnlinkRequest where
  ruleUUID : String
  ruleType : RuleType
  vms : List VM
  deriving DecidableEq

def LinkRequest.Bound (req : LinkRequest) : Prop :=
  req.ruleUUID ≠ "" ∧ req.tenantID ≠ "" ∧ req.regionID ≠ "" ∧ req.threshold ≠ 0 ∧ req.vms ≠ []

instance (req : LinkRequest) : Decidable req.Bound := inferInstanceAs (Decidable (_ ∧ _))

def UnlinkRequest.Bound (req : UnlinkRequest) : Prop := req.ruleUUID ≠ "" ∧ req.vms ≠ []

instance (req : UnlinkRequest) : Decidable req.Bound := inferInstanceAs (Decidable (_ ∧ _))

def checkInterfaces (ruleType : RuleType) (vms : List VM) : Except Failure Unit :=
  if ruleType = .bandwidth then
    match vms.findIdx? (fun vm => vm.interface = "") with
    | some idx => .error (.interfaceRequired idx)
    | none => .ok ()
  else
    .ok ()

namespace LinkRequest

variable (req : LinkRequest) (rule : Rule)

def anchorInstance (vm : VM) (info : String × String) : AnchorInstance :=
  ⟨req.ruleUUID, info.2, info.1, vm.instanceID, vm.interface, rule.owner, req.tenantID, req.threshold⟩

def link (vm : VM) : Link :=
  ⟨req.ruleType, req.ruleUUID, rule.businessGroupUUID, vm.instanceID, vm.interface, rule.owner, req.threshold,
    req.tenantID⟩

def anchorInstances : Except Failure (List AnchorInstance) :=
  req.vms.zipIdx.mapM (fun (vm, idx) =>
    match req.metadata.find vm.instanceID with
    | some info => .ok (req.anchorInstance rule vm info)
    | none => .error (.noMetadata idx vm.instanceID))

end LinkRequest

variable (rules : Rules)

def linkVMsToRule (req : LinkRequest) (s : State) : Except Failure State := do
  Check.require req.Bound .binding
  let (rule, anchorType) ← Check.found (rules.find req.ruleUUID req.ruleType) (.ruleNotFound req.ruleType)
  checkInterfaces req.ruleType req.vms
  let anchorInstances ← req.anchorInstances rule
  return ⟨writeAnchorThresholdBatch anchorType anchorInstances s.store, s.links ++ req.vms.map (req.link rule)⟩

def anchorTypeOf (ruleUUID : String) : RuleType → Option AnchorType
  | .cpu => some .cpu
  | .memory => some .mem
  | .bandwidth => (rules.bandwidth ruleUUID).map BandwidthRule.anchorType

/--
The links of the rule are deleted for every machine that is named, whichever interface is.
-/
def unlinkVMsFromRule (req : UnlinkRequest) (s : State) : Except Failure State := do
  Check.require req.Bound .binding
  let anchorType ← Check.found (anchorTypeOf rules req.ruleUUID req.ruleType) (.ruleNotFound req.ruleType)
  checkInterfaces req.ruleType req.vms
  let store := req.vms.foldl
    (fun store vm => deleteAnchorSeries anchorType req.ruleUUID vm.instanceID vm.interface store) s.store
  let links := (getVMRuleLinks req.ruleUUID s.links).foldl
    (fun links link =>
      if req.vms.any (fun vm => link.vmUUID = vm.instanceID) then
        deleteVMRuleLink req.ruleUUID link.vmUUID link.interface links
      else
        links) s.links
  return ⟨store, links⟩

def recoverLink (metadata : Metadata) (link : Link) : Option (AnchorType × AnchorInstance) :=
  if link.threshold ≤ 0 then
    none
  else
    (anchorTypeOf rules link.ruleUUID link.ruleType).map (fun anchorType =>
      let info := (metadata.find link.vmUUID).getD ("", "")
      (anchorType, ⟨link.ruleUUID, info.2, info.1, link.vmUUID, link.interface, link.owner, link.tenantID,
        link.threshold⟩))

def recoverAnchorThresholds (metadata : Metadata) (links : List Link) (store : Store) : Store :=
  let recovered := links.filterMap (recoverLink rules metadata)
  [.cpu, .mem, .bwIn, .bwOut].foldl
    (fun store anchorType =>
      writeAnchorThresholdBatch anchorType
        ((recovered.filter (fun r => r.1 = anchorType)).map (·.2)) store) store

inductive Request where
  | link (req : LinkRequest)
  | unlink (req : UnlinkRequest)

def exec (s : State) : Request → Except Failure State
  | .link req => linkVMsToRule rules req s
  | .unlink req => unlinkVMsFromRule rules req s

def next (s : State) (req : Request) : State :=
  match exec rules s req with
  | .ok s' => s'
  | .error _ => s

end Web.Alarm
