import Cloudland.Web.Network.Impl

/-!
The requests that change addresses, interfaces and floating IPs. They work on loaded objects.
-/

namespace Web

def LoadedInterface.Loaded (iface : LoadedInterface) (db : NetDB) : Prop :=
  iface.row ∈ db.interfaces ∧ iface.address ∈ db.addresses ∧ iface.address.interface = iface.row.id ∧
    iface.secondAddresses.Perm (db.addresses.filter (fun r => r.secondInterface == iface.row.id))

def LoadedFip.Loaded (fip : LoadedFip) (db : NetDB) : Prop :=
  fip.row ∈ db.floatingIps ∧ fip.interface ∈ db.interfaces ∧ fip.interface.floatingIp = fip.row.id ∧
    fip.address ∈ db.addresses ∧ fip.address.interface = fip.interface.id

instance : Decidable (LoadedInterface.Loaded iface db) := inferInstanceAs (Decidable (_ ∧ _))

instance : Decidable (LoadedFip.Loaded fip db) := inferInstanceAs (Decidable (_ ∧ _))

inductive NetRequest where
  | createFloatingIps (count : Nat) (subnets : List Subnet) (publicIp : IpArg)
      (inst : Option Instance) (isSite : Bool) (loadBalancer : Option LoadBalancer)
  | attach (floatingIp : LoadedFip) (inst : Instance)
  | detach (floatingIp : FloatingIp)
  | updateFloatingIp (floatingIp : LoadedFip) (inst : Option Instance)
      (loadBalancer : Option LoadBalancer)
  | deleteFloatingIp (floatingIp : FloatingIp)
  | createVMInterface (inst : Instance) (publicIps : List LoadedFip) (subnets : List Subnet)
      (address : IpArg) (count : Nat) (ifname : String)
  | createNic (inst : Instance) (subnets : List Subnet) (address : IpArg) (ifname : String)
  | changeAddresses (inst : Instance) (iface : LoadedInterface) (ifaceSubnets : List Subnet)
      (secondAddrsCount : Nat) (publicIps : List LoadedFip)

namespace NetRequest

def exec (db : NetDB) : NetRequest → Option NetDB
  | createFloatingIps count subnets publicIp inst isSite loadBalancer =>
    (db.createAndAllocateFloatingIps count subnets publicIp inst isSite loadBalancer).map Prod.fst
  | attach floatingIp inst => db.attach floatingIp inst
  | detach floatingIp => some (db.detach floatingIp)
  | updateFloatingIp floatingIp inst loadBalancer => db.updateFloatingIp floatingIp inst loadBalancer
  | deleteFloatingIp floatingIp => db.deleteFloatingIp floatingIp
  | createVMInterface inst publicIps subnets address count ifname =>
    db.createVMInterface inst publicIps subnets address count ifname
  | createNic inst subnets address ifname => db.createNic inst subnets address ifname
  | changeAddresses inst iface ifaceSubnets secondAddrsCount publicIps =>
    db.changeAddresses inst iface ifaceSubnets secondAddrsCount publicIps

def Loaded (db : NetDB) : NetRequest → Prop
  | createFloatingIps _ _ _ inst _ _ => ∀ i ∈ inst, i.id ≠ 0
  | attach floatingIp inst => floatingIp.Loaded db ∧ inst.id ≠ 0
  | detach floatingIp => floatingIp ∈ db.floatingIps
  | updateFloatingIp floatingIp inst _ => floatingIp.Loaded db ∧ ∀ i ∈ inst, i.id ≠ 0
  | deleteFloatingIp floatingIp => floatingIp ∈ db.floatingIps
  | createVMInterface inst publicIps _ _ _ _ => inst.id ≠ 0 ∧ ∀ fip ∈ publicIps, fip.Loaded db
  | createNic inst _ _ _ => inst.id ≠ 0
  | changeAddresses inst iface _ _ publicIps =>
    inst.id ≠ 0 ∧ iface.Loaded db ∧ ∀ fip ∈ publicIps, fip.Loaded db

instance : Decidable (Loaded db req) := by
  cases req <;> unfold Loaded <;> infer_instance

end NetRequest
end Web
