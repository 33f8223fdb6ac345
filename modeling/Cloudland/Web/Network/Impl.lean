import Cloudland.Lib.Table

/-!
This module models how the web service books addresses (`common/interface.go`, `routes/interface.go`,
`routes/floatingip.go`, `routes/instance.go`, `rpcs/clear_vm.go`, `rpcs/detach_vm_nic.go`). A routine gets the objects
that its caller has loaded and gives `none` where the source returns an error. Zero stands for no reference.
-/

namespace Web

structure Cidr where
  ip : Nat
  preSize : Nat
  deriving DecidableEq

inductive IpArg where
  | empty
  | host (ip : Nat)
  | cidr (address : Cidr)
  deriving DecidableEq

inductive SubnetType where
  | internal
  | publicSubnet
  | site
  | vrrp
  deriving DecidableEq

structure Subnet where
  id : Nat
  gateway : Cidr
  preSize : Nat
  routerID : Nat
  type : SubnetType
  deriving DecidableEq

inductive AddrType where
  | ipv4
  | native
  | second
  deriving DecidableEq

structure Address where
  id : Nat
  address : Cidr
  type : AddrType
  allocated : Bool
  reserved : Bool
  subnetID : Nat
  interface : Nat
  secondInterface : Nat
  deriving DecidableEq

inductive IfType where
  | vm
  | floating
  | dhcp
  | gateway
  | vrrp
  | system
  deriving DecidableEq

structure Interface where
  id : Nat
  name : String
  inst : Nat
  device : Nat
  dhcp : Nat
  floatingIp : Nat
  subnet : Nat
  routerID : Nat
  primaryIf : Bool
  type : IfType
  deriving DecidableEq

inductive PublicType where
  | publicReserved
  | publicNative
  | publicFloating
  | publicSite
  | publicLoadBalancer
  deriving DecidableEq

structure FloatingIp where
  id : Nat
  fipAddress : Option Cidr
  intAddress : Option Cidr
  instanceID : Nat
  routerID : Nat
  loadBalancerID : Nat
  subnetID : Nat
  type : PublicType
  deriving DecidableEq

instance : Keyed Address := ⟨Address.id, fun r id => { r with id := id }, fun _ _ => rfl, fun _ => rfl⟩
instance : Keyed Interface := ⟨Interface.id, fun r id => { r with id := id }, fun _ _ => rfl, fun _ => rfl⟩
instance : Keyed FloatingIp := ⟨FloatingIp.id, fun r id => { r with id := id }, fun _ _ => rfl, fun _ => rfl⟩

structure LoadedInterface where
  row : Interface
  address : Address
  secondAddresses : List Address

structure LoadedFip where
  row : FloatingIp
  interface : Interface
  address : Address

structure Instance where
  id : Nat
  routerID : Nat
  pending : Bool
  -- the address of the primary interface
  primaryAddress : Option Cidr

structure LoadBalancer where
  id : Nat
  routerID : Nat

structure NetDB where
  addresses : Table Address
  interfaces : Table Interface
  floatingIps : Table FloatingIp

namespace NetDB

variable (db : NetDB)

def updateAddresses (p : Address → Bool) (f : Address → Address) : NetDB :=
  { db with addresses := db.addresses.update p f }

def updateInterfaces (p : Interface → Bool) (f : Interface → Interface) : NetDB :=
  { db with interfaces := db.interfaces.update p f }

def updateFloatingIps (p : FloatingIp → Bool) (f : FloatingIp → FloatingIp) : NetDB :=
  { db with floatingIps := db.floatingIps.update p f }

def deleteInterfaceRows (p : Interface → Bool) : NetDB :=
  { db with interfaces := db.interfaces.delete p }

/--
The rows that `AllocateAddress` may take. Rows are entered in the order of their addresses, so the
first one is the one the source takes.
-/
def available (subnet : Subnet) (ipaddr : IpArg) (row : Address) : Bool :=
  row.subnetID = subnet.id && !row.allocated && !row.reserved &&
    match ipaddr with
    | .empty => row.address ≠ subnet.gateway
    | .host ip => row.address = ⟨ip, subnet.preSize⟩
    | .cidr address => row.address = address

def booked (ifaceID : Nat) (addrType : AddrType) (row : Address) : Address :=
  let row := { row with allocated := true, type := addrType }
  if addrType = .second then
    { row with secondInterface := ifaceID }
  else
    { row with interface := ifaceID }

def allocateAddress (subnet : Subnet) (ifaceID : Nat) (ipaddr : IpArg)
    (addrType : AddrType) : Option (NetDB × Address) := do
  let address ← db.addresses.find? (available subnet ipaddr)
  let address := booked ifaceID addrType address
  let db := db.updateAddresses (fun r => r.id == address.id)
    (fun r => { r with
      allocated := address.allocated
      type := address.type
      secondInterface := address.secondInterface
      interface := address.interface })
  return (db, address)

-- Without interfaces the condition of the update is empty, and it applies to all rows.
def deallocateAddress (ifaces : List Interface) : NetDB :=
  db.updateAddresses (fun r => ifaces.isEmpty || ifaces.any (fun iface => r.interface == iface.id))
    (fun r => { r with allocated := false, interface := 0, secondInterface := 0 })

def newInterface (subnet : Subnet) (ID : Nat) (ifaceName : String) (ifType : IfType)
    : Interface where
  id := 0
  name := ifaceName
  inst := if ifType = .vm then ID else 0
  device := if ifType = .gateway ∨ ifType = .vrrp then ID else 0
  dhcp := if ifType = .dhcp then ID else 0
  floatingIp := if ifType = .floating then ID else 0
  subnet := subnet.id
  routerID := subnet.routerID
  primaryIf := ifaceName = "eth0"
  type := ifType

/--
An interface that gets no address is deleted again.
-/
def createInterface (subnet : Subnet) (ID : Nat) (address : IpArg) (ifaceName : String)
    (ifType : IfType) : NetDB × Option LoadedInterface :=
  let iface := { newInterface subnet ID ifaceName ifType with id := db.interfaces.next }
  let db := { db with interfaces := db.interfaces.insert iface }
  match db.allocateAddress subnet iface.id address .native with
  | some (db, addr) => (db, some ⟨iface, addr, []⟩)
  | none => (db.deleteInterfaceRows (fun r => r.id == iface.id), none)

def clearSecond (addrID : Nat) : NetDB :=
  db.updateAddresses (fun r => r.id == addrID) (fun r => { r with secondInterface := 0 })

variable (inst : Instance)

def derivePublicInterface (iface : Option LoadedInterface)
    (floatingIps : List LoadedFip) : Option (NetDB × Nat) := do
  let primary ← primaryIface
  let db := db.clearSecond primary.2.id
  let db ← loop iface.isNone primary.1.id primary.2.address true db floatingIps
  return (db, primary.1.id)
where
  primaryIface : Option (Interface × Address) :=
    match iface, floatingIps with
    | some iface, _ => some (iface.row, iface.address)
    | none, fip :: _ => some (fip.interface, fip.address)
    | none, [] => none
  reserve (db : NetDB) (fip : LoadedFip) (intAddress : Cidr) : NetDB :=
    db.updateFloatingIps (fun r => r.id == fip.row.id)
      (fun r => { r with
        instanceID := inst.id
        routerID := 0
        intAddress := some intAddress
        type := .publicReserved })
  takePrimary (db : NetDB) (primaryID : Nat) : NetDB :=
    db.updateInterfaces (fun r => r.id == primaryID)
      (fun r => { r with inst := inst.id, name := "eth0", primaryIf := true })
  addSecond (db : NetDB) (primaryID : Nat) (fip : LoadedFip) : NetDB :=
    db.updateAddresses (fun r => r.id == fip.address.id)
      (fun r => { r with secondInterface := primaryID, type := .second })
  loop (updatePrimary : Bool) (primaryID : Nat) (primaryAddress : Cidr)
      : Bool → NetDB → List LoadedFip → Option NetDB
    | _, db, [] => some db
    | first, db, fip :: fips =>
      if !updatePrimary && fip.row.instanceID > 0 then
        loop updatePrimary primaryID primaryAddress false db fips
      else if fip.row.instanceID > 0 ∧ fip.row.instanceID ≠ inst.id then
        none
      else if first then
        let db := reserve (takePrimary db primaryID) fip primaryAddress
        loop updatePrimary primaryID primaryAddress false db fips
      else
        let db := reserve (addSecond db primaryID fip) fip fip.address.address
        loop updatePrimary primaryID primaryAddress false db fips

def createDummyFloatingIp (publicIp : Cidr) : NetDB :=
  { db with
    floatingIps := db.floatingIps.insert
      { id := 0
        fipAddress := some publicIp
        intAddress := some publicIp
        instanceID := inst.id
        routerID := 0
        loadBalancerID := 0
        subnetID := 0
        type := .publicNative } }

def allocateSecondAddresses (ifaceID : Nat)
    (ifaceSubnets : List Subnet) (secondAddrsCount : Nat) : Option NetDB :=
  let res := ifaceSubnets.foldl
    (fun res subnet => attempts subnet secondAddrsCount res) (db, 0)
  if res.2 < secondAddrsCount then none else some res.1
where
  attempts (subnet : Subnet) : Nat → NetDB × Nat → NetDB × Nat
    | 0, res => res
    | n + 1, (db, cnt) =>
      if cnt ≥ secondAddrsCount then
        (db, cnt)
      else
        match db.allocateAddress subnet ifaceID .empty .second with
        | some (db, addr) =>
          let db :=
            if subnet.type = .publicSubnet then db.createDummyFloatingIp inst addr.address else db
          attempts subnet n (db, cnt + 1)
        | none => attempts subnet n (db, cnt)

def releaseFloatingIp (id : Nat) : NetDB :=
  db.updateFloatingIps (fun r => r.id == id)
    (fun r => { r with
      instanceID := 0
      routerID := 0
      intAddress := none
      type := .publicFloating })

def detach (floatingIp : FloatingIp) : NetDB :=
  match floatingIp.type with
  | .publicNative =>
    { db with floatingIps := db.floatingIps.delete (fun r => r.id == floatingIp.id) }
  | .publicReserved => db.releaseFloatingIp floatingIp.id
  | _ =>
    (db.releaseFloatingIp floatingIp.id).updateFloatingIps (fun r => r.id == floatingIp.id)
      (fun r => { r with loadBalancerID := 0 })

-- the interface of a floating IP is taken from its instance
def resetInterface (ifaceID : Nat) : NetDB :=
  db.updateInterfaces (fun r => r.id == ifaceID)
    (fun r => { r with inst := 0, primaryIf := false, name := "fip" })

def changeAddresses (iface : LoadedInterface)
    (ifaceSubnets : List Subnet) (secondAddrsCount : Nat) (publicIps : List LoadedFip)
    : Option NetDB :=
  match publicIps with
  | first :: rest => do
    let db ← iface.secondAddresses.foldlM dropSecond db
    let publicIps := first :: rest.map (fun fip => { fip with row.instanceID := 0 })
    if iface.row.floatingIp ≠ first.row.id then
      let floatingIp ← db.floatingIps.byKey? iface.row.floatingIp
      let db := db.detach floatingIp
      let db := db.resetInterface iface.row.id
      let res ← db.derivePublicInterface inst none publicIps
      return res.1
    else
      let res ← db.derivePublicInterface inst (some iface) publicIps
      return res.1
  | [] =>
    if iface.secondAddresses.length < secondAddrsCount then
      db.allocateSecondAddresses inst iface.row.id ifaceSubnets
        (secondAddrsCount - iface.secondAddresses.length)
    else
      some (shrink db (iface.secondAddresses.take (iface.secondAddresses.length - secondAddrsCount)))
where
  -- a second address is taken from the interface, and the floating IP that it belongs to is released
  dropSecond (db : NetDB) (addr : Address) : Option NetDB :=
    let db := db.clearSecond addr.id
    if addr.interface > 0 then do
      let addrIface ← db.interfaces.byKey? addr.interface
      return if addrIface.floatingIp > 0 then db.releaseFloatingIp addrIface.floatingIp else db
    else
      some db
  shrink (db : NetDB) (released : List Address) : NetDB :=
    released.foldl
      (fun db addr => db.updateAddresses (fun r => r.id == addr.id)
        (fun r => { r with secondInterface := 0, allocated := false }))
      db

def ownedBy (masterID subnetID : Nat) (ifType : IfType) (iface : Interface) : Bool :=
  (subnetID = 0 || iface.subnet = subnetID) &&
    match ifType with
    | .vm => iface.inst = masterID && iface.type = .vm
    | .floating => iface.floatingIp = masterID && iface.type = .floating
    | .dhcp => iface.dhcp = masterID && iface.type = .dhcp
    | _ => iface.device = masterID && iface.type = .gateway

-- For the types without a branch of their own the interfaces stay and only lose their addresses.
def deleteInterfaces (masterID subnetID : Nat) (ifType : IfType) : NetDB :=
  let ifaces := db.interfaces.filter (ownedBy masterID subnetID ifType)
  if ifaces.isEmpty then
    db
  else
    let db :=
      if ifType = .vrrp ∨ ifType = .system then db
      else db.deleteInterfaceRows (ownedBy masterID subnetID ifType)
    db.deallocateAddress ifaces

def releaseSecond (ifaceID : Nat) : NetDB :=
  let db := db.updateAddresses (fun r => r.secondInterface == ifaceID && r.interface == 0)
    (fun r => { r with allocated := false, secondInterface := 0 })
  db.updateAddresses (fun r => r.secondInterface == ifaceID && decide (r.interface > 0))
    (fun r => { r with secondInterface := 0 })

def releasePrimary (ifaceID : Nat) : NetDB :=
  db.updateAddresses (fun r => r.interface == ifaceID)
    (fun r => { r with allocated := false, interface := 0 })

def deleteInterface (ifaceID : Nat) : NetDB :=
  let db := db.deleteInterfaceRows (fun iface => iface.id == ifaceID)
  (db.releasePrimary ifaceID).releaseSecond ifaceID

def clearInterface (iface : Interface) : NetDB :=
  let db :=
    if iface.floatingIp = 0 then
      (db.deleteInterfaceRows (fun r => r.id == iface.id)).releasePrimary iface.id
    else
      db.resetInterface iface.id
  db.releaseSecond iface.id

def clearVM (instID : Nat) : NetDB :=
  (db.interfaces.filter (fun r => r.inst == instID)).foldl clearInterface db

def detachInterface (instID ifaceID : Nat) : Option NetDB := do
  let iface ← db.interfaces.find? (fun r => r.id == ifaceID && r.inst == instID)
  return db.clearInterface iface

def allocateFloatingIp (db : NetDB) (floatingIpID : Nat) (pubSubnets : List Subnet) (address : IpArg)
    : NetDB × Option LoadedInterface :=
  match pubSubnets with
  | [] => (db, none)
  | subnet :: subnets =>
    match db.createInterface subnet floatingIpID address "fip" .floating with
    | (db, some iface) => (db, some iface)
    | (db, none) => db.allocateFloatingIp floatingIpID subnets address

def attach (floatingIp : LoadedFip) (inst : Instance) : Option NetDB :=
  if floatingIp.row.type ≠ .publicFloating ∧ floatingIp.row.type ≠ .publicSite then
    none
  else do
    let db ← record
    return ensureSubnetID db
where
  record : Option NetDB :=
    if inst.pending ∨ inst.routerID = 0 then
      none
    else do
      let primaryAddress ← inst.primaryAddress
      return db.updateFloatingIps (fun r => r.id == floatingIp.row.id)
        (fun r => { r with
          intAddress := some primaryAddress
          instanceID := inst.id
          routerID := inst.routerID })
  ensureSubnetID (db : NetDB) : NetDB :=
    if floatingIp.row.subnetID = 0 then
      db.updateFloatingIps (fun r => r.id == floatingIp.row.id)
        (fun r => { r with subnetID := floatingIp.address.subnetID })
    else
      db

def newFloatingIp (loadBalancer : Option LoadBalancer) : FloatingIp where
  id := 0
  fipAddress := none
  intAddress := none
  instanceID := 0
  routerID := (loadBalancer.map LoadBalancer.routerID).getD 0
  loadBalancerID := (loadBalancer.map LoadBalancer.id).getD 0
  subnetID := 0
  type := if loadBalancer.isSome then .publicLoadBalancer else .publicFloating

def createAndAllocateFloatingIps (db : NetDB) (count : Nat) (subnets : List Subnet)
    (publicIp : IpArg) (inst : Option Instance) (isSite : Bool) (loadBalancer : Option LoadBalancer)
    : Option (NetDB × List LoadedFip) :=
  match count with
  | 0 => some (db, [])
  | count + 1 => do
    let (db, fip) ← createOne db
    let (db, fips) ← db.createAndAllocateFloatingIps count subnets publicIp inst isSite loadBalancer
    return (db, fip :: fips)
where
  createOne (db : NetDB) : Option (NetDB × LoadedFip) :=
    let fip := { newFloatingIp loadBalancer with id := db.floatingIps.next }
    let db := { db with floatingIps := db.floatingIps.insert fip }
    match db.allocateFloatingIp fip.id subnets publicIp with
    | (_, none) => none
    | (db, some fipIface) => do
      let fip := { fip with
        fipAddress := some fipIface.address.address
        subnetID := fipIface.address.subnetID }
      let db ← attachNew db ⟨fip, fipIface.row, fipIface.address⟩
      let type := if isSite then .publicSite else fip.type
      return (finish db { fip with type }, ⟨{ attached fip with type }, fipIface.row, fipIface.address⟩)
  attachNew (db : NetDB) (fip : LoadedFip) : Option NetDB :=
    match inst with
    | some inst => db.attach fip inst
    | none => some db
  attached (fip : FloatingIp) : FloatingIp :=
    match inst with
    | some inst =>
      { fip with
        intAddress := inst.primaryAddress
        instanceID := inst.id
        routerID := inst.routerID }
    | none => fip
  finish (db : NetDB) (fip : FloatingIp) : NetDB :=
    db.updateFloatingIps (fun r => r.id == fip.id)
      (fun r => { r with
        fipAddress := fip.fipAddress
        subnetID := fip.subnetID
        type := fip.type })

def deallocateFloatingIp (floatingIpID : Nat) : NetDB :=
  let db := db.deleteInterfaces floatingIpID 0 .floating
  { db with floatingIps := db.floatingIps.delete (fun r => r.id == floatingIpID) }

def deleteFloatingIp (floatingIp : FloatingIp) : Option NetDB :=
  if floatingIp.type ≠ .publicFloating ∧ floatingIp.type ≠ .publicLoadBalancer then
    none
  else
    let db :=
      if floatingIp.instanceID > 0 ∨ floatingIp.loadBalancerID > 0 then db.detach floatingIp else db
    some (db.deallocateFloatingIp floatingIp.id)

/--
Detach a floating IP and attach it to another instance or load balancer. A native one is deleted by
`detach`, so that it is missing when it is loaded again. Detaching a reserved one drops its loaded
interface, which `attach` dereferences at its end: the transaction is committed all the same.
-/
def updateFloatingIp (floatingIp : LoadedFip) (inst : Option Instance)
    (loadBalancer : Option LoadBalancer) : Option NetDB :=
  let db := db.detach floatingIp.row
  if floatingIp.row.type = .publicNative then
    none
  else
    match inst, loadBalancer with
    | some inst, _ =>
      if floatingIp.row.type = .publicReserved then attach.record db floatingIp inst
      else db.attach floatingIp inst
    | none, some loadBalancer =>
      some (db.updateFloatingIps (fun r => r.id == floatingIp.row.id)
        (fun r => { r with
          loadBalancerID := loadBalancer.id
          routerID := loadBalancer.routerID
          type := .publicLoadBalancer }))
    | none, none => some db

/--
The loop over the subnets of a new interface of an instance. It ends at the first subnet that is
refused or that gives the interface an address.
-/
def createInstanceInterface (db : NetDB) (refused : Subnet → Bool) (inst : Instance)
    (subnets : List Subnet) (address : IpArg) (ifname : String) : Option (NetDB × LoadedInterface) :=
  match subnets with
  | [] => none
  | subnet :: rest =>
    if refused subnet then
      none
    else
      match db.createInterface subnet inst.id address ifname .vm with
      | (db, some iface) =>
        if subnet.type = .publicSubnet then
          some (db.createDummyFloatingIp inst iface.address.address, iface)
        else
          some (db, iface)
      | (db, none) => db.createInstanceInterface refused inst rest address ifname

def createNic (subnets : List Subnet) (address : IpArg)
    (ifname : String) : Option NetDB := do
  let refused := fun subnet : Subnet =>
    subnet.type = .site || (decide (inst.routerID > 0) && decide (subnet.routerID ≠ inst.routerID))
  let res ← db.createInstanceInterface refused inst subnets address ifname
  return res.1

def createVMInterface (publicIps : List LoadedFip)
    (subnets : List Subnet) (address : IpArg) (count : Nat) (ifname : String) : Option NetDB :=
  if publicIps.isEmpty then do
    let res ← db.createInstanceInterface (fun subnet => subnet.type = .site) inst subnets address ifname
    res.1.allocateSecondAddresses inst res.2.row.id subnets (count - 1)
  else do
    let res ← db.derivePublicInterface inst none publicIps
    return res.1

end NetDB
end Web
