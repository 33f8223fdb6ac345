import Cloudland.Web.Network.Ownership
import Cloudland.Web.Network.Requests

/-!
Histories of the address rows.
-/

namespace Web.NetDB

open Table

inductive AddressOp where
  | allocateAddress (subnet : Subnet) (ifaceID : Nat) (ipaddr : IpArg) (addrType : AddrType)
  | createInterface (subnet : Subnet) (ID : Nat) (address : IpArg) (ifaceName : String)
      (ifType : IfType)
  | derivePublicInterface (inst : Instance) (iface : Option LoadedInterface)
      (floatingIps : List LoadedFip)
  | deallocateAddress (ifaces : List Interface)
  | deleteInterfaces (masterID subnetID : Nat) (ifType : IfType)
  | deleteInterface (iface : Interface)
  | clearVM (instID : Nat)
  | detachInterface (instID ifaceID : Nat)
  | request (req : NetRequest)

namespace AddressOp

def exec (db : NetDB) : AddressOp → Option NetDB
  | allocateAddress subnet ifaceID ipaddr addrType =>
    (db.allocateAddress subnet ifaceID ipaddr addrType).map Prod.fst
  | createInterface subnet ID address ifaceName ifType =>
    match db.createInterface subnet ID address ifaceName ifType with
    | (db, some _) => some db
    | (_, none) => none
  | derivePublicInterface inst iface floatingIps =>
    (db.derivePublicInterface inst iface floatingIps).map Prod.fst
  | deallocateAddress ifaces => some (db.deallocateAddress ifaces)
  | deleteInterfaces masterID subnetID ifType => some (db.deleteInterfaces masterID subnetID ifType)
  | deleteInterface iface => some (db.deleteInterface iface.id)
  | clearVM instID => some (db.clearVM instID)
  | detachInterface instID ifaceID => db.detachInterface instID ifaceID
  | request req => req.exec db

def Loaded (db : NetDB) : AddressOp → Prop
  | allocateAddress _ ifaceID _ _ => db.Live ifaceID
  | derivePublicInterface _ iface floatingIps =>
    (∀ i ∈ iface, i.Loaded db) ∧ ∀ fip ∈ floatingIps, fip.Loaded db
  | deallocateAddress ifaces => ∀ i ∈ ifaces, i ∈ db.interfaces
  | deleteInterface iface => iface ∈ db.interfaces
  | request req => req.Loaded db
  | _ => True

instance : Decidable (Loaded db op) := by
  cases op <;> unfold Loaded <;> first | infer_instance | (unfold Live; infer_instance)

def Step : NetDB → AddressOp → NetDB → Prop := Guarded Loaded (fun db op db' => op.exec db = some db')

def Safe (db : NetDB) : AddressOp → Prop
  | request (.changeAddresses _ iface _ secondAddrsCount publicIps) =>
    if publicIps = [] then
      ∀ addr ∈ iface.secondAddresses.take (iface.secondAddresses.length - secondAddrsCount),
        addr.interface = 0
    else
      ∀ addr ∈ iface.secondAddresses, addr.interface ≠ 0
  | request (.deleteFloatingIp floatingIp) => db.NoOrphans floatingIp.id 0 .floating
  | deleteInterfaces masterID subnetID ifType =>
    ifType ≠ .vrrp → ifType ≠ .system → db.NoOrphans masterID subnetID ifType
  | deleteInterface iface =>
    ∀ r ∈ db.addresses, r.interface = iface.id → r.secondInterface = 0 ∨ r.secondInterface = iface.id
  | deallocateAddress ifaces => ifaces ≠ []
  | _ => True

instance : Decidable (Safe db op) := by
  unfold Safe
  split <;> infer_instance

end AddressOp

variable {held : Nat → Prop} {db db' : NetDB}

theorem live_of_loadedFip {fip : LoadedFip} (h : fip.Loaded db)
    : db.Live fip.interface.id ∧ db.FipRow fip.address.id := by
  have ⟨hrow, hiface, hfip, haddr, hi⟩ := h
  refine ⟨⟨_, hiface, rfl⟩, ?_⟩
  intro r hr hid
  have hne := Nat.pos_iff_ne_zero.mp (db.floatingIps.bounds _ hrow).1
  rw [eq_of_key hr haddr hid, hi]
  exact ⟨pos_of_live ⟨_, hiface, rfl⟩, _, hiface, rfl, hfip ▸ hne⟩

theorem live_of_loadedInterface {iface : LoadedInterface} (h : iface.Loaded db)
    : db.Live iface.row.id ∧ db.PrimaryRow iface.address.id := by
  have ⟨hrow, haddr, hi, _⟩ := h
  refine ⟨⟨_, hrow, rfl⟩, ?_⟩
  intro r hr hid
  rw [eq_of_key hr haddr hid, hi]
  exact pos_of_live ⟨_, hrow, rfl⟩

theorem second_of_loadedInterface {iface : LoadedInterface} (h : iface.Loaded db) {addr : Address}
    (haddr : addr ∈ iface.secondAddresses)
    : addr ∈ db.addresses ∧ addr.secondInterface = iface.row.id := by
  have hmem := mem_filter.mp (h.2.2.2.subset haddr)
  exact ⟨hmem.1, beq_iff_eq.mp hmem.2⟩

theorem AddrInv.changeLoaded (h : AddrInv held db) {iface : LoadedInterface}
    (hiface : iface.Loaded db) (hfips : ∀ fip ∈ publicIps, fip.Loaded db)
    (hsafe : AddressOp.Safe db (.request (.changeAddresses inst iface ifaceSubnets wanted publicIps)))
    (hchange : db.changeAddresses inst iface ifaceSubnets wanted publicIps = some db')
    : AddrInv held db' := by
  have ⟨hlive, hrow⟩ := live_of_loadedInterface hiface
  simp only [AddressOp.Safe] at hsafe
  refine h.changeAddresses hlive hrow (fun fip hmem => live_of_loadedFip (hfips fip hmem)) ?_ ?_ hchange
  . intro hnil addr haddr
    rw [if_pos hnil] at hsafe
    have ⟨hmem, hsecond⟩ := second_of_loadedInterface hiface (List.mem_of_mem_take haddr)
    refine ⟨(h addr hmem).not_held (.inr (hsecond ▸ pos_of_live hlive)), ?_⟩
    intro r hr hid
    rw [eq_of_key hr hmem hid]
    exact hsafe addr haddr
  . intro hcons addr haddr
    rw [if_neg hcons] at hsafe
    have ⟨hmem, _⟩ := second_of_loadedInterface hiface haddr
    intro r hr hid
    rw [eq_of_key hr hmem hid]
    exact hsafe addr haddr

theorem AddrInv.request (h : AddrInv held db) {req : NetRequest} (hload : req.Loaded db)
    (hsafe : AddressOp.Safe db (.request req)) (hexec : req.exec db = some db')
    : AddrInv held db' := by
  cases req with
  | createFloatingIps => exact AddrInv.stable.createAndAllocateFloatingIps h hexec
  | attach => exact AddrInv.stable.attach h hexec
  | detach floatingIp =>
    cases hexec
    exact AddrInv.stable.detach h floatingIp
  | updateFloatingIp => exact AddrInv.stable.updateFloatingIp h hexec
  | deleteFloatingIp => exact h.deleteFloatingIp hsafe hexec
  | createVMInterface =>
    exact h.createVMInterface (fun fip hmem => live_of_loadedFip (hload.2 fip hmem)) hexec
  | createNic => exact h.createNic hexec
  | changeAddresses => exact h.changeLoaded hload.2.1 hload.2.2 hsafe hexec

theorem AddrInv.step (h : AddrInv held db) {op : AddressOp} (hsafe : op.Safe db)
    (hstep : AddressOp.Step db op db')
    : AddrInv held db' := by
  have ⟨hload, hexec⟩ := hstep
  cases op with
  | allocateAddress =>
    obtain ⟨res, hres, rfl⟩ := Option.map_eq_some_iff.mp hexec
    exact h.allocateAddress hload hres
  | createInterface =>
    simp only [AddressOp.exec] at hexec
    split at hexec
    . next hcreate =>
      cases hexec
      exact h.createInterface hcreate
    . contradiction
  | derivePublicInterface =>
    obtain ⟨res, hres, rfl⟩ := Option.map_eq_some_iff.mp hexec
    exact h.derivePublicInterface (fun i hi => live_of_loadedInterface (hload.1 i hi))
      (fun fip hmem => live_of_loadedFip (hload.2 fip hmem)) hres
  | deallocateAddress ifaces =>
    cases hexec
    exact h.deallocateAddress hsafe (fun i hi => pos_of_live ⟨i, hload i hi, rfl⟩)
  | deleteInterfaces =>
    cases hexec
    exact h.deleteInterfaces hsafe
  | deleteInterface iface =>
    cases hexec
    exact h.releaseDeleted (pos_of_live ⟨iface, hload, rfl⟩) hsafe
  | clearVM instID =>
    cases hexec
    exact h.clearVM instID
  | detachInterface => exact h.detachInterface hexec
  | request => exact h.request hload hsafe hexec

inductive FreshRow (held : Nat → Prop) (db : NetDB) (r : Address) : Prop where
  | free (hheld : ¬held r.id) (halloc : r.allocated = false) (hi : r.interface = 0)
      (hs : r.secondInterface = 0)
  | held (hheld : held r.id) (halloc : r.allocated = true) (hi : r.interface = 0)
      (hs : r.secondInterface = 0)
  | gateway (hheld : ¬held r.id) (halloc : r.allocated = true) (hi : db.Live r.interface)
      (hs : r.secondInterface = 0)

theorem FreshRow.rowOk (h : FreshRow held db r) : RowOk held db.Live db.FipIface r := by
  cases h with
  | free hheld halloc hi hs => exact .free hheld halloc hi hs
  | held hheld halloc hi hs => constructor <;> simp [hheld, halloc, hi, hs]
  | gateway hheld halloc hi hs =>
    have hne := pos_of_live hi
    constructor <;> simp [hheld, halloc, hi, hs, hne]

theorem addresses_owned {db₀ : NetDB} {ops : List AddressOp}
    (hfresh : ∀ r ∈ db₀.addresses, FreshRow held db₀ r)
    (hrun : Run (Guarded AddressOp.Safe AddressOp.Step) db₀ ops db)
    : ∀ r ∈ db.addresses,
        (r.allocated = true ↔ held r.id ∨ r.interface ≠ 0 ∨ r.secondInterface ≠ 0) ∧
        (r.interface ≠ 0 → db.Live r.interface) ∧
        (r.secondInterface ≠ 0 → db.Live r.secondInterface) := by
  have hinv :=
    hrun.invariant (AddrInv held) (fun _ _ _ h hstep => h.step hstep.1 hstep.2)
      (fun r hr => (hfresh r hr).rowOk)
  intro r hr
  have hok := hinv r hr
  exact ⟨hok.owned, hok.primaryLive, hok.secondLive⟩

section Example

def net : Subnet := ⟨1, ⟨1, 24⟩, 24, 0, .publicSubnet⟩

def netRow (ip : Nat) : Address := ⟨0, ⟨ip, 24⟩, .ipv4, false, false, 1, 0, 0⟩

def newNet : NetDB where
  addresses := (((empty.insert (netRow 2)).insert (netRow 3)).insert (netRow 4)).insert (netRow 1)
  interfaces := .empty
  floatingIps := .empty

def vm : Instance := ⟨7, 0, false, none⟩

-- the two floating IPs as they are loaded after their creation
def fip1 : LoadedFip where
  row := ⟨1, some ⟨2, 24⟩, none, 0, 0, 0, 1, .publicFloating⟩
  interface := ⟨1, "fip", 0, 0, 0, 1, 1, 0, false, .floating⟩
  address := ⟨1, ⟨2, 24⟩, .native, true, false, 1, 1, 0⟩

def fip2 : LoadedFip where
  row := ⟨2, some ⟨3, 24⟩, none, 0, 0, 0, 1, .publicFloating⟩
  interface := ⟨2, "fip", 0, 0, 0, 2, 1, 0, false, .floating⟩
  address := ⟨2, ⟨3, 24⟩, .native, true, false, 1, 2, 0⟩

-- the interface of the instance after it is created with both of them
def vmIface : LoadedInterface where
  row := ⟨1, "eth0", 7, 0, 0, 1, 1, 0, true, .floating⟩
  address := ⟨1, ⟨2, 24⟩, .native, true, false, 1, 1, 0⟩
  secondAddresses := [⟨2, ⟨3, 24⟩, .second, true, false, 1, 2, 1⟩]

def createVM : List AddressOp :=
  [.request (.createFloatingIps 2 [net] .empty none false none),
    .request (.createVMInterface vm [fip1, fip2] [] .empty 2 "eth0")]

theorem newNet_fresh : ∀ r ∈ newNet.addresses, FreshRow (fun _ => False) newNet r := by
  have hfree : ∀ r ∈ newNet.addresses,
      r.allocated = false ∧ r.interface = 0 ∧ r.secondInterface = 0 := by
    decide
  intro r hr
  have ⟨halloc, hi, hs⟩ := hfree r hr
  exact .free (fun h => h) halloc hi hs

theorem addresses_owned_createVM
    : ∃ db, Run (Guarded AddressOp.Safe AddressOp.Step) newNet createVM db ∧
        ∀ r ∈ db.addresses,
          (r.allocated = true ↔ False ∨ r.interface ≠ 0 ∨ r.secondInterface ≠ 0) ∧
          (r.interface ≠ 0 → db.Live r.interface) ∧
          (r.secondInterface ≠ 0 → db.Live r.secondInterface) := by
  refine Run.exists_of_checked₂ (fun _ => True) (by decide +kernel) ?_
  exact fun db hrun _ => addresses_owned newNet_fresh hrun

theorem shrink_frees_public_address
    : (∀ r ∈ newNet.addresses, FreshRow (fun _ => False) newNet r) ∧
      ∃ db, Run AddressOp.Step newNet
          (createVM ++ [.request (.changeAddresses vm vmIface [] 0 [])]) db ∧
        ∃ r ∈ db.addresses, r.allocated = false ∧ r.interface ≠ 0 := by
  exact ⟨newNet_fresh, Run.exists_of_checked _ (by decide +kernel) (fun _ _ h => h)⟩

end Example

end Web.NetDB
