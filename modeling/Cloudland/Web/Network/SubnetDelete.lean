import Cloudland.Web.Network.Requests
import Cloudland.Web.Network.Ownership

/-!
This module models `SubnetAdmin.Delete` (`routes/subnet.go`) and what it leaves behind.
-/

namespace Web

open Option Table
namespace NetDB

def deleteSubnet (db : NetDB) (subnet : Subnet) : Option NetDB :=
  if subnet.type ≠ .site ∧
      db.interfaces.rows.any (fun i => i.subnet == subnet.id && i.type ≠ .dhcp && i.type ≠ .gateway) then
    none
  else
    let db := { db with addresses := db.addresses.delete (fun r => r.subnetID == subnet.id) }
    let floatingIps := db.floatingIps.filter (fun f => f.subnetID == subnet.id)
    let db := floatingIps.foldl (fun db f => db.deallocateFloatingIp f.id) db
    some (db.deleteInterfaceRows (fun i => i.subnet == subnet.id))

def createAddresses (db : NetDB) (subnetID : Nat) (addrs : List Cidr) : NetDB :=
  addrs.foldl
    (fun db address =>
      { db with addresses := db.addresses.insert ⟨0, address, .ipv4, false, false, subnetID, 0, 0⟩ })
    db

structure Placed (db : NetDB) : Prop where
  rows : ∀ r ∈ db.addresses, r.interface ≠ 0 → ∃ i ∈ db.interfaces, i.id = r.interface ∧ i.subnet = r.subnetID
  fips : ∀ i ∈ db.interfaces, i.floatingIp ≠ 0 → i.type = .floating

namespace Placed

variable {db db' : NetDB}

section Placed

variable (h : Placed db)

include h

theorem congr (haddr : db'.addresses = db.addresses) (hifaces : ∀ i, i ∈ db'.interfaces ↔ i ∈ db.interfaces)
    : Placed db' where
  rows := by
    intro r hr hne
    have ⟨i, hi, heq⟩ := h.rows r (haddr ▸ hr) hne
    exact ⟨i, (hifaces i).mpr hi, heq⟩
  fips := fun i hi => h.fips i ((hifaces i).mp hi)

theorem keeps (haddr : db'.addresses = db.addresses)
    (hkept : ∀ i ∈ db.interfaces, ∃ j ∈ db'.interfaces, j.id = i.id ∧ j.subnet = i.subnet)
    (hfips : ∀ j ∈ db'.interfaces, j.floatingIp ≠ 0 → j.type = .floating)
    : Placed db' where
  rows := by
    intro r hr hne
    have ⟨i, hi, hid, hsubnet⟩ := h.rows r (haddr ▸ hr) hne
    have ⟨j, hj, hjid, hjsubnet⟩ := hkept i hi
    exact ⟨j, hj, hjid.trans hid, hjsubnet.trans hsubnet⟩
  fips := hfips

theorem updateAddresses
    (hf : ∀ r, p r = true → (f r).subnetID = r.subnetID ∧ ((f r).interface = r.interface ∨ (f r).interface = 0))
    : Placed (db.updateAddresses p f) where
  rows := by
    rw [forall_updateAddresses]
    intro r hr
    split
    . next hp =>
      have ⟨hsubnet, hiface⟩ := hf r hp
      intro hne
      obtain hsame | hzero := hiface
      . have ⟨i, hi, hid, heq⟩ := h.rows r hr (hsame ▸ hne)
        exact ⟨i, hi, hid.trans hsame.symm, heq.trans hsubnet.symm⟩
      . exact absurd hzero hne
    . exact h.rows r hr
  fips := h.fips

theorem updateInterfaces
    (hf : ∀ i, (f i).subnet = i.subnet ∧ (f i).floatingIp = i.floatingIp ∧ (f i).type = i.type)
    : Placed (db.updateInterfaces p f) := by
  refine h.keeps rfl ?_ ?_
  . intro i hi
    refine ⟨_, mem_updateInterfaces.mpr ⟨i, hi, rfl⟩, ?_⟩
    split
    . exact ⟨rfl, (hf i).1⟩
    . exact ⟨rfl, rfl⟩
  . intro j hj
    obtain ⟨i, hi, rfl⟩ := mem_updateInterfaces.mp hj
    split
    . intro hne
      exact (hf i).2.2.trans (h.fips i hi ((hf i).2.1 ▸ hne))
    . exact h.fips i hi

theorem setFloatingIps (floatingIps : Table FloatingIp)
    : Placed { db with floatingIps := floatingIps } :=
  h.congr rfl (fun _ => Iff.rfl)

theorem deleteInterfaceRows (hfree : ∀ r ∈ db.addresses, ∀ i ∈ db.interfaces, p i = true → r.interface ≠ i.id)
    : Placed (db.deleteInterfaceRows p) where
  rows := by
    intro r hr hne
    have ⟨i, hi, hid, hsubnet⟩ := h.rows r hr hne
    refine ⟨i, mem_delete.mpr ⟨hi, ?_⟩, hid, hsubnet⟩
    rw [← Bool.not_eq_true]
    exact fun hp => hfree r hr i hi hp hid.symm
  fips := fun i hi => h.fips i (mem_delete.mp hi).1

end Placed

section Allocate

variable {subnet : Subnet} {ifaceID : Nat} {ipaddr : IpArg} {addrType : AddrType} {row : Address}

theorem allocateAddress (h : Placed db)
    (hiface : addrType ≠ .second → ∃ i ∈ db.interfaces, i.id = ifaceID ∧ i.subnet = subnet.id)
    (halloc : db.allocateAddress subnet ifaceID ipaddr addrType = some (db', row))
    : Placed db' := by
  have ⟨a, ha, havail, _, hifaces, _, hmem⟩ := allocateAddress_eq_some halloc
  have hsubnet := (available_eq_true havail).1
  constructor
  . intro b hb
    rw [hifaces]
    obtain hb | hb := (hmem b).mp hb
    . exact h.rows b hb.1
    . rw [hb, booked]
      split
      . exact h.rows a ha
      . next htype =>
        intro _
        have ⟨i, hi, hid, heq⟩ := hiface htype
        exact ⟨i, hi, hid, heq.trans hsubnet.symm⟩
  . rw [hifaces]
    exact h.fips

theorem insertInterface (h : Placed db) (hfip : iface.floatingIp ≠ 0 → iface.type = .floating)
    : Placed { db with interfaces := db.interfaces.insert iface } := by
  refine h.keeps rfl (fun i hi => ⟨i, mem_insert.mpr (.inl hi), rfl, rfl⟩) ?_
  intro j hj
  obtain hj | hj := mem_insert.mp hj
  . exact h.fips j hj
  . exact hj ▸ hfip

theorem createInterface (h : Placed db) (hcreate : db.createInterface subnet ID ipaddr name ifType = (db', res))
    : Placed db' := by
  obtain ⟨iface, addr, hiface, _, halloc⟩ | hnone := createInterface_cases hcreate
  . have hfip : iface.floatingIp ≠ 0 → iface.type = .floating := by
      rw [hiface]
      intro hne
      by_cases htype : ifType = .floating
      . exact htype
      . exact absurd (if_neg htype) hne
    apply (h.insertInterface hfip).allocateAddress _ halloc
    intro _
    rw [hiface]
    exact ⟨_, mem_insert.mpr (.inr rfl), rfl, rfl⟩
  . exact h.congr hnone.2.1 hnone.2.2.2

theorem stable : Stable Placed := ⟨fun _ h => h.setFloatingIps _, createInterface⟩

end Allocate

section Second

variable {inst : Instance}

section Placed

variable (h : Placed db)

include h

theorem keepRows (hf : ∀ r, (f r).subnetID = r.subnetID ∧ (f r).interface = r.interface)
    : Placed (db.updateAddresses p f) :=
  h.updateAddresses (fun r _ => ⟨(hf r).1, .inl (hf r).2⟩)

theorem loop {fips : List LoadedFip}
    (hloop : derivePublicInterface.loop inst updatePrimary primaryID primaryAddress first db fips = some db')
    : Placed db' := by
  refine derivePublicInterface.loop_keeps (P := fun _ => Placed) (fun h => h) ?_ ?_ h hloop
  . intro fip _ d h
    have htake : Placed (derivePublicInterface.takePrimary inst d primaryID) :=
      h.updateInterfaces (fun _ => ⟨rfl, rfl, rfl⟩)
    exact htake.setFloatingIps _
  . intro fip _ d h
    have hadd : Placed (derivePublicInterface.addSecond d primaryID fip) := h.keepRows (fun _ => ⟨rfl, rfl⟩)
    exact hadd.setFloatingIps _

theorem derivePublicInterface {fips : List LoadedFip} {ifaceID : Nat}
    (hderive : db.derivePublicInterface inst iface fips = some (db', ifaceID))
    : Placed db' := by
  have ⟨primary, _, hrest⟩ := bind_eq_some_iff.mp hderive
  have ⟨db₁, hloop, hdb⟩ := bind_eq_some_iff.mp hrest
  have hclear : Placed (db.clearSecond primary.2.id) := h.keepRows (fun _ => ⟨rfl, rfl⟩)
  cases hdb
  exact hclear.loop hloop

theorem allocateSecondAddresses (halloc : db.allocateSecondAddresses inst ifaceID subnets wanted = some db')
    : Placed db' := by
  refine allocateSecondAddresses_keeps ?_ h halloc
  intro subnet _ d d' row h halloc
  have hrow := h.allocateAddress (fun hne => absurd rfl hne) halloc
  split
  . exact hrow.setFloatingIps _
  . exact hrow

theorem dropAll {addrs : List Address} (hdrop : addrs.foldlM changeAddresses.dropSecond db = some db')
    : Placed db' := by
  refine Run.foldlM_keeps ?_ h hdrop
  intro addr _ d d' h hdrop
  have hclear : Placed (d.clearSecond addr.id) := h.keepRows (fun _ => ⟨rfl, rfl⟩)
  exact dropSecond_keeps hclear (fun _ _ => hclear.setFloatingIps _) hdrop

theorem shrink (released : List Address) : Placed (changeAddresses.shrink db released) := by
  induction released generalizing db with
  | nil => exact h
  | cons addr released ih => exact ih (h.keepRows (fun _ => ⟨rfl, rfl⟩))

theorem changeAddresses (hchange : db.changeAddresses inst iface subnets wanted publicIps = some db')
    : Placed db' := by
  unfold NetDB.changeAddresses at hchange
  split at hchange
  . next first rest =>
    have ⟨db₁, hdrop, hchange⟩ := bind_eq_some_iff.mp hchange
    have h₁ := h.dropAll hdrop
    dsimp only at hchange
    split at hchange
    . have ⟨floatingIp, _, hchange⟩ := bind_eq_some_iff.mp hchange
      have ⟨res, hderive, hdb⟩ := bind_eq_some_iff.mp hchange
      have hreset : Placed ((db₁.detach floatingIp).resetInterface iface.row.id) :=
        (stable.detach h₁ floatingIp).updateInterfaces (fun _ => ⟨rfl, rfl, rfl⟩)
      cases hdb
      exact hreset.derivePublicInterface hderive
    . have ⟨res, hderive, hdb⟩ := bind_eq_some_iff.mp hchange
      cases hdb
      exact h₁.derivePublicInterface hderive
  . split at hchange
    . exact h.allocateSecondAddresses hchange
    . cases hchange
      exact h.shrink _

end Placed

end Second

section Placed

variable (h : Placed db)

include h

theorem releaseSecond (ifaceID : Nat) : Placed (db.releaseSecond ifaceID) := by
  apply keepRows
  . apply h.keepRows
    exact fun _ => ⟨rfl, rfl⟩
  . exact fun _ => ⟨rfl, rfl⟩

theorem releasePrimary (ifaceID : Nat) : Placed (db.releasePrimary ifaceID) :=
  h.updateAddresses (fun _ _ => ⟨rfl, .inr rfl⟩)

theorem releaseDeleted (ifaceID : Nat)
    : Placed ((db.deleteInterfaceRows (fun i => i.id == ifaceID)).releasePrimary ifaceID) := by
  have hrows : ∀ r ∈ (db.releasePrimary ifaceID).addresses, ∀ i ∈ db.interfaces, (i.id == ifaceID) = true →
      r.interface ≠ i.id := by
    rw [forall_releasePrimary]
    intro r _ i hi hid
    have hpos := pos_of_live ⟨i, hi, rfl⟩
    have hid := beq_iff_eq.mp hid
    split
    . exact hpos.symm
    . next hne => exact hid ▸ hne
  exact (h.releasePrimary ifaceID).deleteInterfaceRows hrows

theorem deleteInterface (ifaceID : Nat) : Placed (db.deleteInterface ifaceID) :=
  (h.releaseDeleted ifaceID).releaseSecond ifaceID

theorem deleteInterfaces (masterID subnetID : Nat) (ifType : IfType)
    : Placed (db.deleteInterfaces masterID subnetID ifType) := by
  simp only [NetDB.deleteInterfaces]
  split
  . exact h
  . next hne =>
    have hne' : db.interfaces.filter (ownedBy masterID subnetID ifType) ≠ [] := by simpa using hne
    have hdealloc : Placed (db.deallocateAddress (db.interfaces.filter (ownedBy masterID subnetID ifType))) :=
      h.updateAddresses (fun _ _ => ⟨rfl, .inr rfl⟩)
    split
    . exact hdealloc
    . apply hdealloc.deleteInterfaceRows
      unfold NetDB.deallocateAddress
      rw [forall_updateAddresses]
      intro r _ i hi howned
      split
      . exact (pos_of_live ⟨i, hi, rfl⟩).symm
      . next hp =>
        simp only [Bool.or_eq_true, List.isEmpty_iff, hne', false_or, List.any_eq_true, beq_iff_eq, mem_filter,
          not_exists, not_and, and_imp] at hp
        exact hp i hi howned

theorem clearInterface (iface : Interface) : Placed (db.clearInterface iface) := by
  simp only [NetDB.clearInterface]
  split
  . exact h.deleteInterface iface.id
  . have hreset : Placed (db.resetInterface iface.id) := h.updateInterfaces (fun _ => ⟨rfl, rfl, rfl⟩)
    exact hreset.releaseSecond iface.id

theorem clearVM (instID : Nat) : Placed (db.clearVM instID) := by
  unfold NetDB.clearVM
  generalize db.interfaces.filter (fun r => r.inst == instID) = ifaces
  induction ifaces generalizing db with
  | nil => exact h
  | cons iface ifaces ih => exact ih (h.clearInterface iface)

theorem detachInterface (hdetach : db.detachInterface instID ifaceID = some db') : Placed db' := by
  have ⟨iface, _, hdb⟩ := bind_eq_some_iff.mp hdetach
  cases hdb
  exact h.clearInterface iface

theorem deallocateFloatingIp (fipID : Nat) : Placed (db.deallocateFloatingIp fipID) :=
  (h.deleteInterfaces fipID 0 .floating).setFloatingIps _

end Placed

section Requests

variable {subnets : List Subnet} {publicIp : IpArg} {inst : Instance}

theorem deleteFloatingIp (h : Placed db) (hdelete : db.deleteFloatingIp floatingIp = some db')
    : Placed db' := by
  unfold NetDB.deleteFloatingIp at hdelete
  split at hdelete
  . contradiction
  . cases hdelete
    apply deallocateFloatingIp
    split
    . exact stable.detach h floatingIp
    . exact h

theorem createVMInterface (h : Placed db)
    (hcreate : db.createVMInterface inst publicIps subnets address count ifname = some db')
    : Placed db' := by
  unfold NetDB.createVMInterface at hcreate
  split at hcreate
  . have ⟨res, hiface, hsecond⟩ := bind_eq_some_iff.mp hcreate
    exact (stable.createInstanceInterface h hiface).allocateSecondAddresses hsecond
  . have ⟨res, hderive, hdb⟩ := bind_eq_some_iff.mp hcreate
    cases hdb
    exact h.derivePublicInterface hderive

theorem request (h : Placed db) {req : NetRequest} (hexec : req.exec db = some db') : Placed db' := by
  cases req with
  | createFloatingIps => exact stable.createAndAllocateFloatingIps h hexec
  | attach => exact stable.attach h hexec
  | detach floatingIp =>
    cases hexec
    exact stable.detach h floatingIp
  | updateFloatingIp => exact stable.updateFloatingIp h hexec
  | deleteFloatingIp => exact h.deleteFloatingIp hexec
  | createVMInterface => exact h.createVMInterface hexec
  | createNic =>
    have ⟨res, hiface, hdb⟩ := bind_eq_some_iff.mp hexec
    cases hdb
    exact stable.createInstanceInterface h hiface
  | changeAddresses => exact h.changeAddresses hexec

end Requests

end Placed

section Delete

variable {db db' : NetDB} {subnet : Subnet}

structure Left (fipIDs : List Nat) (db db' : NetDB) : Prop where
  interfaces : ∀ i ∈ db'.interfaces, i ∈ db.interfaces
  addresses : ∀ r ∈ db'.addresses, ∃ a ∈ db.addresses, a.subnetID = r.subnetID
  floatingIps : ∀ f ∈ db'.floatingIps, f ∈ db.floatingIps ∧ f.id ∉ fipIDs

theorem left_deallocateFloatingIp (db : NetDB) (fipID : Nat) : Left [fipID] db (db.deallocateFloatingIp fipID) where
  interfaces := by
    intro i hi
    simp only [deallocateFloatingIp, deleteInterfaces] at hi
    split at hi
    . exact hi
    . exact (mem_delete.mp hi).1
  addresses := by
    simp only [deallocateFloatingIp, deleteInterfaces]
    split
    . exact fun r hr => ⟨r, hr, rfl⟩
    . show ∀ r ∈ (NetDB.deallocateAddress _ _).addresses, _
      unfold deallocateAddress
      rw [forall_updateAddresses]
      intro r hr
      refine ⟨r, hr, ?_⟩
      split
      . rfl
      . rfl
  floatingIps := by
    intro f hf
    obtain ⟨hmem, hne⟩ := mem_delete.mp hf
    refine ⟨?_, by simpa using hne⟩
    simp only [deleteInterfaces] at hmem
    split at hmem
    . exact hmem
    . exact hmem

theorem left_foldl (db : NetDB) (fips : List FloatingIp)
    : Left (fips.map FloatingIp.id) db (fips.foldl (fun db f => db.deallocateFloatingIp f.id) db) := by
  induction fips generalizing db with
  | nil => exact ⟨fun _ hi => hi, fun r hr => ⟨r, hr, rfl⟩, fun f hf => ⟨hf, List.not_mem_nil⟩⟩
  | cons fip fips ih =>
    have hfirst := left_deallocateFloatingIp db fip.id
    have hrest := ih (db.deallocateFloatingIp fip.id)
    refine ⟨fun i hi => hfirst.interfaces i (hrest.interfaces i hi), ?_, ?_⟩
    . intro r hr
      have ⟨a, ha, haeq⟩ := hrest.addresses r hr
      have ⟨b, hb, hbeq⟩ := hfirst.addresses a ha
      exact ⟨b, hb, hbeq.trans haeq⟩
    . intro f hf
      have ⟨hmem, hne⟩ := hrest.floatingIps f hf
      have ⟨hmem, hfirst⟩ := hfirst.floatingIps f hmem
      rw [List.map_cons, List.mem_cons]
      exact ⟨hmem, fun h => h.elim (fun heq => hfirst (List.mem_singleton.mpr heq)) hne⟩

def dropAddresses (db : NetDB) (subnet : Subnet) : NetDB :=
  { db with addresses := db.addresses.delete (fun r => r.subnetID == subnet.id) }

def dropFips (db : NetDB) (subnet : Subnet) : NetDB :=
  (db.floatingIps.filter (fun f => f.subnetID == subnet.id)).foldl (fun db f => db.deallocateFloatingIp f.id)
    (db.dropAddresses subnet)

theorem deleteSubnet_eq_some (h : db.deleteSubnet subnet = some db')
    : db' = (db.dropFips subnet).deleteInterfaceRows (fun i => i.subnet == subnet.id) ∧
        (subnet.type ≠ .site →
          ∀ i ∈ db.interfaces, i.subnet = subnet.id → i.type = .dhcp ∨ i.type = .gateway) := by
  rw [deleteSubnet] at h
  split at h
  . contradiction
  . next hunused =>
    refine ⟨(some.inj h).symm, ?_⟩
    intro hsite i hi hsubnet
    have hnone := not_and.mp hunused hsite
    rw [Bool.not_eq_true, List.any_eq_false] at hnone
    have := hnone i hi
    simp only [hsubnet, beq_self_eq_true, Bool.true_and, Bool.and_eq_true, decide_eq_true_eq, ne_eq, not_and,
      not_not] at this
    by_cases hdhcp : i.type = .dhcp
    . exact .inl hdhcp
    . exact .inr (this hdhcp)

theorem subnetID_ne_of_mem_dropFips (hr : r ∈ (db.dropFips subnet).addresses) : r.subnetID ≠ subnet.id := by
  have ⟨a, ha, heq⟩ := (left_foldl (db.dropAddresses subnet) _).addresses r hr
  rw [← heq]
  simpa using (mem_delete.mp ha).2

theorem Placed.subnet_eq (h : Placed db) (hr : r ∈ db.addresses) (hi : i ∈ db.interfaces)
    (howns : r.interface = i.id)
    : i.subnet = r.subnetID := by
  have hne := howns ▸ pos_of_live ⟨i, hi, rfl⟩
  have ⟨j, hj, hid, hsubnet⟩ := h.rows r hr hne
  have heq := eq_of_key hi hj (howns.symm.trans hid.symm)
  rw [heq, hsubnet]

theorem Placed.deallocateAll (h : Placed db) (fips : List FloatingIp)
    : Placed (fips.foldl (fun db f => db.deallocateFloatingIp f.id) db) := by
  induction fips generalizing db with
  | nil => exact h
  | cons fip fips ih => exact ih (h.deallocateFloatingIp fip.id)

theorem Placed.deleteSubnet (h : Placed db) (hdelete : db.deleteSubnet subnet = some db') : Placed db' := by
  have hdrop : Placed (db.dropAddresses subnet) :=
    ⟨fun r hr => h.rows r (mem_delete.mp hr).1, h.fips⟩
  have hfips : Placed (db.dropFips subnet) := hdrop.deallocateAll _
  rw [(deleteSubnet_eq_some hdelete).1]
  apply hfips.deleteInterfaceRows
  intro r hr i hi hsubnet howns
  have := hfips.subnet_eq hr hi howns
  rw [beq_iff_eq.mp hsubnet] at this
  exact subnetID_ne_of_mem_dropFips hr this.symm

end Delete

end NetDB

open NetDB

inductive SubnetOp where
  | create (subnetID : Nat) (addrs : List Cidr)
  | delete (subnet : Subnet)
  | createInterface (subnet : Subnet) (ID : Nat) (address : IpArg) (ifaceName : String) (ifType : IfType)
  | deleteInterfaces (masterID subnetID : Nat) (ifType : IfType)
  | deleteInterface (ifaceID : Nat)
  | clearVM (instID : Nat)
  | detachInterface (instID ifaceID : Nat)
  | request (req : NetRequest)

namespace SubnetOp

def exec (db : NetDB) : SubnetOp → Option NetDB
  | create subnetID addrs => some (db.createAddresses subnetID addrs)
  | delete subnet => db.deleteSubnet subnet
  | createInterface subnet ID address ifaceName ifType =>
    match db.createInterface subnet ID address ifaceName ifType with
    | (db, some _) => some db
    | (_, none) => none
  | deleteInterfaces masterID subnetID ifType => some (db.deleteInterfaces masterID subnetID ifType)
  | deleteInterface ifaceID => some (db.deleteInterface ifaceID)
  | clearVM instID => some (db.clearVM instID)
  | detachInterface instID ifaceID => db.detachInterface instID ifaceID
  | request req => req.exec db

def Step (db : NetDB) (op : SubnetOp) (db' : NetDB) : Prop := op.exec db = some db'

variable {db db' : NetDB} {subnet : Subnet}

theorem placed_createAddresses (h : Placed db) (subnetID : Nat) (addrs : List Cidr)
    : Placed (db.createAddresses subnetID addrs) := by
  induction addrs generalizing db with
  | nil => exact h
  | cons address addrs ih =>
    apply ih
    refine ⟨?_, h.fips⟩
    intro r hr hne
    obtain hr | hr := mem_insert.mp hr
    . exact h.rows r hr hne
    . exact absurd (hr ▸ rfl) hne

theorem placed_step (h : Placed db) (hstep : Step db op db') : Placed db' := by
  cases op with
  | create subnetID addrs =>
    cases hstep
    exact placed_createAddresses h subnetID addrs
  | delete => exact h.deleteSubnet hstep
  | createInterface =>
    rw [Step, exec] at hstep
    split at hstep
    . next hcreate =>
      cases hstep
      exact h.createInterface hcreate
    . contradiction
  | deleteInterfaces masterID subnetID ifType =>
    cases hstep
    exact h.deleteInterfaces masterID subnetID ifType
  | deleteInterface ifaceID =>
    cases hstep
    exact h.deleteInterface ifaceID
  | clearVM instID =>
    cases hstep
    exact h.clearVM instID
  | detachInterface => exact h.detachInterface hstep
  | request => exact h.request hstep

def start : NetDB := ⟨.empty, .empty, .empty⟩

theorem placed_start : Placed start :=
  ⟨fun _ hr => absurd hr List.not_mem_nil, fun _ hi => absurd hi List.not_mem_nil⟩

theorem deleted_addresses_unowned {ops : List SubnetOp} (hrun : Run Step start ops db) (hsite : subnet.type ≠ .site)
    (hdelete : db.deleteSubnet subnet = some db')
    : (∀ r ∈ db.addresses, r.subnetID = subnet.id → ∀ i ∈ db.interfaces, r.interface = i.id →
        i.subnet = subnet.id ∧ (i.type = .dhcp ∨ i.type = .gateway)) ∧
      (∀ f ∈ db.floatingIps, ∀ i ∈ db.interfaces, i.floatingIp = f.id → ∀ r ∈ db.addresses, r.interface = i.id →
        r.subnetID ≠ subnet.id) ∧
      (∀ i ∈ db'.interfaces, i.subnet ≠ subnet.id ∧
        ∀ r ∈ db.addresses, r.subnetID = subnet.id → r.interface ≠ i.id) ∧
      ∀ f ∈ db'.floatingIps, f.subnetID ≠ subnet.id := by
  have h := hrun.invariant Placed (fun _ _ _ => placed_step) placed_start
  have ⟨hdb, hused⟩ := deleteSubnet_eq_some hdelete
  have hleft := left_foldl (db.dropAddresses subnet) (db.floatingIps.filter (fun f => f.subnetID == subnet.id))
  have howner : ∀ r ∈ db.addresses, r.subnetID = subnet.id → ∀ i ∈ db.interfaces, r.interface = i.id →
      i.subnet = subnet.id ∧ (i.type = .dhcp ∨ i.type = .gateway) := by
    intro r hr hsubnet i hi howns
    have heq := (h.subnet_eq hr hi howns).trans hsubnet
    exact ⟨heq, hused hsite i hi heq⟩
  refine ⟨howner, ?_, ?_, ?_⟩
  . intro f hf i hi hfip r hr howns hsubnet
    have hpos := Nat.pos_iff_ne_zero.mp (db.floatingIps.bounds f hf).1
    have htype := h.fips i hi (hfip ▸ hpos)
    obtain hdhcp | hgateway := (howner r hr hsubnet i hi howns).2
    . simp [hdhcp] at htype
    . simp [hgateway] at htype
  . intro i hi
    rw [hdb] at hi
    have ⟨hmem, hne⟩ := mem_delete.mp hi
    have hne : i.subnet ≠ subnet.id := by simpa using hne
    refine ⟨hne, ?_⟩
    intro r hr hsubnet howns
    exact hne (howner r hr hsubnet i (hleft.interfaces i hmem) howns).1
  . intro f hf hsubnet
    rw [hdb] at hf
    have ⟨hmem, hne⟩ := hleft.floatingIps f hf
    apply hne
    apply List.mem_map_of_mem
    rw [mem_filter]
    exact ⟨hmem, beq_iff_eq.mpr hsubnet⟩

def vpcNet : Subnet := ⟨1, ⟨1, 24⟩, 24, 5, .internal⟩

def createVpcNet : List SubnetOp :=
  [.create 1 [⟨2, 24⟩, ⟨1, 24⟩], .createInterface vpcNet 5 (.cidr ⟨1, 24⟩) "subnet-gw" .gateway]

def vpc : NetDB := (createVpcNet.foldlM exec start).get (by decide +kernel)

theorem run_createVpcNet : Run Step start createVpcNet vpc :=
  Run.of_foldlM (some_get _).symm

theorem deleted_addresses_unowned_vpc
    : ∃ db', vpc.deleteSubnet vpcNet = some db' ∧ ∀ i ∈ db'.interfaces, i.subnet ≠ 1 := by
  have ⟨db', hdelete⟩ := isSome_iff_exists.mp (show (vpc.deleteSubnet vpcNet).isSome by decide +kernel)
  have h := deleted_addresses_unowned run_createVpcNet (by decide) hdelete
  exact ⟨db', hdelete, fun i hi => (h.2.2.1 i hi).1⟩

theorem gateway_owned_when_deleted
    : ∃ db, Run Step start createVpcNet db ∧ (db.deleteSubnet vpcNet).isSome ∧
        ∃ r ∈ db.addresses, r.subnetID = vpcNet.id ∧ ∃ i ∈ db.interfaces, r.interface = i.id :=
  ⟨vpc, run_createVpcNet, by decide +kernel, by decide +kernel⟩

-- an instance whose second address is from another subnet than its interface keeps that subnet from nothing
example : ([.create 1 [⟨2, 24⟩, ⟨1, 24⟩], .create 2 [⟨102, 24⟩, ⟨101, 24⟩],
      .request (.createVMInterface ⟨7, 5, false, none⟩ [] [vpcNet, { vpcNet with id := 2, gateway := ⟨101, 24⟩ }]
        .empty 2 "eth0")].foldlM exec start).any
    (fun db => db.addresses.rows.any (fun r => r.subnetID = 2 && r.secondInterface = 1) &&
      (db.deleteSubnet { vpcNet with id := 2, gateway := ⟨101, 24⟩ }).any
        (fun db => db.interfaces.rows.any (fun i => i.id = 1))) := by
  decide +kernel

end SubnetOp
end Web
