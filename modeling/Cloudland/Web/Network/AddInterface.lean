import Cloudland.Web.Network.Names
import Cloudland.Web.Network.Ownership

/-!
`InterfaceAPI.Create`, from the payload of the request to the rows.
-/

namespace Web

open List Option Table

structure InterfacePayload where
  ipAddress : IpArg
  macAddress : Option String
  count : Nat
  subnets : List Subnet

inductive MacText where
  | mac (mac : String)
  | ip (ipAddress : IpArg)
  deriving DecidableEq

def IpArg.Is (ipAddress : IpArg) (address : Cidr) : Prop :=
  match ipAddress with
  | .empty => True
  | .host ip => address.ip = ip
  | .cidr c => address = c

instance : Decidable (IpArg.Is ipAddress address) := by
  unfold IpArg.Is
  split <;> infer_instance

namespace NetDB

/--
`InterfaceAdmin.Create`, with the MAC of the interface. An address that is none stands for a text that is the address of
no row. The number of second addresses is not looked at.
-/
def interfaceAdminCreate (db : NetDB) (vlan : Nat → Nat) (inst : Instance) (address : Option IpArg)
    (mac : Option MacText) (generated : String) (subnets : List Subnet) (_secondAddrsCount : Nat) (applied : Bool)
    : Option (NetDB × MacText) := do
  let address ← address
  let db ← db.createInterfaceOf vlan inst subnets address applied
  return (db, mac.getD (.mac generated))

-- the MAC of the payload is passed for the address, and its address for the MAC
def interfaceAPICreate (db : NetDB) (vlan : Nat → Nat) (inst : Instance) (payload : InterfacePayload)
    (generated : String) (applied : Bool)
    : Option (NetDB × MacText) :=
  db.interfaceAdminCreate vlan inst
    (if payload.macAddress.isSome then none else some .empty)
    (if payload.ipAddress = .empty then none else some (.ip payload.ipAddress))
    generated payload.subnets (payload.count - 1) applied

def addressesOf (db : NetDB) (ifaceID : Nat) : List Address :=
  db.addresses.filter (fun r => r.interface == ifaceID || r.secondInterface == ifaceID)

theorem mem_addressesOf {db : NetDB} {r : Address}
    : r ∈ db.addressesOf ifaceID ↔ r ∈ db.addresses ∧ (r.interface = ifaceID ∨ r.secondInterface = ifaceID) := by
  simp [addressesOf, Table.mem_filter]

structure Honoured (db : NetDB) (payload : InterfacePayload) (iface : Interface) (db' : NetDB) (mac : MacText)
    : Prop where
  interfaces : ∀ i, i ∈ db'.interfaces ↔ i ∈ db.interfaces ∨ i = iface
  address : ∃ r ∈ db'.addresses, r.interface = iface.id ∧ payload.ipAddress.Is r.address ∧
    ∃ subnet ∈ payload.subnets, r.subnetID = subnet.id
  mac : ∀ m ∈ payload.macAddress, mac = .mac m
  count : (db'.addressesOf iface.id).length = payload.count
  others : ∀ r, r ∉ db'.addressesOf iface.id → r ∈ db'.addresses → r ∈ db.addresses

def firstFree (db : NetDB) (subnets : List Subnet) : Option Address :=
  subnets.findSome? (fun subnet => db.addresses.find? (available subnet .empty))

section Spec

variable {db db' : NetDB} {inst : Instance} {subnet : Subnet} {subnets : List Subnet} {ifname : String}
  {row : Address} {iface : Interface}

structure NicPlaced (db : NetDB) (inst : Instance) (row : Address) (iface : Interface) (db' : NetDB) : Prop where
  fresh : db.interfaces.next ≤ iface.id
  inst : iface.inst = inst.id
  interfaces : ∀ i, i ∈ db'.interfaces ↔ i ∈ db.interfaces ∨ i = iface
  addresses : db'.addresses.rows =
    db.addresses.rows.map (fun r => if r.id = row.id then booked iface.id .native r else r)

theorem allocateAddress_native (h : db.allocateAddress subnet ifaceID .empty .native = some (db', addr))
    : ∃ row, db.addresses.find? (available subnet .empty) = some row ∧ db'.interfaces = db.interfaces ∧
        db'.addresses.rows
          = db.addresses.rows.map (fun r => if r.id = row.id then booked ifaceID .native r else r) := by
  simp only [allocateAddress, Option.bind_eq_bind, Option.bind_eq_some_iff, Option.pure_def, Option.some.injEq,
    Prod.mk.injEq] at h
  obtain ⟨row, hfind, hdb, _⟩ := h
  refine ⟨row, hfind, by rw [← hdb]; rfl, ?_⟩
  rw [← hdb]
  apply List.map_congr_left
  intro r hr
  simp only [booked_id, beq_iff_eq]
  split
  . next hid =>
    rw [show r = row from eq_of_key hr (find?_eq_some hfind).1 hid]
    rfl
  . rfl

theorem createInterface_placed
    (h : db.createInterface subnet inst.id .empty ifname .vm = (db', some res))
    : ∃ row, db.addresses.find? (available subnet .empty) = some row ∧ NicPlaced db inst row res.row db' := by
  simp only [createInterface] at h
  split at h
  . next halloc =>
    cases h
    obtain ⟨row, hfind, hifaces, hrows⟩ := allocateAddress_native halloc
    refine ⟨row, hfind, Nat.le_refl _, by simp [newInterface], ?_, hrows⟩
    intro i
    rw [hifaces]
    exact mem_insert
  . simp at h

theorem createInterface_none (h : db.createInterface subnet inst.id .empty ifname .vm = (db', none))
    : db.addresses.find? (available subnet .empty) = none ∧ db.interfaces.next ≤ db'.interfaces.next := by
  simp only [createInterface] at h
  split at h
  . simp at h
  . next halloc =>
    cases h
    constructor
    . cases hfind : db.addresses.find? (available subnet .empty) with
      | none => rfl
      | some row => simp [allocateAddress, hfind] at halloc
    . exact Nat.le_succ _

theorem createInstanceInterface_placed
    (h : db.createInstanceInterface refused inst subnets .empty ifname = some (db', res))
    : ∃ row, db.firstFree subnets = some row ∧ (∃ subnet ∈ subnets, row.subnetID = subnet.id) ∧ row ∈ db.addresses ∧
        NicPlaced db inst row res.row db' := by
  induction subnets generalizing db with
  | nil => contradiction
  | cons subnet subnets ih =>
    rw [createInstanceInterface] at h
    split at h
    . contradiction
    . split at h
      . next hcreate =>
        obtain ⟨row, hfind, hplaced⟩ := createInterface_placed hcreate
        obtain ⟨hmem, havailable⟩ := find?_eq_some hfind
        refine ⟨row, by rw [firstFree, findSome?_cons, hfind], ⟨subnet, mem_cons_self, ?_⟩, hmem, ?_⟩
        . exact (available_eq_true havailable).1
        . split at h
          . cases h
            exact ⟨hplaced.fresh, hplaced.inst, hplaced.interfaces, hplaced.addresses⟩
          . cases h
            exact hplaced
      . next db₁ hcreate =>
        obtain ⟨hnone, hnext⟩ := createInterface_none hcreate
        obtain ⟨haddresses, hifaces⟩ : db₁.addresses = db.addresses ∧ ∀ i, i ∈ db₁.interfaces ↔ i ∈ db.interfaces := by
          obtain ⟨_, _, _, hres, _⟩ | hnone := createInterface_cases hcreate
          . contradiction
          . exact ⟨hnone.2.1, hnone.2.2.2⟩
        obtain ⟨row, hfirst, ⟨subnet', hsubnet, hid⟩, hmem, hplaced⟩ := ih h
        rw [firstFree, haddresses] at hfirst
        refine ⟨row, ?_, ⟨subnet', mem_cons_of_mem _ hsubnet, hid⟩, haddresses ▸ hmem, ?_⟩
        . rw [firstFree, findSome?_cons, hnone]
          exact hfirst
        . refine ⟨Nat.le_trans hnext hplaced.fresh, hplaced.inst, ?_, haddresses ▸ hplaced.addresses⟩
          intro i
          rw [hplaced.interfaces, hifaces]

theorem createInterfaceOf_placed (h : db.createInterfaceOf vlan inst subnets .empty applied = some db')
    : ∃ iface row, db.firstFree subnets = some row ∧ (∃ subnet ∈ subnets, row.subnetID = subnet.id) ∧
        row ∈ db.addresses ∧ NicPlaced db inst row iface db' := by
  unfold createInterfaceOf at h
  dsimp only at h
  split at h
  . contradiction
  . split at h
    . contradiction
    . split at h
      . contradiction
      . simp only [createNic, Option.bind_eq_bind, Option.bind_eq_some_iff, Option.pure_def, Option.some.injEq] at h
        obtain ⟨_, ⟨res, hres, heq⟩, hlast⟩ := h
        split at hlast
        . rw [← Option.some.inj hlast, ← heq]
          exact ⟨res.2.row, createInstanceInterface_placed hres⟩
        . contradiction

theorem NicPlaced.addressesOf (h : NicPlaced db inst row iface db') (hrow : row ∈ db.addresses)
    (hrefs : ∀ r ∈ db.addresses, r.interface < db.interfaces.next ∧ r.secondInterface < db.interfaces.next)
    : db'.addressesOf iface.id = [booked iface.id .native row] := by
  have hfresh := h.fresh
  have hother : ∀ r ∈ db.addresses.rows, (r.interface == iface.id || r.secondInterface == iface.id) = false := by
    intro r hr
    have := hrefs r hr
    simp only [Bool.or_eq_false_iff, beq_eq_false_iff_ne]
    omega
  have hkey : db.addresses.filter (fun r => r.id == row.id) = [row] := filter_key hrow
  rw [NetDB.addressesOf, Table.filter, h.addresses, List.filter_map,
    List.filter_congr (q := fun r => r.id == row.id) (fun r hr => ?_)]
  . show List.map _ (db.addresses.filter _) = _
    rw [hkey]
    simp
  . simp only [Function.comp_apply]
    split
    . next hid => simp [hid, booked]
    . next hid => simp [hid, hother r hr]

end Spec

theorem interfaceAPICreate_honoured {db db' : NetDB} {vlan : Nat → Nat} {inst : Instance} {payload : InterfacePayload}
    {generated : String} {applied : Bool} {mac : MacText}
    (hrefs : ∀ r ∈ db.addresses, r.interface < db.interfaces.next ∧ r.secondInterface < db.interfaces.next)
    (h : db.interfaceAPICreate vlan inst payload generated applied = some (db', mac))
    : (∃ iface, iface ∉ db.interfaces ∧ iface.inst = inst.id ∧ Honoured db payload iface db' mac)
        ↔
      payload.count = 1 ∧ ∀ row ∈ db.firstFree payload.subnets, payload.ipAddress.Is row.address := by
  simp only [interfaceAPICreate, interfaceAdminCreate, Option.bind_eq_bind, Option.bind_eq_some_iff, Option.pure_def,
    Option.some.injEq, Prod.mk.injEq] at h
  have ⟨address, haddress, _, hcreate, hdb, _⟩ := h
  have ⟨hmac, hempty⟩ : payload.macAddress = none ∧ address = .empty := by
    cases hmac : payload.macAddress with
    | none => simpa [hmac, eq_comm] using haddress
    | some _ => simp [hmac] at haddress
  subst hempty hdb
  have ⟨iface, row, hfirst, hsubnet, hrow, hplaced⟩ := createInterfaceOf_placed hcreate
  have hof := hplaced.addressesOf hrow hrefs
  have hmem := hof ▸ mem_singleton_self _
  simp only [hfirst, mem_def, some.injEq, forall_eq']
  constructor
  . intro ⟨iface', hnew, _, hhonoured⟩
    have hsame :=
      ((hplaced.interfaces iface').mp ((hhonoured.interfaces iface').mpr (.inr rfl))).resolve_left hnew
    subst hsame
    have hcount := hhonoured.count
    rw [hof] at hcount
    have ⟨r, hr, hid, his, _⟩ := hhonoured.address
    have hr := mem_addressesOf.mpr ⟨hr, .inl hid⟩
    rw [hof, mem_singleton] at hr
    rw [hr] at his
    exact ⟨hcount.symm, his⟩
  . intro ⟨hcount, his⟩
    refine ⟨iface, ?_, hplaced.inst, hplaced.interfaces, ?_, by simp [hmac], by rw [hof, hcount]; rfl, ?_⟩
    . intro hin
      exact absurd (db.interfaces.bounds _ hin).2 (Nat.not_lt.mpr hplaced.fresh)
    . exact ⟨_, (mem_addressesOf.mp hmem).1, rfl, his, hsubnet⟩
    . intro r hnot hr
      rw [hof, mem_singleton] at hnot
      rw [Table.mem_def, hplaced.addresses] at hr
      have ⟨r0, hr0, heq⟩ := mem_map.mp hr
      split at heq
      . next hid => exact absurd (by rw [← heq, show r0 = row from eq_of_key hr0 hrow hid]) hnot
      . exact heq ▸ hr0

def freeSubnet : Subnet := ⟨1, ⟨1, 24⟩, 24, 0, .internal⟩

def freeRows : NetDB where
  addresses := [2, 3].foldl (fun t ip => t.insert ⟨0, ⟨ip, 24⟩, .ipv4, false, false, 1, 0, 0⟩) .empty
  interfaces := .empty
  floatingIps := .empty

def addTo (payload : InterfacePayload) : Option (NetDB × MacText) :=
  freeRows.interfaceAPICreate id ⟨1, 0, false, none⟩ payload "52:54:00:00:00:01" true

def plain : InterfacePayload := ⟨.empty, none, 1, [freeSubnet]⟩

def atThree : InterfacePayload := ⟨.host 3, none, 1, [freeSubnet]⟩

def twice : InterfacePayload := ⟨.empty, none, 2, [freeSubnet]⟩

theorem interfaceAPICreate_honoured_plain
    : ∃ db' mac, addTo plain = some (db', mac) ∧
        ∃ iface, iface ∉ freeRows.interfaces ∧ iface.inst = 1 ∧ Honoured freeRows plain iface db' mac :=
  have ⟨res, heq⟩ := isSome_iff_exists.mp (show (addTo plain).isSome = true by decide +kernel)
  ⟨res.1, res.2, heq, (interfaceAPICreate_honoured (by decide) heq).mpr ⟨rfl, by decide⟩⟩

theorem addTo_first
    : ∀ payload ∈ [atThree, twice], ∀ res ∈ addTo payload, ∀ iface ∈ res.1.interfaces.rows,
        (res.1.addressesOf iface.id).map (·.address.ip) = [2] := by
  decide +kernel

theorem interfaceAPICreate_not_honoured
    : (∃ res, addTo atThree = some res ∧ res.2 = .ip (.host 3) ∧
        ∀ iface, ¬Honoured freeRows atThree iface res.1 res.2) ∧
      ∃ res, addTo twice = some res ∧ ∀ iface, ¬Honoured freeRows twice iface res.1 res.2 := by
  refine ⟨⟨_, rfl, rfl, ?_⟩, ⟨_, rfl, ?_⟩⟩
  . intro iface hhonoured
    have hfirst := addTo_first atThree (by simp) _ rfl iface ((hhonoured.interfaces iface).mpr (.inr rfl))
    have ⟨r, hr, hid, his, _⟩ := hhonoured.address
    have hmem := mem_map_of_mem (f := (·.address.ip)) (mem_addressesOf.mpr ⟨hr, .inl hid⟩)
    rw [hfirst, mem_singleton] at hmem
    exact absurd (hmem.symm.trans his) (by decide)
  . intro iface hhonoured
    have hfirst := addTo_first twice (by simp) _ rfl iface ((hhonoured.interfaces iface).mpr (.inr rfl))
    have hcount := hhonoured.count
    rw [← length_map (·.address.ip), hfirst] at hcount
    exact absurd hcount (by decide)

end NetDB
end Web
