import Cloudland.Lib.Run
import Cloudland.Web.Network.Rules
import Std.Data.String.ToNat

/-!
The interfaces of one instance and their names (`routes/instance.go`, `routes/interface.go`,
`rpcs/detach_vm_nic.go`).
-/

namespace Web

open Option Table Bool

structure InterfaceInfo where
  publicIps : List LoadedFip
  subnets : List Subnet
  siteSubnets : List Subnet
  address : IpArg
  count : Nat

/--
The form and the API both fill a secondary interface either from public IPs or from subnets, and never from both.
-/
structure SecondaryInfo extends InterfaceInfo where
  exclusive : publicIps = [] ∨ subnets = []

namespace NetDB

def ethName (n : Nat) : String := "eth" ++ Nat.repr n

def nics (db : NetDB) (instID : Nat) : List Interface := db.interfaces.filter (fun r => r.inst == instID)

def names (db : NetDB) (instID : Nat) : List String := (db.nics instID).map Interface.name

section Checks

variable (vlan : Nat → Nat)

/--
The vlan of the subnets, which is still open as long as it is zero.
-/
def sameVlan : Nat → List Subnet → Bool
  | _, [] => true
  | current, subnet :: subnets =>
    if current = 0 then sameVlan (vlan subnet.id) subnets
    else current = vlan subnet.id && sameVlan current subnets

def checkSubnets (subnets : List Subnet) (current : Nat) : Bool := !subnets.isEmpty && sameVlan vlan current subnets

def firstVlan (subnets : List Subnet) : Nat := (subnets.head?.map (fun subnet => vlan subnet.id)).getD 0

def checkIfaceSubnets (primary : InterfaceInfo) (secondary : List InterfaceInfo) : Bool :=
  let checkVlan := firstVlan vlan primary.subnets
  (primary.subnets.isEmpty || checkSubnets vlan primary.subnets 0)
    && (primary.siteSubnets.isEmpty || checkSubnets vlan primary.siteSubnets checkVlan)
    && secondary.all (fun iface => checkSubnets vlan iface.subnets 0 && firstVlan vlan iface.subnets != checkVlan)
    && decide (secondary.map (fun iface => firstVlan vlan iface.subnets)).Nodup

def vlanOf (db : NetDB) (iface : Interface) : Option Nat :=
  (db.addresses.find? (fun r => r.interface == iface.id)).map (fun r => vlan r.subnetID)

def createInterfaceOf (db : NetDB) (inst : Instance) (subnets : List Subnet) (address : IpArg) (applied : Bool)
    : Option NetDB :=
  let interfaces := db.nics inst.id
  if 8 ≤ interfaces.length then
    none
  else if !checkSubnets vlan subnets 0 then
    none
  else if !interfaces.all (fun iface => (db.vlanOf vlan iface).any (· != firstVlan vlan subnets)) then
    none
  else do
    let db ← db.createNic inst subnets address (ethName interfaces.length)
    if applied then some db else none

def deleteNic (db : NetDB) (instID ifaceID : Nat) : Option NetDB := do
  let iface ← db.interfaces.byKey? ifaceID
  if iface.primaryIf then none else db.detachInterface instID ifaceID

end Checks

def createInfo (db : NetDB) (inst : Instance) (info : InterfaceInfo) (ifname : String) : Option NetDB :=
  db.createVMInterface inst info.publicIps info.subnets info.address info.count ifname

def createSecondary (db : NetDB) (inst : Instance) : Nat → List InterfaceInfo → Option NetDB
  | _, [] => some db
  | i, info :: infos => do
    let db ← db.createInfo inst info (ethName i)
    db.createSecondary inst (i + 1) infos

def buildMetadata (db : NetDB) (inst : Instance) (primary : InterfaceInfo) (secondary : List InterfaceInfo)
    : Option NetDB := do
  let db ← db.createInfo inst primary "eth0"
  db.createSecondary inst 1 secondary

def createInstance (db : NetDB) (vlan : Nat → Nat) (inst : Instance) (primary : InterfaceInfo)
    (secondary : List SecondaryInfo) : Option NetDB :=
  let secondary := secondary.map SecondaryInfo.toInterfaceInfo
  if checkIfaceSubnets vlan primary secondary then db.buildMetadata inst primary secondary else none

section Effects

variable {db db' : NetDB} {subnet : Subnet} {subnets : List Subnet} {address : IpArg} {ifname : String}
  {inst : Instance} {instID : Nat}

theorem interfaces_allocateAddress (h : db.allocateAddress subnet ifaceID address addrType = some (db', addr))
    : db'.interfaces = db.interfaces := by
  simp only [allocateAddress, bind_eq_bind, bind_eq_some_iff, pure_def, some.injEq,
    Prod.mk.injEq] at h
  obtain ⟨_, _, rfl, _⟩ := h
  rfl

theorem nics_of_interfaces (h : db'.interfaces = db.interfaces) : db'.nics instID = db.nics instID := by
  rw [nics, nics, h]

theorem nics_createInterface
    (h : db.createInterface subnet instID address ifname .vm = (db', iface))
    : db'.nics instID = db.nics instID ++ iface.toList.map LoadedInterface.row ∧
        ∀ i ∈ iface, i.row.name = ifname := by
  rw [createInterface] at h
  split at h
  . next db₁ addr halloc =>
    have hifaces := interfaces_allocateAddress halloc
    rw [Prod.mk.injEq] at h
    rw [← h.1, ← h.2, nics, hifaces]
    simp [nics, Table.filter, Table.insert, newInterface, Keyed.setKey]
  . rw [Prod.mk.injEq] at h
    rw [← h.1, ← h.2]
    have hrows := @Table.rows_delete_insert _ _ db.interfaces
      { newInterface subnet instID ifname .vm with id := db.interfaces.next }
    refine ⟨?_, by simp⟩
    rw [toList_none, List.map_nil, List.append_nil]
    exact congrArg (List.filter (fun r => r.inst == instID)) hrows

theorem nics_createInstanceInterface
    (h : db.createInstanceInterface refused inst subnets address ifname = some (db', iface))
    : db'.nics inst.id = db.nics inst.id ++ [iface.row] ∧ iface.row.name = ifname := by
  have hnone : ∀ {d d' : NetDB} {subnet}, d.nics inst.id = db.nics inst.id →
      d.createInterface subnet inst.id address ifname .vm = (d', none) → d'.nics inst.id = db.nics inst.id := by
    intro d d' subnet hd hcreate
    rw [(nics_createInterface hcreate).1, hd, toList_none, List.map_nil, List.append_nil]
  obtain ⟨_, _, db₁, db₂, hsame, hcreate, hdb⟩ := createInstanceInterface_keeps hnone rfl h
  obtain ⟨hnics, hname⟩ := nics_createInterface hcreate
  refine ⟨?_, hname iface rfl⟩
  rw [← hsame]
  split at hdb <;> exact hdb ▸ hnics

theorem interfaces_allocateSecondAddresses
    (h : db.allocateSecondAddresses inst ifaceID subnets count = some db')
    : db'.interfaces = db.interfaces := by
  refine allocateSecondAddresses_keeps (P := fun d => d.interfaces = db.interfaces) ?_ rfl h
  intro subnet _ d d' row h halloc
  rw [← h, ← interfaces_allocateAddress halloc]
  split <;> rfl

theorem interfaces_derive_loop
    (h : derivePublicInterface.loop inst true primaryID primaryAddress false db fips = some db')
    : db'.interfaces = db.interfaces := by
  induction fips generalizing db with
  | nil =>
    rw [← some.inj h]
  | cons fip fips ih =>
    simp only [derivePublicInterface.loop, Bool.not_true, Bool.false_and, Bool.false_eq_true, if_false] at h
    split at h
    . contradiction
    . rw [ih h]
      rfl

theorem names_derivePublicInterface (h : db.derivePublicInterface inst none fips = some (db', primaryID))
    (hfips : ∀ fip ∈ fips, fip.interface ∈ db.interfaces) (hnew : db.nics inst.id = [])
    : db'.names inst.id = ["eth0"] := by
  cases fips with
  | nil => contradiction
  | cons fip fips =>
    have hmem := hfips fip List.mem_cons_self
    have hifaces : db'.interfaces = db.interfaces.update (fun r => r.id == fip.interface.id)
        (fun r => { r with inst := inst.id, name := "eth0", primaryIf := true }) := by
      simp only [derivePublicInterface, derivePublicInterface.primaryIface, bind_eq_bind, bind_some,
        isNone_none, bind_eq_some_iff, pure_def, some.injEq, Prod.mk.injEq] at h
      have ⟨db₁, hloop, hdb, _⟩ := h
      simp only [derivePublicInterface.loop, Bool.not_true, Bool.false_and, Bool.false_eq_true, if_false,
        if_true] at hloop
      split at hloop
      . contradiction
      . rw [← hdb, interfaces_derive_loop hloop]
        rfl
    have hother : ∀ r ∈ db.interfaces, ¬r.inst = inst.id := by
      intro r hr heq
      have : r ∈ db.nics inst.id := mem_filter.mpr ⟨hr, by simpa using heq⟩
      rw [hnew] at this
      contradiction
    have hkey : db.interfaces.rows.filter (fun r => r.id == fip.interface.id) = [fip.interface] :=
      filter_key hmem
    rw [names, nics, hifaces]
    show List.map Interface.name (List.filter _ (List.map _ _)) = _
    rw [List.filter_map, List.filter_congr (q := fun r => r.id == fip.interface.id), hkey]
    . simp [Keyed.setKey]
    . intro r hr
      by_cases hid : r.id = fip.interface.id
      . simp [hid, Keyed.setKey]
      . simp [hid, hother r hr]

theorem names_createInfo (h : db.createInfo inst info ifname = some db')
    (hpublic : info.publicIps = [])
    : db'.names inst.id = db.names inst.id ++ [ifname] := by
  simp only [createInfo, createVMInterface, hpublic, List.isEmpty_nil, if_true, bind_eq_bind,
    bind_eq_some_iff] at h
  have ⟨res, hcreate, hsecond⟩ := h
  have ⟨hnics, hname⟩ := nics_createInstanceInterface hcreate
  rw [names, nics_of_interfaces (interfaces_allocateSecondAddresses hsecond), hnics, List.map_append,
    List.map_singleton, hname, names]

theorem names_createPrimary (h : db.createInfo inst info "eth0" = some db')
    (hloaded : ∀ fip ∈ info.publicIps, fip.interface ∈ db.interfaces) (hnew : db.nics inst.id = [])
    : db'.names inst.id = ["eth0"] := by
  by_cases hpublic : info.publicIps = []
  . rw [names_createInfo h hpublic, names, hnew]
    rfl
  . have hempty : ¬info.publicIps.isEmpty := by simpa using hpublic
    simp only [createInfo, createVMInterface, hempty, if_false, bind_eq_bind, bind_eq_some_iff,
      pure_def, some.injEq, false_eq_true] at h
    obtain ⟨⟨_, primaryID⟩, hderive, rfl⟩ := h
    exact names_derivePublicInterface hderive hloaded hnew

theorem names_createSecondary (h : db.createSecondary inst i infos = some db')
    (hpublic : ∀ info ∈ infos, info.publicIps = [])
    : db'.names inst.id = db.names inst.id ++ (List.range' i infos.length).map ethName := by
  induction infos generalizing db i with
  | nil =>
    rw [← some.inj h]
    simp
  | cons info infos ih =>
    have ⟨db₁, hfirst, hrest⟩ := bind_eq_some_iff.mp h
    have ⟨hinfo, hinfos⟩ := List.forall_mem_cons.mp hpublic
    rw [ih hrest hinfos, names_createInfo hfirst hinfo, List.length_cons, List.range'_succ, List.map_cons,
      List.append_assoc, List.singleton_append]

theorem names_createInstance
    (h : db.createInstance vlan inst primary secondary = some db')
    (hloaded : ∀ fip ∈ primary.publicIps, fip.interface ∈ db.interfaces) (hnew : db.nics inst.id = [])
    : db'.names inst.id = (List.range (secondary.length + 1)).map ethName := by
  rw [createInstance] at h
  split at h
  . next hcheck =>
    have hpublic : ∀ info ∈ secondary.map SecondaryInfo.toInterfaceInfo, info.publicIps = [] := by
      simp only [checkIfaceSubnets, and_eq_true, List.all_eq_true, checkSubnets, not_eq_true',
        List.isEmpty_eq_false_iff, List.forall_mem_map] at hcheck ⊢
      intro info hinfo
      exact info.exclusive.resolve_right (hcheck.1.2 info hinfo).1.1
    have ⟨db₁, hprimary, hsecondary⟩ := bind_eq_some_iff.mp h
    rw [names_createSecondary hsecondary hpublic, names_createPrimary hprimary hloaded hnew, List.range_eq_range',
      List.range'_succ, List.length_map]
    rfl
  . contradiction

theorem names_createInterfaceOf
    (h : db.createInterfaceOf vlan inst subnets address applied = some db')
    : (db.names inst.id).length < 8 ∧
        db'.names inst.id = db.names inst.id ++ [ethName (db.names inst.id).length] := by
  rw [createInterfaceOf] at h
  split at h
  . contradiction
  . next hlen =>
    split at h
    . contradiction
    . split at h
      . contradiction
      . simp only [createNic, bind_eq_bind, bind_eq_some_iff, pure_def, some.injEq] at h
        have ⟨db₁, ⟨res, hcreate, hres⟩, happlied⟩ := h
        have ⟨hnics, hname⟩ := nics_createInstanceInterface hcreate
        have hdb : res.1 = db' := by
          rw [hres]
          split at happlied
          . exact some.inj happlied
          . contradiction
        rw [← hdb, names, List.length_map]
        exact ⟨Nat.not_le.mp hlen, by rw [names, hnics, List.map_append, List.map_singleton, hname]⟩

theorem nics_deleteNic (h : db.deleteNic instID ifaceID = some db') (hid : instID ≠ 0)
    : db'.nics instID = (db.nics instID).filter (fun r => r.id != ifaceID) := by
  simp only [deleteNic, detachInterface, bind_eq_bind, bind_eq_some_iff, pure_def] at h
  have ⟨_, _, h⟩ := h
  split at h
  . contradiction
  . simp only [bind_eq_some_iff, some.injEq] at h
    have ⟨iface, hfind, hdb⟩ := h
    have hiface : iface.id = ifaceID := by
      have := (find?_eq_some hfind).2
      simp only [and_eq_true, beq_iff_eq] at this
      exact this.1
    rw [← hdb, clearInterface, nics, nics]
    split
    . show List.filter _ (List.filter _ _) = List.filter _ (List.filter _ _)
      rw [hiface, List.filter_filter, List.filter_filter]
      congr 1
      funext r
      exact and_comm _ _
    . rw [← hiface]
      refine filter_update_of_false ?_
      intro r _
      simp [Keyed.setKey, Ne.symm hid]

end Effects

end NetDB

inductive NicRequest where
  | create (inst : Instance) (subnets : List Subnet) (address : IpArg) (applied : Bool)
  | delete (ifaceID : Nat)

namespace NicRequest

open NetDB

def exec (vlan : Nat → Nat) (instID : Nat) (db : NetDB) : NicRequest → Option NetDB
  | create inst subnets address applied => db.createInterfaceOf vlan { inst with id := instID } subnets address applied
  | delete ifaceID => db.deleteNic instID ifaceID

def step (vlan : Nat → Nat) (instID : Nat) (db : NetDB) (req : NicRequest) : NetDB :=
  (req.exec vlan instID db).getD db

def Named (instID : Nat) (db : NetDB) : Prop := (db.names instID).Nodup ∧ (db.names instID).length ≤ 8

def Fresh (vlan : Nat → Nat) (instID : Nat) (db : NetDB) (req : NicRequest) : Prop :=
  match req with
  | create .. => (req.exec vlan instID db).isSome → ethName (db.names instID).length ∉ db.names instID
  | delete _ => True

variable {vlan : Nat → Nat} {instID : Nat} {db : NetDB}

theorem ethName_injective : Function.Injective ethName := by
  intro m n h
  have hrepr : Nat.repr m = Nat.repr n := by simpa [ethName] using h
  exact Nat.repr_injective hrepr

theorem named_step_iff (hid : instID ≠ 0) (req : NicRequest) (h : Named instID db)
    : Named instID (step vlan instID db req) ↔ Fresh vlan instID db req := by
  cases hexec : req.exec vlan instID db with
  | none =>
    rw [step, hexec, getD_none]
    cases req with
    | create inst subnets address applied => simp [h, Fresh, hexec]
    | delete ifaceID => simp [h, Fresh]
  | some db' =>
    rw [step, hexec, getD_some]
    cases req with
    | create inst subnets address applied =>
      have ⟨hlen, hnames⟩ := names_createInterfaceOf hexec
      simp only [Fresh, hexec, isSome_some, forall_const]
      rw [Named, hnames, List.nodup_append_comm, List.singleton_append, List.nodup_cons, List.length_append,
        List.length_singleton]
      exact ⟨fun hnamed => hnamed.1.1, fun hfresh => ⟨⟨hfresh, h.1⟩, hlen⟩⟩
    | delete ifaceID =>
      have hsub : (db'.names instID).Sublist (db.names instID) := by
        rw [names, nics_deleteNic hexec hid]
        exact List.filter_sublist.map _
      simp only [Fresh, iff_true]
      exact ⟨h.1.sublist hsub, Nat.le_trans hsub.length_le h.2⟩

theorem named_along_iff {db₀ : NetDB} {inst : Instance} {primary : InterfaceInfo} {secondary : List SecondaryInfo}
    (hid : inst.id ≠ 0) (hnew : db₀.nics inst.id = [])
    (hloaded : ∀ fip ∈ primary.publicIps, fip.interface ∈ db₀.interfaces)
    (hcreate : db₀.createInstance vlan inst primary secondary = some db) (reqs : List NicRequest)
    : Named inst.id db ∧ Along (step vlan inst.id) (fun db req => Named inst.id (step vlan inst.id db req)) db reqs
        ↔
      secondary.length ≤ 7 ∧ Along (step vlan inst.id) (Fresh vlan inst.id) db reqs := by
  have hnames := names_createInstance hcreate hloaded hnew
  have hnamed : Named inst.id db ↔ secondary.length ≤ 7 := by
    rw [Named, hnames, List.length_map, List.length_range]
    exact ⟨fun h => by omega, fun h => ⟨List.nodup_range.map ethName_injective, by omega⟩⟩
  rw [hnamed]
  refine and_congr_right (fun hlen => ?_)
  exact Along.iff_of_invariant (Named inst.id) (fun db req h => named_step_iff hid req h)
    (fun db req h hfresh => (named_step_iff hid req h).mpr hfresh) (hnamed.mpr hlen) reqs

def fourSubnets : NetDB where
  addresses :=
    { rows := [1, 2, 3, 4].map (fun n => ⟨n, ⟨n, 24⟩, .ipv4, false, false, n, 0, 0⟩)
      next := 5
      pos := by decide
      nodup := by decide
      bounds := by decide }
  interfaces := .empty
  floatingIps := .empty

def subnet (id : Nat) : Subnet := ⟨id, ⟨0, 24⟩, 24, 0, .internal⟩

def vm : Instance := ⟨1, 0, false, none⟩

def info (id : Nat) : SecondaryInfo := ⟨⟨[], [subnet id], [], .empty, 1⟩, .inl rfl⟩

def add (id : Nat) : NicRequest := .create vm [subnet id] .empty true

def created : NetDB := (fourSubnets.createInstance id vm (info 1).toInterfaceInfo [info 2]).get (by decide +kernel)

theorem createInstance_eq : fourSubnets.createInstance id vm (info 1).toInterfaceInfo [info 2] = some created :=
  (some_get _).symm

theorem named_after_adding
    : Named 1 created ∧
      Along (step id 1) (fun db req => Named 1 (step id 1 db req)) created [add 3, .delete 3, add 4] :=
  (named_along_iff (by decide) (by decide) (fun _ hfip => absurd hfip List.not_mem_nil) createInstance_eq _).mpr
    ⟨by decide, fun _ => by decide +kernel, trivial, fun _ => by decide +kernel, trivial⟩

theorem name_taken_twice
    : (fourSubnets.createInstance id vm (info 1).toInterfaceInfo []).map
        (fun db => ([add 2, add 3, .delete 2, add 4].foldl (step id 1) db).names 1)
        =
      some ["eth0", "eth2", "eth2"] := by
  decide +kernel

end NicRequest
end Web
