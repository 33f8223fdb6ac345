import Mathlib.Data.List.Sort
import Mathlib.Data.Finset.Card
import Mathlib.Algebra.Order.Ring.Int
import Cloudland.Web.Common.Context
import Cloudland.Web.Network.SecondAddresses

/-!
This module models `FloatingIpAdmin.Create` (`routes/floatingip.go`).
-/

namespace Web

open List Option

structure PublicSubnet where
  row : Subnet
  priority : Int
  deriving DecidableEq

namespace PublicSubnet

def less (a b : PublicSubnet) : Bool :=
  if a.priority = b.priority then a.row.id < b.row.id else a.priority < b.priority

def sort (subnets : List PublicSubnet) : List PublicSubnet :=
  subnets.insertionSort (fun a b => less b a = false)

theorem less_iff
    : less a b ↔ a.priority < b.priority ∨ (a.priority = b.priority ∧ a.row.id < b.row.id) := by
  rw [less]
  split
  . next h => simp [h]
  . next h => simp [h]

instance : Std.Total (fun a b : PublicSubnet => less b a = false) := by
  constructor
  intro a b
  simp only [← Bool.not_eq_true, less_iff]
  omega

instance : IsTrans PublicSubnet (fun a b => less b a = false) := by
  constructor
  intro a b c
  simp only [← Bool.not_eq_true, less_iff]
  omega

theorem mem_sort : subnet ∈ sort subnets ↔ subnet ∈ subnets :=
  mem_insertionSort _

theorem notMem_of_sort (h : sort subnets = front ++ t :: back) (hless : less t s) : s ∉ front ++ [t] := by
  have hsorted : (front ++ t :: back).Pairwise (fun a b => less b a = false) :=
    h ▸ pairwise_insertionSort _ subnets
  intro hmem
  obtain hfront | heq := mem_append.mp hmem
  . have hle := (pairwise_append.mp hsorted).2.2 s hfront t mem_cons_self
    rw [hless] at hle
    contradiction
  . rw [mem_singleton.mp heq, less_iff] at hless
    omega

end PublicSubnet

structure CreateFipArgs where
  inst : Option Instance
  pubSubnets : List PublicSubnet
  publicIp : IpArg
  activationCount : Nat
  siteSubnets : List Subnet
  loadBalancer : Option LoadBalancer

abbrev LoadedFip.addressID (fip : LoadedFip) : Nat := fip.address.id

namespace NetDB

def countIdleAddresses (db : NetDB) (subnet : Subnet) : Nat :=
  (db.addresses.filter
    (fun r => r.subnetID = subnet.id && !r.allocated && !r.reserved && r.address ≠ subnet.gateway)).length

section Create

/-
The public subnets of the database, and whether the configuration of a load balancer can be written.
-/
variable (allPublic : List PublicSubnet) (configured : Bool)

def chosenSubnets (args : CreateFipArgs) : List PublicSubnet :=
  if args.pubSubnets.isEmpty then allPublic else args.pubSubnets

/--
Each site subnet gives all its idle addresses, as counted before anything is allocated.
-/
def createSiteFips (db : NetDB) (inst : Option Instance)
    : List (Subnet × Nat) → Option (NetDB × List LoadedFip)
  | [] => some (db, [])
  | (subnet, idleCount) :: rest => do
    let (db, fips) ← db.createAndAllocateFloatingIps idleCount [subnet] .empty inst true none
    let (db, siteFips) ← db.createSiteFips inst rest
    return (db, fips ++ siteFips)

def createFloatingIps (db : NetDB) (args : CreateFipArgs) : Option (NetDB × List LoadedFip) :=
  let pubSubnets := chosenSubnets allPublic args
  let idleCountTotal := (pubSubnets.map (fun subnet => db.countIdleAddresses subnet.row)).sum
  let siteSubnets := args.siteSubnets.map (fun subnet => (subnet, db.countIdleAddresses subnet))
  if args.publicIp ≠ .empty ∧ (args.activationCount > 1 ∨ args.siteSubnets ≠ []) then
    none
  else if pubSubnets = [] then
    none
  else if pubSubnets.any (fun subnet => subnet.row.type ≠ .publicSubnet) then
    none
  else if idleCountTotal < args.activationCount then
    none
  else if siteSubnets.any (fun (subnet, idleCount) => subnet.type ≠ .site || idleCount = 0) then
    none
  else do
    let subnets := (PublicSubnet.sort pubSubnets).map PublicSubnet.row
    let (db, fips) ← db.createAndAllocateFloatingIps args.activationCount subnets args.publicIp args.inst false
      args.loadBalancer
    let (db, siteFips) ← db.createSiteFips args.inst siteSubnets
    if args.loadBalancer.isSome ∧ ¬configured then
      none
    else
      return (db, fips ++ siteFips)

/--
What the statements have written when the request fails is `written`, whatever that is.
-/
def createStatements (written : NetDB → NetDB) (args : CreateFipArgs)
    : SqlM NetDB Empty Unit (List LoadedFip) := fun s =>
  match s.data.createFloatingIps allPublic configured args with
  | some (db, fips) => (.ok fips, { s with data := db })
  | none => (.error (), { s with data := written s.data })

def requestFloatingIps (written : NetDB → NetDB) (db : NetDB) (args : CreateFipArgs)
    : Except Unit (List LoadedFip) × World NetDB Empty :=
  withTransaction (fun _ => true) none (createStatements allPublic configured written args) (World.calm db)

end Create

inductive Picks (l : List Nat) : List Nat → List Nat → Prop where
  | nil (taken : List Nat) : Picks l taken []
  | cons {taken rest picks : List Nat} {a : Nat} (hfirst : l.filter (· ∉ taken) = a :: rest)
      (hrest : Picks l (taken ++ [a]) picks) : Picks l taken (a :: picks)

namespace Picks

variable {l taken picks : List Nat}

theorem first (h : Picks l taken picks) (ha : picks[i]? = some a)
    : ∃ rest, l.filter (· ∉ taken ++ picks.take i) = a :: rest := by
  induction h generalizing i with
  | nil taken => simp at ha
  | cons hfirst hrest ih =>
    next taken rest picks b =>
    cases i with
    | zero =>
      rw [getElem?_cons_zero, some.injEq] at ha
      rw [take_zero, append_nil, ← ha]
      exact ⟨rest, hfirst⟩
    | succ i =>
      rw [getElem?_cons_succ] at ha
      have ⟨rest, hpick⟩ := ih ha
      rw [append_assoc, singleton_append] at hpick
      exact ⟨rest, hpick⟩

theorem mem_of_first (h : l.filter (· ∉ taken) = a :: rest) : a ∈ l ∧ a ∉ taken := by
  have hmem := h ▸ mem_cons_self
  have ⟨hl, hnot⟩ := mem_filter.mp hmem
  exact ⟨hl, by simpa using hnot⟩

theorem mem (h : Picks l taken picks) : ∀ a ∈ picks, a ∈ l := by
  induction h with
  | nil taken => simp
  | cons hfirst hrest ih => exact forall_mem_cons.mpr ⟨(mem_of_first hfirst).1, ih⟩

theorem notMem (h : Picks l taken picks) : ∀ a ∈ picks, a ∉ taken := by
  induction h with
  | nil taken => simp
  | cons hfirst hrest ih =>
    intro b hb
    obtain heq | hmem := mem_cons.mp hb
    . exact heq ▸ (mem_of_first hfirst).2
    . exact fun htaken => ih b hmem (mem_append_left _ htaken)

theorem nodup (h : Picks l taken picks) : picks.Nodup := by
  induction h with
  | nil taken => exact nodup_nil
  | cons hfirst hrest ih =>
    refine nodup_cons.mpr ⟨?_, ih⟩
    intro hmem
    exact hrest.notMem _ hmem (mem_append_right _ mem_cons_self)

end Picks

def left (l taken : List Nat) : Nat := (l.toFinset \ taken.toFinset).card

theorem left_of_filter_nil (h : l.filter (· ∉ taken) = []) : left l taken = 0 := by
  rw [left, Finset.card_eq_zero, Finset.sdiff_eq_empty_iff_subset]
  intro a ha
  have hnot := filter_eq_nil_iff.mp h a (List.mem_toFinset.mp ha)
  simpa using hnot

theorem left_concat (h : l.filter (· ∉ taken) = a :: rest)
    : left l taken = left l (taken ++ [a]) + 1 := by
  have ⟨hl, hnot⟩ := Picks.mem_of_first h
  have herase : l.toFinset \ (taken ++ [a]).toFinset = (l.toFinset \ taken.toFinset).erase a := by
    ext b
    simp only [Finset.mem_sdiff, List.mem_toFinset, mem_append, mem_singleton, Finset.mem_erase]
    tauto
  have hmem : a ∈ l.toFinset \ taken.toFinset := by
    rw [Finset.mem_sdiff, List.mem_toFinset, List.mem_toFinset]
    exact ⟨hl, hnot⟩
  rw [left, left, herase, Finset.card_erase_add_one hmem]

section Allocate

variable {db db' : NetDB} {subnet : Subnet} {subnets : List Subnet} {ifaceID a : Nat} {rest : List Nat}

def idle (db : NetDB) (subnets : List Subnet) : List Nat := subnets.flatMap db.free

theorem countIdleAddresses_eq (db : NetDB) (subnet : Subnet)
    : db.countIdleAddresses subnet = (db.free subnet).length := by
  rw [free, length_map]
  rfl

def ipOf (db : NetDB) (a : Nat) : Option Nat := (db.addresses.byKey? a).map (fun r => r.address.ip)

structure TakenFrom (db : NetDB) (taken : List Nat) (db' : NetDB) : Prop where
  free : ∀ subnet, db'.free subnet = (db.free subnet).filter (· ∉ taken)
  ip : ∀ a, db'.ipOf a = db.ipOf a

/--
The row `a` was taken, and `row` is what became of it.
-/
structure Takes (db : NetDB) (a : Nat) (row : Address) (db' : NetDB) : Prop where
  id : row.id = a
  ip : db.ipOf a = some row.address.ip
  left : TakenFrom db [a] db'

theorem TakenFrom.of_addresses (h : db'.addresses = db.addresses) : TakenFrom db [] db' := by
  refine ⟨?_, ?_⟩
  . intro subnet
    rw [NetDB.free, h]
    simp [NetDB.free]
  . intro a
    rw [ipOf, h, ipOf]

theorem TakenFrom.trans (h : TakenFrom db₀ taken db) (hnext : TakenFrom db more db')
    : TakenFrom db₀ (taken ++ more) db' := by
  refine ⟨?_, fun a => (hnext.ip a).trans (h.ip a)⟩
  intro subnet
  rw [hnext.free subnet, h.free subnet, List.filter_filter]
  apply filter_congr
  intro b _
  simp [Bool.and_comm]

theorem TakenFrom.idle (h : TakenFrom db₀ taken db)
    : db.idle subnets = (db₀.idle subnets).filter (· ∉ taken) := by
  rw [NetDB.idle, NetDB.idle, filter_flatMap]
  apply flatMap_congr
  exact fun subnet _ => h.free subnet

theorem allocateAddress_takes {addrType : AddrType} (h : db.free subnet = a :: rest)
    : ∃ db' row, db.allocateAddress subnet ifaceID .empty addrType = some (db', row) ∧ Takes db a row db' := by
  have ⟨r, hfind, hid⟩ := find?_of_free_cons h
  have hrow : (booked ifaceID addrType r).id = a ∧ (booked ifaceID addrType r).allocated = true ∧
      (booked ifaceID addrType r).address = r.address := by
    unfold booked
    dsimp only
    split
    . exact ⟨hid, rfl, rfl⟩
    . exact ⟨hid, rfl, rfl⟩
  have hkey : db.addresses.byKey? a = some r := Table.byKey?_eq_some.mpr ⟨(Table.find?_eq_some hfind).1, hid⟩
  have halloc : db.allocateAddress subnet ifaceID .empty addrType
      = some (db.updateAddresses (fun x => x.id == (booked ifaceID addrType r).id) (fun x => { x with
          allocated := (booked ifaceID addrType r).allocated
          type := (booked ifaceID addrType r).type
          secondInterface := (booked ifaceID addrType r).secondInterface
          interface := (booked ifaceID addrType r).interface }), booked ifaceID addrType r) := by
    rw [allocateAddress, hfind]
    rfl
  refine ⟨_, _, halloc, hrow.1, by rw [ipOf, hkey, hrow.2.2]; rfl, ?_, ?_⟩
  . intro subnet
    rw [free, updateAddresses]
    dsimp only
    rw [Table.filter_update_of_false, hrow.1, free, List.filter_map]
    . congr 2
      funext x
      by_cases hx : x.id = a
      . simp [hx]
      . simp [hx]
    . intro x _
      simp [available, hrow.2, Keyed.setKey]
  . intro b
    rw [ipOf, updateAddresses, Table.byKey?_update, Option.map_map, ipOf]
    congr 1
    funext x
    rw [Function.comp_apply]
    split
    . rfl
    . rfl

theorem createInterface_of_free_nil {ID : Nat} {name : String} {ifType : IfType} (h : db.free subnet = [])
    : (db.createInterface subnet ID .empty name ifType).2 = none ∧
        (db.createInterface subnet ID .empty name ifType).1.addresses = db.addresses := by
  unfold createInterface
  dsimp only
  rw [allocateAddress_of_free_nil]
  . exact ⟨rfl, rfl⟩
  . exact h

theorem createInterface_of_free_cons {ID : Nat} {name : String} {ifType : IfType} (h : db.free subnet = a :: rest)
    : ∃ db' iface, db.createInterface subnet ID .empty name ifType = (db', some iface) ∧
        Takes db a iface.address db' := by
  unfold createInterface
  dsimp only
  generalize hnew : { newInterface subnet ID name ifType with id := db.interfaces.next } = new
  have ⟨db', row, halloc, htakes⟩ := @allocateAddress_takes
    { db with interfaces := db.interfaces.insert new } subnet db.interfaces.next a rest .native h
  rw [halloc]
  exact ⟨db', _, rfl, htakes.id, htakes.ip, htakes.left.free, htakes.left.ip⟩

theorem allocateFloatingIp_of_idle_nil {fipID : Nat} (h : db.idle subnets = [])
    : (db.allocateFloatingIp fipID subnets .empty).2 = none := by
  induction subnets generalizing db with
  | nil => rfl
  | cons subnet subnets ih =>
    rw [idle, flatMap_cons, append_eq_nil_iff] at h
    obtain ⟨hnone, haddr⟩ := @createInterface_of_free_nil db subnet fipID "fip" .floating h.1
    rw [allocateFloatingIp]
    generalize db.createInterface subnet fipID .empty "fip" .floating = res at hnone haddr
    obtain ⟨db', iface⟩ := res
    subst hnone
    apply ih
    rw [(TakenFrom.of_addresses haddr).idle, idle, h.2]
    rfl

theorem allocateFloatingIp_of_idle_cons {fipID : Nat} (h : db.idle subnets = a :: rest)
    : ∃ db' iface, db.allocateFloatingIp fipID subnets .empty = (db', some iface) ∧
        Takes db a iface.address db' := by
  induction subnets generalizing db with
  | nil => contradiction
  | cons subnet subnets ih =>
    rw [idle, flatMap_cons] at h
    rw [allocateFloatingIp]
    cases hfree : db.free subnet with
    | nil =>
      rw [hfree, nil_append] at h
      obtain ⟨hnone, haddr⟩ := @createInterface_of_free_nil db subnet fipID "fip" .floating hfree
      generalize db.createInterface subnet fipID .empty "fip" .floating = res at hnone haddr
      obtain ⟨db₁, iface⟩ := res
      subst hnone
      have hsame := TakenFrom.of_addresses haddr
      have hidle : db₁.idle subnets = a :: rest := by
        rw [hsame.idle, idle, h]
        simp
      obtain ⟨db', iface, halloc, htakes⟩ := ih hidle
      exact ⟨db', iface, halloc, htakes.id, hsame.ip a ▸ htakes.ip, hsame.trans htakes.left⟩
    | cons b bs =>
      rw [hfree, cons_append, cons.injEq] at h
      obtain ⟨rfl, _⟩ := h
      obtain ⟨db', iface, hcreate, htakes⟩ := @createInterface_of_free_cons db subnet b bs fipID "fip" .floating hfree
      rw [hcreate]
      exact ⟨db', iface, rfl, htakes⟩

end Allocate

section Create

open createAndAllocateFloatingIps (createOne attachNew attached)

variable {db db' : NetDB} {subnets : List Subnet} {inst : Option Instance} {isSite : Bool}
  {loadBalancer : Option LoadBalancer} {a : Nat} {rest : List Nat}

def Attachable (inst : Option Instance) (loadBalancer : Option LoadBalancer) : Prop :=
  ∀ i ∈ inst, ¬i.pending ∧ i.routerID ≠ 0 ∧ i.primaryAddress.isSome ∧ loadBalancer = none

theorem attachNew_addresses (h : attachNew inst db fip = some db')
    : db'.addresses = db.addresses := by
  cases inst with
  | none => rw [← some.inj h]
  | some i => exact attach_keeps (P := fun d => d.addresses = db.addresses) (fun _ h => h) rfl h

theorem attachNew_isSome {fip : LoadedFip} (h : Attachable inst loadBalancer)
    (hnew : fip.row.type = (newFloatingIp loadBalancer).type)
    : ∃ db', attachNew inst db fip = some db' := by
  cases inst with
  | none => exact ⟨db, rfl⟩
  | some i =>
    have ⟨hpending, hrouter, haddr, hlb⟩ := h i rfl
    have ⟨primary, hprimary⟩ := isSome_iff_exists.mp haddr
    have htype : fip.row.type = .publicFloating := by
      rw [hnew, hlb]
      rfl
    show ∃ db', db.attach fip i = some db'
    rw [attach, if_neg (fun hne => hne.1 htype), attach.record, if_neg (by simp [hpending, hrouter]), hprimary]
    exact ⟨_, rfl⟩

theorem createOne_of_idle_nil (h : db.idle subnets = [])
    : createOne subnets .empty inst isSite loadBalancer db = none := by
  unfold createOne
  dsimp only
  generalize hnew : { newFloatingIp loadBalancer with id := db.floatingIps.next } = new
  have hnone := @allocateFloatingIp_of_idle_nil { db with floatingIps := db.floatingIps.insert new } subnets
    db.floatingIps.next h
  split
  . rfl
  . next hsome =>
    rw [hsome] at hnone
    contradiction

theorem createOne_of_idle_cons (h : db.idle subnets = a :: rest)
    : (∀ db' fip, createOne subnets .empty inst isSite loadBalancer db = some (db', fip) →
        Takes db a fip.address db') ∧
      (Attachable inst loadBalancer → createOne subnets .empty inst isSite loadBalancer db ≠ none) := by
  unfold createOne
  dsimp only
  generalize hnew : { newFloatingIp loadBalancer with id := db.floatingIps.next } = new
  have ⟨db₁, iface, halloc, htakes⟩ := @allocateFloatingIp_of_idle_cons
    { db with floatingIps := db.floatingIps.insert new } subnets a rest db.floatingIps.next h
  rw [halloc]
  dsimp only
  constructor
  . intro db' fip hsome
    have ⟨db₂, hattach, hres⟩ := bind_eq_some_iff.mp hsome
    have hpair := Prod.mk.inj (some.inj hres)
    have haddr : db'.addresses = db₁.addresses := by
      rw [← hpair.1, ← attachNew_addresses hattach]
      rfl
    have hall := htakes.left.trans (.of_addresses haddr)
    rw [← hpair.2]
    exact ⟨htakes.id, htakes.ip, hall.free, hall.ip⟩
  . intro hattachable hnone
    generalize hfip : LoadedFip.mk _ iface.row iface.address = fip at hnone
    have htype : fip.row.type = (newFloatingIp loadBalancer).type := by rw [← hfip]
    have ⟨db₂, hattach⟩ := @attachNew_isSome db₁ inst loadBalancer fip hattachable htype
    rw [hattach] at hnone
    contradiction

structure Taken (db₀ : NetDB) (subnets : List Subnet) (taken : List Nat) (fips : List LoadedFip) (db' : NetDB)
    : Prop where
  picks : Picks (db₀.idle subnets) taken (fips.map LoadedFip.addressID)
  ip : ∀ fip ∈ fips, db₀.ipOf fip.address.id = some fip.address.address.ip
  left : TakenFrom db₀ (taken ++ fips.map LoadedFip.addressID) db'

theorem TakenFrom.createAndAllocateFloatingIps {db₀ : NetDB} {taken : List Nat} {count : Nat}
    (h : TakenFrom db₀ taken db)
    : (∀ db' fips, db.createAndAllocateFloatingIps count subnets .empty inst isSite loadBalancer = some (db', fips) →
        fips.length = count ∧ Taken db₀ subnets taken fips db') ∧
      (Attachable inst loadBalancer → count ≤ left (db₀.idle subnets) taken →
        db.createAndAllocateFloatingIps count subnets .empty inst isSite loadBalancer ≠ none) := by
  induction count generalizing db taken with
  | zero =>
    rw [NetDB.createAndAllocateFloatingIps]
    constructor
    . intro db' fips hsome
      cases hsome
      exact ⟨rfl, .nil taken, by simp, by simpa using h⟩
    . exact fun _ _ hnone => by contradiction
  | succ count ih =>
    rw [NetDB.createAndAllocateFloatingIps]
    cases hidle : (db₀.idle subnets).filter (· ∉ taken) with
    | nil =>
      rw [createOne_of_idle_nil (h.idle.trans hidle)]
      refine ⟨fun _ _ hsome => by contradiction, ?_⟩
      intro _ hle
      rw [left_of_filter_nil hidle] at hle
      contradiction
    | cons a rest =>
      have ⟨hone, hrefused⟩ := @createOne_of_idle_cons db subnets inst isSite loadBalancer a rest
        (h.idle.trans hidle)
      constructor
      . intro db' fips hsome
        have ⟨res, hcreate, hsome⟩ := bind_eq_some_iff.mp hsome
        have htakes := hone res.1 res.2 hcreate
        have ⟨res', hrest, hsome⟩ := bind_eq_some_iff.mp hsome
        have ⟨hlength, htaken⟩ := (ih (h.trans htakes.left)).1 res'.1 res'.2 hrest
        cases hsome
        refine ⟨congrArg (· + 1) hlength, ?_, ?_, ?_⟩
        . rw [map_cons, LoadedFip.addressID, htakes.id]
          exact .cons hidle htaken.picks
        . rw [forall_mem_cons, htakes.id, ← h.ip]
          exact ⟨htakes.ip, htaken.ip⟩
        . rw [map_cons, LoadedFip.addressID, htakes.id, ← singleton_append, ← append_assoc]
          exact htaken.left
      . intro hattachable hle
        rw [left_concat hidle] at hle
        have ⟨res, hcreate⟩ := ne_none_iff_exists'.mp (hrefused hattachable)
        have hlater := (ih (h.trans (hone res.1 res.2 hcreate).left)).2 hattachable (Nat.le_of_succ_le_succ hle)
        have ⟨res', hrest⟩ := ne_none_iff_exists'.mp hlater
        rw [hcreate]
        show bind (res.1.createAndAllocateFloatingIps count subnets .empty inst isSite loadBalancer) _ ≠ none
        rw [hrest]
        exact some_ne_none _

def Last (db : NetDB) (rows : List FloatingIp) (r : FloatingIp) : Prop :=
  db.floatingIps.rows = rows ++ [r] ∧ ∀ g ∈ rows, g.id ≠ r.id

theorem Last.update (h : Last db rows r) (f : FloatingIp → FloatingIp)
    : Last (db.updateFloatingIps (fun g => g.id == r.id) f) rows { f r with id := r.id } := by
  refine ⟨?_, h.2⟩
  have hold : rows.map (fun g => if g.id == r.id then { f g with id := g.id } else g) = rows := by
    conv_rhs => rw [← map_id rows]
    apply map_congr_left
    intro g hg
    simp [h.2 g hg]
  show db.floatingIps.rows.map (fun g => if g.id == r.id then { f g with id := g.id } else g) = _
  rw [h.1, map_append, hold, map_singleton, if_pos (beq_self_eq_true _)]

theorem attachNew_last (h : Last db rows r) (hid : fip.row.id = r.id)
    (hattach : attachNew inst db fip = some db')
    : ∃ subnetID, Last db' rows { attached inst r with subnetID } := by
  cases inst with
  | none =>
    cases hattach
    exact ⟨r.subnetID, h⟩
  | some i =>
    simp only [attachNew, attach, ite_none_left_eq_some] at hattach
    obtain ⟨db₁, hrecord, hdb⟩ := bind_eq_some_iff.mp hattach.2
    simp only [attach.record, ite_none_left_eq_some] at hrecord
    obtain ⟨primary, hprimary, hdb₁⟩ := bind_eq_some_iff.mp hrecord.2
    cases hdb
    cases hdb₁
    rw [attach.ensureSubnetID, hid]
    simp only [attached, hprimary]
    split
    . exact ⟨_, (h.update _).update _⟩
    . exact ⟨_, h.update _⟩

theorem createOne_rows
    (h : createOne subnets publicIp inst isSite loadBalancer db = some (db', fip))
    : db'.floatingIps.rows = db.floatingIps.rows ++ [fip.row] ∧ fip.row.fipAddress = some fip.address.address := by
  unfold createOne at h
  dsimp only at h
  split at h
  . contradiction
  . next db₁ iface halloc =>
    obtain ⟨db₂, hattach, hres⟩ := bind_eq_some_iff.mp h
    cases hres
    obtain ⟨_, _, _, hsame, hcreate⟩ := allocateFloatingIp_keeps (P := fun d => d.floatingIps = _)
      (fun h hnone => (createInterface_floatingIps hnone).trans h) rfl halloc
    have hfips := (createInterface_floatingIps hcreate).trans hsame
    have hlast : Last db₁ db.floatingIps.rows { newFloatingIp loadBalancer with id := db.floatingIps.next } := by
      refine ⟨by rw [hfips]; rfl, ?_⟩
      intro g hg
      exact Nat.ne_of_lt (db.floatingIps.bounds g hg).2
    obtain ⟨_, hattached⟩ := attachNew_last hlast rfl hattach
    cases inst with
    | none => exact ⟨(hattached.update _).1, rfl⟩
    | some i => exact ⟨(hattached.update _).1, rfl⟩

theorem createAndAllocateFloatingIps_rows {count : Nat}
    (h : db.createAndAllocateFloatingIps count subnets publicIp inst isSite loadBalancer = some (db', fips))
    : db'.floatingIps.rows = db.floatingIps.rows ++ fips.map LoadedFip.row ∧
        ∀ fip ∈ fips, fip.row.fipAddress = some fip.address.address := by
  induction count generalizing db fips with
  | zero =>
    cases h
    simp
  | succ count ih =>
    obtain ⟨⟨db₁, fip⟩, hone, hrest⟩ := bind_eq_some_iff.mp h
    obtain ⟨⟨db₂, more⟩, hmore, heq⟩ := bind_eq_some_iff.mp hrest
    cases heq
    have ⟨hrows, haddr⟩ := createOne_rows hone
    have ⟨hrows', haddr'⟩ := ih hmore
    refine ⟨?_, forall_mem_cons.mpr ⟨haddr, haddr'⟩⟩
    rw [hrows', hrows, map_cons, append_assoc, singleton_append]

def idleTotal (db : NetDB) (subnets : List PublicSubnet) : Nat :=
  (db.addresses.filter (fun r => subnets.any (fun subnet => available subnet.row .empty r))).length

def InOrder (db : NetDB) (subnets : List PublicSubnet) (fips : List LoadedFip) : Prop :=
  ∀ (i : Nat) (fip : LoadedFip), fips[i]? = some fip →
    ∃ s ∈ subnets, fip.address.id ∈ db.free s.row ∧
      ∀ t ∈ subnets, t.less s → ∀ a ∈ db.free t.row, a ∈ (fips.take i).map LoadedFip.addressID

end Create

section Order

open PublicSubnet (row sort less notMem_of_sort mem_sort)

variable {db : NetDB} {chosen : List PublicSubnet} {taken rest : List Nat} {a : Nat}

theorem mem_idle : a ∈ db.idle subnets ↔ ∃ s ∈ subnets, a ∈ db.free s := mem_flatMap

theorem left_idle_sort : left (db.idle ((sort chosen).map row)) [] = db.idleTotal chosen := by
  have hnodup : ((db.addresses.filter (fun r => chosen.any (fun s => available s.row .empty r))).map
      Address.id).Nodup := db.addresses.nodup.sublist (filter_sublist.map _)
  rw [idleTotal, ← length_map Address.id, ← toFinset_card_of_nodup hnodup, left, toFinset_nil,
    Finset.sdiff_empty]
  congr 1
  ext a
  simp only [List.mem_toFinset, mem_idle, List.mem_map, mem_sort, exists_exists_and_eq_and, mem_free, Table.mem_filter,
    List.any_eq_true]
  constructor
  . rintro ⟨s, hs, r, hr, havail, hid⟩
    exact ⟨r, ⟨hr, s, hs, havail⟩, hid⟩
  . rintro ⟨r, ⟨hr, s, hs, havail⟩, hid⟩
    exact ⟨s, hs, r, hr, havail, hid⟩

theorem id_eq_of_mem_free (hs : a ∈ db.free s) (ht : a ∈ db.free t) : s.id = t.id := by
  obtain ⟨r, hr, hrs, hid⟩ := mem_free.mp hs
  obtain ⟨r', hr', hrt, hid'⟩ := mem_free.mp ht
  cases Table.eq_of_key hr hr' (hid.trans hid'.symm)
  rw [← (available_eq_true hrs).1, ← (available_eq_true hrt).1]

theorem mem_taken_of_less (hsame : ∀ s ∈ chosen, ∀ t ∈ chosen, s.row.id = t.row.id → s = t)
    (hfirst : (db.idle ((sort chosen).map row)).filter (· ∉ taken) = a :: rest)
    (hs : s ∈ chosen) (hmem : a ∈ db.free s.row) (ht : t ∈ chosen) (hless : less t s)
    : ∀ b ∈ db.free t.row, b ∈ taken := by
  have ⟨front, back, hsort⟩ := append_of_mem (mem_sort.mpr ht)
  have hnot := notMem_of_sort hsort hless
  -- the row is from no other subnet than `s`
  have hfront : a ∉ db.idle ((front ++ [t]).map row) := by
    intro hidle
    have ⟨row, hrow, hfree⟩ := mem_idle.mp hidle
    obtain ⟨u, hu, rfl⟩ := mem_map.mp hrow
    have huchosen : u ∈ chosen := by
      rw [← mem_sort, hsort, ← singleton_append, ← append_assoc]
      exact mem_append_left _ hu
    have hus := hsame u huchosen s hs (id_eq_of_mem_free hfree hmem)
    exact hnot (hus ▸ hu)
  have hsplit : db.idle ((sort chosen).map row)
      = db.idle ((front ++ [t]).map row) ++ db.idle (back.map row) := by
    rw [hsort, ← singleton_append, ← append_assoc, map_append, idle, flatMap_append]
    rfl
  rw [hsplit, filter_append] at hfirst
  intro b hb
  cases hfilter : (db.idle ((front ++ [t]).map row)).filter (· ∉ taken) with
  | nil =>
    have hidle : b ∈ db.idle ((front ++ [t]).map row) := by
      rw [mem_idle]
      exact ⟨t.row, mem_map_of_mem (mem_append_right _ mem_cons_self), hb⟩
    have := filter_eq_nil_iff.mp hfilter b hidle
    simpa using this
  | cons c cs =>
    rw [hfilter, cons_append, cons.injEq] at hfirst
    have hc := (Picks.mem_of_first hfilter).1
    rw [hfirst.1] at hc
    exact absurd hc hfront

theorem inOrder_of_picks
    (hsame : ∀ s ∈ chosen, ∀ t ∈ chosen, s.row.id = t.row.id → s = t)
    (h : Picks (db.idle ((sort chosen).map row)) [] (fips.map LoadedFip.addressID))
    : InOrder db chosen fips := by
  intro i fip hfip
  have hpick : (fips.map LoadedFip.addressID)[i]? = some fip.address.id := by
    rw [getElem?_map, hfip]
    rfl
  have ⟨rest, hfirst⟩ := h.first hpick
  rw [nil_append, ← map_take] at hfirst
  have ⟨row, hrow, hfree⟩ := mem_idle.mp (Picks.mem_of_first hfirst).1
  obtain ⟨s, hs, rfl⟩ := mem_map.mp hrow
  have hs := mem_sort.mp hs
  exact ⟨s, hs, hfree, fun t ht hless => mem_taken_of_less hsame hfirst hs hfree ht hless⟩

end Order

section Request

open PublicSubnet (row sort mem_sort)

variable {db db' : NetDB} {allPublic : List PublicSubnet} {configured : Bool} {args : CreateFipArgs}

theorem sum_countIdleAddresses {chosen : List PublicSubnet}
    : (chosen.map (fun s => db.countIdleAddresses s.row)).sum = (db.idle (chosen.map row)).length := by
  rw [idle, List.length_flatMap, List.map_map]
  congr 1
  apply map_congr_left
  exact fun s _ => countIdleAddresses_eq db s.row

theorem idleTotal_le_sum (chosen : List PublicSubnet)
    : db.idleTotal chosen ≤ (chosen.map (fun s => db.countIdleAddresses s.row)).sum := by
  have hperm : (db.idle ((sort chosen).map row)).Perm (db.idle (chosen.map row)) :=
    ((perm_insertionSort _ chosen).map _).flatMap_right _
  rw [← left_idle_sort, sum_countIdleAddresses, ← hperm.length_eq, left, toFinset_nil, Finset.sdiff_empty]
  exact toFinset_card_le _

theorem created_of_createFloatingIps (hsite : args.siteSubnets = [])
    (h : db.createFloatingIps allPublic configured args = some (db', fips))
    : db.createAndAllocateFloatingIps args.activationCount ((sort (chosenSubnets allPublic args)).map row)
        args.publicIp args.inst false args.loadBalancer
        =
      some (db', fips) := by
  simp only [createFloatingIps, hsite, ite_none_left_eq_some] at h
  obtain ⟨_, _, _, _, _, h⟩ := h
  obtain ⟨res, hcreate, hrest⟩ := bind_eq_some_iff.mp h
  obtain ⟨site, hsites, hres⟩ := bind_eq_some_iff.mp hrest
  rw [← some.inj hsites, append_nil, ite_none_left_eq_some] at hres
  rw [hcreate, ← some.inj hres.2]

theorem createFloatingIps_isSome (hip : args.publicIp = .empty) (hsite : args.siteSubnets = [])
    (hpublic : ∀ s ∈ chosenSubnets allPublic args, s.row.type = .publicSubnet)
    (hsome : chosenSubnets allPublic args ≠ []) (hattach : Attachable args.inst args.loadBalancer)
    (hconf : args.loadBalancer.isSome → configured)
    (hle : args.activationCount ≤ db.idleTotal (chosenSubnets allPublic args))
    : db.createFloatingIps allPublic configured args ≠ none := by
  have hcreate := (@TakenFrom.createAndAllocateFloatingIps db ((sort (chosenSubnets allPublic args)).map row)
    args.inst false args.loadBalancer db [] args.activationCount (.of_addresses rfl)).2 hattach (left_idle_sort ▸ hle)
  have ⟨res, hres⟩ := ne_none_iff_exists'.mp hcreate
  have hcount := Nat.le_trans hle (idleTotal_le_sum (chosenSubnets allPublic args))
  rw [createFloatingIps, hip, hsite]
  dsimp only
  rw [if_neg (by simp), if_neg hsome, if_neg (by simpa using hpublic), if_neg (Nat.not_lt.mpr hcount),
    if_neg (by simp), hres]
  show (if args.loadBalancer.isSome ∧ ¬configured then none else some (res.1, res.2 ++ [])) ≠ none
  rw [if_neg (by simpa using hconf)]
  exact some_ne_none _

def DistinctIdle (db : NetDB) (chosen : List PublicSubnet) : Prop :=
  ∀ s ∈ chosen, ∀ t ∈ chosen, ∀ a ∈ db.free s.row, ∀ b ∈ db.free t.row, db.ipOf a = db.ipOf b → a = b

structure Granted (db : NetDB) (chosen : List PublicSubnet) (count : Nat) (fips : List LoadedFip) (db' : NetDB)
    : Prop where
  length : fips.length = count
  distinct : (fips.map (fun fip => fip.address.address.ip)).Nodup
  order : InOrder db chosen fips
  fipAddress : ∀ fip ∈ fips, fip.row.fipAddress = some fip.address.address
  rows : db'.floatingIps.rows = db.floatingIps.rows ++ fips.map LoadedFip.row
  left : TakenFrom db (fips.map LoadedFip.addressID) db'

theorem distinct_of_taken {chosen : List PublicSubnet} (hdistinct : db.DistinctIdle chosen)
    (h : Taken db ((sort chosen).map row) [] fips db')
    : (fips.map (fun fip => fip.address.address.ip)).Nodup := by
  have hids := pairwise_map.mp h.picks.nodup
  refine pairwise_map.mpr (hids.imp_of_mem ?_)
  intro f g hf hg hne hsame
  have hfree : ∀ fip ∈ fips, ∃ s ∈ chosen, fip.address.id ∈ db.free s.row := by
    intro fip hfip
    have ⟨row, hrow, hfree⟩ := mem_idle.mp (h.picks.mem _ (mem_map_of_mem hfip))
    have ⟨s, hs, heq⟩ := mem_map.mp hrow
    exact ⟨s, mem_sort.mp hs, heq ▸ hfree⟩
  have ⟨s, hs, hfs⟩ := hfree f hf
  have ⟨t, ht, hgt⟩ := hfree g hg
  exact hne (hdistinct s hs t ht _ hfs _ hgt (by rw [h.ip f hf, h.ip g hg, hsame]))

def secondNet : PublicSubnet := ⟨{ net with id := 2 }, 0⟩

-- the second subnet has one row
def twoNets (ip : Nat) : NetDB :=
  { newNet with addresses := newNet.addresses.insert { netRow ip with subnetID := 2 } }

def threeFips : CreateFipArgs := ⟨none, [⟨net, 10⟩, secondNet], .empty, 3, [], none⟩

end Request

end NetDB
end Web
