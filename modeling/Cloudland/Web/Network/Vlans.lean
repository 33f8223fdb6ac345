import Cloudland.Web.Network.Names

/-!
The vlans of the interfaces of a new instance (`routes/interface.go`, `routes/instance.go`).
-/

namespace Web.Vlans

open List Option

structure IfaceRequest where
  publicIps : List LoadedFip
  subnets : List Subnet
  siteSubnets : List Subnet

-- what `CheckIfaceSubnets` looks at
def IfaceRequest.info (r : IfaceRequest) : InterfaceInfo := ⟨r.publicIps, r.subnets, r.siteSubnets, .empty, 1⟩

section Create

variable (vlan : Nat → Nat)

def createdVlan (free : Subnet → Bool) (r : IfaceRequest) : Option Nat :=
  match r.publicIps with
  | fip :: fips =>
    if (fip :: fips).any (fun fip => 0 < fip.row.instanceID) then none else some (vlan fip.address.subnetID)
  | [] => go r.subnets
where
  go : List Subnet → Option Nat
    | [] => none
    | subnet :: subnets =>
      if subnet.type = .site then none else if free subnet then some (vlan subnet.id) else go subnets

def createdVlans (free : Nat → Subnet → Bool) : Nat → List IfaceRequest → Option (List Nat)
  | _, [] => some []
  | i, r :: rs => do
    let v ← createdVlan vlan (free i) r
    let vs ← createdVlans free (i + 1) rs
    return v :: vs

def createInstance (free : Nat → Subnet → Bool) (primary : IfaceRequest) (secondary : List IfaceRequest)
    : Option (List Nat) :=
  if NetDB.checkIfaceSubnets vlan primary.info (secondary.map IfaceRequest.info) then
    createdVlans vlan free 0 (primary :: secondary)
  else
    none

structure Separate (rs : List IfaceRequest) (vlans : List Nat) : Prop where
  distinct : vlans.Nodup
  shared : List.Forall₂ (fun r v => ∀ s ∈ r.subnets ++ r.siteSubnets, vlan s.id = v) rs vlans

def IfaceRequest.ifaceVlan (r : IfaceRequest) : Nat :=
  match r.publicIps with
  | fip :: _ => vlan fip.address.subnetID
  | [] => NetDB.firstVlan vlan r.subnets

/--
What the check leaves open: subnets next to public IPs, a vlan that is zero, site subnets, and whether a secondary
interface has the vlan of the public IPs.
-/
structure Agreed (primary : IfaceRequest) (secondary : List IfaceRequest) : Prop where
  both : ∀ r ∈ primary :: secondary, r.publicIps ≠ [] → ∀ s ∈ r.subnets, vlan s.id = r.ifaceVlan vlan
  zero : ∀ r ∈ primary :: secondary, (∀ s ∈ r.subnets, vlan s.id ≠ 0) ∨ ∀ s ∈ r.subnets, vlan s.id = 0
  sites : ∀ r ∈ primary :: secondary, ∀ s ∈ r.siteSubnets, vlan s.id = r.ifaceVlan vlan
  apart : primary.subnets = [] → ∀ r ∈ secondary, r.ifaceVlan vlan ≠ primary.ifaceVlan vlan

end Create

variable {vlan : Nat → Nat} {free : Nat → Subnet → Bool} {r : IfaceRequest} {rs : List IfaceRequest}

theorem sameVlan_ne_zero (hne : current ≠ 0) (h : NetDB.sameVlan vlan current subnets = true)
    : ∀ s ∈ subnets, vlan s.id = current := by
  induction subnets with
  | nil => simp
  | cons subnet subnets ih =>
    simp only [NetDB.sameVlan, if_neg hne, Bool.and_eq_true, decide_eq_true_eq] at h
    rw [forall_mem_cons]
    exact ⟨h.1.symm, ih h.2⟩

theorem sameVlan_first (h : NetDB.sameVlan vlan 0 subnets = true)
    (hzero : (∀ s ∈ subnets, vlan s.id ≠ 0) ∨ ∀ s ∈ subnets, vlan s.id = 0)
    : ∀ s ∈ subnets, vlan s.id = NetDB.firstVlan vlan subnets := by
  cases subnets with
  | nil => simp
  | cons subnet subnets =>
    have hfirst : NetDB.firstVlan vlan (subnet :: subnets) = vlan subnet.id := rfl
    rw [hfirst]
    obtain hne | hall := hzero
    . rw [NetDB.sameVlan, if_pos rfl] at h
      rw [forall_mem_cons]
      exact ⟨rfl, sameVlan_ne_zero (hne subnet mem_cons_self) h⟩
    . intro s hs
      rw [hall s hs, hall subnet mem_cons_self]

theorem createdVlan_go {free : Subnet → Bool} (h : createdVlan.go vlan free subnets = some v)
    : ∃ s ∈ subnets, vlan s.id = v := by
  induction subnets with
  | nil => simp [createdVlan.go] at h
  | cons subnet subnets ih =>
    rw [createdVlan.go] at h
    split at h
    . contradiction
    . split at h
      . exact ⟨subnet, mem_cons_self, some.inj h⟩
      . have ⟨s, hs, heq⟩ := ih h
        exact ⟨s, mem_cons_of_mem _ hs, heq⟩

theorem createdVlan_eq {free : Subnet → Bool} (h : createdVlan vlan free r = some v)
    (hshared : (∀ s ∈ r.subnets, vlan s.id = v) ∨ ∀ s ∈ r.subnets, vlan s.id = r.ifaceVlan vlan)
    : v = r.ifaceVlan vlan := by
  unfold createdVlan at h
  unfold IfaceRequest.ifaceVlan at hshared ⊢
  split at h
  . split at h
    . contradiction
    . exact (some.inj h).symm
  . next hips =>
    simp only [hips] at hshared ⊢
    have ⟨s, hs, heq⟩ := createdVlan_go h
    obtain hv | hv := hshared
    . have hfirst : ∃ s ∈ r.subnets, NetDB.firstVlan vlan r.subnets = vlan s.id := by
        cases hsubnets : r.subnets with
        | nil => simp [hsubnets] at hs
        | cons subnet _ => exact ⟨subnet, mem_cons_self, rfl⟩
      have ⟨s', hs', heq'⟩ := hfirst
      rw [heq', hv s' hs']
    . rw [← heq, hv s hs]

theorem createdVlans_forall₂ (h : createdVlans vlan free i rs = some vs)
    : List.Forall₂ (fun r v => ∃ free, createdVlan vlan free r = some v) rs vs := by
  induction rs generalizing i vs with
  | nil =>
    cases h
    exact .nil
  | cons r rs ih =>
    simp only [createdVlans, Option.bind_eq_bind, Option.bind_eq_some_iff, Option.pure_def, Option.some.injEq] at h
    obtain ⟨v, hv, vs, hvs, rfl⟩ := h
    exact .cons ⟨free i, hv⟩ (ih hvs)

section Forall

variable (h : List.Forall₂ (fun r v => ∃ free, createdVlan vlan free r = some v) rs vs)

include h

theorem vlans_eq (hrs : ∀ r ∈ rs, ∀ s ∈ r.subnets, vlan s.id = r.ifaceVlan vlan)
    : vs = rs.map (·.ifaceVlan vlan) := by
  induction h with
  | nil => rfl
  | cons hv _ ih =>
    have ⟨_, hv⟩ := hv
    rw [forall_mem_cons] at hrs
    rw [map_cons, createdVlan_eq hv (.inr hrs.1), ih hrs.2]

theorem shared_iff
    : List.Forall₂ (fun r v => ∀ s ∈ r.subnets ++ r.siteSubnets, vlan s.id = v) rs vs
        ↔
      ∀ r ∈ rs, ∀ s ∈ r.subnets ++ r.siteSubnets, vlan s.id = r.ifaceVlan vlan := by
  induction h with
  | nil => simp
  | cons hv _ ih =>
    have ⟨_, hv⟩ := hv
    rw [forall₂_cons, ih, forall_mem_cons]
    refine and_congr_left (fun _ => ?_)
    constructor
    . intro hr
      exact createdVlan_eq hv (.inl (fun s hs => hr s (mem_append_left _ hs))) ▸ hr
    . intro hr
      exact (createdVlan_eq hv (.inr (fun s hs => hr s (mem_append_left _ hs)))).symm ▸ hr

end Forall

theorem createInstance_separate {primary : IfaceRequest} {secondary : List IfaceRequest} {vs : List Nat}
    (h : createInstance vlan free primary secondary = some vs)
    : Separate vlan (primary :: secondary) vs ↔ Agreed vlan primary secondary := by
  unfold createInstance at h
  split at h
  . next hcheck =>
    have hcreated := createdVlans_forall₂ h
    simp only [NetDB.checkIfaceSubnets, IfaceRequest.info, NetDB.checkSubnets, Bool.and_eq_true, Bool.or_eq_true,
      List.isEmpty_iff, Bool.not_eq_true', List.isEmpty_eq_false_iff, List.all_map, List.all_eq_true,
      Function.comp_apply, bne_iff_ne, decide_eq_true_eq, List.map_map] at hcheck
    obtain ⟨⟨⟨hprimary, _⟩, hsecond⟩, hnodup⟩ := hcheck
    have hsame : ∀ r ∈ primary :: secondary, NetDB.sameVlan vlan 0 r.subnets = true := by
      rw [List.forall_mem_cons]
      refine ⟨?_, fun r hr => (hsecond r hr).1.2⟩
      obtain hnil | hboth := hprimary
      . rw [hnil]
        rfl
      . exact hboth.2
    have hiff := shared_iff hcreated
    constructor
    . intro hsep
      have hall := hiff.mp hsep.shared
      have hsubnets := fun r hr s hs => hall r hr s (mem_append_left _ hs)
      have hdistinct := hsep.distinct
      rw [vlans_eq hcreated hsubnets, map_cons, nodup_cons] at hdistinct
      refine ⟨fun r hr _ => hsubnets r hr, ?_, ?_, ?_⟩
      . intro r hr
        by_cases hzero : r.ifaceVlan vlan = 0
        . exact .inr (fun s hs => (hsubnets r hr s hs).trans hzero)
        . exact .inl (fun s hs heq => hzero ((hsubnets r hr s hs).symm.trans heq))
      . exact fun r hr s hs => hall r hr s (mem_append_right _ hs)
      . exact fun _ r hr heq => hdistinct.1 (mem_map.mpr ⟨r, hr, heq⟩)
    . intro hagreed
      have hsubnets : ∀ r ∈ primary :: secondary, ∀ s ∈ r.subnets, vlan s.id = r.ifaceVlan vlan := by
        intro r hr s hs
        by_cases hips : r.publicIps = []
        . have hfirst := sameVlan_first (hsame r hr) (hagreed.zero r hr) s hs
          simpa only [IfaceRequest.ifaceVlan, hips] using hfirst
        . exact hagreed.both r hr hips s hs
      have hfirst : ∀ r ∈ primary :: secondary, r.subnets ≠ [] → NetDB.firstVlan vlan r.subnets = r.ifaceVlan vlan := by
        intro r hr hne
        obtain ⟨subnet, _, hcons⟩ := exists_cons_of_ne_nil hne
        rw [← hsubnets r hr subnet (hcons ▸ mem_cons_self), hcons]
        rfl
      have hsecondary : ∀ r ∈ secondary, NetDB.firstVlan vlan r.subnets = r.ifaceVlan vlan :=
        fun r hr => hfirst r (List.mem_cons_of_mem _ hr) (hsecond r hr).1.1
      refine ⟨?_, hiff.mpr (fun r hr => forall_mem_append.mpr ⟨hsubnets r hr, hagreed.sites r hr⟩)⟩
      rw [vlans_eq hcreated hsubnets, map_cons, nodup_cons, ← List.map_congr_left hsecondary]
      refine ⟨?_, hnodup⟩
      intro hmem
      obtain ⟨r, hr, heq⟩ := mem_map.mp hmem
      by_cases hnil : primary.subnets = []
      . exact hagreed.apart hnil r hr ((hsecondary r hr).symm.trans heq)
      . exact (hsecond r hr).2 (heq.trans (hfirst primary List.mem_cons_self hnil).symm)
  . contradiction

def subnetOf (id : Nat) : Subnet := ⟨id, ⟨0, 24⟩, 24, 0, .publicSubnet⟩

def inSubnet (id : Nat) : IfaceRequest := ⟨[], [subnetOf id], []⟩

-- a public IP of the subnet 1
def publicIp : LoadedFip :=
  ⟨⟨1, none, none, 0, 0, 0, 1, .publicFloating⟩, ⟨1, "fip", 0, 0, 0, 1, 1, 0, false, .floating⟩,
    ⟨1, ⟨5, 24⟩, .native, true, false, 1, 1, 0⟩⟩

theorem createInstance_separate_apart
    : createInstance id (fun _ _ => true) ⟨[publicIp], [], []⟩ [inSubnet 2] = some [1, 2] ∧
      Separate id [⟨[publicIp], [], []⟩, inSubnet 2] [1, 2] :=
  have heq : createInstance id (fun _ _ => true) ⟨[publicIp], [], []⟩ [inSubnet 2] = some [1, 2] := by decide
  ⟨heq, (createInstance_separate heq).mpr ⟨by decide, by decide, by decide, by decide⟩⟩

theorem createInstance_not_separate
    : createInstance id (fun _ _ => true) ⟨[publicIp], [], []⟩ [inSubnet 1] = some [1, 1] ∧
      ¬Separate id [⟨[publicIp], [], []⟩, inSubnet 1] [1, 1] :=
  ⟨by decide, fun h => absurd h.distinct (by decide)⟩

end Web.Vlans
