import Cloudland.Lib.Run
import Cloudland.Web.Secgroup.Model

/-!
The flags of the groups and the groups that routers and organizations name stay together.
-/

namespace Web.Secgroup

open List Option Table Check

inductive Request where
  | createRouter (m : MemberShip) (name : String) (pick : Nat)
  | createGroup (m : MemberShip) (name : String) (isDefault : Bool) (routerID pick : Nat)
  | updateGroup (m : MemberShip) (sgID : Nat) (name : String) (isDefault : Bool) (pick : Nat)
  | deleteGroup (m : MemberShip) (sgID : Nat)
  deriving DecidableEq

def Request.caller : Request → MemberShip
  | .createRouter m .. => m
  | .createGroup m .. => m
  | .updateGroup m .. => m
  | .deleteGroup m .. => m

namespace SgDB

def request (db : SgDB) : Request → Except CLError SgDB
  | .createRouter m name pick => db.createRouter m name pick
  | .createGroup m name isDefault routerID pick => do
    let router ← db.getRouter m routerID
    let (_, db) ← db.createSecgroup m name isDefault router pick
    return db
  | .updateGroup m sgID name isDefault pick => do
    require (sgID ≠ 0) ⟨.permissionDenied, "Not authorized for this operation"⟩
    let (sg, router) ← db.getSecgroup m sgID
    db.updateSecgroup m sg router name isDefault pick
  | .deleteGroup m sgID => do
    let (sg, _) ← db.getSecgroup m sgID
    db.deleteSecgroup m sg

-- a request that fails is rolled back
def step (db : SgDB) (r : Request) : SgDB :=
  match db.request r with
  | .ok db => db
  | .error _ => db

def Step (db : SgDB) (r : Request) (db' : SgDB) : Prop := db.step r = db'

end SgDB

section Property

structure SgDB.Default (db : SgDB) : Prop where
  router : ∀ r ∈ db.routers, r.defaultSG ≠ 0 → ∃ g ∈ db.groups, g.id = r.defaultSG ∧ g.routerID = r.id ∧
    g.isDefault = true ∧ ∀ g' ∈ db.groups, g'.isDefault = true → g'.routerID = r.id → g' = g
  org : ∀ o ∈ db.orgs, o.defaultSG ≠ 0 → ∃ g ∈ db.groups, g.id = o.defaultSG ∧ g.owner = o.id ∧
    g.isDefault = true ∧ ∀ g' ∈ db.groups, g'.isDefault = true → g'.routerID = 0 → g'.owner = o.id → g' = g

def SgDB.PicksOwn (db : SgDB) (org rows pick : Nat) : Prop :=
  ∀ g ∈ db.groups.rows[pick % rows]?, g.isDefault = false ∧ g.owner = org

structure Frame (org : Nat) (db db' : SgDB) : Prop where
  groups : ∀ g, g.owner ≠ org → (g ∈ db'.groups ↔ g ∈ db.groups)
  routers : ∀ r, r.owner ≠ org → (r ∈ db'.routers ↔ r ∈ db.routers)
  orgs : ∀ o, o.id ≠ org → (o ∈ db'.orgs ↔ o ∈ db.orgs)

inductive Home where
  | router (id : Nat)
  | org (id : Nat)
  deriving DecidableEq

def SecurityGroup.home (g : SecurityGroup) : Home :=
  if g.routerID = 0 then .org g.owner else .router g.routerID

def SgDB.pointer (db : SgDB) : Home → Nat
  | .router id => ((db.routers.byKey? id).map Router.defaultSG).getD 0
  | .org id => ((db.orgs.byKey? id).map Organization.defaultSG).getD 0

structure SgDB.Consistent (db : SgDB) : Prop where
  flag : ∀ g ∈ db.groups, g.isDefault = true ↔ db.pointer g.home = g.id
  named : ∀ h, db.pointer h ≠ 0 → ∃ g ∈ db.groups, g.id = db.pointer h ∧ g.home = h
  owner : ∀ g ∈ db.groups, g.routerID ≠ 0 → ∃ r ∈ db.routers, r.id = g.routerID ∧ r.owner = g.owner

variable {db db' : SgDB}

theorem pointer_router (h : r ∈ db.routers) : db.pointer (.router r.id) = r.defaultSG := by
  have hkey : db.routers.byKey? r.id = some r := byKey?_eq_some.mpr ⟨h, rfl⟩
  rw [SgDB.pointer, hkey]
  rfl

theorem pointer_org (h : o ∈ db.orgs) : db.pointer (.org o.id) = o.defaultSG := by
  have hkey : db.orgs.byKey? o.id = some o := byKey?_eq_some.mpr ⟨h, rfl⟩
  rw [SgDB.pointer, hkey]
  rfl

theorem id_pos (h : g ∈ db.groups) : 0 < g.id := (db.groups.bounds g h).1

theorem home_router_iff {g : SecurityGroup} {id : Nat} (hid : id ≠ 0)
    : g.home = .router id ↔ g.routerID = id := by
  unfold SecurityGroup.home
  split
  . next hzero => simp [hzero, hid.symm]
  . simp

theorem home_org_iff {g : SecurityGroup} {id : Nat} : g.home = .org id ↔ g.routerID = 0 ∧ g.owner = id := by
  unfold SecurityGroup.home
  split
  . next hzero => simp [hzero]
  . next hne => simp [hne]

theorem SgDB.Consistent.unique (h : db.Consistent) (hg : g ∈ db.groups)
    (hg' : g' ∈ db.groups) (hid : g.id = db.pointer g.home) (hhome : g'.home = g.home)
    (hdefault : g'.isDefault = true)
    : g' = g := by
  have hflag := (h.flag g' hg').mp hdefault
  rw [hhome] at hflag
  exact eq_of_key hg' hg (hflag.symm.trans hid.symm)

theorem SgDB.Consistent.default (h : db.Consistent) : db.Default := by
  constructor
  . intro r hr hne
    have hpos := Nat.ne_of_gt (db.routers.bounds r hr).1
    have hpointer := pointer_router hr
    have ⟨g, hg, hid, hhome⟩ := h.named (.router r.id) (hpointer ▸ hne)
    refine ⟨g, hg, hid.trans hpointer, (home_router_iff hpos).mp hhome, (h.flag g hg).mpr (hhome ▸ hid.symm), ?_⟩
    intro g' hg' hdefault hrouter
    exact h.unique hg hg' (hhome ▸ hid) (((home_router_iff hpos).mpr hrouter).trans hhome.symm) hdefault
  . intro o ho hne
    have hpointer := pointer_org ho
    have ⟨g, hg, hid, hhome⟩ := h.named (.org o.id) (hpointer ▸ hne)
    refine ⟨g, hg, hid.trans hpointer, (home_org_iff.mp hhome).2, (h.flag g hg).mpr (hhome ▸ hid.symm), ?_⟩
    intro g' hg' hdefault hrouter howner
    exact h.unique hg hg' (hhome ▸ hid) ((home_org_iff.mpr ⟨hrouter, howner⟩).trans hhome.symm) hdefault

end Property

section Switch

namespace SgDB

def setPointer (db : SgDB) : Home → Nat → SgDB
  | .router id, sg => db.setRouterDefault id sg
  | .org id, sg => db.setOrgDefault id sg

def Has (db : SgDB) : Home → Prop
  | .router id => ∃ r ∈ db.routers, r.id = id
  | .org id => ∃ o ∈ db.orgs, o.id = id

def switched (db : SgDB) (h : Home) (new : Nat) (old : Option Nat) : SgDB :=
  match old with
  | some old => ((db.setPointer h new).setFlag old false).setFlag new true
  | none => (db.setPointer h new).setFlag new true

end SgDB

variable {db : SgDB} {h : Home} {new : Nat} {old : Option Nat}

theorem pointer_setPointer (hhas : db.Has h) (h' : Home)
    : (db.setPointer h new).pointer h' = if h' = h then new else db.pointer h' := by
  cases h with
  | router id =>
    obtain ⟨r, hr, rfl⟩ := hhas
    cases h' with
    | router id' =>
      have hkey := byKey?_update_key (f := fun r => { r with defaultSG := new }) (k := id') hr
      refine (congrArg (fun r => (Option.map Router.defaultSG r).getD 0) hkey).trans ?_
      simp only [Home.router.injEq]
      split
      . next hid => exact (if_pos hid).symm
      . next hid => exact (if_neg hid).symm
    | org id' => rfl
  | org id =>
    obtain ⟨o, ho, rfl⟩ := hhas
    cases h' with
    | router id' => rfl
    | org id' =>
      have hkey := byKey?_update_key (f := fun o => { o with defaultSG := new }) (k := id') ho
      refine (congrArg (fun o => (Option.map Organization.defaultSG o).getD 0) hkey).trans ?_
      simp only [Home.org.injEq]
      split
      . next hid => exact (if_pos hid).symm
      . next hid => exact (if_neg hid).symm

theorem pointer_setFlag {id : Nat} {b : Bool} (h' : Home) : (db.setFlag id b).pointer h' = db.pointer h' := by
  cases h' with
  | router id => rfl
  | org id => rfl

theorem pointer_switched (hhas : db.Has h) (h' : Home)
    : (db.switched h new old).pointer h' = if h' = h then new else db.pointer h' := by
  rw [← pointer_setPointer hhas]
  cases old with
  | none => exact pointer_setFlag h'
  | some old => exact (pointer_setFlag h').trans (pointer_setFlag h')

theorem groups_setPointer : (db.setPointer h new).groups = db.groups := by
  cases h with
  | router id => rfl
  | org id => rfl

theorem mem_setFlag {id : Nat} {b : Bool} {g : SecurityGroup}
    : g ∈ (db.setFlag id b).groups
        ↔
      ∃ g0 ∈ db.groups, g = { g0 with
        isDefault := if g0.id = id then b else g0.isDefault
        updatedAt := g0.updatedAt + if g0.id = id then 1 else 0 } := by
  rw [SgDB.setFlag, mem_update]
  refine exists_congr (fun g0 => and_congr_right (fun _ => ?_))
  by_cases hid : g0.id = id
  . simp [hid, Keyed.setKey, Keyed.key]
  . simp [hid]

def SecurityGroup.switched (new : Nat) (old : Option Nat) (g : SecurityGroup) : SecurityGroup :=
  { g with
    isDefault := if g.id = new then true else if old = some g.id then false else g.isDefault
    updatedAt := g.updatedAt + (if old = some g.id then 1 else 0) + if g.id = new then 1 else 0 }

theorem mem_switched
    : g ∈ (db.switched h new old).groups ↔ ∃ g0 ∈ db.groups, g = g0.switched new old := by
  cases old with
  | none =>
    rw [SgDB.switched, mem_setFlag, groups_setPointer]
    simp [SecurityGroup.switched]
  | some old =>
    rw [SgDB.switched, mem_setFlag]
    constructor
    . intro ⟨g1, hg1, heq⟩
      have ⟨g0, hg0, heq1⟩ := mem_setFlag.mp hg1
      rw [groups_setPointer] at hg0
      refine ⟨g0, hg0, ?_⟩
      rw [heq, heq1]
      simp only [SecurityGroup.switched, some.injEq, eq_comm]
    . intro ⟨g0, hg0, heq⟩
      refine ⟨_, mem_setFlag.mpr ⟨g0, by rwa [groups_setPointer], rfl⟩, ?_⟩
      rw [heq]
      simp only [SecurityGroup.switched, some.injEq, eq_comm]

structure Ready (org : Nat) (db : SgDB) (h : Home) (new : Nat) (old : Option Nat) : Prop where
  has : db.Has h
  group : ∃ g ∈ db.groups, g.id = new ∧ g.home = h
  flag : ∀ g ∈ db.groups, g.id ≠ new → (g.isDefault = true ↔ db.pointer g.home = g.id)
  named : ∀ h, db.pointer h ≠ 0 → ∃ g ∈ db.groups, g.id = db.pointer h ∧ g.home = h
  owner : ∀ g ∈ db.groups, g.routerID ≠ 0 → ∃ r ∈ db.routers, r.id = g.routerID ∧ r.owner = g.owner
  replaced : db.pointer h ≠ 0 → old = some (db.pointer h)
  -- without an old default the row that was picked is none, and not a foreign one
  picked : db.pointer h = 0 → ∀ g ∈ db.groups, old = some g.id → g.id ≠ new → g.isDefault = false ∧ g.owner = org

theorem Ready.flag_switched (hr : Ready org db h new old) (hg : g ∈ db.groups)
    : (if g.id = new then true else if old = some g.id then false else g.isDefault) = true
        ↔
      (if g.home = h then new else db.pointer g.home) = g.id := by
  by_cases hnew : g.id = new
  . have ⟨g', hg', hid, hhome⟩ := hr.group
    have hsame := eq_of_key hg hg' (hnew.trans hid.symm)
    rw [if_pos hnew, hsame, if_pos hhome, hid]
    simp
  . rw [if_neg hnew]
    have hflag := hr.flag g hg hnew
    by_cases hhome : g.home = h
    . -- another group of the home is not its default any more
      rw [if_pos hhome]
      refine iff_of_false ?_ (fun heq => hnew heq.symm)
      split
      . simp
      . next hold =>
        rw [hflag, hhome]
        intro hpointer
        have hne : db.pointer h ≠ 0 := by
          have := id_pos hg
          omega
        exact hold (hpointer ▸ hr.replaced hne)
    . rw [if_neg hhome, ← hflag]
      split
      . next hold =>
        -- the old default would be one of the home
        by_cases hzero : db.pointer h = 0
        . simp [(hr.picked hzero g hg hold hnew).1]
        . have ⟨g', hg', hid, hhome'⟩ := hr.named h hzero
          have hid' := some.inj (hold.symm.trans (hr.replaced hzero))
          have hsame := eq_of_key hg hg' (hid'.trans hid.symm)
          exact absurd (hsame ▸ hhome') hhome
      . rfl

theorem routers_setPointer {r : Router} (hr : r ∈ db.routers)
    : ∃ r' ∈ (db.setPointer h new).routers, r'.id = r.id ∧ r'.owner = r.owner := by
  cases h with
  | router id =>
    refine ⟨_, mem_update.mpr ⟨r, hr, rfl⟩, ?_⟩
    split
    . exact ⟨rfl, rfl⟩
    . exact ⟨rfl, rfl⟩
  | org id => exact ⟨r, hr, rfl, rfl⟩

theorem routers_switched : (db.switched h new old).routers = (db.setPointer h new).routers := by
  cases old with
  | none => rfl
  | some old => rfl

theorem orgs_switched : (db.switched h new old).orgs = (db.setPointer h new).orgs := by
  cases old with
  | none => rfl
  | some old => rfl

theorem has_switched (hhas : db.Has h') : (db.switched h new old).Has h' := by
  cases h' with
  | router id =>
    have ⟨r, hr, hid⟩ := hhas
    have ⟨r', hr', hid', _⟩ := @routers_setPointer db h new r hr
    exact ⟨r', routers_switched ▸ hr', hid'.trans hid⟩
  | org id =>
    have ⟨o, ho, hid⟩ := hhas
    unfold SgDB.Has
    rw [orgs_switched]
    cases h with
    | router id' => exact ⟨o, ho, hid⟩
    | org id' =>
      refine ⟨_, mem_update.mpr ⟨o, ho, rfl⟩, ?_⟩
      split
      . exact hid
      . exact hid

theorem Ready.consistent (hr : Ready org db h new old) : (db.switched h new old).Consistent := by
  constructor
  . intro g hg
    have ⟨g0, hg0, heq⟩ := mem_switched.mp hg
    rw [pointer_switched hr.has, heq]
    exact hr.flag_switched hg0
  . intro h' hne
    rw [pointer_switched hr.has] at hne ⊢
    split at hne
    . next heq =>
      have ⟨g, hg, hid, hhome⟩ := hr.group
      rw [if_pos heq]
      exact ⟨_, mem_switched.mpr ⟨g, hg, rfl⟩, hid, hhome.trans heq.symm⟩
    . next hother =>
      have ⟨g, hg, hid, hhome⟩ := hr.named h' hne
      rw [if_neg hother]
      exact ⟨_, mem_switched.mpr ⟨g, hg, rfl⟩, hid, hhome⟩
  . intro g hg hrouter
    have ⟨g0, hg0, heq⟩ := mem_switched.mp hg
    rw [heq] at hrouter ⊢
    have ⟨r, hrmem, hid, howner⟩ := hr.owner g0 hg0 hrouter
    have ⟨r', hr', hid', howner'⟩ := @routers_setPointer db h new r hrmem
    rw [routers_switched]
    exact ⟨r', hr', hid'.trans hid, howner'.trans howner⟩

theorem Frame.refl (org : Nat) (db : SgDB) : Frame org db db :=
  ⟨fun _ _ => Iff.rfl, fun _ _ => Iff.rfl, fun _ _ => Iff.rfl⟩

theorem Frame.trans (hf : Frame org db db') (hf' : Frame org db' db'') : Frame org db db'' :=
  ⟨fun g hg => (hf'.groups g hg).trans (hf.groups g hg), fun r hr => (hf'.routers r hr).trans (hf.routers r hr),
    fun o ho => (hf'.orgs o ho).trans (hf.orgs o ho)⟩

def HomeOf (db : SgDB) (org : Nat) : Home → Prop
  | .router id => id ≠ 0 ∧ ∃ r ∈ db.routers, r.id = id ∧ r.owner = org
  | .org id => id = org

theorem HomeOf.switched (hhome : HomeOf db org h') : HomeOf (db.switched h new old) org h' := by
  cases h' with
  | router id =>
    have ⟨hne, r, hr, hid, howner⟩ := hhome
    have ⟨r', hr', hid', howner'⟩ := @routers_setPointer db h new r hr
    exact ⟨hne, r', routers_switched ▸ hr', hid'.trans hid, howner'.trans howner⟩
  | org id => exact hhome

theorem mem_update_of_other [Keyed α] {t : Table α} {p : α → Bool} {f : α → α} {a : α}
    (owner : α → Nat) {org : Nat} (hother : owner a ≠ org)
    (hp : ∀ b ∈ t, p b = true → owner b = org ∧ owner (Keyed.setKey (f b) (Keyed.key b)) = org)
    : a ∈ t.update p f ↔ a ∈ t := by
  rw [mem_update]
  constructor
  . intro ⟨b, hb, heq⟩
    split at heq
    . next hpb => exact absurd (heq ▸ (hp b hb hpb).2) hother
    . exact heq ▸ hb
  . intro ha
    refine ⟨a, ha, ?_⟩
    rw [if_neg]
    intro hpa
    exact hother (hp a ha hpa).1

theorem frame_setPointer {org : Nat} (hhome : HomeOf db org h) : Frame org db (db.setPointer h new) := by
  cases h with
  | router id =>
    have ⟨_, r, hr, hid, howner⟩ := hhome
    refine ⟨fun _ _ => Iff.rfl, ?_, fun _ _ => Iff.rfl⟩
    intro r' hother
    apply mem_update_of_other Router.owner hother
    intro b hb hpb
    have hsame := eq_of_key hb hr ((beq_iff_eq.mp hpb).trans hid.symm)
    exact ⟨hsame ▸ howner, hsame ▸ howner⟩
  | org id =>
    refine ⟨fun _ _ => Iff.rfl, fun _ _ => Iff.rfl, ?_⟩
    intro o hother
    apply mem_update_of_other Organization.id hother
    intro b hb hpb
    have hid := (beq_iff_eq.mp hpb).trans hhome
    exact ⟨hid, hid⟩

theorem Ready.owner_of_home (hr : Ready org db h new old) (hhome : HomeOf db org h)
    {g g' : SecurityGroup} (hg : g ∈ db.groups) (hg' : g' ∈ db.groups) (hid : g.id = g'.id) (hgh : g'.home = h)
    : g.owner = org := by
  cases eq_of_key hg hg' hid
  cases h with
  | router id =>
    have ⟨hne, r, hrmem, hid, howner⟩ := hhome
    have hrouter := (home_router_iff hne).mp hgh
    have ⟨r', hr', hid', howner'⟩ := hr.owner g hg (hrouter ▸ hne)
    have hsame := eq_of_key hr' hrmem ((hid'.trans hrouter).trans hid.symm)
    rw [← howner', hsame, howner]
  | org id => exact (home_org_iff.mp hgh).2.trans hhome

theorem Ready.frame (hr : Ready org db h new old) (hhome : HomeOf db org h)
    : Frame org db (db.switched h new old) := by
  have hpointer := @frame_setPointer db h new org hhome
  refine ⟨?_, routers_switched ▸ hpointer.routers, orgs_switched ▸ hpointer.orgs⟩
  -- a row of another organization is neither the new nor the old default
  have hsame : ∀ g ∈ db.groups, g.owner ≠ org → g.switched new old = g := by
    intro g hg hother
    have hnew : g.id ≠ new := by
      intro hnew
      obtain ⟨g', hg', hid, hgh⟩ := hr.group
      exact hother (hr.owner_of_home hhome hg hg' (hnew.trans hid.symm) hgh)
    have hold : old ≠ some g.id := by
      intro hold
      by_cases hzero : db.pointer h = 0
      . exact hother (hr.picked hzero g hg hold hnew).2
      . obtain ⟨g', hg', hid, hgh⟩ := hr.named h hzero
        have hid' := some.inj (hold.symm.trans (hr.replaced hzero))
        exact hother (hr.owner_of_home hhome hg hg' (hid'.trans hid.symm) hgh)
    simp [SecurityGroup.switched, hnew, hold]
  intro g hother
  rw [mem_switched]
  constructor
  . intro ⟨g0, hg0, heq⟩
    have hother0 : g0.owner ≠ org := by
      rw [heq] at hother
      exact hother
    rw [hsame g0 hg0 hother0] at heq
    exact heq ▸ hg0
  . intro hg
    exact ⟨g, hg, (hsame g hg hother).symm⟩

end Switch

section Functions

variable {db db' : SgDB} {m : MemberShip}

def homeOf (m : MemberShip) : Option Router → Home
  | some r => .router r.id
  | none => .org m.orgID

theorem getOrg_eq_ok {id : Nat} {org : Organization} (h : db.getOrg id = .ok org)
    : org ∈ db.orgs ∧ org.id = id := by
  unfold SgDB.getOrg at h
  split at h
  . contradiction
  . exact byKey?_eq_some.mp (found_eq_ok.mp h)

theorem switch_eq_ok {new pick : Nat} {router : Option Router} (hrouter : ∀ r ∈ router, r ∈ db.routers)
    (h : db.switch m new router pick = .ok db')
    : ∃ old, db' = db.switched (homeOf m router) new old ∧ db.Has (homeOf m router) ∧
        (db.pointer (homeOf m router) ≠ 0 → old = some (db.pointer (homeOf m router))) ∧
        (db.pointer (homeOf m router) = 0 → ∀ id, old = some id →
          ∃ r ∈ router, r.defaultSG = 0 ∧ ∃ g ∈ db.groups.rows[pick % db.groups.rows.length]?, g.id = id) := by
  unfold SgDB.switch at h
  split at h
  . next r =>
    have hr := hrouter r rfl
    have hpointer := pointer_router hr
    simp only [bind_eq_ok, found_eq_ok, pure_eq_ok] at h
    obtain ⟨oldSg, htake, heq⟩ := h
    refine ⟨some oldSg.id, heq.symm, ⟨r, hr, rfl⟩, ?_, ?_⟩
    . intro hne
      rw [homeOf, hpointer] at hne ⊢
      rw [SgDB.takeGroup, if_neg hne] at htake
      exact congrArg some (byKey?_eq_some.mp htake).2
    . intro hzero id hid
      rw [homeOf, hpointer] at hzero
      rw [SgDB.takeGroup, if_pos hzero] at htake
      exact ⟨r, rfl, hzero, oldSg, htake, some.inj hid⟩
  . simp only [bind_eq_ok] at h
    obtain ⟨org, horg, h⟩ := h
    obtain ⟨hmem, hid⟩ := getOrg_eq_ok horg
    have hpointer := pointer_org hmem
    rw [hid] at hpointer
    split at h
    . next hpos =>
      simp only [bind_eq_ok, found_eq_ok, pure_eq_ok] at h
      obtain ⟨oldSg, hold, heq⟩ := h
      have hoid : oldSg.id = org.defaultSG := (byKey?_eq_some.mp hold).2
      refine ⟨some oldSg.id, ?_, ⟨org, hmem, hid⟩, ?_, ?_⟩
      . rw [← heq, hid]
        rfl
      . intro _
        rw [homeOf, hpointer, hoid]
      . intro hzero
        rw [homeOf, hpointer] at hzero
        omega
    . next hzero =>
      simp only [pure_eq_ok] at h
      refine ⟨none, ?_, ⟨org, hmem, hid⟩, ?_, by simp⟩
      . rw [← h, hid]
        rfl
      . intro hne
        rw [homeOf, hpointer] at hne
        omega

theorem SgDB.Consistent.pointer_lt (hc : db.Consistent) (h : Home) : db.pointer h < db.groups.next := by
  by_cases hzero : db.pointer h = 0
  . have := db.groups.pos
    omega
  . have ⟨g, hg, hid, _⟩ := hc.named h hzero
    have hlt : g.id < db.groups.next := (db.groups.bounds g hg).2
    omega

section Insert

variable {g : SecurityGroup}

theorem pointer_insertGroup (h : Home) : (db.insertGroup g).pointer h = db.pointer h := by
  cases h with
  | router id => rfl
  | org id => rfl

theorem mem_insertGroup
    : g' ∈ (db.insertGroup g).groups ↔ g' ∈ db.groups ∨ g' = { g with id := db.groups.next } :=
  mem_insert

theorem frame_insertGroup : Frame g.owner db (db.insertGroup g) := by
  refine ⟨?_, fun _ _ => Iff.rfl, fun _ _ => Iff.rfl⟩
  intro g' hother
  rw [mem_insertGroup]
  refine or_iff_left ?_
  intro heq
  rw [heq] at hother
  contradiction

structure Inserted (db : SgDB) (g : SecurityGroup) : Prop where
  flag : ∀ g' ∈ (db.insertGroup g).groups, g'.id ≠ db.groups.next →
    (g'.isDefault = true ↔ (db.insertGroup g).pointer g'.home = g'.id)
  named : ∀ h, (db.insertGroup g).pointer h ≠ 0 →
    ∃ g' ∈ (db.insertGroup g).groups, g'.id = (db.insertGroup g).pointer h ∧ g'.home = h
  owner : ∀ g' ∈ (db.insertGroup g).groups, g'.routerID ≠ 0 →
    ∃ r ∈ db.routers, r.id = g'.routerID ∧ r.owner = g'.owner

section Consistent

variable (hc : db.Consistent) (hrouter : g.routerID ≠ 0 → ∃ r ∈ db.routers, r.id = g.routerID ∧ r.owner = g.owner)

include hc hrouter

theorem SgDB.Consistent.inserted : Inserted db g := by
  refine ⟨?_, ?_, ?_⟩
  . intro g' hg' hne
    rw [pointer_insertGroup]
    obtain hold | hnew := mem_insertGroup.mp hg'
    . exact hc.flag g' hold
    . rw [hnew] at hne
      contradiction
  . intro h hne
    rw [pointer_insertGroup] at hne ⊢
    have ⟨g', hg', hid, hhome⟩ := hc.named h hne
    exact ⟨g', mem_insertGroup.mpr (.inl hg'), hid, hhome⟩
  . intro g' hg' hne
    obtain hold | hnew := mem_insertGroup.mp hg'
    . exact hc.owner g' hold hne
    . rw [hnew] at hne ⊢
      exact hrouter hne

theorem SgDB.Consistent.insertGroup (hflag : g.isDefault = false) : (db.insertGroup g).Consistent := by
  have hi := hc.inserted hrouter
  refine ⟨?_, hi.named, hi.owner⟩
  intro g' hg'
  by_cases hnew : g'.id = db.groups.next
  . have hfalse : g'.isDefault = false := by
      obtain hold | heq := mem_insertGroup.mp hg'
      . have hlt : g'.id < db.groups.next := (db.groups.bounds g' hold).2
        omega
      . rw [heq, hflag]
    have hlt := hc.pointer_lt g'.home
    rw [hfalse, pointer_insertGroup, hnew]
    refine iff_of_false (by simp) ?_
    omega
  . exact hi.flag g' hg' hnew

end Consistent

theorem insertGroup_picked
    (h : g' ∈ (db.insertGroup g).groups.rows[pick % (db.insertGroup g).groups.rows.length]?)
    : g' ∈ db.groups.rows[pick % (db.groups.rows.length + 1)]? ∨ g'.id = db.groups.next := by
  have hrows : (db.insertGroup g).groups.rows = db.groups.rows ++ [{ g with id := db.groups.next }] := rfl
  rw [hrows, length_append, length_singleton, getElem?_append] at h
  split at h
  . exact .inl h
  . rw [getElem?_singleton] at h
    split at h
    . exact .inr (by rw [← some.inj h])
    . contradiction

end Insert

section String

variable {name : String} {isDefault : Bool} {router : Option Router}

theorem createSecgroup_inserts {pick id : Nat}
    (h : db.createSecgroup m name isDefault router pick = .ok (id, db'))
    : id = db.groups.next ∧
        if isDefault = true then
          (db.insertGroup (SgDB.newGroup m name isDefault router)).switch m id router pick = .ok db'
        else
          db' = db.insertGroup (SgDB.newGroup m name isDefault router) := by
  unfold SgDB.createSecgroup at h
  cases isDefault with
  | false =>
    cases router
    all_goals
      simp only [bind_eq_ok, Bool.false_eq_true, ↓reduceIte, pure_eq_ok] at h
      obtain ⟨_, _, _, _, _, _, h⟩ := h
      cases h
      exact ⟨rfl, rfl⟩
  | true =>
    cases router
    all_goals
      simp only [bind_eq_ok, ↓reduceIte, pure_eq_ok] at h
      obtain ⟨_, _, _, _, _, _, _, hswitch, h⟩ := h
      cases h
      exact ⟨rfl, hswitch⟩

theorem newGroup_home (hrouter : ∀ r ∈ router, r ∈ db.routers)
    : ({ SgDB.newGroup m name isDefault router with id := db.groups.next } : SecurityGroup).home
        = homeOf m router := by
  cases router with
  | none => rfl
  | some r =>
    have hpos := Nat.ne_of_gt (db.routers.bounds r (hrouter r rfl)).1
    exact (home_router_iff hpos).mpr rfl

theorem newGroup_router (hrouter : ∀ r ∈ router, r ∈ db.routers ∧ r.owner = m.orgID)
    (hne : (SgDB.newGroup m name isDefault router).routerID ≠ 0)
    : ∃ r ∈ db.routers, r.id = (SgDB.newGroup m name isDefault router).routerID ∧
        r.owner = (SgDB.newGroup m name isDefault router).owner := by
  cases router with
  | none => contradiction
  | some r => exact ⟨r, (hrouter r rfl).1, rfl, (hrouter r rfl).2⟩

end String

theorem homeOf_own (hrouter : ∀ r ∈ router, r ∈ db.routers ∧ r.owner = m.orgID)
    : HomeOf db m.orgID (homeOf m router) := by
  cases router with
  | none => rfl
  | some r =>
    have ⟨hr, howner⟩ := hrouter r rfl
    exact ⟨Nat.ne_of_gt (db.routers.bounds r hr).1, r, hr, rfl, howner⟩

theorem createSecgroup_eq_ok {pick id : Nat}
    (hc : db.Consistent) (hrouter : ∀ r ∈ router, r ∈ db.routers ∧ r.owner = m.orgID)
    (hpick : isDefault = true → ∀ r ∈ router, r.defaultSG = 0 →
      db.PicksOwn m.orgID (db.groups.rows.length + 1) pick)
    (h : db.createSecgroup m name isDefault router pick = .ok (id, db'))
    : db'.Consistent ∧ Frame m.orgID db db' ∧
        (isDefault = true → db'.Has (homeOf m router) ∧ HomeOf db' m.orgID (homeOf m router) ∧
          db'.pointer (homeOf m router) = id) := by
  have ⟨hid, hdb⟩ := createSecgroup_inserts h
  have hframe :=
    @frame_insertGroup db (SgDB.newGroup m name isDefault router)
  cases isDefault with
  | false =>
    rw [if_neg (by simp)] at hdb
    rw [hdb]
    exact ⟨hc.insertGroup (newGroup_router hrouter) rfl, hframe, by simp⟩
  | true =>
    rw [if_pos rfl] at hdb
    have hi := hc.inserted (@newGroup_router db m name true router hrouter)
    have hmem : ∀ r ∈ router, r ∈ (db.insertGroup (SgDB.newGroup m name true router)).routers :=
      fun r hr => (hrouter r hr).1
    have ⟨old, heq, hhas, hreplaced, hpicked⟩ := switch_eq_ok hmem hdb
    have hready : Ready m.orgID (db.insertGroup (SgDB.newGroup m name true router)) (homeOf m router) id old := by
      refine ⟨hhas, ?_, ?_, hi.named, hi.owner, hreplaced, ?_⟩
      . exact ⟨_, mem_insertGroup.mpr (.inr rfl), hid.symm, newGroup_home (fun r hr => (hrouter r hr).1)⟩
      . rw [hid]
        exact hi.flag
      . intro hzero g hg hold hne
        have ⟨r, hr, hrzero, g', hg', hgid⟩ := hpicked hzero g.id hold
        obtain hrow | hnew := insertGroup_picked hg'
        . have hmem := mem_of_getElem? hrow
          have hsame := eq_of_key hg (mem_insertGroup.mpr (.inl hmem)) hgid.symm
          rw [hsame]
          exact hpick rfl r hr hrzero g' hrow
        . rw [← hgid, hid] at hne
          contradiction
    rw [heq]
    refine ⟨hready.consistent, hframe.trans (hready.frame (homeOf_own hrouter)),
      fun _ => ⟨has_switched hhas, HomeOf.switched (homeOf_own hrouter), ?_⟩⟩
    . rw [pointer_switched hhas, if_pos rfl]

theorem SgDB.Consistent.of_routers (hc : db.Consistent) (hgroups : db'.groups = db.groups)
    (hpointer : ∀ h, db'.pointer h = db.pointer h)
    (hrouters : ∀ r ∈ db.routers, ∃ r' ∈ db'.routers, r'.id = r.id ∧ r'.owner = r.owner)
    : db'.Consistent := by
  refine ⟨?_, ?_, ?_⟩
  . intro g hg
    rw [hpointer]
    exact hc.flag g (hgroups ▸ hg)
  . intro h hne
    rw [hpointer] at hne ⊢
    rw [hgroups]
    exact hc.named h hne
  . intro g hg hne
    have ⟨r, hr, hid, howner⟩ := hc.owner g (hgroups ▸ hg) hne
    have ⟨r', hr', hid', howner'⟩ := hrouters r hr
    exact ⟨r', hr', hid'.trans hid, howner'.trans howner⟩

theorem SgDB.Consistent.insertRouter (hc : db.Consistent) {r : Router} (hr : r.defaultSG = 0)
    : (db.insertRouter r).Consistent := by
  refine hc.of_routers rfl ?_ ?_
  . intro h
    cases h with
    | org id => rfl
    | router id =>
      simp only [SgDB.pointer, SgDB.insertRouter, byKey?_insert]
      split
      . next hid =>
        have hnone : db.routers.byKey? id = none := by
          cases hkey : db.routers.byKey? id with
          | none => rfl
          | some r' =>
            have ⟨hmem, hrid⟩ := byKey?_eq_some.mp hkey
            have := (db.routers.bounds r' hmem).2
            omega
        rw [hnone]
        exact hr
      . rfl
  . intro r' hr'
    exact ⟨r', mem_insert.mpr (.inl hr'), rfl, rfl⟩

theorem frame_insertRouter {r : Router} : Frame r.owner db (db.insertRouter r) := by
  refine ⟨fun _ _ => Iff.rfl, ?_, fun _ _ => Iff.rfl⟩
  intro r' hother
  refine mem_insert.trans (or_iff_left ?_)
  intro heq
  rw [heq] at hother
  contradiction

theorem createRouter_eq_ok {pick : Nat} (hc : db.Consistent)
    (hpick : db.PicksOwn m.orgID (db.groups.rows.length + 1) pick)
    (h : db.createRouter m name pick = .ok db')
    : db'.Consistent ∧ Frame m.orgID db db' := by
  unfold SgDB.createRouter at h
  simp only [bind_eq_ok, require_eq_ok, pure_eq_ok] at h
  obtain ⟨_, _, _, _, ⟨sg, db2⟩, hcreate, heq⟩ := h
  have hc1 := @SgDB.Consistent.insertRouter db hc ⟨db.routers.next, m.orgID, name, 0⟩ rfl
  have hframe1 := @frame_insertRouter db ⟨db.routers.next, m.orgID, name, 0⟩
  obtain ⟨hc2, hframe2, hpointer⟩ := createSecgroup_eq_ok hc1 (by
    intro r hr
    cases hr
    exact ⟨mem_insert.mpr (.inr rfl), rfl⟩) (fun _ _ _ _ => hpick) hcreate
  obtain ⟨hhas, hown, hpointer⟩ := hpointer rfl
  rw [← heq]
  constructor
  . -- the group is named a second time
    refine hc2.of_routers rfl ?_ (fun r hr => @routers_setPointer db2 (.router db.routers.next) sg r hr)
    intro h
    refine (@pointer_setPointer db2 (.router db.routers.next) sg hhas h).trans ?_
    split
    . next hh => rw [hh, ← hpointer, homeOf]
    . rfl
  . refine (hframe1.trans hframe2).trans (@frame_setPointer db2 (.router db.routers.next) sg m.orgID ?_)
    exact hown

theorem getRouter_eq_ok {id : Nat} {router : Option Router} (h : db.getRouter m id = .ok router)
    : ∀ r ∈ router, r ∈ db.routers ∧ r.id = id := by
  unfold SgDB.getRouter at h
  split at h
  . cases h
    simp
  . simp only [bind_eq_ok, found_eq_ok, require_eq_ok, pure_eq_ok] at h
    obtain ⟨r, hfind, _, _, heq⟩ := h
    obtain ⟨hmem, hid⟩ := find?_eq_some hfind
    simp only [Bool.and_eq_true, beq_iff_eq] at hid
    intro r' hr'
    rw [← heq] at hr'
    cases hr'
    exact ⟨hmem, hid.1⟩

structure Fetched (db : SgDB) (sg : SecurityGroup) (router : Option Router) : Prop where
  mem : sg ∈ db.groups
  found : ∀ r ∈ router, r ∈ db.routers ∧ r.id = sg.routerID
  absent : router = none → sg.routerID = 0

theorem getSecgroup_eq_ok {id : Nat} {sg : SecurityGroup} {router : Option Router}
    (h : db.getSecgroup m id = .ok (sg, router))
    : Fetched db sg router ∧ (sg.id = id ∨ id = 0 ∧ sg.name = SystemDefaultSGName) := by
  unfold SgDB.getSecgroup at h
  simp only [bind_eq_ok, found_eq_ok] at h
  obtain ⟨sg', hsg, hrest⟩ := h
  obtain ⟨hmem, hid⟩ : sg' ∈ db.groups ∧ (sg'.id = id ∨ id = 0 ∧ sg'.name = SystemDefaultSGName) := by
    split at hsg
    . next hzero =>
      obtain ⟨hmem, hname⟩ := find?_eq_some hsg
      exact ⟨hmem, .inr ⟨hzero, beq_iff_eq.mp hname⟩⟩
    . obtain ⟨hmem, hid⟩ := find?_eq_some hsg
      simp only [Bool.and_eq_true, beq_iff_eq] at hid
      exact ⟨hmem, .inl hid.1⟩
  split at hrest
  . next hzero =>
    simp only [bind_eq_ok, require_eq_ok, pure_eq_ok] at hrest
    obtain ⟨_, hnone, _, _, heq⟩ := hrest
    cases heq
    cases hnone
    exact ⟨⟨hmem, by simp, fun _ => hzero⟩, hid⟩
  . simp only [bind_eq_ok, map_eq_ok, found_eq_ok, require_eq_ok, pure_eq_ok] at hrest
    obtain ⟨_, ⟨r, hfind, hsome⟩, _, _, heq⟩ := hrest
    cases heq
    cases hsome
    refine ⟨⟨hmem, ?_, by simp⟩, hid⟩
    intro r' hr'
    cases hr'
    exact byKey?_eq_some.mp hfind

namespace Fetched

variable {sg : SecurityGroup} {router : Option Router}

theorem home (hf : Fetched db sg router) (howner : sg.owner = m.orgID) : sg.home = homeOf m router := by
  cases router with
  | none => exact home_org_iff.mpr ⟨hf.absent rfl, howner⟩
  | some r =>
    have ⟨hr, hid⟩ := hf.found r rfl
    have hpos := Nat.ne_of_gt (db.routers.bounds r hr).1
    exact (home_router_iff hpos).mpr hid.symm

section Consistent

variable (hc : db.Consistent) (hf : Fetched db sg router)

include hc hf

theorem own (howner : sg.owner = m.orgID) : ∀ r ∈ router, r ∈ db.routers ∧ r.owner = m.orgID := by
  intro r hr
  have ⟨hmem, hid⟩ := hf.found r hr
  have hpos := Nat.ne_of_gt (db.routers.bounds r hmem).1
  have ⟨r', hr', hid', howner'⟩ := hc.owner sg hf.mem (hid ▸ hpos)
  have hsame := eq_of_key hmem hr' (hid.trans hid'.symm)
  exact ⟨hmem, by rw [hsame, howner', howner]⟩

theorem switch (horg : ∃ o ∈ db.orgs, o.id = m.orgID) (pick : Nat)
    : ∃ db', db.switch m sg.id router pick = .ok db' := by
  cases router with
  | some r =>
    have ⟨hr, _⟩ := hf.found r rfl
    have ⟨old, hold⟩ : ∃ old, db.takeGroup r.defaultSG pick = some old := by
      unfold SgDB.takeGroup
      split
      . have hpos := length_pos_of_mem hf.mem
        exact ⟨_, getElem?_eq_getElem (Nat.mod_lt _ hpos)⟩
      . next hne =>
        have ⟨g, hg, hid, _⟩ := hc.named (.router r.id) (by rw [pointer_router hr]; exact hne)
        rw [pointer_router hr] at hid
        exact ⟨g, byKey?_eq_some.mpr ⟨hg, hid⟩⟩
    exact ⟨_, bind_eq_ok.mpr ⟨old, found_eq_ok.mpr hold, rfl⟩⟩
  | none =>
    have ⟨o, ho, hid⟩ := horg
    have hget : db.getOrg m.orgID = .ok o := by
      have hpos : m.orgID ≠ 0 := hid ▸ Nat.ne_of_gt (db.orgs.bounds o ho).1
      rw [SgDB.getOrg, if_neg hpos, found_eq_ok]
      exact byKey?_eq_some.mpr ⟨ho, hid⟩
    by_cases hzero : 0 < o.defaultSG
    . have ⟨g, hg, hgid, _⟩ := hc.named (.org o.id) (by rw [pointer_org ho]; omega)
      rw [pointer_org ho] at hgid
      have hfound := byKey?_eq_some.mpr ⟨hg, hgid⟩
      exact ⟨_, bind_eq_ok.mpr
        ⟨o, hget, (if_pos hzero).trans (bind_eq_ok.mpr ⟨g, found_eq_ok.mpr hfound, rfl⟩)⟩⟩
    . exact ⟨_, bind_eq_ok.mpr ⟨o, hget, if_neg hzero⟩⟩

theorem switched (howner : sg.owner = m.orgID) (hpick : ∀ r ∈ router, r.defaultSG = 0 →
      db.PicksOwn m.orgID db.groups.rows.length pick)
    (h : db.switch m sg.id router pick = .ok db')
    : db'.Consistent ∧ Frame m.orgID db db' ∧
      ∀ g ∈ db'.groups, g.id = sg.id → g.isDefault = true ∧ g.owner = m.orgID := by
  have hown := hf.own hc howner
  have ⟨old, heq, hhas, hreplaced, hpicked⟩ := switch_eq_ok (fun r hr => (hown r hr).1) h
  have hready : Ready m.orgID db (homeOf m router) sg.id old := by
    refine ⟨hhas, ⟨sg, hf.mem, rfl, hf.home howner⟩, fun g hg _ => hc.flag g hg, hc.named, hc.owner, hreplaced, ?_⟩
    intro hzero g hg hold _
    have ⟨r, hr, hrzero, g', hg', hgid⟩ := hpicked hzero g.id hold
    have hsame := eq_of_key hg (mem_of_getElem? hg') hgid.symm
    exact hsame ▸ hpick r hr hrzero g' hg'
  rw [heq]
  refine ⟨hready.consistent, hready.frame (homeOf_own hown), ?_⟩
  intro g hg hid
  have ⟨g0, hg0, hgeq⟩ := mem_switched.mp hg
  have hid0 : g0.id = sg.id := by
    rw [hgeq] at hid
    exact hid
  have hsame := eq_of_key hg0 hf.mem hid0
  rw [hgeq, hsame]
  exact ⟨if_pos rfl, howner⟩

end Consistent

end Fetched

end Functions

end Web.Secgroup
