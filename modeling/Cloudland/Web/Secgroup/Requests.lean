import Cloudland.Web.Secgroup.Default

/-!
What the requests on security groups keep: the updates and the deletions, and from them the runs.
-/

namespace Web.Secgroup

open Table Check

variable {db db' : SgDB} {m : MemberShip} {sg : SecurityGroup} {router : Option Router}

section Update

variable {p : SecurityGroup → Bool} {f : SecurityGroup → SecurityGroup}

def Renames (db : SgDB) (p : SecurityGroup → Bool) (f : SecurityGroup → SecurityGroup) : Prop :=
  ∀ g ∈ db.groups, p g = true →
    (f g).owner = g.owner ∧ (f g).routerID = g.routerID ∧ (f g).isDefault = g.isDefault

section Renames

variable (hf : Renames db p f)

include hf

theorem Renames.mem (hg : g ∈ db.groups.update p f)
    : ∃ g0 ∈ db.groups, g.id = g0.id ∧ g.owner = g0.owner ∧ g.routerID = g0.routerID ∧
        g.isDefault = g0.isDefault := by
  have ⟨g0, hg0, heq⟩ := mem_update.mp hg
  refine ⟨g0, hg0, ?_⟩
  split at heq
  . next hp =>
    rw [heq]
    exact ⟨rfl, hf g0 hg0 hp⟩
  . rw [heq]
    exact ⟨rfl, rfl, rfl, rfl⟩

theorem Renames.of_mem (hg0 : g0 ∈ db.groups)
    : ∃ g ∈ db.groups.update p f, g.id = g0.id ∧ g.home = g0.home := by
  refine ⟨_, mem_update.mpr ⟨g0, hg0, rfl⟩, ?_⟩
  split
  . next hp =>
    have ⟨howner, hrouter, _⟩ := hf g0 hg0 hp
    refine ⟨rfl, ?_⟩
    show SecurityGroup.home (f g0) = _
    rw [SecurityGroup.home, howner, hrouter]
    rfl
  . exact ⟨rfl, rfl⟩

theorem Renames.consistent (hc : db.Consistent)
    : SgDB.Consistent { db with groups := db.groups.update p f } := by
  have hpointer : ∀ h, SgDB.pointer { db with groups := db.groups.update p f } h = db.pointer h := by
    intro h
    cases h with
    | router id => rfl
    | org id => rfl
  constructor
  . intro g hg
    have ⟨g0, hg0, hid, howner, hrouter, hflag⟩ := hf.mem hg
    rw [hpointer, hid, hflag, SecurityGroup.home, howner, hrouter]
    exact hc.flag g0 hg0
  . intro h hne
    rw [hpointer] at hne ⊢
    have ⟨g0, hg0, hid, hhome⟩ := hc.named h hne
    have ⟨g, hg, hid', hhome'⟩ := hf.of_mem hg0
    exact ⟨g, hg, hid'.trans hid, hhome'.trans hhome⟩
  . intro g hg hne
    have ⟨g0, hg0, _, howner, hrouter, _⟩ := hf.mem hg
    rw [hrouter] at hne ⊢
    rw [howner]
    exact hc.owner g0 hg0 hne

theorem Renames.frame (hp : ∀ g ∈ db.groups, p g = true → g.owner = org)
    : Frame org db { db with groups := db.groups.update p f } := by
  refine ⟨?_, fun _ _ => Iff.rfl, fun _ _ => Iff.rfl⟩
  intro g hother
  apply mem_update_of_other SecurityGroup.owner hother
  intro g0 hg0 hpg
  exact ⟨hp g0 hg0 hpg, (hf g0 hg0 hpg).1.trans (hp g0 hg0 hpg)⟩

end Renames

theorem updateSecgroup_eq_ok (hc : db.Consistent)
    (hf : Fetched db sg router) (howner : sg.owner = m.orgID) (horg : ∃ o ∈ db.orgs, o.id = m.orgID)
    (hpick : isDefault = true → ∀ r ∈ router, r.defaultSG = 0 → db.PicksOwn m.orgID db.groups.rows.length pick)
    (h : db.updateSecgroup m sg router name isDefault pick = .ok db')
    : db'.Consistent ∧ Frame m.orgID db db' := by
  unfold SgDB.updateSecgroup at h
  simp only [bind_eq_ok, require_eq_ok, pure_eq_ok] at h
  obtain ⟨_, _, heq⟩ := h
  by_cases hpromote : isDefault = true ∧ sg.isDefault = false
  . obtain ⟨db1, hswitch⟩ := hf.switch hc horg pick
    obtain ⟨hc1, hframe1, hnew⟩ := hf.switched hc howner (hpick hpromote.1) hswitch
    simp only [if_pos hpromote, hswitch] at heq
    rw [← heq]
    have hrenames : Renames db1 (fun g => g.id == sg.id) (fun g =>
        { g with
          name := if name ≠ "" ∧ sg.name ≠ name then name else g.name
          isDefault := true
          updatedAt := if (name ≠ "" ∧ sg.name ≠ name) ∨ isDefault = true ∧ sg.isDefault = false then
            g.updatedAt + 1 else g.updatedAt }) := by
      intro g hg hid
      exact ⟨rfl, rfl, (hnew g hg (beq_iff_eq.mp hid)).1.symm⟩
    refine ⟨hrenames.consistent hc1, hframe1.trans (hrenames.frame ?_)⟩
    intro g hg hid
    exact (hnew g hg (beq_iff_eq.mp hid)).2
  . simp only [if_neg hpromote] at heq
    rw [← heq]
    have hrenames : Renames db (fun g => g.id == sg.id) (fun g =>
        { g with
          name := if name ≠ "" ∧ sg.name ≠ name then name else g.name
          isDefault := g.isDefault
          updatedAt := if (name ≠ "" ∧ sg.name ≠ name) ∨ isDefault = true ∧ sg.isDefault = false then
            g.updatedAt + 1 else g.updatedAt }) :=
      fun _ _ _ => ⟨rfl, rfl, rfl⟩
    refine ⟨hrenames.consistent hc, hrenames.frame ?_⟩
    intro g hg hid
    have hsame : g = sg := eq_of_key hg hf.mem (beq_iff_eq.mp hid)
    exact hsame ▸ howner

end Update

theorem deleteSecgroup_not_default (hc : db.Consistent) (hsg : sg ∈ db.groups)
    (hname : sg.isDefault = true → sg.name ≠ SystemDefaultSGName) (h : db.deleteSecgroup m sg = .ok db')
    : sg.isDefault = false := by
  cases hdefault : sg.isDefault with
  | false => rfl
  | true =>
    exfalso
    have hpointer := (hc.flag sg hsg).mp hdefault
    have hpos : 0 < sg.id := id_pos hsg
    unfold SgDB.deleteSecgroup at h
    simp only [bind_eq_ok, require_eq_ok] at h
    obtain ⟨_, _, h⟩ := h
    rw [if_pos ⟨hdefault, hname hdefault⟩] at h
    by_cases hrouter : 0 < sg.routerID
    . rw [if_pos hrouter] at h
      simp only [bind_eq_ok, require_eq_ok] at h
      obtain ⟨_, hnone, _⟩ := h
      rw [SecurityGroup.home, if_neg (Nat.ne_of_gt hrouter), SgDB.pointer] at hpointer
      cases hkey : db.routers.byKey? sg.routerID with
      | none =>
        rw [hkey] at hpointer
        exact absurd hpointer (Nat.ne_of_lt hpos)
      | some r =>
        rw [hkey] at hpointer
        obtain ⟨hr, hid⟩ := byKey?_eq_some.mp hkey
        have hno := List.find?_eq_none.mp (Option.isNone_iff_eq_none.mp hnone) r hr
        have hid' : r.id = sg.routerID := hid
        have hsg' : r.defaultSG = sg.id := hpointer
        simp [hid', hsg'] at hno
    . have hzero : sg.routerID = 0 := Nat.eq_zero_of_not_pos hrouter
      rw [if_neg hrouter] at h
      simp only [bind_eq_ok, require_eq_ok] at h
      obtain ⟨_, hnone, _⟩ := h
      rw [SecurityGroup.home, if_pos hzero, SgDB.pointer] at hpointer
      cases hkey : db.orgs.byKey? sg.owner with
      | none =>
        rw [hkey] at hpointer
        exact absurd hpointer (Nat.ne_of_lt hpos)
      | some o =>
        obtain ⟨ho, hid⟩ := byKey?_eq_some.mp hkey
        have hid' : o.id = sg.owner := hid
        have hne : sg.owner ≠ 0 := hid' ▸ Nat.ne_of_gt (db.orgs.bounds o ho).1
        rw [SgDB.getOrg, if_neg hne, hkey] at hnone
        contradiction

theorem deleteSecgroup_eq_ok (hc : db.Consistent) (hsg : sg ∈ db.groups) (howner : sg.owner = m.orgID)
    (hname : sg.isDefault = true → sg.name ≠ SystemDefaultSGName) (h : db.deleteSecgroup m sg = .ok db')
    : db'.Consistent ∧ Frame m.orgID db db' := by
  have hdefault := deleteSecgroup_not_default hc hsg hname h
  have heq : db' = { db with groups := db.groups.delete (fun g => g.id == sg.id) } := by
    unfold SgDB.deleteSecgroup at h
    rw [if_neg (by simp [hdefault])] at h
    simp only [bind_eq_ok, require_eq_ok, pure_eq_ok] at h
    obtain ⟨_, _, _, _, heq⟩ := h
    exact heq.symm
  have hpointer : ∀ h, db'.pointer h = db.pointer h := by
    intro h
    rw [heq]
    cases h with
    | router id => rfl
    | org id => rfl
  have hmem : ∀ g, g ∈ db'.groups ↔ g ∈ db.groups ∧ g.id ≠ sg.id := by
    intro g
    rw [heq]
    simp
  refine ⟨⟨?_, ?_, ?_⟩, ⟨?_, ?_, ?_⟩⟩
  . intro g hg
    rw [hpointer]
    exact hc.flag g ((hmem g).mp hg).1
  . intro h hne
    rw [hpointer] at hne ⊢
    obtain ⟨g, hg, hid, hhome⟩ := hc.named h hne
    refine ⟨g, (hmem g).mpr ⟨hg, ?_⟩, hid, hhome⟩
    intro hsame
    have hgsg : g = sg := eq_of_key hg hsg hsame
    have hflag := (hc.flag g hg).mpr (by rw [hhome, hid])
    rw [hgsg, hdefault] at hflag
    contradiction
  . intro g hg hne
    obtain ⟨r, hr, hrest⟩ := hc.owner g ((hmem g).mp hg).1 hne
    exact ⟨r, heq ▸ hr, hrest⟩
  . intro g hother
    rw [hmem]
    refine and_iff_left_of_imp ?_
    intro hg hsame
    have hgsg : g = sg := eq_of_key hg hsg hsame
    exact hother (hgsg ▸ howner)
  . intro r _
    rw [heq]
  . intro o _
    rw [heq]

namespace SgDB

def Allowed (db : SgDB) : Request → Prop
  | .createRouter m _ pick => db.PicksOwn m.orgID (db.groups.rows.length + 1) pick
  | .createGroup m _ isDefault routerID pick =>
    ∀ r ∈ db.routers, r.id = routerID → r.owner = m.orgID ∧
      (isDefault = true → r.defaultSG = 0 → db.PicksOwn m.orgID (db.groups.rows.length + 1) pick)
  | .updateGroup m sgID _ isDefault pick =>
    (∃ o ∈ db.orgs, o.id = m.orgID) ∧
      ∀ g ∈ db.groups, g.id = sgID → g.owner = m.orgID ∧
        (isDefault = true → ∀ r ∈ db.routers, r.id = g.routerID → r.defaultSG = 0 →
          db.PicksOwn m.orgID db.groups.rows.length pick)
  | .deleteGroup m sgID =>
    ∀ g ∈ db.groups, g.id = sgID ∨ sgID = 0 ∧ g.name = SystemDefaultSGName →
      g.owner = m.orgID ∧ (g.isDefault = true → g.name ≠ SystemDefaultSGName)

instance (db : SgDB) (org rows pick : Nat) : Decidable (db.PicksOwn org rows pick) :=
  inferInstanceAs (Decidable (∀ g ∈ db.groups.rows[pick % rows]?, _))

instance (db : SgDB) : (r : Request) → Decidable (db.Allowed r)
  | .createRouter _ _ pick => inferInstanceAs (Decidable (db.PicksOwn _ _ pick))
  | .createGroup m _ isDefault routerID pick =>
    inferInstanceAs (Decidable (∀ r ∈ db.routers, r.id = routerID → r.owner = m.orgID ∧
      (isDefault = true → r.defaultSG = 0 → db.PicksOwn _ _ pick)))
  | .updateGroup m sgID _ isDefault pick =>
    inferInstanceAs (Decidable ((∃ o ∈ db.orgs, o.id = m.orgID) ∧
      ∀ g ∈ db.groups, g.id = sgID → g.owner = m.orgID ∧
        (isDefault = true → ∀ r ∈ db.routers, r.id = g.routerID → r.defaultSG = 0 → db.PicksOwn _ _ pick)))
  | .deleteGroup m sgID =>
    inferInstanceAs (Decidable (∀ g ∈ db.groups, g.id = sgID ∨ sgID = 0 ∧ g.name = SystemDefaultSGName →
      g.owner = m.orgID ∧ (g.isDefault = true → g.name ≠ SystemDefaultSGName)))

end SgDB

theorem request_eq_ok (hc : db.Consistent) (hok : db.Allowed r) (h : db.request r = .ok db')
    : db'.Consistent ∧ Frame r.caller.orgID db db' := by
  cases r with
  | createRouter m name pick => exact createRouter_eq_ok hc hok h
  | createGroup m name isDefault routerID pick =>
    simp only [SgDB.request, bind_eq_ok, pure_eq_ok] at h
    obtain ⟨router, hrouter, ⟨id, db1⟩, hcreate, rfl⟩ := h
    have hfound := getRouter_eq_ok hrouter
    obtain ⟨hc', hframe, _⟩ := createSecgroup_eq_ok hc
      (fun r hr => ⟨(hfound r hr).1, (hok r (hfound r hr).1 (hfound r hr).2).1⟩)
      (fun hdefault r hr hzero => (hok r (hfound r hr).1 (hfound r hr).2).2 hdefault hzero) hcreate
    exact ⟨hc', hframe⟩
  | updateGroup m sgID name isDefault pick =>
    simp only [SgDB.request, bind_eq_ok, require_eq_ok] at h
    obtain ⟨_, hne, ⟨sg, router⟩, hget, hupdate⟩ := h
    obtain ⟨hfetched, hid⟩ := getSecgroup_eq_ok hget
    have hid := hid.resolve_right (fun hzero => hne hzero.1)
    obtain ⟨howner, hpick⟩ := hok.2 sg hfetched.mem hid
    exact updateSecgroup_eq_ok hc hfetched howner hok.1
      (fun hdefault r hr hzero => hpick hdefault r (hfetched.found r hr).1 (hfetched.found r hr).2 hzero) hupdate
  | deleteGroup m sgID =>
    simp only [SgDB.request, bind_eq_ok] at h
    obtain ⟨⟨sg, router⟩, hget, hdelete⟩ := h
    obtain ⟨hfetched, hid⟩ := getSecgroup_eq_ok hget
    obtain ⟨howner, hname⟩ := hok sg hfetched.mem hid
    exact deleteSecgroup_eq_ok hc hfetched.mem howner hname hdelete

theorem step_keeps (hc : db.Consistent) (hstep : Guarded SgDB.Allowed SgDB.Step db r db')
    : db'.Consistent ∧ Frame r.caller.orgID db db' := by
  obtain ⟨hok, rfl⟩ := hstep
  rw [SgDB.step]
  split
  . next h => exact request_eq_ok hc hok h
  . exact ⟨hc, Frame.refl _ db⟩

theorem default_groups_kept (hc : db.Consistent) {l : List Request}
    (hrun : Run (Guarded SgDB.Allowed SgDB.Step) db l db')
    : db'.Default ∧
      ∀ r db'', Guarded SgDB.Allowed SgDB.Step db' r db'' → db''.Default ∧ Frame r.caller.orgID db' db'' := by
  have hc' := hrun.invariant SgDB.Consistent (fun _ _ _ hc h => (step_keeps hc h).1) hc
  refine ⟨hc'.default, ?_⟩
  intro r db'' hstep
  have ⟨hc'', hframe⟩ := step_keeps hc' hstep
  exact ⟨hc''.default, hframe⟩

section Example

theorem named_of_rows
    (hr : ∀ r ∈ db.routers, r.defaultSG ≠ 0 → ∃ g ∈ db.groups, g.id = r.defaultSG ∧ g.home = .router r.id)
    (ho : ∀ o ∈ db.orgs, o.defaultSG ≠ 0 → ∃ g ∈ db.groups, g.id = o.defaultSG ∧ g.home = .org o.id)
    (h : Home) (hne : db.pointer h ≠ 0)
    : ∃ g ∈ db.groups, g.id = db.pointer h ∧ g.home = h := by
  cases h with
  | router id =>
    cases hkey : db.routers.byKey? id with
    | none =>
      rw [SgDB.pointer, hkey] at hne
      contradiction
    | some r =>
      obtain ⟨hmem, hid⟩ := byKey?_eq_some.mp hkey
      have hid : r.id = id := hid
      rw [← hid, pointer_router hmem] at hne ⊢
      exact hr r hmem hne
  | org id =>
    cases hkey : db.orgs.byKey? id with
    | none =>
      rw [SgDB.pointer, hkey] at hne
      contradiction
    | some o =>
      obtain ⟨hmem, hid⟩ := byKey?_eq_some.mp hkey
      have hid : o.id = id := hid
      rw [← hid, pointer_org hmem] at hne ⊢
      exact ho o hmem hne

def twoOrgs : SgDB where
  groups :=
    ((empty.insert ⟨0, 1, SystemDefaultSGName, true, 0, 0, 0⟩).insert ⟨0, 2, "alice-native", true, 0, 0, 0⟩).insert
      ⟨0, 2, "web", false, 0, 0, 0⟩
  routers := empty
  orgs := (empty.insert ⟨0, 1⟩).insert ⟨0, 2⟩

theorem twoOrgs_consistent : twoOrgs.Consistent :=
  ⟨by decide +kernel, named_of_rows (by decide +kernel) (by decide +kernel), by decide +kernel⟩

def alice : MemberShip := ⟨1, "alice", 2, "alice", .owner⟩

theorem default_groups_kept_alice
    : twoOrgs.Consistent ∧
      ∃ db, Run (Guarded SgDB.Allowed SgDB.Step) twoOrgs
          [.createRouter alice "lab" 2, .createGroup alice "db" true 1 0, .updateGroup alice 3 "front" true 0,
            .deleteGroup alice 2] db ∧
        db.routers.rows = [⟨1, 2, "lab", 5⟩] ∧ db.orgs.rows = [⟨1, 1⟩, ⟨2, 3⟩] ∧
        db.groups.rows =
          [⟨1, 1, SystemDefaultSGName, true, 0, 0, 0⟩, ⟨3, 2, "front", true, 0, 0, 3⟩,
            ⟨4, 2, "lab-native", false, 1, 0, 2⟩, ⟨5, 2, "db", true, 1, 0, 1⟩] ∧
        db.Default := by
  refine ⟨twoOrgs_consistent, Run.exists_of_steps (f := fun db r => if db.Allowed r then some (db.step r) else none)
    (fun db => db.routers.rows = [⟨1, 2, "lab", 5⟩] ∧ db.orgs.rows = [⟨1, 1⟩, ⟨2, 3⟩] ∧
      db.groups.rows =
        [⟨1, 1, SystemDefaultSGName, true, 0, 0, 0⟩, ⟨3, 2, "front", true, 0, 0, 3⟩,
          ⟨4, 2, "lab-native", false, 1, 0, 2⟩, ⟨5, 2, "db", true, 1, 0, 1⟩])
    ?_ (by decide +kernel) ?_⟩
  . intro db r db' h
    rwa [Option.ite_none_right_eq_some, Option.some.injEq] at h
  . intro db hrun ⟨hrouters, horgs, hgroups⟩
    exact ⟨hrouters, horgs, hgroups, (default_groups_kept twoOrgs_consistent hrun).1⟩

theorem default_groups_not_kept
    : twoOrgs.Consistent ∧ twoOrgs.Default ∧
      SgDB.Step twoOrgs (.createRouter alice "lab" 0) (twoOrgs.step (.createRouter alice "lab" 0)) ∧
      ¬(twoOrgs.step (.createRouter alice "lab" 0)).Default ∧
      ¬Frame alice.orgID twoOrgs (twoOrgs.step (.createRouter alice "lab" 0)) := by
  refine ⟨twoOrgs_consistent, twoOrgs_consistent.default, rfl, ?_, ?_⟩
  . intro hdefault
    have ⟨g, hg, hid, _, hflag, _⟩ := hdefault.org ⟨1, 1⟩ (by decide +kernel) (by decide)
    have hno : ∀ g ∈ (twoOrgs.step (.createRouter alice "lab" 0)).groups, g.id = 1 → g.isDefault = false := by
      decide +kernel
    rw [hno g hg hid] at hflag
    contradiction
  . intro hframe
    have hmem := (hframe.groups ⟨1, 1, SystemDefaultSGName, true, 0, 0, 0⟩ (by decide)).mpr (by decide +kernel)
    exact absurd hmem (by decide +kernel)

end Example

end Web.Secgroup
