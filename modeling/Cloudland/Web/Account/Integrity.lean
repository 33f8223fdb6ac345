import Cloudland.Web.Account.Escalation

/-!
What holds of the accounts whoever the callers are.
-/

namespace Web.Account

open List Check

variable {s t : Callers}

-- an id of zero is no condition on the organization
def Callers.namesOrg (_ : Callers) : Request → Bool
  | .orgPatch _ orgID _ _ _ => orgID ≠ 0
  | _ => true

structure Callers.Sound (s : Callers) : Prop where
  wf : s.db.Wf
  grants : ∀ g ∈ s.grants, g.role ≤ g.caller.role

theorem Callers.Sound.patched (h : s.Sound) (hpatch : userPatch bcrypt s.db m uuid password salt = .ok (user, db'))
    : (s.patched m user db' password').Sound := by
  have hwf := (userPatch_eq_ok h.wf hpatch).wf h.wf
  unfold Callers.patched
  split <;> exact ⟨hwf, h.grants⟩

theorem Callers.Sound.orgPatch {db : AccountDB} (h : s.Sound) (hne : orgID ≠ 0)
    (hpatch : orgPatch s.db m orgID members users roles = .ok db)
    : Callers.Sound { s with db, grants := granted m s.db db ++ s.grants } := by
  obtain ⟨hpermit, horgs, roles', hroles, hregranted⟩ := orgPatch_eq_ok h.wf hpatch
  refine ⟨hregranted.wf h.wf (horgs hne), forall_mem_append.mpr ⟨forall_mem_map.mpr ?_, h.grants⟩⟩
  intro row hrow
  obtain ⟨hin, hfresh⟩ := Table.mem_filter.mp hrow
  obtain ⟨_, hreader | hmem, _⟩ := (hregranted.members row hin).resolve_left (of_decide_eq_true hfresh)
  . unfold READER OWNER ADMIN at *
    dsimp only
    omega
  . exact hroles row.role hmem

theorem Callers.Sound.step (h : s.Sound) (hok : s.namesOrg r) (hstep : s.Step bcrypt r t) : t.Sound := by
  cases outcome_of_step hstep with
  | userPatch _ _ hpatch => exact h.patched hpatch
  | orgPatch _ hpatch => exact h.orgPatch (of_decide_eq_true hok) hpatch
  | _ => exact ⟨h.wf, h.grants⟩

/--
User names stay unique, every membership has its user and organization, and nobody gives a role above their own.
-/
theorem accounts_sound {db : AccountDB} (hwf : db.Wf)
    (hrun : Run (Guarded (Callers.namesOrg · ·) (Callers.Step bcrypt)) ⟨db, known, [], [], [], []⟩ l t)
    : t.Sound :=
  hrun.invariant Callers.Sound (fun _ _ _ h hstep => h.step hstep.1 hstep.2) ⟨hwf, by simp⟩

theorem accounts_sound_takeover
    : ∃ t, Run (Guarded (Callers.namesOrg · ·) (Callers.Step shown)) ⟨tenants, mallory, [], [], [], []⟩ takeover t ∧
        t.grants.length = 1 ∧ t.Sound := by
  refine Run.exists_of_checked (fun t => t.grants.length = 1) (by decide +kernel) ?_
  exact fun t hrun ht => ⟨ht, accounts_sound tenants_wf hrun⟩

end Web.Account
