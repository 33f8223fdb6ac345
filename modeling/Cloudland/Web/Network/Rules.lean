import Cloudland.Web.Network.Impl

/-!
Rules for the routines: a property of the tables that the steps of a routine keep.
-/

namespace Web.NetDB

open Option

variable {P : NetDB → Prop} {db db' : NetDB} {inst : Instance}

theorem allocateSecondAddresses_keeps (hstep : ∀ subnet ∈ subnets, ∀ {db db' row}, P db →
      db.allocateAddress subnet ifaceID .empty .second = some (db', row) →
      P (if subnet.type = .publicSubnet then db'.createDummyFloatingIp inst row.address else db'))
    (h : P db) (halloc : db.allocateSecondAddresses inst ifaceID subnets wanted = some db')
    : P db' := by
  have hattempts : ∀ subnet ∈ subnets, ∀ n (res : NetDB × Nat), P res.1 →
      P (allocateSecondAddresses.attempts inst ifaceID wanted subnet n res).1 := by
    intro subnet hsubnet n
    induction n with
    | zero => exact fun _ h => h
    | succ n ih =>
      intro res h
      rw [allocateSecondAddresses.attempts]
      split
      . exact h
      . split
        . next halloc => exact ih _ (hstep subnet hsubnet h halloc)
        . exact ih _ h
  have hfold := List.foldlRecOn subnets (motive := fun res : NetDB × Nat => P res.1) _ (b := (db, 0)) h
    (fun res hres subnet hmem => hattempts subnet hmem wanted res hres)
  simp only [NetDB.allocateSecondAddresses] at halloc
  split at halloc
  . contradiction
  . cases halloc
    exact hfold

theorem derivePublicInterface.loop_keeps {P : Bool → NetDB → Prop} (hskip : ∀ {first db}, P first db → P false db)
    (hfirst : ∀ fip ∈ fips, ∀ {db}, P true db →
      P false (reserve inst (takePrimary inst db primaryID) fip primaryAddress))
    (hsecond : ∀ fip ∈ fips, ∀ {db}, P false db →
      P false (reserve inst (addSecond db primaryID fip) fip fip.address.address))
    (h : P first db) (hloop : loop inst updatePrimary primaryID primaryAddress first db fips = some db')
    : P false db' := by
  induction fips generalizing db first with
  | nil =>
    cases hloop
    exact hskip h
  | cons fip fips ih =>
    have hrest {db first} := @ih db first (fun g hg => hfirst g (.tail _ hg)) (fun g hg => hsecond g (.tail _ hg))
    rw [loop] at hloop
    split at hloop
    . exact hrest (hskip h) hloop
    . split at hloop
      . contradiction
      . cases first with
        | true => exact hrest (hfirst fip List.mem_cons_self h) hloop
        | false => exact hrest (hsecond fip List.mem_cons_self h) hloop

theorem dropSecond_keeps (hclear : P (db.clearSecond addr.id))
    (hrelease : ∀ i ∈ db.interfaces, P ((db.clearSecond addr.id).releaseFloatingIp i.floatingIp))
    (hdrop : changeAddresses.dropSecond db addr = some db')
    : P db' := by
  unfold changeAddresses.dropSecond at hdrop
  split at hdrop
  . obtain ⟨iface, hiface, hdb⟩ := bind_eq_some_iff.mp hdrop
    cases hdb
    split
    . exact hrelease iface (Table.byKey?_eq_some.mp hiface).1
    . exact hclear
  . cases hdrop
    exact hclear

theorem allocateFloatingIp_keeps (hstep : ∀ {db db' subnet}, P db →
      db.createInterface subnet fipID address "fip" .floating = (db', none) → P db')
    (h : P db) (halloc : db.allocateFloatingIp fipID subnets address = (db', some iface))
    : ∃ subnet ∈ subnets, ∃ db₁, P db₁ ∧
        db₁.createInterface subnet fipID address "fip" .floating = (db', some iface) := by
  induction subnets generalizing db with
  | nil => cases halloc
  | cons subnet subnets ih =>
    rw [allocateFloatingIp] at halloc
    split at halloc
    . next hcreate =>
      cases halloc
      exact ⟨subnet, List.mem_cons_self, db, h, hcreate⟩
    . next hcreate =>
      obtain ⟨other, hmem, hother⟩ := ih (hstep h hcreate) halloc
      exact ⟨other, List.mem_cons_of_mem _ hmem, hother⟩

theorem createInstanceInterface_keeps (hstep : ∀ {db db' subnet}, P db →
      db.createInterface subnet inst.id address ifname .vm = (db', none) → P db')
    (h : P db) (hcreate : db.createInstanceInterface refused inst subnets address ifname = some (db', iface))
    : ∃ subnet ∈ subnets, ∃ db₁ db₂, P db₁ ∧
        db₁.createInterface subnet inst.id address ifname .vm = (db₂, some iface) ∧
        db' = if subnet.type = .publicSubnet then db₂.createDummyFloatingIp inst iface.address.address else db₂ := by
  induction subnets generalizing db with
  | nil => cases hcreate
  | cons subnet subnets ih =>
    rw [createInstanceInterface] at hcreate
    split at hcreate
    . contradiction
    . split at hcreate
      . next db₂ _ hone =>
        rw [← apply_ite some, ← apply_ite (·, _)] at hcreate
        cases hcreate
        exact ⟨subnet, List.mem_cons_self, db, db₂, h, hone, rfl⟩
      . next hone =>
        obtain ⟨other, hmem, hother⟩ := ih (hstep h hone) hcreate
        exact ⟨other, List.mem_cons_of_mem _ hmem, hother⟩

theorem createAndAllocateFloatingIps_keeps {inst : Option Instance}
    (hstep : ∀ {db db' fip}, P db →
      createAndAllocateFloatingIps.createOne subnets publicIp inst isSite loadBalancer db = some (db', fip) → P db')
    (h : P db)
    (hcreate : (db.createAndAllocateFloatingIps count subnets publicIp inst isSite loadBalancer).map Prod.fst
      = some db')
    : P db' := by
  obtain ⟨⟨_, fips⟩, hres, hdb⟩ := map_eq_some_iff.mp hcreate
  cases hdb
  clear hcreate
  induction count generalizing db fips with
  | zero =>
    cases hres
    exact h
  | succ count ih =>
    obtain ⟨_, hone, hrest⟩ := bind_eq_some_iff.mp hres
    obtain ⟨⟨_, more⟩, hmore, heq⟩ := bind_eq_some_iff.mp hrest
    cases heq
    exact ih (hstep h hone) more hmore

section Attach

variable {floatingIp : LoadedFip} (hstep : ∀ {db f}, (∀ g, (f g).type = g.type ∧ (f g).fipAddress = g.fipAddress) →
  P db → P (db.updateFloatingIps (fun r => r.id == floatingIp.row.id) f))

include hstep

theorem record_keeps (h : P db) (hrecord : attach.record db floatingIp inst = some db') : P db' := by
  unfold attach.record at hrecord
  split at hrecord
  . contradiction
  . obtain ⟨_, _, hdb⟩ := bind_eq_some_iff.mp hrecord
    cases hdb
    exact hstep (fun _ => ⟨rfl, rfl⟩) h

theorem attach_keeps (h : P db) (hattach : db.attach floatingIp inst = some db') : P db' := by
  unfold attach at hattach
  split at hattach
  . contradiction
  . obtain ⟨db₁, hrecord, hdb⟩ := bind_eq_some_iff.mp hattach
    have hrecord := record_keeps hstep h hrecord
    cases hdb
    unfold attach.ensureSubnetID
    split
    . exact hstep (fun _ => ⟨rfl, rfl⟩) hrecord
    . exact hrecord

end Attach

/--
A property of addresses and interfaces that a new interface does not change.
-/
structure Stable (P : NetDB → Prop) : Prop where
  setFloatingIps : ∀ {db : NetDB} fips, P db → P { db with floatingIps := fips }
  createInterface : ∀ {db db' : NetDB} {subnet ID address ifaceName ifType res}, P db →
    db.createInterface subnet ID address ifaceName ifType = (db', res) → P db'

namespace Stable

variable (hP : Stable P)

include hP

theorem record (h : P db) (hrecord : attach.record db floatingIp inst = some db') : P db' :=
  record_keeps (fun _ => hP.setFloatingIps _) h hrecord

theorem attach (h : P db) (hattach : db.attach floatingIp inst = some db') : P db' :=
  attach_keeps (fun _ => hP.setFloatingIps _) h hattach

theorem detach (h : P db) (floatingIp : FloatingIp) : P (db.detach floatingIp) := by
  unfold NetDB.detach
  split
  . exact hP.setFloatingIps _ h
  . exact hP.setFloatingIps _ h
  . exact hP.setFloatingIps _ (hP.setFloatingIps _ h)

section Option

variable {inst : Option Instance} (h : P db)

include h

theorem createOne
    (hcreate : createAndAllocateFloatingIps.createOne subnets publicIp inst isSite loadBalancer db = some (db', fip))
    : P db' := by
  simp only [createAndAllocateFloatingIps.createOne] at hcreate
  split at hcreate
  . contradiction
  . next halloc =>
    obtain ⟨_, _, _, hone, hiface⟩ := allocateFloatingIp_keeps hP.createInterface (hP.setFloatingIps _ h) halloc
    have hiface := hP.createInterface hone hiface
    obtain ⟨db₂, hattach, hdb⟩ := bind_eq_some_iff.mp hcreate
    cases hdb
    apply hP.setFloatingIps
    cases inst with
    | none =>
      cases hattach
      exact hiface
    | some inst => exact hP.attach hiface hattach

theorem createAndAllocateFloatingIps
    (hcreate : (db.createAndAllocateFloatingIps count subnets publicIp inst isSite loadBalancer).map Prod.fst
      = some db')
    : P db' :=
  createAndAllocateFloatingIps_keeps (fun h hone => hP.createOne h hone) h hcreate

theorem updateFloatingIp (hupdate : db.updateFloatingIp floatingIp inst loadBalancer = some db')
    : P db' := by
  have hdetach := hP.detach h floatingIp.row
  simp only [NetDB.updateFloatingIp] at hupdate
  split at hupdate
  . contradiction
  . split at hupdate
    . split at hupdate
      . exact hP.record hdetach hupdate
      . exact hP.attach hdetach hupdate
    . cases hupdate
      exact hP.setFloatingIps _ hdetach
    . cases hupdate
      exact hdetach

end Option

theorem createInstanceInterface (h : P db)
    (hcreate : db.createInstanceInterface refused inst subnets address ifname = some (db', iface))
    : P db' := by
  obtain ⟨_, _, _, _, hone, hiface, hdb⟩ := createInstanceInterface_keeps hP.createInterface h hcreate
  have hiface := hP.createInterface hone hiface
  rw [hdb]
  split
  . exact hP.setFloatingIps _ hiface
  . exact hiface

end Stable

end Web.NetDB
