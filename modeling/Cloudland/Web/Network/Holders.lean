import Cloudland.Web.Network.PublicIp

/-!
Histories of public addresses: the requests keep one holder for each of them.
-/

namespace Web.NetDB

open Option Table

variable {pub : Nat → Prop} {db db' : NetDB} {inst : Instance}

theorem PubInv.dropSecond (h : PubInv pub db) (hrow : db.PrimaryRow addr.id)
    (hdrop : changeAddresses.dropSecond db addr = some db')
    : PubInv pub db' ∧ Fewer db db' := by
  have hclear := h.clearSecond hrow
  have hfewer := fewer_clearSecond db addr.id
  refine dropSecond_keeps (P := fun d => PubInv pub d ∧ Fewer db d) ⟨hclear, hfewer⟩ ?_ hdrop
  exact fun i hi => ⟨hclear.releaseFloatingIp ⟨i, hi, rfl⟩, hfewer.trans (.of_eq rfl rfl)⟩

theorem PubInv.dropAll (h : PubInv pub db) {addrs : List Address}
    (hrows : ∀ addr ∈ addrs, db.PrimaryRow addr.id)
    (hdrop : addrs.foldlM changeAddresses.dropSecond db = some db')
    : PubInv pub db' ∧ Fewer db db' := by
  refine Run.foldlM_keeps (P := fun d => PubInv pub d ∧ Fewer db d) ?_ ⟨h, .refl db⟩ hdrop
  rintro addr haddr d d' ⟨hinv, hfewer⟩ hdrop
  obtain ⟨hinv, hfewer'⟩ := hinv.dropSecond ((hrows addr haddr).same hfewer.same) hdrop
  exact ⟨hinv, hfewer.trans hfewer'⟩

theorem PubInv.resetInterface (h : PubInv pub db)
    (hok : ∀ i ∈ db.interfaces, i.id = ifaceID → i.floatingIp ≠ 0) (hrows : db.NoSecondOnly ifaceID)
    : PubInv pub (db.resetInterface ifaceID) := by
  apply h.updateInterfaces
  . exact fun _ => rfl
  . intro i hi hid
    have hid := beq_iff_eq.mp hid
    exact .inr ⟨hok i hi hid, hid ▸ hrows⟩

theorem TakeOk.resetInterface (h : db.TakeOk inst.id ifaceID) (hne : ifaceID ≠ otherID)
    : (db.resetInterface otherID).TakeOk inst.id ifaceID := by
  intro j hj hjid
  have ⟨i, hi, hij⟩ := mem_updateInterfaces.mp hj
  split at hij
  . next hid =>
    rw [hij] at hjid
    exact absurd (hjid.symm.trans (beq_iff_eq.mp hid)) hne
  . exact hij ▸ h i hi (hij ▸ hjid)

section Replace

variable {iface : LoadedInterface} {first : LoadedFip} {rest : List LoadedFip}

theorem primaryRow_of_second (hiface : iface.Loaded db)
    (haddr : addr ∈ iface.secondAddresses) (hi : addr.interface ≠ 0)
    : db.PrimaryRow addr.id := by
  intro r hr hid
  have ⟨hmem, _⟩ := second_of_loadedInterface hiface haddr
  rw [eq_of_key hr hmem hid]
  exact hi

theorem noSecondOnly_of_second (hiface : iface.Loaded db)
    (hsecond : ∀ addr ∈ iface.secondAddresses, addr.interface ≠ 0)
    : db.NoSecondOnly iface.row.id := by
  intro r hr hs
  apply hsecond r
  exact hiface.2.2.2.symm.subset (mem_filter.mpr ⟨hr, beq_iff_eq.mpr hs⟩)

theorem passed_on (hfips : ∀ fip ∈ first :: rest, fip.Loaded db) (hsame : Same db db')
    : ∀ fip ∈ first :: rest.map (fun fip => { fip with row.instanceID := 0 }),
        db'.PrimaryRow fip.address.id ∧ db'.HasIface fip.row.id := by
  have hloaded : ∀ fip ∈ first :: rest, db'.PrimaryRow fip.address.id ∧ db'.HasIface fip.row.id := by
    intro fip hmem
    have hload := hfips fip hmem
    have hhas : db.HasIface fip.row.id := ⟨_, hload.2.1, hload.2.2.1⟩
    exact ⟨(live_of_loadedFip hload).2.primaryRow.same hsame, hhas.keeps hsame.keeps⟩
  intro fip hmem
  obtain heq | hmem := List.mem_cons.mp hmem
  . exact hloaded fip (heq ▸ List.mem_cons_self)
  . obtain ⟨g, hg, rfl⟩ := List.mem_map.mp hmem
    exact hloaded g (List.mem_cons_of_mem _ hg)

theorem Fewer.agrees (h : Fewer db db') {iface : Interface} (hagrees : db.Agrees iface)
    : db'.Agrees iface := by
  intro j hj hid
  have ⟨i, hi, hij, _, hfip⟩ := h.insts j hj
  rw [← hfip]
  exact hagrees i hi (hij.trans hid)

theorem replaceFirst_pubInv (hiface : iface.Loaded db)
    (hfips : ∀ fip ∈ first :: rest, fip.Loaded db) (honly : db.NoSecondOnly iface.row.id)
    (htake : db.TakeOk inst.id first.interface.id) (hne : iface.row.floatingIp ≠ first.row.id)
    {db1 : NetDB} (hinv : PubInv pub db1) (hfewer : Fewer db db1)
    (hget : db1.floatingIps.byKey? iface.row.floatingIp = some floatingIp)
    (hderive : ((db1.detach floatingIp).resetInterface iface.row.id).derivePublicInterface inst none
      (first :: rest.map (fun fip => { fip with row.instanceID := 0 })) = some (db', ifaceID))
    : PubInv pub db' := by
  have hifaceID := pos_of_live ⟨_, hiface.1, rfl⟩
  have hfirst := hfips first List.mem_cons_self
  have hfirstID := pos_of_live ⟨_, hfirst.2.1, rfl⟩
  have ⟨hmem, hid⟩ := byKey?_eq_some.mp hget
  have hfipID :=
    hid ▸ Nat.pos_iff_ne_zero.mp (db1.floatingIps.bounds _ hmem).1
  have hfewer2 := hfewer.trans (.of_eq (detach_eq db1 floatingIp).1 (detach_eq db1 floatingIp).2)
  have hreset : PubInv pub ((db1.detach floatingIp).resetInterface iface.row.id) := by
    apply (hinv.detach hmem).resetInterface _ (honly.fewer hifaceID hfewer2)
    intro i hi hii
    rw [hfewer2.agrees (agrees_of_mem hiface.1) i hi hii]
    exact hfipID
  have hsame := hfewer2.same.trans (same_resetInterface _ iface.row.id)
  apply hreset.derivePublicInterface (passed_on hfips hsame) _ hderive
  intro primary hsome
  cases hsome
  refine ⟨(live_of_loadedFip hfirst).2.primaryRow.same hsame, hfirstID, ?_⟩
  apply (htake.fewer hfirstID hfewer2).resetInterface
  intro heq
  apply hne
  rw [← eq_of_key hfirst.2.1 hiface.1 heq]
  exact hfirst.2.2.1

theorem PubInv.replace (h : PubInv pub db)
    (hiface : iface.Loaded db) (hfips : ∀ fip ∈ first :: rest, fip.Loaded db)
    (hsecond : ∀ addr ∈ iface.secondAddresses, addr.interface ≠ 0)
    (htake : iface.row.floatingIp ≠ first.row.id → db.TakeOk inst.id first.interface.id)
    (hchange : db.changeAddresses inst iface ifaceSubnets wanted (first :: rest) = some db')
    : PubInv pub db' := by
  have hifaceID := pos_of_live ⟨_, hiface.1, rfl⟩
  have honly := noSecondOnly_of_second hiface hsecond
  unfold NetDB.changeAddresses at hchange
  simp only [bind_eq_bind, bind_eq_some_iff] at hchange
  have ⟨db1, hdrop, hchange⟩ := hchange
  have ⟨hinv, hfewer⟩ :=
    h.dropAll (fun addr hmem => primaryRow_of_second hiface hmem (hsecond addr hmem)) hdrop
  split at hchange
  . next hne =>
    simp only [bind_eq_some_iff, pure_def, some.injEq] at hchange
    obtain ⟨floatingIp, hget, res, hderive, rfl⟩ := hchange
    exact replaceFirst_pubInv hiface hfips honly (htake hne) hne hinv hfewer hget hderive
  . next heq =>
    simp only [bind_eq_some_iff, pure_def, some.injEq] at hchange
    obtain ⟨res, hderive, rfl⟩ := hchange
    apply hinv.derivePublicInterface (passed_on hfips hfewer.same) _ hderive
    intro primary hsome
    cases hsome
    refine ⟨(live_of_loadedInterface hiface).2.same hfewer.same, hifaceID, ?_⟩
    intro j hj hid
    refine .inr ⟨?_, honly.fewer hifaceID hfewer⟩
    rw [hfewer.agrees (agrees_of_mem hiface.1) j hj hid, not_not.mp heq]
    exact Nat.pos_iff_ne_zero.mp (db.floatingIps.bounds _ (hfips first List.mem_cons_self).1).1

end Replace

theorem PubInv.createVMInterface (h : PubInv pub db) (hinst : inst.id ≠ 0)
    (hfips : ∀ fip ∈ publicIps, fip.Loaded db)
    (hpub : ∀ subnet ∈ subnets, subnet.type = .publicSubnet → pub subnet.id)
    (htake : ∀ fip ∈ publicIps.head?, db.TakeOk inst.id fip.interface.id)
    (hcreate : db.createVMInterface inst publicIps subnets address count ifname = some db')
    : PubInv pub db' := by
  unfold NetDB.createVMInterface at hcreate
  split at hcreate
  . have ⟨res, hres, halloc⟩ := bind_eq_some_iff.mp hcreate
    have ⟨hinv, hnic⟩ := h.createInstanceInterface hinst hpub hres
    exact hinv.allocateSecondAddresses hinst hnic hpub halloc
  . have ⟨res, hderive, hdb⟩ := bind_eq_some_iff.mp hcreate
    cases hdb
    apply h.derivePublicInterface _ _ hderive
    . intro fip hmem
      have hload := hfips fip hmem
      exact ⟨(live_of_loadedFip hload).2.primaryRow, _, hload.2.1, hload.2.2.1⟩
    . intro primary hsome
      cases publicIps with
      | nil => contradiction
      | cons fip fips =>
        cases hsome
        have hload := hfips fip List.mem_cons_self
        exact ⟨(live_of_loadedFip hload).2.primaryRow, pos_of_live ⟨_, hload.2.1, rfl⟩, htake fip rfl⟩

theorem PubInv.createNic (h : PubInv pub db) (hinst : inst.id ≠ 0)
    (hpub : ∀ subnet ∈ subnets, subnet.type = .publicSubnet → pub subnet.id)
    (hcreate : db.createNic inst subnets address ifname = some db')
    : PubInv pub db' := by
  have ⟨res, hres, hdb⟩ := bind_eq_some_iff.mp hcreate
  cases hdb
  exact (h.createInstanceInterface hinst hpub hres).1

theorem HoldsBy.other (h : HoldsBy i g r)
    (hfip : i.floatingIp ≠ 0) (hne : g.id ≠ i.floatingIp)
    : r.interface = 0 ∧ r.secondInterface = i.id := by
  obtain hown | hnative := h
  . exact absurd hown.2.1.symm hne
  . obtain hrefs | hrefs := hnative.2.2.2
    . exact absurd hrefs.2 hfip
    . exact hrefs

theorem PubInv.deallocateFloatingIp (h : PubInv pub db) (hfip : fipID ≠ 0)
    (honly : ∀ i ∈ db.interfaces, i.floatingIp = fipID → db.NoSecondOnly i.id)
    : PubInv pub (db.deallocateFloatingIp fipID) := by
  have hdeleted := h.deleteFloatingIps (fun r => r.id == fipID)
  simp only [NetDB.deallocateFloatingIp, NetDB.deleteInterfaces]
  split
  . exact hdeleted
  . next hempty =>
    have hempty' : db.interfaces.filter (ownedBy fipID 0 .floating) ≠ [] := by simpa using hempty
    have howned : ∀ i, ownedBy fipID 0 .floating i = true → i.floatingIp = fipID := by
      intro i hi
      simp only [ownedBy, Bool.and_eq_true, decide_eq_true_eq] at hi
      exact hi.2.1
    have hother : ∀ g ∈ db.floatingIps.delete (fun r => r.id == fipID), g.id ≠ fipID := by
      intro g hg
      simpa using (mem_delete.mp hg).2
    have hdealloc : PubInv pub (deallocateAddress
        { db with floatingIps := db.floatingIps.delete (fun r => r.id == fipID) }
        (db.interfaces.filter (ownedBy fipID 0 .floating))) := by
      apply hdeleted.updateAddresses
      . exact fun _ => ⟨rfl, rfl⟩
      . exact fun _ _ _ _ => ⟨rfl, rfl⟩
      . intro r hr hp
        simp only [Bool.or_eq_true, List.isEmpty_iff, hempty', false_or, List.any_eq_true, beq_iff_eq,
          mem_filter] at hp
        have ⟨j, ⟨hj, hjowned⟩, hrj⟩ := hp
        have hjid : j.id ≠ 0 := pos_of_live ⟨j, hj, rfl⟩
        refine .inr (fun g hg _ ⟨i, hi, hby⟩ => ?_)
        obtain href | href := hby.refs
        . have hij : i = j := eq_of_key hi hj (href.symm.trans hrj)
          have hifip : i.floatingIp = fipID := hij ▸ howned j hjowned
          have hother := hby.other (hifip ▸ hfip) (hifip ▸ hother g hg)
          exact hjid (hrj.symm.trans hother.1)
        . exact hjid (hrj.symm.trans href.1)
    rw [if_neg (by simp)]
    apply PubInv.deleteInterfaceRows hdealloc
    intro g hg
    unfold NetDB.deallocateAddress
    rw [forall_updateAddresses]
    intro r hr i hi hiowned hby
    have hiid : i.id ≠ 0 := pos_of_live ⟨i, hi, rfl⟩
    have hifip := howned i hiowned
    have ⟨hr0, hrs⟩ := hby.other (hifip ▸ hfip) (hifip ▸ hother g hg)
    split at hrs
    . exact hiid hrs.symm
    . next hp =>
      rw [if_neg hp] at hr0
      exact honly i hi hifip r hr hrs hr0

theorem PubInv.deleteFloatingIp (h : PubInv pub db)
    (hmem : floatingIp ∈ db.floatingIps)
    (honly : ∀ i ∈ db.interfaces, i.floatingIp = floatingIp.id → db.NoSecondOnly i.id)
    (hdelete : db.deleteFloatingIp floatingIp = some db')
    : PubInv pub db' := by
  have hid := Nat.pos_iff_ne_zero.mp (db.floatingIps.bounds _ hmem).1
  simp only [NetDB.deleteFloatingIp] at hdelete
  split at hdelete
  . contradiction
  . cases hdelete
    split
    . apply (h.detach hmem).deallocateFloatingIp hid
      obtain ⟨haddr, hifaces⟩ := detach_eq db floatingIp
      unfold NoSecondOnly
      rw [haddr, hifaces]
      exact honly
    . exact h.deallocateFloatingIp hid honly

end NetDB

namespace NetRequest

open NetDB

def Public (pub : Nat → Prop) : NetRequest → Prop
  | createFloatingIps _ subnets _ _ _ _ => ∀ subnet ∈ subnets, pub subnet.id
  | createVMInterface _ _ subnets _ _ _ =>
    ∀ subnet ∈ subnets, subnet.type = .publicSubnet → pub subnet.id
  | createNic _ subnets _ _ => ∀ subnet ∈ subnets, subnet.type = .publicSubnet → pub subnet.id
  | changeAddresses _ _ subnets _ _ =>
    ∀ subnet ∈ subnets, subnet.type = .publicSubnet → pub subnet.id
  | _ => True

instance [DecidablePred pub] : Decidable (Public pub req) :=
  match req with
  | createFloatingIps .. | createVMInterface .. | createNic .. | changeAddresses .. =>
    inferInstanceAs (Decidable (∀ _ ∈ _, _))
  | attach .. | detach .. | updateFloatingIp .. | deleteFloatingIp .. => isTrue trivial

def Step (pub : Nat → Prop) : NetDB → NetRequest → NetDB → Prop :=
  Guarded (fun db req => req.Loaded db ∧ req.Public pub) (fun db req db' => req.exec db = some db')

def KeepsHolders (db : NetDB) : NetRequest → Prop
  | changeAddresses inst iface _ secondAddrsCount [] =>
    if iface.secondAddresses.length < secondAddrsCount then
      iface.row.inst = inst.id
    else
      ∀ addr ∈ iface.secondAddresses.take (iface.secondAddresses.length - secondAddrsCount),
        addr.interface = 0 ∧ ∀ g ∈ db.floatingIps, g.fipAddress ≠ some addr.address
  | changeAddresses inst iface _ _ (first :: _) =>
    (∀ addr ∈ iface.secondAddresses, addr.interface ≠ 0) ∧
      (iface.row.floatingIp ≠ first.row.id → db.TakeOk inst.id first.interface.id)
  | createVMInterface inst publicIps _ _ _ _ =>
    ∀ fip ∈ publicIps.head?, db.TakeOk inst.id fip.interface.id
  | deleteFloatingIp floatingIp =>
    ∀ i ∈ db.interfaces, i.floatingIp = floatingIp.id → db.NoSecondOnly i.id
  | _ => True

instance : Decidable (NoSecondOnly db ifaceID) := by
  unfold NoSecondOnly
  infer_instance

instance : Decidable (TakeOk db instID ifaceID) := by
  unfold TakeOk
  infer_instance

instance : Decidable (KeepsHolders db req) :=
  match req with
  | changeAddresses _ _ _ _ [] => inferInstanceAs (Decidable (ite _ _ _))
  | changeAddresses _ _ _ _ (_ :: _) => inferInstanceAs (Decidable (_ ∧ _))
  | createVMInterface .. | deleteFloatingIp .. => inferInstanceAs (Decidable (∀ _ ∈ _, _))
  | createFloatingIps .. | attach .. | detach .. | updateFloatingIp .. | createNic .. => isTrue trivial

end NetRequest

namespace NetDB

variable {pub : Nat → Prop} {db db' : NetDB}

theorem PubInv.changeAddresses (h : PubInv pub db)
      (hinst : inst.id ≠ 0)
    (hiface : iface.Loaded db) (hfips : ∀ fip ∈ publicIps, fip.Loaded db)
    (hpub : ∀ subnet ∈ ifaceSubnets, subnet.type = .publicSubnet → pub subnet.id)
    (hok : NetRequest.KeepsHolders db (.changeAddresses inst iface ifaceSubnets wanted publicIps))
    (hchange : db.changeAddresses inst iface ifaceSubnets wanted publicIps = some db')
    : PubInv pub db' := by
  cases publicIps with
  | cons first rest => exact h.replace hiface hfips hok.1 hok.2 hchange
  | nil =>
    simp only [NetRequest.KeepsHolders] at hok
    simp only [NetDB.changeAddresses] at hchange
    split at hchange
    . next hlt =>
      rw [if_pos hlt] at hok
      exact h.allocateSecondAddresses hinst ⟨_, hiface.1, rfl, hok⟩ hpub hchange
    . next hlt =>
      rw [if_neg hlt] at hok
      cases hchange
      apply h.shrink
      intro addr haddr r hr hid
      have ⟨hmem, _⟩ := second_of_loadedInterface hiface (List.mem_of_mem_take haddr)
      rw [Table.eq_of_key hr hmem hid]
      exact hok addr haddr

theorem PubInv.step (h : PubInv pub db) (hok : req.KeepsHolders db)
    (hstep : NetRequest.Step pub db req db')
    : PubInv pub db' := by
  have ⟨⟨hload, hpub⟩, hexec⟩ := hstep
  cases req with
  | createFloatingIps => exact h.createAndAllocateFloatingIps hpub hexec
  | attach floatingIp => exact (h.attach ⟨_, hload.1.2.1, hload.1.2.2.1⟩ hexec).1
  | detach =>
    cases hexec
    exact h.detach hload
  | updateFloatingIp => exact h.updateLoaded hload.1 hexec
  | deleteFloatingIp => exact h.deleteFloatingIp hload hok hexec
  | createVMInterface => exact h.createVMInterface hload.1 hload.2 hpub hok hexec
  | createNic => exact h.createNic hload hpub hexec
  | changeAddresses => exact h.changeAddresses hload.1 hload.2.1 hload.2.2 hpub hok hexec

structure NoFips (pub : Nat → Prop) (db : NetDB) : Prop where
  distinct : ∀ r ∈ db.addresses, ∀ s ∈ db.addresses, pub r.subnetID → pub s.subnetID →
    r.address = s.address → r.id = s.id
  freeRow : ∀ r ∈ db.addresses, r.allocated = false → r.interface = 0 ∧ r.secondInterface = 0
  interfaces : ∀ i ∈ db.interfaces, i.floatingIp = 0
  floatingIps : ∀ f, f ∉ db.floatingIps

theorem NoFips.pubInv (h : NoFips pub db) : PubInv pub db where
  distinct := h.distinct
  freeRow := h.freeRow
  bounded := fun i hi => h.interfaces i hi ▸ db.floatingIps.pos
  notNative := fun f hf => absurd hf (h.floatingIps f)
  oneHolder := fun f hf => absurd hf (h.floatingIps f)
  carried := fun f hf => absurd hf (h.floatingIps f)

theorem HoldsBy.named (h : HoldsBy i f r)
    : i.floatingIp = f.id ∨ (f.instanceID ≠ 0 ∧ i.inst = f.instanceID) := by
  obtain hown | hnative := h
  . exact .inl hown.2.1
  . exact .inr ⟨hnative.2.1, hnative.2.2.1⟩

theorem public_addresses_one_holder {db₀ : NetDB} {reqs : List NetRequest} (hstart : NoFips pub db₀)
    (hrun : Run (Guarded NetRequest.KeepsHolders (NetRequest.Step pub)) db₀ reqs db)
    : (∀ f ∈ db.floatingIps, ∀ g ∈ db.floatingIps, ∀ a, f.fipAddress = some a →
        g.fipAddress = some a → f = g) ∧
      ∀ f ∈ db.floatingIps, ∀ a, f.fipAddress = some a →
        ∃ r ∈ db.addresses, pub r.subnetID ∧ r.address = a ∧ r.allocated = true ∧
          ∃ i ∈ db.interfaces, (r.interface = i.id ∨ r.secondInterface = i.id) ∧
            (i.floatingIp = f.id ∨ (f.instanceID ≠ 0 ∧ i.inst = f.instanceID)) := by
  have hinv :=
    hrun.invariant (PubInv pub) (fun _ _ _ h hstep => h.step hstep.1 hstep.2) hstart.pubInv
  constructor
  . intro f hf g hg a hfa hga
    exact Table.eq_of_key hf hg (hinv.oneHolder f hf g hg a hfa hga)
  . intro f hf a hfa
    have ⟨r, hr, hpub, hra, halloc, i, hi, hby⟩ := hinv.carried f hf a hfa
    have hrefs := hby.refs.imp_right And.right
    exact ⟨r, hr, hpub, hra, halloc, i, hi, hrefs, hby.named⟩

section Example

theorem newNet_noFips : NoFips (fun k => k = 1) newNet where
  distinct := by decide +kernel
  freeRow := by decide
  interfaces := by decide
  floatingIps := by simp [newNet, Table.empty, Table.mem_def]

def createVMRequests : List NetRequest :=
  [.createFloatingIps 2 [net] .empty none false none,
    .createVMInterface vm [fip1, fip2] [] .empty 2 "eth0"]

theorem public_addresses_one_holder_createVM
    : ∃ db, Run (Guarded NetRequest.KeepsHolders (NetRequest.Step (fun k => k = 1))) newNet
          createVMRequests db ∧
        (∃ f ∈ db.floatingIps, f.fipAddress = some ⟨2, 24⟩) ∧
        ∀ f ∈ db.floatingIps, ∀ g ∈ db.floatingIps, ∀ a, f.fipAddress = some a →
          g.fipAddress = some a → f = g := by
  refine Run.exists_of_checked₂ (fun db => ∃ f ∈ db.floatingIps, f.fipAddress = some ⟨2, 24⟩) (by decide +kernel) ?_
  exact fun db hrun hp => ⟨hp, (public_addresses_one_holder newNet_noFips hrun).1⟩

theorem public_address_two_holders
    : NoFips (fun k => k = 1) newNet ∧
      ∃ db, Run (NetRequest.Step (fun k => k = 1)) newNet
          (createVMRequests ++
            [.changeAddresses vm vmIface [] 0 [], .createFloatingIps 1 [net] .empty none false none])
          db ∧
        ∃ f ∈ db.floatingIps, ∃ g ∈ db.floatingIps,
          f.fipAddress = some ⟨3, 24⟩ ∧ g.fipAddress = some ⟨3, 24⟩ ∧ f ≠ g := by
  exact ⟨newNet_noFips, Run.exists_of_checked _ (by decide +kernel) (fun _ _ h => h)⟩

end Example

end Web.NetDB
