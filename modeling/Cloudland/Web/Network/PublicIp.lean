import Cloudland.Web.Network.Addresses

/-!
Who holds a public address.
-/

namespace Web.NetDB

open Option Table

def HoldsBy (i : Interface) (f : FloatingIp) (r : Address) : Prop :=
  (f.type ≠ .publicNative ∧ i.floatingIp = f.id ∧ r.interface = i.id) ∨
    (f.type = .publicNative ∧ f.instanceID ≠ 0 ∧ i.inst = f.instanceID ∧
      ((r.interface = i.id ∧ i.floatingIp = 0) ∨ (r.interface = 0 ∧ r.secondInterface = i.id)))

def Holds (db : NetDB) (f : FloatingIp) (r : Address) : Prop := ∃ i ∈ db.interfaces, HoldsBy i f r

structure PubInv (pub : Nat → Prop) (db : NetDB) : Prop where
  distinct : ∀ r ∈ db.addresses, ∀ s ∈ db.addresses, pub r.subnetID → pub s.subnetID →
    r.address = s.address → r.id = s.id
  freeRow : ∀ r ∈ db.addresses, r.allocated = false → r.interface = 0 ∧ r.secondInterface = 0
  bounded : ∀ i ∈ db.interfaces, i.floatingIp < db.floatingIps.next
  notNative : ∀ f ∈ db.floatingIps, f.type = .publicNative → ∀ i ∈ db.interfaces, i.floatingIp ≠ f.id
  oneHolder : ∀ f ∈ db.floatingIps, ∀ g ∈ db.floatingIps, ∀ a, f.fipAddress = some a →
    g.fipAddress = some a → f.id = g.id
  carried : ∀ f ∈ db.floatingIps, ∀ a, f.fipAddress = some a →
    ∃ r ∈ db.addresses, pub r.subnetID ∧ r.address = a ∧ r.allocated = true ∧ db.Holds f r

variable {pub : Nat → Prop} {db db' : NetDB}

def Kept (r r' : Address) : Prop :=
  r'.allocated = r.allocated ∧ r'.interface = r.interface ∧
    (r.interface = 0 → r'.secondInterface = r.secondInterface)

theorem HoldsBy.kept (h : HoldsBy i f r) (hkept : Kept r r') : HoldsBy i f r' := by
  have ⟨_, hi, hs⟩ := hkept
  unfold HoldsBy at h ⊢
  rw [hi]
  obtain h | ⟨hnative, hne, hinst, hrefs⟩ := h
  . exact .inl h
  . refine .inr ⟨hnative, hne, hinst, ?_⟩
    obtain hrefs | hrefs := hrefs
    . exact .inl hrefs
    . exact .inr ⟨hrefs.1, (hs hrefs.1).trans hrefs.2⟩

theorem HoldsBy.refs (h : HoldsBy i g r)
    : r.interface = i.id ∨ (r.interface = 0 ∧ r.secondInterface = i.id) := by
  obtain hown | hnative := h
  . exact .inl hown.2.2
  . obtain hrefs | hrefs := hnative.2.2.2
    . exact .inl hrefs.1
    . exact .inr hrefs

theorem mem_updateFloatingIps
    : g ∈ (db.updateFloatingIps p f).floatingIps
        ↔
      ∃ g₀ ∈ db.floatingIps, g = if p g₀ then { f g₀ with id := g₀.id } else g₀ :=
  mem_update

section PubInv

variable (h : PubInv pub db)

include h

theorem PubInv.updateAddresses
    (hrow : ∀ r, (f r).address = r.address ∧ (f r).subnetID = r.subnetID)
    (hfree : ∀ r ∈ db.addresses, p r = true → (f r).allocated = false →
      (f r).interface = 0 ∧ (f r).secondInterface = 0)
    (hkeep : ∀ r ∈ db.addresses, p r = true →
      Kept r (f r) ∨ ∀ g ∈ db.floatingIps, g.fipAddress = some r.address → ¬db.Holds g r)
    : PubInv pub (db.updateAddresses p f) where
  distinct := by
    have hcols : ∀ b ∈ (db.updateAddresses p f).addresses, ∃ a ∈ db.addresses,
        a.id = b.id ∧ a.address = b.address ∧ a.subnetID = b.subnetID := by
      rw [forall_updateAddresses]
      intro a ha
      refine ⟨a, ha, ?_⟩
      split
      . exact ⟨rfl, (hrow a).1.symm, (hrow a).2.symm⟩
      . exact ⟨rfl, rfl, rfl⟩
    intro r hr s hs hpr hps heq
    have ⟨r₀, hr₀, hrid, hraddr, hrsub⟩ := hcols r hr
    have ⟨s₀, hs₀, hsid, hsaddr, hssub⟩ := hcols s hs
    rw [← hrid, ← hsid]
    exact h.distinct r₀ hr₀ s₀ hs₀ (hrsub ▸ hpr) (hssub ▸ hps) (hraddr.trans (heq.trans hsaddr.symm))
  freeRow := by
    rw [forall_updateAddresses]
    intro r hr
    split
    . next hp => exact hfree r hr hp
    . exact h.freeRow r hr
  bounded := h.bounded
  notNative := h.notNative
  oneHolder := h.oneHolder
  carried := by
    intro g hg a hga
    have ⟨r, hr, hpub, haddr, halloc, i, hi, hholds⟩ := h.carried g hg a hga
    by_cases hp : p r = true
    . have hmem : { f r with id := r.id } ∈ (db.updateAddresses p f).addresses :=
        mem_update.mpr ⟨r, hr, (if_pos hp).symm⟩
      obtain hkept | hnot := hkeep r hr hp
      . exact ⟨_, hmem, (hrow r).2 ▸ hpub, (hrow r).1.trans haddr, hkept.1.trans halloc, i, hi,
          hholds.kept hkept⟩
      . exact absurd ⟨i, hi, hholds⟩ (hnot g hg (haddr ▸ hga))
    . have hmem : r ∈ (db.updateAddresses p f).addresses :=
        mem_update.mpr ⟨r, hr, (if_neg hp).symm⟩
      exact ⟨r, hmem, hpub, haddr, halloc, i, hi, hholds⟩

theorem PubInv.of_interfaces (haddr : db'.addresses = db.addresses) (hfips : db'.floatingIps = db.floatingIps)
    (hfrom : ∀ j ∈ db'.interfaces, (∃ i ∈ db.interfaces, i.floatingIp = j.floatingIp) ∨ j.floatingIp = 0 ∨
      ∃ g ∈ db.floatingIps, g.id = j.floatingIp ∧ g.type ≠ .publicNative)
    (hholds : ∀ g ∈ db.floatingIps, ∀ r ∈ db.addresses, db.Holds g r → db'.Holds g r)
    : PubInv pub db' := by
  obtain ⟨_, _, _⟩ := db'
  cases haddr
  cases hfips
  refine ⟨h.distinct, h.freeRow, ?_, ?_, h.oneHolder, ?_⟩
  . intro j hj
    obtain ⟨i, hi, hfip⟩ | hzero | ⟨g, hg, hid, _⟩ := hfrom j hj
    . exact hfip ▸ h.bounded i hi
    . exact hzero ▸ db.floatingIps.pos
    . exact hid ▸ (db.floatingIps.bounds g hg).2
  . intro g hg hnative j hj
    obtain ⟨i, hi, hfip⟩ | hzero | ⟨k, hk, hid, hn⟩ := hfrom j hj
    . exact hfip ▸ h.notNative g hg hnative i hi
    . exact hzero ▸ Nat.ne_of_lt (db.floatingIps.bounds g hg).1
    . intro heq
      exact hn (eq_of_key hk hg (hid.trans heq) ▸ hnative)
  . intro g hg a hga
    have ⟨r, hr, hpub, haddr, halloc, hg'⟩ := h.carried g hg a hga
    exact ⟨r, hr, hpub, haddr, halloc, hholds g hg r hr hg'⟩

theorem PubInv.updateInterfaces
    (hcols : ∀ i, (f i).floatingIp = i.floatingIp) (hkeep : ∀ i ∈ db.interfaces, p i = true →
      (f i).inst = i.inst ∨
        (i.floatingIp ≠ 0 ∧ ∀ r ∈ db.addresses, r.secondInterface = i.id → r.interface ≠ 0))
    : PubInv pub (db.updateInterfaces p f) := by
  refine h.of_interfaces rfl rfl ?_ ?_
  . intro j hj
    have ⟨i, hi, hij⟩ := mem_updateInterfaces.mp hj
    refine .inl ⟨i, hi, ?_⟩
    rw [hij]
    split
    . exact (hcols i).symm
    . rfl
  . intro g _ r hr ⟨i, hi, hholds⟩
    refine ⟨_, mem_updateInterfaces.mpr ⟨i, hi, rfl⟩, ?_⟩
    split
    . next hp =>
      unfold HoldsBy at hholds ⊢
      rw [hcols i]
      obtain hown | ⟨hn, hne, hinst, hrefs⟩ := hholds
      . exact .inl hown
      . obtain heq | hnot := hkeep i hi hp
        . exact .inr ⟨hn, hne, heq.trans hinst, hrefs⟩
        . obtain hrefs | hrefs := hrefs
          . exact absurd hrefs.2 hnot.1
          . exact absurd hrefs.1 (hnot.2 r hr hrefs.2)
    . exact hholds

theorem PubInv.updateFloatingIps (hcols : ∀ g ∈ db.floatingIps, p g = true →
      g.type ≠ .publicNative ∧ (f g).type ≠ .publicNative ∧ (f g).fipAddress = g.fipAddress)
    : PubInv pub (db.updateFloatingIps p f) := by
  -- a changed row stands for a row with the same id and address, that is not native either
  have hold : ∀ g ∈ (db.updateFloatingIps p f).floatingIps, ∃ g₀ ∈ db.floatingIps,
      g₀.id = g.id ∧ g₀.fipAddress = g.fipAddress ∧
        (g = g₀ ∨ (g₀.type ≠ .publicNative ∧ g.type ≠ .publicNative)) := by
    intro g hg
    have ⟨g₀, hg₀, heq⟩ := mem_updateFloatingIps.mp hg
    refine ⟨g₀, hg₀, ?_⟩
    split at heq
    . next hp =>
      have ⟨hn₀, hn, haddr⟩ := hcols g₀ hg₀ hp
      rw [heq]
      exact ⟨rfl, haddr.symm, .inr ⟨hn₀, hn⟩⟩
    . exact ⟨heq ▸ rfl, heq ▸ rfl, .inl heq⟩
  refine ⟨h.distinct, h.freeRow, h.bounded, ?_, ?_, ?_⟩
  . intro g hg hnative i hi
    have ⟨g₀, hg₀, hid, _, hsame⟩ := hold g hg
    rw [← hid]
    obtain heq | hne := hsame
    . exact h.notNative g₀ hg₀ (heq ▸ hnative) i hi
    . exact absurd hnative hne.2
  . intro g hg k hk a hga hka
    have ⟨g₀, hg₀, hgid, hgaddr, _⟩ := hold g hg
    have ⟨k₀, hk₀, hkid, hkaddr, _⟩ := hold k hk
    rw [← hgid, ← hkid]
    exact h.oneHolder g₀ hg₀ k₀ hk₀ a (hgaddr.trans hga) (hkaddr.trans hka)
  . intro g hg a hga
    have ⟨g₀, hg₀, hid, haddr, hsame⟩ := hold g hg
    have ⟨r, hr, hpub, hra, halloc, i, hi, hholds⟩ := h.carried g₀ hg₀ a (haddr.trans hga)
    refine ⟨r, hr, hpub, hra, halloc, i, hi, ?_⟩
    obtain heq | hne := hsame
    . exact heq ▸ hholds
    . obtain hown | hnative := hholds
      . exact .inl ⟨hne.2, hid ▸ hown.2⟩
      . exact absurd hnative.1 hne.1

theorem PubInv.deleteFloatingIps (p : FloatingIp → Bool)
    : PubInv pub { db with floatingIps := db.floatingIps.delete p } := by
  have hold : ∀ g ∈ db.floatingIps.delete p, g ∈ db.floatingIps := fun g hg => (mem_delete.mp hg).1
  exact ⟨h.distinct, h.freeRow, h.bounded, fun g hg => h.notNative g (hold g hg),
    fun f hf g hg => h.oneHolder f (hold f hf) g (hold g hg), fun g hg => h.carried g (hold g hg)⟩

theorem PubInv.deleteInterfaceRows
    (hkeep : ∀ g ∈ db.floatingIps, ∀ r ∈ db.addresses, ∀ i ∈ db.interfaces, p i = true →
      ¬HoldsBy i g r)
    : PubInv pub (db.deleteInterfaceRows p) := by
  refine h.of_interfaces rfl rfl ?_ ?_
  . exact fun j hj => .inl ⟨j, (mem_delete.mp hj).1, rfl⟩
  . intro g hg r hr ⟨i, hi, hholds⟩
    refine ⟨i, mem_delete.mpr ⟨hi, ?_⟩, hholds⟩
    rw [← Bool.not_eq_true]
    exact fun hp => hkeep g hg r hr i hi hp hholds

theorem PubInv.insertInterface (hfip : iface.floatingIp = 0 ∨
      ∃ g ∈ db.floatingIps, g.id = iface.floatingIp ∧ g.type ≠ .publicNative)
    : PubInv pub { db with interfaces := db.interfaces.insert iface } := by
  refine h.of_interfaces rfl rfl ?_ ?_
  . intro j hj
    obtain hj | heq := mem_insert.mp hj
    . exact .inl ⟨j, hj, rfl⟩
    . exact .inr (heq ▸ hfip)
  . exact fun g _ r _ ⟨i, hi, hholds⟩ => ⟨i, mem_insert.mpr (.inl hi), hholds⟩

theorem PubInv.congr (haddr : db'.addresses = db.addresses)
    (hfips : db'.floatingIps = db.floatingIps) (hifaces : ∀ i, i ∈ db'.interfaces ↔ i ∈ db.interfaces)
    : PubInv pub db' := by
  apply h.of_interfaces haddr hfips
  . exact fun j hj => .inl ⟨j, (hifaces j).mp hj, rfl⟩
  . exact fun g _ r _ ⟨i, hi, hholds⟩ => ⟨i, (hifaces i).mpr hi, hholds⟩

theorem PubInv.insertFloatingIp
    (hfresh : ∀ a, fip.fipAddress = some a → ∀ g ∈ db.floatingIps, g.fipAddress ≠ some a)
    (hrow : ∀ a, fip.fipAddress = some a →
      ∃ r ∈ db.addresses, pub r.subnetID ∧ r.address = a ∧ r.allocated = true ∧
        db.Holds { fip with id := db.floatingIps.next } r)
    : PubInv pub { db with floatingIps := db.floatingIps.insert fip } where
  distinct := h.distinct
  freeRow := h.freeRow
  bounded := fun i hi => Nat.lt_succ_of_lt (h.bounded i hi)
  notNative := by
    intro g hg hnative i hi
    obtain hg | heq := mem_insert.mp hg
    . exact h.notNative g hg hnative i hi
    . rw [heq]
      exact Nat.ne_of_lt (h.bounded i hi)
  oneHolder := by
    intro f hf g hg a hfa hga
    obtain hf | heq := mem_insert.mp hf
    . obtain hg | heq := mem_insert.mp hg
      . exact h.oneHolder f hf g hg a hfa hga
      . rw [heq] at hga
        exact absurd hfa (hfresh a hga f hf)
    . rw [heq] at hfa
      obtain hg | heq' := mem_insert.mp hg
      . exact absurd hga (hfresh a hfa g hg)
      . rw [heq, heq']
  carried := by
    intro g hg a hga
    obtain hg | heq := mem_insert.mp hg
    . exact h.carried g hg a hga
    . rw [heq] at hga ⊢
      exact hrow a hga

theorem PubInv.finish (haddr : fip.fipAddress = some a) (htype : fip.type ≠ .publicNative)
    (hfresh : ∀ g ∈ db.floatingIps, g.fipAddress ≠ some a)
    (hrow : ∃ r ∈ db.addresses, pub r.subnetID ∧ r.address = a ∧ r.allocated = true ∧
      ∃ i ∈ db.interfaces, i.floatingIp = fip.id ∧ r.interface = i.id)
    : PubInv pub (createAndAllocateFloatingIps.finish db fip) := by
  -- a row after the step is an old one with another id, or the one that gets the address
  have hcases : ∀ g ∈ (createAndAllocateFloatingIps.finish db fip).floatingIps,
      (g ∈ db.floatingIps ∧ g.id ≠ fip.id) ∨
        (g.id = fip.id ∧ g.fipAddress = some a ∧ g.type ≠ .publicNative) := by
    intro g hg
    have ⟨g₀, hg₀, heq⟩ := mem_updateFloatingIps.mp hg
    split at heq
    . next hid =>
      exact .inr ⟨heq ▸ beq_iff_eq.mp hid, heq ▸ haddr, heq ▸ htype⟩
    . next hid => exact .inl ⟨heq ▸ hg₀, heq ▸ (by simpa using hid)⟩
  refine ⟨h.distinct, h.freeRow, h.bounded, ?_, ?_, ?_⟩
  . intro g hg hnative i hi
    obtain hg | hg := hcases g hg
    . exact h.notNative g hg.1 hnative i hi
    . exact absurd hnative hg.2.2
  . intro f hf g hg b hfb hgb
    obtain hf | hf := hcases f hf
    . obtain hg | hg := hcases g hg
      . exact h.oneHolder f hf.1 g hg.1 b hfb hgb
      . have hab := some.inj (hg.2.1.symm.trans hgb)
        exact absurd hfb (hab ▸ hfresh f hf.1)
    . obtain hg | hg := hcases g hg
      . have hab := some.inj (hf.2.1.symm.trans hfb)
        exact absurd hgb (hab ▸ hfresh g hg.1)
      . exact hf.1.trans hg.1.symm
  . intro g hg b hgb
    obtain hg | hg := hcases g hg
    . exact h.carried g hg.1 b hgb
    . have ⟨r, hr, hpub, hra, halloc, i, hi, hfip, hri⟩ := hrow
      have hab := some.inj (hg.2.1.symm.trans hgb)
      exact ⟨r, hr, hpub, hra.trans hab, halloc, i, hi, .inl ⟨hg.2.2, hfip.trans hg.1.symm, hri⟩⟩

end PubInv

section Allocate

variable {subnet : Subnet} {ifaceID : Nat} {ipaddr : IpArg} {addrType : AddrType} {row : Address}

theorem booked_cols (ifaceID : Nat) (addrType : AddrType) (r : Address)
    : (booked ifaceID addrType r).address = r.address ∧
      (booked ifaceID addrType r).subnetID = r.subnetID ∧
      (booked ifaceID addrType r).allocated = true := by
  unfold booked
  split <;> exact ⟨rfl, rfl, rfl⟩

section PubInv

variable (h : PubInv pub db) (halloc : db.allocateAddress subnet ifaceID ipaddr addrType = some (db', row))

include h halloc

theorem PubInv.allocateAddress : PubInv pub db' := by
  simp only [NetDB.allocateAddress, bind_eq_bind, bind_eq_some_iff, pure_def, some.injEq,
    Prod.mk.injEq] at halloc
  obtain ⟨a, ha, hdb, _⟩ := halloc
  obtain ⟨hmem, havail⟩ := find?_eq_some ha
  have hrefs := h.freeRow a hmem (available_eq_true havail).2.1
  rw [← hdb]
  apply h.updateAddresses
  . exact fun _ => ⟨rfl, rfl⟩
  . intro r _ _ hfree
    rw [(booked_cols ifaceID addrType a).2.2] at hfree
    contradiction
  . -- a row that is free has no holder
    intro r hr hid
    right
    rintro g _ _ ⟨i, hi, hby⟩
    rw [eq_of_key hr hmem ((beq_iff_eq.mp hid).trans (booked_id a))] at hby
    have hpos := pos_of_live ⟨i, hi, rfl⟩
    obtain href | href := hby.refs
    . exact hpos (href.symm.trans hrefs.1)
    . exact hpos (href.2.symm.trans hrefs.2)

theorem allocateAddress_fresh
    : row ∈ db'.addresses ∧ row.allocated = true ∧ row.subnetID = subnet.id ∧
      (if addrType = .second then row.interface = 0 ∧ row.secondInterface = ifaceID
        else row.interface = ifaceID) ∧
      (pub subnet.id → ∀ g ∈ db'.floatingIps, g.fipAddress ≠ some row.address) := by
  have ⟨a, ha, havail, hrow, _, hfips, hmem⟩ := allocateAddress_eq_some halloc
  have ⟨hsubnet, hfree, _⟩ := available_eq_true havail
  have ⟨haddr, hsub, hbooked⟩ := booked_cols ifaceID addrType a
  have ⟨hi, _⟩ := h.freeRow a ha hfree
  rw [hrow]
  refine ⟨(hmem _).mpr (.inr rfl), hbooked, hsub.trans hsubnet, ?_, ?_⟩
  . unfold booked
    split
    . exact ⟨hi, rfl⟩
    . rfl
  . intro hpub g hg hga
    rw [haddr] at hga
    have ⟨r, hr, hrpub, hra, hralloc, _⟩ := h.carried g (hfips ▸ hg) _ hga
    have hid := h.distinct r hr a ha hrpub (hsubnet ▸ hpub) hra
    rw [eq_of_key hr ha hid, hfree] at hralloc
    contradiction

end PubInv

end Allocate

section Create

variable {subnet : Subnet} {ID : Nat} {address : IpArg} {ifaceName : String} {ifType : IfType}

section PubInv

variable (h : PubInv pub db) (hfip : ifType = .floating → ∃ g ∈ db.floatingIps, g.id = ID ∧ g.type ≠ .publicNative)

include h hfip

theorem PubInv.insertNew
    (hiface : iface = { newInterface subnet ID ifaceName ifType with id := db.interfaces.next })
    : PubInv pub { db with interfaces := db.interfaces.insert iface } := by
  apply h.insertInterface
  rw [hiface]
  by_cases htype : ifType = .floating
  . simp only [newInterface, htype, if_true]
    exact .inr (hfip htype)
  . simp only [newInterface, htype, if_false]
    exact .inl trivial

theorem PubInv.createInterface (hcreate : db.createInterface subnet ID address ifaceName ifType = (db', res))
    : PubInv pub db' := by
  obtain ⟨iface, addr, hiface, _, halloc⟩ | ⟨_, haddr, hfips, hifaces⟩ := createInterface_cases hcreate
  . exact (h.insertNew hfip hiface).allocateAddress halloc
  . exact h.congr haddr hfips hifaces

end PubInv

theorem createInterface_floatingIps
    (hcreate : db.createInterface subnet ID address ifaceName ifType = (db', res))
    : db'.floatingIps = db.floatingIps := by
  obtain ⟨_, _, _, _, halloc⟩ | hnone := createInterface_cases hcreate
  . have ⟨_, _, _, _, _, hfips, _⟩ := allocateAddress_eq_some halloc
    exact hfips
  . exact hnone.2.2.1

structure Booked (pub : Nat → Prop) (db : NetDB) (subnet : Subnet) (iface : LoadedInterface)
    : Prop where
  ifaceMem : iface.row ∈ db.interfaces
  rowMem : iface.address ∈ db.addresses
  alloc : iface.address.allocated = true
  subnetID : iface.address.subnetID = subnet.id
  primary : iface.address.interface = iface.row.id
  fresh : pub subnet.id → ∀ g ∈ db.floatingIps, g.fipAddress ≠ some iface.address.address

theorem createInterface_booked (h : PubInv pub db)
    (hfip : ifType = .floating → ∃ g ∈ db.floatingIps, g.id = ID ∧ g.type ≠ .publicNative)
    (hcreate : db.createInterface subnet ID address ifaceName ifType = (db', some iface))
    : Booked pub db' subnet iface ∧
      iface.row = { newInterface subnet ID ifaceName ifType with id := db.interfaces.next } := by
  obtain ⟨row, addr, hrow, hres, halloc⟩ | hnone := createInterface_cases hcreate
  . have ⟨_, _, _, _, hifaces, _⟩ := allocateAddress_eq_some halloc
    have ⟨hmem, hall, hsub, hrefs, hfresh⟩ := allocateAddress_fresh (h.insertNew hfip hrow) halloc
    cases hres
    refine ⟨⟨?_, hmem, hall, hsub, hrefs, hfresh⟩, hrow⟩
    rw [hifaces, mem_insert]
    apply Or.inr
    rw [hrow]
    rfl
  . exact absurd hnone.1 (by simp)

theorem PubInv.allocateFloatingIp (h : PubInv pub db)
    (hfip : ∃ g ∈ db.floatingIps, g.id = floatingIpID ∧ g.type ≠ .publicNative)
    (hpub : ∀ subnet ∈ pubSubnets, pub subnet.id)
    (halloc : db.allocateFloatingIp floatingIpID pubSubnets address = (db', some iface))
    : PubInv pub db' ∧ iface.row.floatingIp = floatingIpID ∧ ∃ subnet, pub subnet.id ∧ Booked pub db' subnet iface := by
  obtain ⟨subnet, hsubnet, db₁, ⟨hinv, hfips⟩, hcreate⟩ := allocateFloatingIp_keeps
    (P := fun d => PubInv pub d ∧ d.floatingIps = db.floatingIps)
    (fun h hnone => ⟨h.1.createInterface (fun _ => h.2 ▸ hfip) hnone, (createInterface_floatingIps hnone).trans h.2⟩)
    ⟨h, rfl⟩ halloc
  rw [← hfips] at hfip
  obtain ⟨hbooked, hrow⟩ := createInterface_booked hinv (fun _ => hfip) hcreate
  exact ⟨hinv.createInterface (fun _ => hfip) hcreate, by simp [hrow, newInterface],
    subnet, hpub subnet hsubnet, hbooked⟩

end Create

section Attach

variable {inst : Instance} {floatingIp : LoadedFip}

def HasIface (db : NetDB) (fipID : Nat) : Prop := ∃ i ∈ db.interfaces, i.floatingIp = fipID

theorem HasIface.keeps (h : db.HasIface fipID) (hkeeps : db.Keeps db') : db'.HasIface fipID := by
  have ⟨i, hi, hfip⟩ := h
  have ⟨j, hj, _, hji⟩ := hkeeps i hi
  exact ⟨j, hj, hji.trans hfip⟩

theorem PubInv.updateFloatingIp (h : PubInv pub db) (hi : db.HasIface fipID) (hf : ∀ g, g.type ≠ .publicNative →
      (f g).type ≠ .publicNative ∧ (f g).fipAddress = g.fipAddress)
    : PubInv pub (db.updateFloatingIps (fun r => r.id == fipID) f) := by
  have ⟨i, hi, hfip⟩ := hi
  apply h.updateFloatingIps
  intro g hg hid
  have hn : g.type ≠ .publicNative := by
    intro hnative
    exact h.notNative g hg hnative i hi (hfip.trans (beq_iff_eq.mp hid).symm)
  exact ⟨hn, hf g hn⟩

structure FipFrame (db db' : NetDB) : Prop where
  addresses : db'.addresses = db.addresses
  interfaces : db'.interfaces = db.interfaces
  fips : ∀ g ∈ db'.floatingIps, ∃ g₀ ∈ db.floatingIps,
    g₀.id = g.id ∧ g₀.fipAddress = g.fipAddress

theorem FipFrame.refl (db : NetDB) : FipFrame db db := ⟨rfl, rfl, fun g hg => ⟨g, hg, rfl, rfl⟩⟩

theorem FipFrame.trans (h : FipFrame db db') (h' : FipFrame db' db'') : FipFrame db db'' := by
  refine ⟨h'.addresses.trans h.addresses, h'.interfaces.trans h.interfaces, ?_⟩
  intro g hg
  have ⟨g₁, hg₁, hid₁, haddr₁⟩ := h'.fips g hg
  have ⟨g₀, hg₀, hid₀, haddr₀⟩ := h.fips g₁ hg₁
  exact ⟨g₀, hg₀, hid₀.trans hid₁, haddr₀.trans haddr₁⟩

theorem fipFrame_update (db : NetDB) (p : FloatingIp → Bool) (hf : ∀ g, (f g).fipAddress = g.fipAddress)
    : FipFrame db (db.updateFloatingIps p f) := by
  refine ⟨rfl, rfl, ?_⟩
  intro g hg
  have ⟨g₀, hg₀, heq⟩ := mem_updateFloatingIps.mp hg
  refine ⟨g₀, hg₀, ?_⟩
  split at heq
  . exact ⟨heq ▸ rfl, heq ▸ (hf g₀).symm⟩
  . exact ⟨heq ▸ rfl, heq ▸ rfl⟩

theorem PubInv.recorded (hi : db.HasIface floatingIp.row.id)
    (hf : ∀ g, (f g).type = g.type ∧ (f g).fipAddress = g.fipAddress)
    (h : PubInv pub db₁ ∧ FipFrame db db₁)
    : PubInv pub (db₁.updateFloatingIps (fun r => r.id == floatingIp.row.id) f) ∧
      FipFrame db (db₁.updateFloatingIps (fun r => r.id == floatingIp.row.id) f) := by
  obtain ⟨hinv, hframe⟩ := h
  refine ⟨hinv.updateFloatingIp ?_ ?_, hframe.trans (fipFrame_update db₁ _ (fun g => (hf g).2))⟩
  . unfold HasIface
    rw [hframe.interfaces]
    exact hi
  . exact fun g hn => ⟨(hf g).1 ▸ hn, (hf g).2⟩

theorem PubInv.attach (h : PubInv pub db) (hi : db.HasIface floatingIp.row.id)
    (hattach : db.attach floatingIp inst = some db')
    : PubInv pub db' ∧ FipFrame db db' :=
  attach_keeps (P := fun d => PubInv pub d ∧ FipFrame db d) (PubInv.recorded hi) ⟨h, .refl db⟩ hattach

section CreateFloatingIps

variable {subnets : List Subnet} {publicIp : IpArg} {inst : Option Instance} {isSite : Bool}
  {loadBalancer : Option LoadBalancer}

theorem newFloatingIp_type (loadBalancer : Option LoadBalancer)
    : (newFloatingIp loadBalancer).type ≠ .publicNative := by
  unfold newFloatingIp
  split <;> simp

theorem PubInv.createOne (h : PubInv pub db) (hpub : ∀ subnet ∈ subnets, pub subnet.id)
    (hcreate : createAndAllocateFloatingIps.createOne subnets publicIp inst isSite loadBalancer db
      = some (db', fip))
    : PubInv pub db' := by
  have htype := newFloatingIp_type loadBalancer
  simp only [createAndAllocateFloatingIps.createOne] at hcreate
  split at hcreate
  . contradiction
  . next db1 fipIface halloc =>
    have hins : PubInv pub { db with
        floatingIps := db.floatingIps.insert
          { newFloatingIp loadBalancer with id := db.floatingIps.next } } := by
      apply h.insertFloatingIp <;> simp [newFloatingIp]
    obtain ⟨hinv, hfip, subnet, hsubnet, hbooked⟩ := hins.allocateFloatingIp
      ⟨_, mem_insert.mpr (.inr rfl), rfl, htype⟩ hpub halloc
    obtain ⟨db2, hattach, hdb⟩ := bind_eq_some_iff.mp hcreate
    cases hdb
    obtain ⟨hinv2, hframe⟩ : PubInv pub db2 ∧ FipFrame db1 db2 := by
      unfold createAndAllocateFloatingIps.attachNew at hattach
      split at hattach
      . exact hinv.attach ⟨_, hbooked.ifaceMem, hfip⟩ hattach
      . cases hattach
        exact ⟨hinv, .refl _⟩
    refine hinv2.finish rfl ?_ ?_ ?_
    . split
      . simp
      . exact htype
    . intro g hg hga
      obtain ⟨g₀, hg₀, _, haddr⟩ := hframe.fips g hg
      exact hbooked.fresh hsubnet g₀ hg₀ (haddr.trans hga)
    . rw [hframe.addresses, hframe.interfaces]
      exact ⟨_, hbooked.rowMem, hbooked.subnetID ▸ hsubnet, rfl, hbooked.alloc, _, hbooked.ifaceMem,
        hfip, hbooked.primary⟩

theorem PubInv.createAndAllocateFloatingIps (h : PubInv pub db) (hpub : ∀ subnet ∈ subnets, pub subnet.id)
    (hcreate : (db.createAndAllocateFloatingIps count subnets publicIp inst isSite loadBalancer).map Prod.fst
      = some db')
    : PubInv pub db' :=
  createAndAllocateFloatingIps_keeps (fun h hone => h.createOne hpub hone) h hcreate

end CreateFloatingIps

end Attach

theorem PubInv.releaseFloatingIp (h : PubInv pub db) (hi : db.HasIface fipID)
    : PubInv pub (db.releaseFloatingIp fipID) := by
  apply h.updateFloatingIp hi
  intro g _
  exact ⟨by simp, rfl⟩

theorem releaseFloatingIp_type
    (hg : g ∈ (db.releaseFloatingIp fipID).floatingIps) (hid : g.id = fipID)
    : g.type = .publicFloating := by
  have ⟨g₀, _, heq⟩ := mem_updateFloatingIps.mp hg
  split at heq
  . rw [heq]
  . next hne => exact absurd (heq ▸ hid) (by simpa using hne)

theorem PubInv.detach (h : PubInv pub db) (hmem : floatingIp ∈ db.floatingIps)
    : PubInv pub (db.detach floatingIp) := by
  have hrelease : floatingIp.type ≠ .publicNative → PubInv pub (db.releaseFloatingIp floatingIp.id) := by
    intro hn
    apply h.updateFloatingIps
    intro g hg hid
    rw [eq_of_key hg hmem (beq_iff_eq.mp hid)]
    exact ⟨hn, by simp, rfl⟩
  unfold NetDB.detach
  split
  . exact h.deleteFloatingIps _
  . next htype => exact hrelease (by simp [htype])
  . next hn _ =>
    apply (hrelease hn).updateFloatingIps
    intro g hg hid
    have htype := releaseFloatingIp_type hg (beq_iff_eq.mp hid)
    exact ⟨by simp [htype], by simp [htype], rfl⟩

theorem PubInv.updateLoaded (h : PubInv pub db) (hload : floatingIp.Loaded db)
    (hupdate : db.updateFloatingIp floatingIp inst loadBalancer = some db')
    : PubInv pub db' := by
  have hdetach := h.detach hload.1
  have hi : (db.detach floatingIp.row).HasIface floatingIp.row.id := by
    unfold HasIface
    rw [(detach_eq db floatingIp.row).2]
    exact ⟨_, hload.2.1, hload.2.2.1⟩
  simp only [NetDB.updateFloatingIp] at hupdate
  split at hupdate
  . contradiction
  . split at hupdate
    . split at hupdate
      . exact (record_keeps (P := fun d => PubInv pub d ∧ FipFrame _ d) (PubInv.recorded hi)
          ⟨hdetach, .refl _⟩ hupdate).1
      . exact (hdetach.attach hi hupdate).1
    . cases hupdate
      apply hdetach.updateFloatingIp hi
      intro g _
      exact ⟨by simp, rfl⟩
    . cases hupdate
      exact hdetach

section Derive

variable {inst : Instance} {primaryID addrID : Nat} {primaryAddress : Cidr} {fip : LoadedFip}

def NoSecondOnly (db : NetDB) (ifaceID : Nat) : Prop :=
  ∀ r ∈ db.addresses, r.secondInterface = ifaceID → r.interface ≠ 0

def TakeOk (db : NetDB) (instID ifaceID : Nat) : Prop :=
  ∀ i ∈ db.interfaces, i.id = ifaceID →
    i.inst = instID ∨ (i.floatingIp ≠ 0 ∧ db.NoSecondOnly ifaceID)

section PubInv

variable (h : PubInv pub db)

include h

theorem PubInv.updateSecond (hf : ∀ r, (f r).address = r.address ∧ (f r).subnetID = r.subnetID ∧
      (f r).allocated = r.allocated ∧ (f r).interface = r.interface)
    (hrow : db.PrimaryRow addrID)
    : PubInv pub (db.updateAddresses (fun r => r.id == addrID) f) := by
  apply h.updateAddresses
  . exact fun r => ⟨(hf r).1, (hf r).2.1⟩
  . intro r hr hid hfree
    have hi := hrow r hr (beq_iff_eq.mp hid)
    exact absurd (h.freeRow r hr ((hf r).2.2.1 ▸ hfree)).1 hi
  . intro r hr hid
    have hi := hrow r hr (beq_iff_eq.mp hid)
    exact .inl ⟨(hf r).2.2.1, (hf r).2.2.2, fun h0 => absurd h0 hi⟩

theorem PubInv.clearSecond (hrow : db.PrimaryRow addrID) : PubInv pub (db.clearSecond addrID) := by
  apply h.updateSecond _ hrow
  exact fun _ => ⟨rfl, rfl, rfl, rfl⟩

theorem PubInv.addSecond (primaryID : Nat) (hrow : db.PrimaryRow fip.address.id)
    : PubInv pub (derivePublicInterface.addSecond db primaryID fip) := by
  apply h.updateSecond _ hrow
  exact fun _ => ⟨rfl, rfl, rfl, rfl⟩

theorem PubInv.takePrimary (htake : db.TakeOk inst.id primaryID)
    : PubInv pub (derivePublicInterface.takePrimary inst db primaryID) := by
  apply h.updateInterfaces
  . exact fun _ => rfl
  . intro i hi hid
    have hid := beq_iff_eq.mp hid
    obtain hinst | hok := htake i hi hid
    . exact .inl hinst.symm
    . exact .inr ⟨hok.1, hid ▸ hok.2⟩

theorem PubInv.reserve (hi : db.HasIface fip.row.id) (inst : Instance) (intAddress : Cidr)
    : PubInv pub (derivePublicInterface.reserve inst db fip intAddress) := by
  apply h.updateFloatingIp hi
  intro g _
  exact ⟨by simp, rfl⟩

theorem PubInv.loop (htake : first = true → db.TakeOk inst.id primaryID)
    (hfips : ∀ fip ∈ fips, db.PrimaryRow fip.address.id ∧ db.HasIface fip.row.id)
    (hloop : derivePublicInterface.loop inst updatePrimary primaryID primaryAddress first db fips
      = some db')
    : PubInv pub db' := by
  refine (derivePublicInterface.loop_keeps
    (P := fun first d => PubInv pub d ∧ Same db d ∧ (first = true → d.TakeOk inst.id primaryID)) ?_ ?_ ?_
    ⟨h, .refl db, htake⟩ hloop).1
  . exact fun h => ⟨h.1, h.2.1, by simp⟩
  . rintro fip hmem d ⟨hinv, hsame, htake⟩
    have htaken := hsame.trans (same_takePrimary d inst primaryID)
    refine ⟨(hinv.takePrimary (htake rfl)).reserve ((hfips fip hmem).2.keeps htaken.keeps) inst primaryAddress,
      ?_, by simp⟩
    exact htaken.trans (same_reserve _ inst fip primaryAddress)
  . rintro fip hmem d ⟨hinv, hsame, _⟩
    obtain ⟨hrow, hi⟩ := hfips fip hmem
    have hadded := hsame.trans (same_addSecond d primaryID fip)
    refine ⟨(hinv.addSecond primaryID (hrow.same hsame)).reserve (hi.keeps hadded.keeps) inst fip.address.address,
      ?_, by simp⟩
    exact hadded.trans (same_reserve _ inst fip fip.address.address)

end PubInv

structure Fewer (db db' : NetDB) : Prop where
  keeps : db.Keeps db'
  insts : ∀ j ∈ db'.interfaces, ∃ i ∈ db.interfaces,
    i.id = j.id ∧ i.inst = j.inst ∧ i.floatingIp = j.floatingIp
  rows : ∀ b ∈ db'.addresses, ∃ a ∈ db.addresses, a.id = b.id ∧ a.interface = b.interface ∧
    (b.secondInterface = 0 ∨ b.secondInterface = a.secondInterface)

theorem Fewer.same (h : Fewer db db') : Same db db' := by
  refine ⟨h.keeps, ?_⟩
  intro b hb
  have ⟨a, ha, hid, hi, _⟩ := h.rows b hb
  exact ⟨a, ha, hid, hi⟩

theorem Fewer.refl (db : NetDB) : Fewer db db :=
  ⟨.refl db, fun i hi => ⟨i, hi, rfl, rfl, rfl⟩, fun b hb => ⟨b, hb, rfl, rfl, .inr rfl⟩⟩

theorem Fewer.trans (h : Fewer db db') (h' : Fewer db' db'') : Fewer db db'' := by
  refine ⟨h.keeps.trans h'.keeps, ?_, ?_⟩
  . intro k hk
    have ⟨j, hj, hid', hinst', hfip'⟩ := h'.insts k hk
    have ⟨i, hi, hid, hinst, hfip⟩ := h.insts j hj
    exact ⟨i, hi, hid.trans hid', hinst.trans hinst', hfip.trans hfip'⟩
  . intro c hc
    have ⟨b, hb, hid', hi', hs'⟩ := h'.rows c hc
    have ⟨a, ha, hid, hi, hs⟩ := h.rows b hb
    refine ⟨a, ha, hid.trans hid', hi.trans hi', ?_⟩
    obtain hs' | hs' := hs'
    . exact .inl hs'
    . exact hs' ▸ hs

theorem Fewer.of_eq (haddr : db'.addresses = db.addresses) (hifaces : db'.interfaces = db.interfaces)
    : Fewer db db' :=
  ⟨.of_interfaces hifaces, fun i hi => ⟨i, hifaces ▸ hi, rfl, rfl, rfl⟩,
    fun b hb => ⟨b, haddr ▸ hb, rfl, rfl, .inr rfl⟩⟩

theorem fewer_clearSecond (db : NetDB) (addrID : Nat) : Fewer db (db.clearSecond addrID) := by
  refine ⟨.of_interfaces rfl, fun i hi => ⟨i, hi, rfl, rfl, rfl⟩, ?_⟩
  unfold NetDB.clearSecond
  rw [forall_updateAddresses]
  intro a ha
  refine ⟨a, ha, ?_⟩
  split
  . exact ⟨rfl, rfl, .inl rfl⟩
  . exact ⟨rfl, rfl, .inr rfl⟩

theorem NoSecondOnly.fewer (h : db.NoSecondOnly ifaceID) (hid : ifaceID ≠ 0) (hfewer : Fewer db db')
    : db'.NoSecondOnly ifaceID := by
  intro b hb hsecond
  have ⟨a, ha, _, hi, hs⟩ := hfewer.rows b hb
  rw [← hi]
  obtain hs | hs := hs
  . exact absurd (hsecond.symm.trans hs) hid
  . exact h a ha (hs.symm.trans hsecond)

theorem TakeOk.fewer (h : db.TakeOk instID ifaceID) (hid : ifaceID ≠ 0) (hfewer : Fewer db db')
    : db'.TakeOk instID ifaceID := by
  intro j hj hjid
  have ⟨i, hi, hij, hinst, hfip⟩ := hfewer.insts j hj
  rw [← hinst, ← hfip]
  obtain hsame | hok := h i hi (hij.trans hjid)
  . exact .inl hsame
  . exact .inr ⟨hok.1, hok.2.fewer hid hfewer⟩

theorem PubInv.derivePublicInterface (h : PubInv pub db)
    (hfips : ∀ fip ∈ fips, db.PrimaryRow fip.address.id ∧ db.HasIface fip.row.id)
    (hprimary : ∀ primary, derivePublicInterface.primaryIface iface fips = some primary →
      db.PrimaryRow primary.2.id ∧ primary.1.id ≠ 0 ∧ db.TakeOk inst.id primary.1.id)
    (hderive : db.derivePublicInterface inst iface fips = some (db', ifaceID))
    : PubInv pub db' := by
  simp only [NetDB.derivePublicInterface, bind_eq_bind, bind_eq_some_iff, pure_def,
    some.injEq, Prod.mk.injEq] at hderive
  obtain ⟨primary, hsome, db'', hloop, hdb, _⟩ := hderive
  obtain ⟨hrow, hid, htake⟩ := hprimary primary hsome
  have hfewer := fewer_clearSecond db primary.2.id
  rw [← hdb]
  apply (h.clearSecond hrow).loop (fun _ => htake.fewer hid hfewer) _ hloop
  intro fip hmem
  obtain ⟨hp, hi⟩ := hfips fip hmem
  exact ⟨hp.same hfewer.same, hi.keeps hfewer.keeps⟩

end Derive

section Second

variable {inst : Instance} {ifaceID : Nat}

theorem PubInv.createDummyFloatingIp (h : PubInv pub db) (hinst : inst.id ≠ 0)
    (hr : r ∈ db.addresses) (hpub : pub r.subnetID) (halloc : r.allocated = true)
    (hfresh : ∀ g ∈ db.floatingIps, g.fipAddress ≠ some r.address)
    (hi : i ∈ db.interfaces) (hiinst : i.inst = inst.id)
    (hrefs : (r.interface = i.id ∧ i.floatingIp = 0) ∨ (r.interface = 0 ∧ r.secondInterface = i.id))
    : PubInv pub (db.createDummyFloatingIp inst r.address) := by
  apply h.insertFloatingIp
  . intro a ha
    cases ha
    exact hfresh
  . intro a ha
    cases ha
    exact ⟨r, hr, hpub, rfl, halloc, i, hi, .inr ⟨rfl, hinst, hiinst, hrefs⟩⟩

def HasNic (db : NetDB) (instID ifaceID : Nat) : Prop := ∃ i ∈ db.interfaces, i.id = ifaceID ∧ i.inst = instID

theorem PubInv.allocateSecondAddresses (h : PubInv pub db) (hinst : inst.id ≠ 0)
    (hnic : db.HasNic inst.id ifaceID)
    (hpub : ∀ subnet ∈ ifaceSubnets, subnet.type = .publicSubnet → pub subnet.id)
    (halloc : db.allocateSecondAddresses inst ifaceID ifaceSubnets wanted = some db')
    : PubInv pub db' := by
  refine (allocateSecondAddresses_keeps (P := fun d => PubInv pub d ∧ d.HasNic inst.id ifaceID) ?_ ⟨h, hnic⟩ halloc).1
  rintro subnet hsubnet d d' row ⟨h, hnic⟩ halloc
  obtain ⟨_, _, _, _, hifaces, _, _⟩ := allocateAddress_eq_some halloc
  have hinv := h.allocateAddress halloc
  unfold HasNic at hnic
  rw [← hifaces] at hnic
  split
  . next htype =>
    have hpub := hpub subnet hsubnet htype
    obtain ⟨hmem, hall, hsub, hrefs, hfresh⟩ := allocateAddress_fresh h halloc
    obtain ⟨i, hi, hid, hiinst⟩ := hnic
    refine ⟨?_, i, hi, hid, hiinst⟩
    exact hinv.createDummyFloatingIp hinst hmem (hsub ▸ hpub) hall (hfresh hpub) hi hiinst
      (.inr ⟨hrefs.1, hrefs.2.trans hid.symm⟩)
  . exact ⟨hinv, hnic⟩

theorem PubInv.createInstanceInterface (h : PubInv pub db) (hinst : inst.id ≠ 0)
    (hpub : ∀ subnet ∈ subnets, subnet.type = .publicSubnet → pub subnet.id)
    (hcreate : db.createInstanceInterface refused inst subnets address ifname = some (db', iface))
    : PubInv pub db' ∧ db'.HasNic inst.id iface.row.id := by
  obtain ⟨subnet, hsubnet, _, db₂, h, hone, hdb⟩ := createInstanceInterface_keeps
    (fun h => h.createInterface (by simp)) h hcreate
  have hinv := h.createInterface (by simp) hone
  obtain ⟨hbooked, hrow⟩ := createInterface_booked h (by simp) hone
  have hnicInst : iface.row.inst = inst.id := by simp [hrow, newInterface]
  have hnicFip : iface.row.floatingIp = 0 := by simp [hrow, newInterface]
  rw [hdb]
  split
  . next htype =>
    have hpub := hpub subnet hsubnet htype
    refine ⟨?_, iface.row, hbooked.ifaceMem, rfl, hnicInst⟩
    exact hinv.createDummyFloatingIp hinst hbooked.rowMem (hbooked.subnetID ▸ hpub) hbooked.alloc (hbooked.fresh hpub)
      hbooked.ifaceMem hnicInst (.inl ⟨hbooked.primary, hnicFip⟩)
  . exact ⟨hinv, iface.row, hbooked.ifaceMem, rfl, hnicInst⟩

theorem PubInv.shrink (h : PubInv pub db) (hrows : ∀ addr ∈ released, ∀ r ∈ db.addresses, r.id = addr.id →
      r.interface = 0 ∧ ∀ g ∈ db.floatingIps, g.fipAddress ≠ some r.address)
    : PubInv pub (changeAddresses.shrink db released) := by
  unfold changeAddresses.shrink
  induction released generalizing db with
  | nil => exact h
  | cons addr released ih =>
    have ⟨hrow, hrows⟩ := List.forall_mem_cons.mp hrows
    rw [List.foldl_cons]
    apply ih
    . apply h.updateAddresses
      . exact fun _ => ⟨rfl, rfl⟩
      . intro r hr hid _
        exact ⟨(hrow r hr (beq_iff_eq.mp hid)).1, rfl⟩
      . intro r hr hid
        exact .inr (fun g hg hga => absurd hga ((hrow r hr (beq_iff_eq.mp hid)).2 g hg))
    . intro a ha
      rw [forall_updateAddresses]
      intro r hr
      split
      . exact hrows a ha r hr
      . exact hrows a ha r hr

end Second

end Web.NetDB
