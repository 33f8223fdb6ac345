import Cloudland.Lib.Run
import Cloudland.Web.Network.Rules

/-!
Who owns an address row.
-/

namespace Web.NetDB

open Option Table

def Live (db : NetDB) (ifaceID : Nat) : Prop := ∃ iface ∈ db.interfaces, iface.id = ifaceID

def FipIface (db : NetDB) (ifaceID : Nat) : Prop :=
  ∃ iface ∈ db.interfaces, iface.id = ifaceID ∧ iface.floatingIp ≠ 0

structure RowOk (held live fip : Nat → Prop) (r : Address) : Prop where
  heldRow : held r.id → r.interface = 0 ∧ r.secondInterface = 0
  owned : r.allocated = true ↔ held r.id ∨ r.interface ≠ 0 ∨ r.secondInterface ≠ 0
  primaryLive : r.interface ≠ 0 → live r.interface
  secondLive : r.secondInterface ≠ 0 → live r.secondInterface
  shared : r.interface ≠ 0 → r.secondInterface ≠ 0 → fip r.interface

def AddrInv (held : Nat → Prop) (db : NetDB) : Prop := ∀ r ∈ db.addresses, RowOk held db.Live db.FipIface r

def Keeps (db db' : NetDB) : Prop :=
  ∀ i ∈ db.interfaces, ∃ j ∈ db'.interfaces, j.id = i.id ∧ j.floatingIp = i.floatingIp

section Keeps

variable {db db' : NetDB}

theorem Keeps.refl (db : NetDB) : db.Keeps db := fun i hi => ⟨i, hi, rfl, rfl⟩

theorem Keeps.of_interfaces (h : db'.interfaces = db.interfaces) : db.Keeps db' :=
  fun i hi => ⟨i, h ▸ hi, rfl, rfl⟩

theorem Keeps.trans (h : db.Keeps db') (h' : db'.Keeps db'') : db.Keeps db'' := by
  intro i hi
  have ⟨j, hj, hid, hfip⟩ := h i hi
  have ⟨k, hk, hid', hfip'⟩ := h' j hj
  exact ⟨k, hk, hid'.trans hid, hfip'.trans hfip⟩

theorem Keeps.live (h : db.Keeps db') (hk : db.Live k) : db'.Live k := by
  have ⟨i, hi, hid⟩ := hk
  have ⟨j, hj, hji, _⟩ := h i hi
  exact ⟨j, hj, hji.trans hid⟩

theorem Keeps.fipIface (h : db.Keeps db') (hk : db.FipIface k) : db'.FipIface k := by
  have ⟨i, hi, hid, hfip⟩ := hk
  have ⟨j, hj, hji, hjf⟩ := h i hi
  exact ⟨j, hj, hji.trans hid, hjf ▸ hfip⟩

theorem mem_updateInterfaces
    : j ∈ (db.updateInterfaces p f).interfaces
        ↔
      ∃ i ∈ db.interfaces, j = if p i then { f i with id := i.id } else i :=
  mem_update

theorem keeps_updateInterfaces (db : NetDB) (hfip : ∀ a, (f a).floatingIp = a.floatingIp)
    : db.Keeps (db.updateInterfaces p f) := by
  intro i hi
  refine ⟨_, mem_updateInterfaces.mpr ⟨i, hi, rfl⟩, ?_, ?_⟩
  . split <;> rfl
  . split
    . exact hfip i
    . rfl

theorem keeps_insertInterface (db : NetDB) (iface : Interface)
    : db.Keeps { db with interfaces := db.interfaces.insert iface } :=
  fun i hi => ⟨i, mem_insert.mpr (.inl hi), rfl, rfl⟩

theorem pos_of_live (hk : db.Live k) : k ≠ 0 := by
  have ⟨iface, hmem, hid⟩ := hk
  have := (db.interfaces.bounds iface hmem).1
  rw [← hid]
  exact Nat.pos_iff_ne_zero.mp this

end Keeps

section Rows

variable {held live fip live' fip' : Nat → Prop} {r : Address}

theorem RowOk.mono (h : RowOk held live fip r) (hlive : ∀ k, live k → live' k) (hfip : ∀ k, fip k → fip' k)
    : RowOk held live' fip' r :=
  ⟨h.heldRow, h.owned, fun hi => hlive _ (h.primaryLive hi), fun hi => hlive _ (h.secondLive hi),
    fun hi hs => hfip _ (h.shared hi hs)⟩

theorem RowOk.not_held (h : RowOk held live fip r) (href : r.interface ≠ 0 ∨ r.secondInterface ≠ 0)
    : ¬held r.id := by
  intro hheld
  have ⟨hi, hs⟩ := h.heldRow hheld
  obtain href | href := href
  . exact href hi
  . exact href hs

theorem RowOk.refs_of_not_allocated (h : RowOk held live fip r) (hfree : r.allocated = false)
    : ¬held r.id ∧ r.interface = 0 ∧ r.secondInterface = 0 := by
  have := h.owned
  rw [hfree] at this
  simp only [Bool.false_eq_true, false_iff, not_or, not_not] at this
  exact this

theorem RowOk.free (hheld : ¬held r.id) (halloc : r.allocated = false) (hi : r.interface = 0)
    (hs : r.secondInterface = 0)
    : RowOk held live fip r := by
  constructor <;> simp [hheld, halloc, hi, hs]

theorem booked_id (r : Address) : (booked ifaceID addrType r).id = r.id := by
  unfold booked
  split <;> rfl

theorem RowOk.booked (h : RowOk held live fip r) (hfree : r.allocated = false)
    (addrType : AddrType) (hlive : live ifaceID) (hpos : ifaceID ≠ 0)
    : RowOk held live fip (NetDB.booked ifaceID addrType r) := by
  have ⟨hheld, hi, hs⟩ := h.refs_of_not_allocated hfree
  unfold NetDB.booked
  split <;> constructor <;> simp [hheld, hi, hs, hlive, hpos]

theorem RowOk.setSecond (h : RowOk held live fip r) (hi : r.interface ≠ 0)
    (hk : k ≠ 0 → live k ∧ fip r.interface)
    : RowOk held live fip { r with secondInterface := k, type := type } where
  heldRow := fun hheld => absurd (h.heldRow hheld).1 hi
  owned := by simp [h.owned, hi]
  primaryLive := h.primaryLive
  secondLive := fun hne => (hk hne).1
  shared := fun _ hne => (hk hne).2

theorem RowOk.dropped (h : ¬held r.id) (hi : r.interface = 0)
    : RowOk held live fip { r with secondInterface := 0, allocated := false } :=
  .free h rfl hi rfl

end Rows

variable {held : Nat → Prop} {db db' : NetDB}

theorem forall_updateAddresses {P : Address → Prop}
    : (∀ b ∈ (db.updateAddresses p f).addresses, P b)
        ↔
      ∀ a ∈ db.addresses, P (if p a then { f a with id := a.id } else a) :=
  forall_mem_update

theorem AddrInv.update (h : AddrInv held db) {p : Address → Bool} {f : Address → Address}
    (hstep : ∀ r ∈ db.addresses, RowOk held db.Live db.FipIface r → p r = true →
      RowOk held db.Live db.FipIface { f r with id := r.id })
    : AddrInv held (db.updateAddresses p f) := by
  unfold AddrInv
  rw [forall_updateAddresses]
  intro r hr
  split
  . next hp => exact hstep r hr (h r hr) hp
  . exact h r hr

theorem AddrInv.keeps (h : AddrInv held db) (hkeeps : db.Keeps db') (haddr : db'.addresses = db.addresses)
    : AddrInv held db' :=
  fun r hr => (h r (haddr ▸ hr)).mono (fun _ => hkeeps.live) (fun _ => hkeeps.fipIface)

section Allocate

variable {subnet : Subnet} {ifaceID : Nat} {ipaddr : IpArg} {addrType : AddrType} {row : Address}

theorem allocateAddress_eq_some (h : db.allocateAddress subnet ifaceID ipaddr addrType = some (db', row))
    : ∃ a ∈ db.addresses, available subnet ipaddr a = true ∧ row = booked ifaceID addrType a ∧
        db'.interfaces = db.interfaces ∧ db'.floatingIps = db.floatingIps ∧
        ∀ b, b ∈ db'.addresses ↔
          (b ∈ db.addresses ∧ b.id ≠ a.id) ∨ b = booked ifaceID addrType a := by
  simp only [allocateAddress, bind_eq_bind, bind_eq_some_iff, pure_def,
    some.injEq, Prod.mk.injEq] at h
  have ⟨a, ha, hdb, hrow⟩ := h
  have ⟨hmem, havail⟩ := find?_eq_some ha
  refine ⟨a, hmem, havail, hrow.symm, ?_, ?_, ?_⟩
  . rw [← hdb]
    rfl
  . rw [← hdb]
    rfl
  . intro b
    simp only [booked_id] at hdb
    rw [← hdb]
    apply (mem_update_key hmem).trans
    have heq : { a with
        id := a.id
        allocated := (booked ifaceID addrType a).allocated
        type := (booked ifaceID addrType a).type
        secondInterface := (booked ifaceID addrType a).secondInterface
        interface := (booked ifaceID addrType a).interface } = booked ifaceID addrType a := by
      unfold booked
      split <;> rfl
    exact heq ▸ Iff.rfl

theorem available_eq_true (h : available subnet ipaddr a = true)
    : a.subnetID = subnet.id ∧ a.allocated = false ∧ a.reserved = false := by
  simp only [available, Bool.and_eq_true, decide_eq_true_eq, Bool.not_eq_true'] at h
  exact ⟨h.1.1.1, h.1.1.2, h.1.2⟩

theorem AddrInv.allocateAddress (h : AddrInv held db) (hlive : db.Live ifaceID)
    (halloc : db.allocateAddress subnet ifaceID ipaddr addrType = some (db', row))
    : AddrInv held db' := by
  have ⟨a, ha, havail, _, hifaces, _, hmem⟩ := allocateAddress_eq_some halloc
  have hkeeps := Keeps.of_interfaces hifaces
  have hbooked := (h a ha).booked (available_eq_true havail).2.1 addrType hlive (pos_of_live hlive)
  intro b hb
  apply RowOk.mono _ (fun _ => hkeeps.live) (fun _ => hkeeps.fipIface)
  obtain hb | hb := (hmem b).mp hb
  . exact h b hb.1
  . exact hb ▸ hbooked

end Allocate

section Create

variable {subnet : Subnet} {ID : Nat} {address : IpArg} {ifaceName : String} {ifType : IfType}

theorem createInterface_cases (h : db.createInterface subnet ID address ifaceName ifType = (db', res))
    : (∃ iface addr, iface = { newInterface subnet ID ifaceName ifType with id := db.interfaces.next } ∧
        res = some ⟨iface, addr, []⟩ ∧
        allocateAddress { db with interfaces := db.interfaces.insert iface } subnet iface.id address
          .native = some (db', addr)) ∨
      (res = none ∧ db'.addresses = db.addresses ∧ db'.floatingIps = db.floatingIps ∧
        ∀ iface, iface ∈ db'.interfaces ↔ iface ∈ db.interfaces) := by
  simp only [createInterface] at h
  split at h
  . next db'' addr halloc =>
    cases h
    exact .inl ⟨_, addr, rfl, rfl, halloc⟩
  . cases h
    refine .inr ⟨rfl, rfl, rfl, fun iface => mem_def.trans ?_⟩
    exact rows_delete_insert (t := db.interfaces) ▸ Iff.rfl

theorem createInterface_live
    (h : db.createInterface subnet ID address ifaceName ifType = (db', some iface))
    : db'.Live iface.row.id := by
  obtain ⟨row, addr, hrow, hres, halloc⟩ | hnone := createInterface_cases h
  . have ⟨_, _, _, _, hifaces, _⟩ := allocateAddress_eq_some halloc
    cases hres
    rw [hrow] at hifaces ⊢
    refine ⟨_, ?_, rfl⟩
    rw [hifaces]
    exact mem_insert.mpr (.inr rfl)
  . exact absurd hnone.1 (by simp)

theorem AddrInv.createInterface (h : AddrInv held db)
    (hcreate : db.createInterface subnet ID address ifaceName ifType = (db', res))
    : AddrInv held db' := by
  obtain ⟨iface, addr, hiface, _, halloc⟩ | ⟨_, haddr, _, hifaces⟩ := createInterface_cases hcreate
  . have hins : AddrInv held { db with interfaces := db.interfaces.insert iface } :=
      h.keeps (keeps_insertInterface db iface) rfl
    apply hins.allocateAddress _ halloc
    rw [hiface]
    exact ⟨_, mem_insert.mpr (.inr rfl), rfl⟩
  . apply h.keeps _ haddr
    intro i hi
    exact ⟨i, (hifaces i).mpr hi, rfl, rfl⟩

theorem AddrInv.stable : Stable (AddrInv held) := ⟨fun _ h => h.keeps (.of_interfaces rfl) rfl, AddrInv.createInterface⟩

end Create

structure Same (db db' : NetDB) : Prop where
  keeps : db.Keeps db'
  primary : ∀ b ∈ db'.addresses, ∃ a ∈ db.addresses, a.id = b.id ∧ a.interface = b.interface

def FipRow (db : NetDB) (addrID : Nat) : Prop :=
  ∀ r ∈ db.addresses, r.id = addrID → r.interface ≠ 0 ∧ db.FipIface r.interface

def PrimaryRow (db : NetDB) (addrID : Nat) : Prop := ∀ r ∈ db.addresses, r.id = addrID → r.interface ≠ 0

def SecondRow (held : Nat → Prop) (db : NetDB) (addrID : Nat) : Prop :=
  ¬held addrID ∧ ∀ r ∈ db.addresses, r.id = addrID → r.interface = 0

section Same

variable {addrID : Nat}

theorem Same.refl (db : NetDB) : Same db db := ⟨.refl db, fun b hb => ⟨b, hb, rfl, rfl⟩⟩

theorem Same.trans (h : Same db db') (h' : Same db' db'') : Same db db'' := by
  refine ⟨h.keeps.trans h'.keeps, ?_⟩
  intro c hc
  have ⟨b, hb, hbid, hbi⟩ := h'.primary c hc
  have ⟨a, ha, haid, hai⟩ := h.primary b hb
  exact ⟨a, ha, haid.trans hbid, hai.trans hbi⟩

theorem Same.of_addresses (hkeeps : db.Keeps db') (haddr : db'.addresses = db.addresses) : Same db db' :=
  ⟨hkeeps, fun b hb => ⟨b, haddr ▸ hb, rfl, rfl⟩⟩

theorem same_updateAddresses (db : NetDB) (hiface : ∀ a, (f a).interface = a.interface)
    : Same db (db.updateAddresses p f) := by
  refine ⟨.of_interfaces rfl, ?_⟩
  rw [forall_updateAddresses]
  intro a ha
  refine ⟨a, ha, ?_⟩
  split
  . exact ⟨rfl, (hiface a).symm⟩
  . exact ⟨rfl, rfl⟩

theorem same_updateFloatingIps (db : NetDB) (p : FloatingIp → Bool) (f : FloatingIp → FloatingIp)
    : Same db (db.updateFloatingIps p f) :=
  .of_addresses (.of_interfaces rfl) rfl

theorem FipRow.same (h : db.FipRow addrID) (hsame : Same db db') : db'.FipRow addrID := by
  intro b hb hid
  have ⟨a, ha, haid, hai⟩ := hsame.primary b hb
  have ⟨hne, hfip⟩ := h a ha (haid.trans hid)
  rw [← hai]
  exact ⟨hne, hsame.keeps.fipIface hfip⟩

theorem FipRow.primaryRow (h : db.FipRow addrID) : db.PrimaryRow addrID :=
  fun r hr hid => (h r hr hid).1

theorem PrimaryRow.same (h : db.PrimaryRow addrID) (hsame : Same db db') : db'.PrimaryRow addrID := by
  intro b hb hid
  have ⟨a, ha, haid, hai⟩ := hsame.primary b hb
  rw [← hai]
  exact h a ha (haid.trans hid)

theorem SecondRow.same (h : SecondRow held db addrID) (hsame : Same db db') : SecondRow held db' addrID := by
  refine ⟨h.1, ?_⟩
  intro b hb hid
  have ⟨a, ha, haid, hai⟩ := hsame.primary b hb
  rw [← hai]
  exact h.2 a ha (haid.trans hid)

end Same

section Derive

variable {inst : Instance} {primaryID addrID : Nat} {primaryAddress : Cidr} {fip : LoadedFip}

theorem AddrInv.clearSecond (h : AddrInv held db) (hrow : db.PrimaryRow addrID)
    : AddrInv held (db.clearSecond addrID) := by
  apply h.update
  intro r hr hok hid
  apply hok.setSecond (hrow r hr (beq_iff_eq.mp hid))
  simp

theorem AddrInv.addSecond (h : AddrInv held db) (hlive : db.Live primaryID) (hfip : db.FipRow fip.address.id)
    : AddrInv held (derivePublicInterface.addSecond db primaryID fip) := by
  apply h.update
  intro r hr hok hid
  have ⟨hi, hr⟩ := hfip r hr (beq_iff_eq.mp hid)
  exact hok.setSecond hi (fun _ => ⟨hlive, hr⟩)

theorem same_clearSecond (db : NetDB) (addrID : Nat) : Same db (db.clearSecond addrID) := by
  apply same_updateAddresses
  exact fun _ => rfl

theorem same_addSecond (db : NetDB) (primaryID : Nat) (fip : LoadedFip)
    : Same db (derivePublicInterface.addSecond db primaryID fip) := by
  apply same_updateAddresses
  exact fun _ => rfl

theorem same_takePrimary (db : NetDB) (inst : Instance) (primaryID : Nat)
    : Same db (derivePublicInterface.takePrimary inst db primaryID) := by
  have hkeeps : db.Keeps (derivePublicInterface.takePrimary inst db primaryID) := by
    apply keeps_updateInterfaces
    exact fun _ => rfl
  exact .of_addresses hkeeps rfl

theorem same_reserve (db : NetDB) (inst : Instance) (fip : LoadedFip) (intAddress : Cidr)
    : Same db (derivePublicInterface.reserve inst db fip intAddress) :=
  same_updateFloatingIps db _ _

theorem AddrInv.loop (h : AddrInv held db) (hlive : db.Live primaryID)
    (hfips : ∀ fip ∈ fips, db.FipRow fip.address.id)
    (hloop : derivePublicInterface.loop inst updatePrimary primaryID primaryAddress first db fips
      = some db')
    : AddrInv held db' := by
  refine (derivePublicInterface.loop_keeps (P := fun _ d => AddrInv held d ∧ Same db d) (fun h => h) ?_ ?_
    ⟨h, .refl db⟩ hloop).1
  . rintro fip _ d ⟨hinv, hsame⟩
    have hstep := (same_takePrimary d inst primaryID).trans (same_reserve _ inst fip primaryAddress)
    exact ⟨hinv.keeps hstep.keeps rfl, hsame.trans hstep⟩
  . rintro fip hmem d ⟨hinv, hsame⟩
    have hreserve := same_reserve (derivePublicInterface.addSecond d primaryID fip) inst fip fip.address.address
    have hadd := hinv.addSecond (hsame.keeps.live hlive) ((hfips fip hmem).same hsame)
    exact ⟨hadd.keeps hreserve.keeps rfl, hsame.trans ((same_addSecond d primaryID fip).trans hreserve)⟩

theorem AddrInv.derivePublicInterface (h : AddrInv held db)
    (hiface : ∀ i ∈ iface, db.Live i.row.id ∧ db.PrimaryRow i.address.id)
    (hfips : ∀ fip ∈ fips, db.Live fip.interface.id ∧ db.FipRow fip.address.id)
    (hderive : db.derivePublicInterface inst iface fips = some (db', ifaceID))
    : AddrInv held db' := by
  simp only [NetDB.derivePublicInterface, bind_eq_bind, bind_eq_some_iff, pure_def,
    some.injEq, Prod.mk.injEq] at hderive
  have ⟨primary, hprimary, db'', hloop, hdb, _⟩ := hderive
  have ⟨hlive, hrow⟩ : db.Live primary.1.id ∧ db.PrimaryRow primary.2.id := by
    unfold derivePublicInterface.primaryIface at hprimary
    split at hprimary
    . cases hprimary
      exact hiface _ rfl
    . next fip rest =>
      cases hprimary
      have ⟨hl, hr⟩ := hfips fip List.mem_cons_self
      exact ⟨hl, hr.primaryRow⟩
    . contradiction
  have hsame := same_clearSecond db primary.2.id
  rw [← hdb]
  exact (h.clearSecond hrow).loop (hsame.keeps.live hlive)
    (fun fip hmem => (hfips fip hmem).2.same hsame) hloop

end Derive

section Change

variable {inst : Instance} {ifaceID : Nat}

theorem AddrInv.allocateSecondAddresses (h : AddrInv held db) (hlive : db.Live ifaceID)
    (halloc : db.allocateSecondAddresses inst ifaceID ifaceSubnets wanted = some db')
    : AddrInv held db' := by
  refine (allocateSecondAddresses_keeps (P := fun d => AddrInv held d ∧ d.Live ifaceID) ?_ ⟨h, hlive⟩ halloc).1
  rintro subnet _ d d' row ⟨hinv, hlive⟩ halloc
  obtain ⟨_, _, _, _, hifaces, _, _⟩ := allocateAddress_eq_some halloc
  have hinv := hinv.allocateAddress hlive halloc
  have hlive := (Keeps.of_interfaces hifaces).live hlive
  split
  . exact ⟨hinv.keeps (.of_interfaces rfl) rfl, hlive⟩
  . exact ⟨hinv, hlive⟩

theorem same_dropSecond (hdrop : changeAddresses.dropSecond db addr = some db') : Same db db' := by
  have hsame := same_clearSecond db addr.id
  exact dropSecond_keeps hsame (fun _ _ => hsame.trans (same_updateFloatingIps _ _ _)) hdrop

theorem AddrInv.dropSecond (h : AddrInv held db) (hrow : db.PrimaryRow addr.id)
    (hdrop : changeAddresses.dropSecond db addr = some db')
    : AddrInv held db' := by
  have hclear := h.clearSecond hrow
  exact dropSecond_keeps hclear (fun _ _ => hclear.keeps (.of_interfaces rfl) rfl) hdrop

theorem AddrInv.dropAll (h : AddrInv held db) {addrs : List Address}
    (hrows : ∀ addr ∈ addrs, db.PrimaryRow addr.id)
    (hdrop : addrs.foldlM changeAddresses.dropSecond db = some db')
    : AddrInv held db' ∧ Same db db' := by
  refine Run.foldlM_keeps (P := fun d => AddrInv held d ∧ Same db d) ?_ ⟨h, .refl db⟩ hdrop
  rintro addr haddr d d' ⟨hinv, hsame⟩ hdrop
  exact ⟨hinv.dropSecond ((hrows addr haddr).same hsame) hdrop, hsame.trans (same_dropSecond hdrop)⟩

theorem AddrInv.shrink (h : AddrInv held db) (hrows : ∀ addr ∈ released, SecondRow held db addr.id)
    : AddrInv held (changeAddresses.shrink db released) := by
  unfold changeAddresses.shrink
  induction released generalizing db with
  | nil => exact h
  | cons addr released ih =>
    have ⟨hrow, hrows⟩ := List.forall_mem_cons.mp hrows
    have hsame : Same db (db.updateAddresses (fun r => r.id == addr.id)
        (fun r => { r with secondInterface := 0, allocated := false })) := by
      apply same_updateAddresses
      exact fun _ => rfl
    rw [List.foldl_cons]
    apply ih _ (fun a ha => (hrows a ha).same hsame)
    apply h.update
    intro r hr _ hid
    have hid := beq_iff_eq.mp hid
    exact .dropped (hid ▸ hrow.1) (hrow.2 r hr hid)

theorem detach_eq (db : NetDB) (floatingIp : FloatingIp)
    : (db.detach floatingIp).addresses = db.addresses ∧
      (db.detach floatingIp).interfaces = db.interfaces := by
  unfold detach
  split <;> exact ⟨rfl, rfl⟩

theorem same_detach (db : NetDB) (floatingIp : FloatingIp) : Same db (db.detach floatingIp) :=
  .of_addresses (.of_interfaces (detach_eq db floatingIp).2) (detach_eq db floatingIp).1

theorem same_resetInterface (db : NetDB) (ifaceID : Nat) : Same db (db.resetInterface ifaceID) := by
  have hkeeps : db.Keeps (db.resetInterface ifaceID) := by
    apply keeps_updateInterfaces
    exact fun _ => rfl
  exact .of_addresses hkeeps rfl

theorem AddrInv.changeAddresses (h : AddrInv held db) {iface : LoadedInterface}
    (hlive : db.Live iface.row.id) (hrow : db.PrimaryRow iface.address.id)
    (hfips : ∀ fip ∈ publicIps, db.Live fip.interface.id ∧ db.FipRow fip.address.id) (hshrink : publicIps = [] →
      ∀ addr ∈ iface.secondAddresses.take (iface.secondAddresses.length - wanted),
        SecondRow held db addr.id)
    (hreplace : publicIps ≠ [] → ∀ addr ∈ iface.secondAddresses, db.PrimaryRow addr.id)
    (hchange : db.changeAddresses inst iface ifaceSubnets wanted publicIps = some db')
    : AddrInv held db' := by
  unfold NetDB.changeAddresses at hchange
  split at hchange
  . next first rest =>
    simp only [bind_eq_bind, bind_eq_some_iff] at hchange
    have ⟨db1, hdrop, hchange⟩ := hchange
    have ⟨hinv, hsame⟩ := h.dropAll (hreplace (by simp)) hdrop
    have hfips1 : ∀ fip ∈ first :: rest.map (fun fip => { fip with row.instanceID := 0 }),
        db.Live fip.interface.id ∧ db.FipRow fip.address.id := by
      intro fip hmem
      obtain heq | hmem := List.mem_cons.mp hmem
      . exact hfips fip (heq ▸ List.mem_cons_self)
      . obtain ⟨g, hg, rfl⟩ := List.mem_map.mp hmem
        exact hfips g (List.mem_cons_of_mem _ hg)
    split at hchange
    . simp only [bind_eq_some_iff, pure_def, some.injEq] at hchange
      have ⟨floatingIp, _, res, hderive, hdb⟩ := hchange
      have hsame2 := (hsame.trans (same_detach db1 floatingIp)).trans (same_resetInterface _ iface.row.id)
      rw [← hdb]
      apply AddrInv.derivePublicInterface _ _ _ hderive
      . exact (AddrInv.stable.detach hinv floatingIp).keeps (same_resetInterface _ _).keeps rfl
      . simp
      . intro fip hmem
        have ⟨hl, hr⟩ := hfips1 fip hmem
        exact ⟨hsame2.keeps.live hl, hr.same hsame2⟩
    . simp only [bind_eq_some_iff, pure_def, some.injEq] at hchange
      obtain ⟨res, hderive, rfl⟩ := hchange
      apply hinv.derivePublicInterface _ _ hderive
      . intro i hi
        cases hi
        exact ⟨hsame.keeps.live hlive, hrow.same hsame⟩
      . intro fip hmem
        have ⟨hl, hr⟩ := hfips1 fip hmem
        exact ⟨hsame.keeps.live hl, hr.same hsame⟩
  . split at hchange
    . exact h.allocateSecondAddresses hlive hchange
    . cases hchange
      exact h.shrink (hshrink rfl)

end Change

section Release

variable {ifaceID : Nat}

theorem AddrInv.deallocateAddress (h : AddrInv held db) (hne : ifaces ≠ []) (hpos : ∀ i ∈ ifaces, i.id ≠ 0)
    : AddrInv held (db.deallocateAddress ifaces) := by
  apply h.update
  intro r _ hok hp
  simp only [Bool.or_eq_true, List.isEmpty_iff, hne, false_or, List.any_eq_true, beq_iff_eq] at hp
  have ⟨i, hi, heq⟩ := hp
  have hheld := hok.not_held (.inl (heq ▸ hpos i hi))
  exact .free hheld rfl rfl rfl

theorem AddrInv.deleteInterfaceRows (h : AddrInv held db)
    (hrefs : ∀ r ∈ db.addresses, ∀ i ∈ db.interfaces, p i = true →
      r.interface ≠ i.id ∧ r.secondInterface ≠ i.id)
    : AddrInv held (db.deleteInterfaceRows p) := by
  intro r hr
  have hok := h r hr
  have hkeep : ∀ i ∈ db.interfaces, i.id = r.interface ∨ i.id = r.secondInterface →
      i ∈ (db.deleteInterfaceRows p).interfaces := by
    intro i hi href
    apply mem_delete.mpr
    refine ⟨hi, ?_⟩
    rw [← Bool.not_eq_true]
    intro hp
    have ⟨h1, h2⟩ := hrefs r hr i hi hp
    obtain href | href := href
    . exact h1 href.symm
    . exact h2 href.symm
  refine ⟨hok.heldRow, hok.owned, ?_, ?_, ?_⟩
  . intro hi
    have ⟨i, hmem, hid⟩ := hok.primaryLive hi
    exact ⟨i, hkeep i hmem (.inl hid), hid⟩
  . intro hs
    have ⟨i, hmem, hid⟩ := hok.secondLive hs
    exact ⟨i, hkeep i hmem (.inr hid), hid⟩
  . intro hi hs
    have ⟨i, hmem, hid, hfip⟩ := hok.shared hi hs
    exact ⟨i, hkeep i hmem (.inl hid), hid, hfip⟩

def NoOrphans (db : NetDB) (masterID subnetID : Nat) (ifType : IfType) : Prop :=
  ∀ r ∈ db.addresses, ∀ i ∈ db.interfaces,
    ownedBy masterID subnetID ifType i = true → r.secondInterface = i.id →
    ∃ j ∈ db.interfaces, ownedBy masterID subnetID ifType j = true ∧ r.interface = j.id

instance : Decidable (NoOrphans db masterID subnetID ifType) := by
  unfold NoOrphans
  infer_instance

theorem AddrInv.deleteInterfaces (h : AddrInv held db)
    (hsafe : ifType ≠ .vrrp → ifType ≠ .system → db.NoOrphans masterID subnetID ifType)
    : AddrInv held (db.deleteInterfaces masterID subnetID ifType) := by
  simp only [NetDB.deleteInterfaces]
  split
  . exact h
  . next hne =>
    have hne' : db.interfaces.filter (ownedBy masterID subnetID ifType) ≠ [] := by
      simpa using hne
    have hpos : ∀ i ∈ db.interfaces.filter (ownedBy masterID subnetID ifType), i.id ≠ 0 := by
      intro i hi
      exact pos_of_live ⟨i, (mem_filter.mp hi).1, rfl⟩
    have hdealloc := h.deallocateAddress hne' hpos
    split
    . exact hdealloc
    . next htype =>
      obtain ⟨hvrrp, hsystem⟩ := not_or.mp htype
      apply AddrInv.deleteInterfaceRows hdealloc
      unfold NetDB.deallocateAddress
      rw [forall_updateAddresses]
      intro r hr i hi howned
      have hid := pos_of_live ⟨i, hi, rfl⟩
      split
      . exact ⟨hid.symm, hid.symm⟩
      . next hp =>
        simp only [Bool.or_eq_true, List.isEmpty_iff, hne', false_or, List.any_eq_true, beq_iff_eq,
          mem_filter, not_exists, not_and, and_imp] at hp
        refine ⟨hp i hi howned, ?_⟩
        intro hsecond
        obtain ⟨j, hj, hjowned, hjr⟩ := hsafe hvrrp hsystem r hr i hi howned hsecond
        exact hp j hj hjowned hjr

theorem forall_releaseSecond {P : Address → Prop}
    : (∀ b ∈ (db.releaseSecond ifaceID).addresses, P b)
        ↔
      ∀ a ∈ db.addresses, P
        (if a.secondInterface = ifaceID then
          if a.interface = 0 then { a with allocated := false, secondInterface := 0 }
          else { a with secondInterface := 0 }
        else a) := by
  simp only [releaseSecond, forall_updateAddresses]
  apply forall₂_congr
  intro a _
  by_cases hs : a.secondInterface = ifaceID
  . by_cases hi : a.interface = 0
    . simp [hs, hi]
    . simp [hs, hi, Nat.pos_of_ne_zero hi]
  . simp [hs]

theorem forall_releasePrimary {P : Address → Prop}
    : (∀ b ∈ (db.releasePrimary ifaceID).addresses, P b)
        ↔
      ∀ a ∈ db.addresses, P
        (if a.interface = ifaceID then { a with allocated := false, interface := 0 } else a) := by
  simp only [releasePrimary, forall_updateAddresses, beq_iff_eq]

section AddrInv

variable (h : AddrInv held db) (hid : ifaceID ≠ 0)

include h hid

theorem AddrInv.releaseSecond : AddrInv held (db.releaseSecond ifaceID) := by
  unfold AddrInv
  rw [forall_releaseSecond]
  intro r hr
  have hok := h r hr
  split
  . next hs =>
    split
    . next hi => exact .free (hok.not_held (.inr (hs ▸ hid))) rfl hi rfl
    . next hi =>
      apply hok.setSecond hi
      simp
  . exact hok

section Shared

variable (hsafe : ∀ r ∈ db.addresses, r.interface = ifaceID → r.secondInterface = 0 ∨ r.secondInterface = ifaceID)

include hsafe

theorem AddrInv.release
    : AddrInv held ((db.releasePrimary ifaceID).releaseSecond ifaceID) ∧
      ∀ r ∈ ((db.releasePrimary ifaceID).releaseSecond ifaceID).addresses,
        r.interface ≠ ifaceID ∧ r.secondInterface ≠ ifaceID := by
  unfold AddrInv
  rw [← forall₂_and, forall_releaseSecond, forall_releasePrimary]
  intro r hr
  have hok := h r hr
  by_cases hi : r.interface = ifaceID
  . have hheld := hok.not_held (.inl (hi ▸ hid))
    obtain hs | hs := hsafe r hr hi
    . rw [if_pos hi, if_neg (by simp [hs, hid.symm])]
      exact ⟨.free hheld rfl rfl hs, hid.symm, by simp [hs, hid.symm]⟩
    . rw [if_pos hi, if_pos hs, if_pos rfl]
      exact ⟨.free hheld rfl rfl rfl, hid.symm, hid.symm⟩
  . rw [if_neg hi]
    split
    . next hs =>
      split
      . next hi0 => exact ⟨.free (hok.not_held (.inr (hs ▸ hid))) rfl hi0 rfl, hi, hid.symm⟩
      . next hi0 => exact ⟨hok.setSecond hi0 (by simp), hi, hid.symm⟩
    . next hs => exact ⟨hok, hi, hs⟩

theorem AddrInv.releaseDeleted : AddrInv held (db.deleteInterface ifaceID) := by
  have ⟨hinv, hrefs⟩ := h.release hid hsafe
  apply AddrInv.deleteInterfaceRows hinv
  intro r hr i _ hp
  rw [beq_iff_eq.mp hp]
  exact hrefs r hr

end Shared

end AddrInv

def Agrees (db : NetDB) (iface : Interface) : Prop :=
  ∀ i ∈ db.interfaces, i.id = iface.id → i.floatingIp = iface.floatingIp

theorem Agrees.keeps (h : db.Agrees iface) (hkeeps : db'.Keeps db) : db'.Agrees iface := by
  intro j hj hid
  have ⟨i, hi, hij, hfip⟩ := hkeeps j hj
  rw [← hfip]
  exact h i hi (hij.trans hid)

theorem AddrInv.clearInterface (h : AddrInv held db) (hid : iface.id ≠ 0)
    (hiface : db.Agrees iface)
    : AddrInv held (db.clearInterface iface) := by
  simp only [NetDB.clearInterface]
  split
  . next hfip =>
    apply h.releaseDeleted hid
    intro r hr hi
    apply Or.inl
    by_contra hs
    have ⟨i, hmem, hiid, hne⟩ := (h r hr).shared (hi ▸ hid) hs
    exact hne ((hiface i hmem (hiid.trans hi)).trans hfip)
  . have hreset := h.keeps (same_resetInterface db iface.id).keeps rfl
    exact hreset.releaseSecond hid

theorem clearInterface_keeps (db : NetDB) (iface : Interface) : (db.clearInterface iface).Keeps db := by
  simp only [NetDB.clearInterface]
  split
  . intro j hj
    exact ⟨j, (mem_delete.mp hj).1, rfl, rfl⟩
  . intro j hj
    have ⟨i, hi, hij⟩ := mem_updateInterfaces.mp hj
    refine ⟨i, hi, ?_⟩
    rw [hij]
    split <;> exact ⟨rfl, rfl⟩

theorem AddrInv.clearAll (h : AddrInv held db) {ifaces : List Interface}
    (hifaces : ∀ iface ∈ ifaces, iface.id ≠ 0 ∧ db.Agrees iface)
    : AddrInv held (ifaces.foldl NetDB.clearInterface db) := by
  induction ifaces generalizing db with
  | nil => exact h
  | cons iface ifaces ih =>
    have ⟨⟨hid, hiface⟩, hifaces⟩ := List.forall_mem_cons.mp hifaces
    apply ih (h.clearInterface hid hiface)
    intro i hi
    have ⟨hiid, hagrees⟩ := hifaces i hi
    exact ⟨hiid, hagrees.keeps (clearInterface_keeps db iface)⟩

theorem agrees_of_mem (hmem : iface ∈ db.interfaces) : db.Agrees iface := by
  intro i hi hid
  rw [eq_of_key hi hmem hid]

theorem AddrInv.clearVM (h : AddrInv held db) (instID : Nat) : AddrInv held (db.clearVM instID) := by
  apply h.clearAll
  intro iface hmem
  have hmem := (mem_filter.mp hmem).1
  exact ⟨pos_of_live ⟨iface, hmem, rfl⟩, agrees_of_mem hmem⟩

theorem AddrInv.detachInterface (h : AddrInv held db) (hdetach : db.detachInterface instID ifaceID = some db')
    : AddrInv held db' := by
  simp only [NetDB.detachInterface, bind_eq_bind, bind_eq_some_iff, pure_def,
    some.injEq] at hdetach
  have ⟨iface, hfind, hdb⟩ := hdetach
  have hmem := (find?_eq_some hfind).1
  rw [← hdb]
  exact h.clearInterface (pos_of_live ⟨iface, hmem, rfl⟩) (agrees_of_mem hmem)

end Release

section Requests

variable {inst : Instance}

section AddrInv

variable (h : AddrInv held db)

include h

theorem AddrInv.createInstanceInterface
    (hcreate : db.createInstanceInterface refused inst subnets address ifname = some (db', iface))
    : AddrInv held db' ∧ db'.Live iface.row.id := by
  obtain ⟨_, _, _, db₂, hone, hiface, hdb⟩ := createInstanceInterface_keeps AddrInv.createInterface h hcreate
  have hlive := createInterface_live hiface
  refine ⟨AddrInv.stable.createInstanceInterface h hcreate, ?_⟩
  rw [hdb]
  split <;> exact hlive

theorem AddrInv.createNic (hcreate : db.createNic inst subnets address ifname = some db')
    : AddrInv held db' := by
  have ⟨res, hres, hdb⟩ := bind_eq_some_iff.mp hcreate
  cases hdb
  exact (h.createInstanceInterface hres).1

theorem AddrInv.createVMInterface
    (hfips : ∀ fip ∈ publicIps, db.Live fip.interface.id ∧ db.FipRow fip.address.id)
    (hcreate : db.createVMInterface inst publicIps subnets address count ifname = some db')
    : AddrInv held db' := by
  unfold NetDB.createVMInterface at hcreate
  split at hcreate
  . have ⟨res, hres, halloc⟩ := bind_eq_some_iff.mp hcreate
    have ⟨hinv, hlive⟩ := h.createInstanceInterface hres
    exact hinv.allocateSecondAddresses hlive halloc
  . have ⟨res, hderive, hdb⟩ := bind_eq_some_iff.mp hcreate
    cases hdb
    exact h.derivePublicInterface (by simp) hfips hderive

theorem AddrInv.deleteFloatingIp
    (hsafe : db.NoOrphans floatingIp.id 0 .floating) (hdelete : db.deleteFloatingIp floatingIp = some db')
    : AddrInv held db' := by
  simp only [NetDB.deleteFloatingIp] at hdelete
  split at hdelete
  . contradiction
  . cases hdelete
    have hdealloc : ∀ db1 : NetDB, AddrInv held db1 → db1.addresses = db.addresses →
        db1.interfaces = db.interfaces → AddrInv held (db1.deallocateFloatingIp floatingIp.id) := by
      intro db1 hinv haddr hifaces
      have hsafe1 : db1.NoOrphans floatingIp.id 0 .floating := by
        unfold NoOrphans
        rw [haddr, hifaces]
        exact hsafe
      exact (hinv.deleteInterfaces (fun _ _ => hsafe1)).keeps (.of_interfaces rfl) rfl
    split
    . have ⟨haddr, hifaces⟩ := detach_eq db floatingIp
      exact hdealloc _ (AddrInv.stable.detach h floatingIp) haddr hifaces
    . exact hdealloc _ h rfl rfl

end AddrInv

end Requests

end Web.NetDB
