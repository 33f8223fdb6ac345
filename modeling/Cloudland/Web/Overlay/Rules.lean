import Cloudland.Lib.Run
import Cloudland.Web.Overlay.Attach

/-!
The callbacks for the instances of one router, running beside each other: a callback sees the rows that are
committed when it begins.
-/

namespace Web.Overlay

open List Table

inductive Callback where
  | attach (instID : Nat) (macAddr : String) (hyperID : Int)
  | clear (instID : Nat)
  deriving DecidableEq

namespace Callback

def instID : Callback → Nat
  | .attach instID _ _ => instID
  | .clear instID => instID

def host? : Callback → Option Int
  | .attach _ _ hyperID => some hyperID
  | .clear _ => none

theorem host?_eq_some {cb : Callback}
    : cb.host? = some hyperID ↔ ∃ instID macAddr, cb = .attach instID macAddr hyperID := by
  cases cb <;> simp [host?]

theorem host?_eq_none {cb : Callback} : cb.host? = none ↔ ∃ instID, cb = .clear instID := by
  cases cb <;> simp [host?]

def body : Callback → RpcM PUnit
  | .attach instID macAddr hyperID => attachInterface instID macAddr (.ok hyperID)
  | .clear instID => clearVM instID

def exec (snapshot : OverlayDB) (cb : Callback) : Option (List Command) :=
  match cb.body (Session.begin snapshot (fun _ => false)) with
  | (.ok _, s) => some s.sent
  | (.error _, _) => none

def write (snapshot : OverlayDB) (cb : Callback) (db : OverlayDB) : OverlayDB :=
  match cb with
  | .attach instID macAddr hyperID =>
    match snapshot.ifaceByMac instID macAddr with
    | some iface => db.placeIface iface.id hyperID
    | none => db
  | .clear instID =>
    match snapshot.instances.take instID with
    | some inst => (db.releaseAll (snapshot.ifacesOf instID)).deleteInstance inst
    | none => db

end Callback

structure Running where
  cb : Callback
  snapshot : OverlayDB
  pending : List Command

structure FdbSys where
  db : OverlayDB
  running : List Running
  sent : List Command
  deleted : List (Interface × List Int)

inductive FdbEvent where
  | begin (cb : Callback)
  | send (k : Nat)
  | commit (k : Nat)
  deriving DecidableEq

variable (routerID : Nat)

def OverlayDB.hosts (db : OverlayDB) : List Int :=
  (db.interfaces.filter (fun i => i.routerID == routerID && 0 ≤ i.hyper)).map Interface.hyper

def Running.deletes (r : Running) (db : OverlayDB) : List (Interface × List Int) :=
  match r.cb with
  | .attach .. => []
  | .clear instID =>
    (db.interfaces.filter (fun i =>
      (r.snapshot.ifacesOf instID).any (fun z => z.id == i.id && z.floatingIp == 0))).map
      (fun i => (i, db.hosts routerID))

def Callback.ofRouter (db : OverlayDB) (cb : Callback) : Bool :=
  (db.instances.byKey? cb.instID).any (fun i => i.routerID == routerID)

namespace FdbSys

def step (s : FdbSys) : FdbEvent → Option FdbSys
  | .begin cb =>
    if cb.ofRouter routerID s.db then
      (cb.exec s.db).map (fun cmds => { s with running := s.running ++ [⟨cb, s.db, cmds⟩] })
    else
      none
  | .send k =>
    match s.running[k]? with
    | some ⟨cb, snapshot, c :: pending⟩ =>
      some { s with running := s.running.set k ⟨cb, snapshot, pending⟩, sent := s.sent ++ [c] }
    | _ => none
  | .commit k =>
    match s.running[k]? with
    | some ⟨cb, snapshot, []⟩ =>
      some { s with
        db := cb.write snapshot s.db
        running := s.running.eraseIdx k
        deleted := s.deleted ++ Running.deletes routerID ⟨cb, snapshot, []⟩ s.db }
    | _ => none

end FdbSys

def FdbRule.For (r : FdbRule) (iface : Interface) : Prop :=
  ∃ address subnet, iface.loaded = .ok (address, subnet) ∧
    r.vni = subnet.vlan ∧ r.innerIP = address.address ∧ r.innerMac = iface.macAddr

def Command.Takes (c : Command) (iface : Interface) : Prop := ∃ h r, FdbRule.For r iface ∧ c.Deletes h r

structure Hosted (db : OverlayDB) (iface : Interface) (address : Address) (subnet : Subnet)
    (hyper : Hyper) : Prop where
  mem : iface ∈ db.interfaces
  router : iface.routerID = routerID
  inner : iface.Inner address subnet
  known : db.hyperByHostid iface.hyper = some hyper
  pos : 0 ≤ iface.hyper

structure FdbSys.Exact (s : FdbSys) : Prop where
  -- once all callbacks have committed
  reach : s.running = [] → ∀ x y ax tx ay ty hx hy, Hosted routerID s.db x ax tx hx →
    Hosted routerID s.db y ay ty hy → x.hyper ≠ y.hyper →
    ∃ before c after, s.sent = before ++ c :: after ∧ c.Adds x.hyper (fdbRule y ay ty hy) ∧
      ∀ c' ∈ after, ¬c'.Takes y
  withdrawn : ∀ y hosts, (y, hosts) ∈ s.deleted → ∀ h ∈ hosts,
    ∃ c ∈ s.sent, ∃ r, FdbRule.For r y ∧ c.Deletes h r

structure Unplaced (db : OverlayDB) : Prop where
  pos : 0 < routerID
  loaded : ∀ i ∈ db.interfaces, i.Loaded
  hyper : ∀ i ∈ db.interfaces, i.routerID = routerID → i.hyper = -1
  gateway : ∀ i ∈ db.interfaces, i.type = .gateway → i.inst = 0
  -- an address is booked for one interface
  distinct : ∀ i ∈ db.interfaces, ∀ j ∈ db.interfaces, ∀ r, FdbRule.For r i → FdbRule.For r j → i = j
  -- the interface of a floating IP has a public address
  floating : ∀ i ∈ db.interfaces, i.floatingIp ≠ 0 → i.routerID = routerID →
    ∀ address subnet, ¬i.Inner address subnet

def FdbSys.Apart (s : FdbSys) : FdbEvent → Prop
  | .begin (.attach _ _ hyperID) => ∀ r ∈ s.running, ∃ instID macAddr, r.cb = .attach instID macAddr hyperID
  | .begin (.clear instID) =>
    (∀ r ∈ s.running, ∃ instID, r.cb = .clear instID) ∧
      ∀ inst, s.db.instances.byKey? instID = some inst → 0 ≤ inst.hyper
  | _ => True

def FdbSys.Step (s : FdbSys) (e : FdbEvent) (t : FdbSys) : Prop := s.step routerID e = some t

section Rows

def Like (base : OverlayDB) (y : Interface) : Prop :=
  ∃ z ∈ base.interfaces, y = { z with hyper := y.hyper, inst := y.inst, name := y.name } ∧
    (y.inst = z.inst ∧ y.name = z.name ∨ z.floatingIp ≠ 0 ∧ y.inst = 0)

structure Wf (base db : OverlayDB) : Prop where
  hypers : db.hypers = base.hypers
  like : ∀ y ∈ db.interfaces, Like base y
  gateway : ∀ y ∈ db.interfaces, y.routerID = routerID → y.type = .gateway → y.hyper = -1

variable {routerID} {base db : OverlayDB}

theorem Like.of_hyper (h : Like base y) (hyper : Int) : Like base { y with hyper } := by
  have ⟨z, hz, heq, hinst⟩ := h
  refine ⟨z, hz, ?_, hinst⟩
  rw [heq]

theorem Like.released (h : Like base y) (hfip : y.floatingIp ≠ 0) (name : String)
    : Like base { y with inst := 0, name } := by
  have ⟨z, hz, heq, _⟩ := h
  rw [heq] at hfip
  refine ⟨z, hz, ?_, .inr ⟨hfip, rfl⟩⟩
  rw [heq]

section Interface

variable {y y' : Interface} (h : Like base y) (h' : Like base y') (hid : y.id = y'.id)

include h h' hid

theorem Like.eq_of_id (hfip : y.floatingIp = 0) : y' = { y with hyper := y'.hyper } := by
  have ⟨z, hz, heq, hinst⟩ := h
  have ⟨z', hz', heq', hinst'⟩ := h'
  have hzid : z.id = z'.id := by
    rw [heq, heq'] at hid
    exact hid
  have hsame := eq_of_key hz hz' hzid
  subst hsame
  have hzfip : z.floatingIp = 0 := by
    rw [heq] at hfip
    exact hfip
  obtain ⟨hi, hn⟩ := hinst.resolve_right (fun h => h.1 hzfip)
  obtain ⟨hi', hn'⟩ := hinst'.resolve_right (fun h => h.1 hzfip)
  rw [heq', heq, hi, hi', hn, hn']

theorem Like.static_of_id : y.type = y'.type ∧ y.floatingIp = y'.floatingIp := by
  have ⟨z, hz, heq, _⟩ := h
  have ⟨z', hz', heq', _⟩ := h'
  have hzid : z.id = z'.id := by
    rw [heq, heq'] at hid
    exact hid
  rw [heq, heq', eq_of_key hz hz' hzid]
  exact ⟨rfl, rfl⟩

end Interface

theorem Like.for_iff (h : Like base y)
    : ∃ z ∈ base.interfaces, y.id = z.id ∧ ∀ r, FdbRule.For r y ↔ FdbRule.For r z := by
  have ⟨z, hz, heq, _⟩ := h
  refine ⟨z, hz, by rw [heq], ?_⟩
  intro r
  rw [heq]
  exact Iff.rfl

section Base

variable (hbase : Unplaced routerID base)

include hbase

theorem Unplaced.same_id (h : Like base y) (h' : Like base y') (hr : FdbRule.For r y)
    (hr' : FdbRule.For r y')
    : y.id = y'.id := by
  have ⟨z, hz, hid, hfor⟩ := h.for_iff
  have ⟨z', hz', hid', hfor'⟩ := h'.for_iff
  rw [hid, hid', hbase.distinct z hz z' hz' r ((hfor r).mp hr) ((hfor' r).mp hr')]

theorem Unplaced.floating_zero (h : Like base y) (hrouter : y.routerID = routerID)
    (hinner : y.Inner address subnet)
    : y.floatingIp = 0 := by
  have ⟨z, hz, heq, _⟩ := h
  rw [heq] at hrouter hinner ⊢
  by_contra hfip
  exact hbase.floating z hz hfip hrouter address subnet hinner

end Base

theorem mem_placeIface
    : y ∈ (db.placeIface ifaceID hyperID).interfaces
        ↔
      ∃ y0 ∈ db.interfaces, y = if y0.id = ifaceID then { y0 with hyper := hyperID } else y0 := by
  rw [OverlayDB.placeIface, mem_update]
  simp only [beq_iff_eq]
  rfl

theorem of_mem_placeIface (hy : y ∈ (db.placeIface ifaceID hyperID).interfaces)
    : ∃ y0 ∈ db.interfaces, ∃ hyper, y = { y0 with hyper } := by
  obtain ⟨y0, hy0, rfl⟩ := mem_placeIface.mp hy
  refine ⟨y0, hy0, ?_⟩
  split
  . exact ⟨_, rfl⟩
  . exact ⟨_, rfl⟩

structure Left (db : OverlayDB) (ifaces : List Interface) (y y0 : Interface) : Prop where
  mem : y0 ∈ db.interfaces
  same : y = y0 ∨ y = { y0 with inst := 0, name := "fip" } ∧ ∃ z ∈ ifaces, z.id = y0.id ∧ z.floatingIp ≠ 0
  kept : ∀ z ∈ ifaces, z.floatingIp = 0 → z.id ≠ y0.id

theorem Left.id (h : Left db ifaces y y0) : y.id = y0.id := by
  obtain heq | heq := h.same
  . rw [heq]
  . rw [heq.1]

theorem mem_releaseIface (hy : y ∈ (db.releaseIface z).interfaces) : ∃ y0, Left db [z] y y0 := by
  unfold OverlayDB.releaseIface at hy
  split at hy
  . next hfip =>
    have ⟨hmem, hne⟩ := mem_delete.mp hy
    refine ⟨y, hmem, .inl rfl, ?_⟩
    intro z' hz' _
    rw [mem_singleton.mp hz']
    intro heq
    simp [heq] at hne
  . next hfip =>
    have ⟨y0, hy0, heq⟩ := mem_update.mp hy
    refine ⟨y0, hy0, ?_, ?_⟩
    . split at heq
      . next hid => exact .inr ⟨heq, z, mem_singleton_self z, (beq_iff_eq.mp hid).symm, hfip⟩
      . exact .inl heq
    . intro z' hz' hzero
      rw [mem_singleton.mp hz'] at hzero
      exact absurd hzero hfip

theorem mem_releaseAll (hy : y ∈ (db.releaseAll ifaces).interfaces) : ∃ y0, Left db ifaces y y0 := by
  induction ifaces generalizing db with
  | nil => exact ⟨y, hy, .inl rfl, by simp⟩
  | cons z ifaces ih =>
    have ⟨y1, h1⟩ := ih hy
    have ⟨y0, h0⟩ := mem_releaseIface h1.mem
    have hid := h0.id
    refine ⟨y0, h0.mem, ?_, ?_⟩
    . obtain heq | ⟨heq, z', hz', hzid, hzfip⟩ := h0.same
      . obtain heq' | ⟨heq', z', hz', hzid, hzfip⟩ := h1.same
        . exact .inl (heq'.trans heq)
        . rw [heq] at heq' hzid
          exact .inr ⟨heq', z', mem_cons_of_mem _ hz', hzid, hzfip⟩
      . refine .inr ⟨?_, z', by simp [mem_singleton.mp hz'], hzid, hzfip⟩
        obtain heq' | hfip' := h1.same
        . rw [heq', heq]
        . rw [hfip'.1, heq]
    . intro z' hz' hzero
      obtain heq | hmem := mem_cons.mp hz'
      . exact h0.kept z' (by simp [heq]) hzero
      . exact hid ▸ h1.kept z' hmem hzero

end Rows

theorem OverlayDB.mem_routerHypers {routerID : Nat} {db : OverlayDB} (hh : h ∈ db.hosts routerID)
    : h ∈ db.routerHypers routerID := by
  have ⟨i, hi, heq⟩ := mem_map.mp hh
  have ⟨hmem, hcond⟩ := Table.mem_filter.mp hi
  simp only [Bool.and_eq_true, beq_iff_eq, decide_eq_true_eq] at hcond
  apply mem_filter.mpr
  refine ⟨mem_append_right _ (mem_map.mpr ⟨i, ?_, heq⟩), ?_⟩
  . exact Table.mem_filter.mpr ⟨hmem, by simpa using hcond.1⟩
  . rw [← heq]
    simpa using hcond.2

section Begin

variable {routerID} {db : OverlayDB} {cmds : List Command}

theorem begin_calm : Session.Calm db [] (Session.begin db (fun _ => false) : Session OverlayDB Command) :=
  ⟨rfl, rfl, rfl, fun _ => rfl⟩

theorem Callback.ofRouter_iff {cb : Callback}
    : cb.ofRouter routerID db = true
        ↔
      ∃ inst, db.instances.byKey? cb.instID = some inst ∧ inst.routerID = routerID ∧
        db.instances.take cb.instID = some inst ∧ cb.instID ≠ 0 := by
  unfold Callback.ofRouter
  rw [Option.any_eq_true]
  constructor
  . intro ⟨inst, hkey, hrouter⟩
    have ⟨hmem, hid⟩ := byKey?_eq_some.mp hkey
    have hpos := (db.instances.bounds inst hmem).1
    have hne : cb.instID ≠ 0 := by omega
    refine ⟨inst, hkey, by simpa using hrouter, ?_, hne⟩
    rw [Table.take, if_neg hne]
    exact hkey
  . intro ⟨inst, hkey, hrouter, _⟩
    exact ⟨inst, hkey, by simpa using hrouter⟩

theorem Callback.exec_eq_some {cb : Callback} (h : cb.exec db = some cmds)
    : ∃ u s, cb.body (Session.begin db (fun _ => false)) = (.ok u, s) ∧ s.sent = cmds := by
  unfold Callback.exec at h
  split at h
  . next u s hres =>
    cases h
    exact ⟨u, s, hres, rfl⟩
  . contradiction

theorem exec_attach (h : (Callback.attach instID macAddr hyperID).exec db = some cmds)
    : ∃ inst iface, db.instances.take instID = some inst ∧ db.ifaceByMac instID macAddr = some iface ∧
        (inst.routerID ≠ 0 →
          Spread (db.placeIface iface.id hyperID) inst.routerID { iface with hyper := hyperID } cmds) := by
  have ⟨u, s, hres, hsent⟩ := Callback.exec_eq_some h
  have ⟨inst, iface, cmds', hinst, hiface, hs, hspread⟩ := attachInterface_calm.ok begin_calm hres
  rw [← hsent, hs.sent]
  exact ⟨inst, iface, hinst, hiface, hspread⟩

theorem exec_clear (hok : ∀ inst, db.instances.take instID = some inst →
      0 < inst.routerID ∧ 0 ≤ inst.hyper)
    (h : (Callback.clear instID).exec db = some cmds)
    : ∃ inst hyper, db.instances.take instID = some inst ∧
        Withdrawn (db.routerHypers inst.routerID) hyper (db.ifacesOf instID) cmds := by
  have ⟨u, s, hres, hsent⟩ := Callback.exec_eq_some h
  have ⟨inst, hyper, cmds', hinst, hcmds, hs⟩ := (clearVM_calm hok).ok begin_calm hres
  rw [← hsent, hs.sent]
  exact ⟨inst, hyper, hinst, hcmds⟩

/--
A callback that runs alone ends with what is committed for it.
-/
theorem Callback.data_of_body {cb : Callback}
    (hok : ∀ inst, db.instances.take cb.instID = some inst → 0 < inst.routerID ∧ 0 ≤ inst.hyper)
    (h : cb.body (Session.begin db (fun _ => false)) = (.ok u, s))
    : s.data = cb.write db db := by
  cases cb with
  | attach instID macAddr hyperID =>
    have ⟨_, iface, _, _, hiface, hs, _⟩ := attachInterface_calm.ok begin_calm h
    simp only [write, hiface]
    exact hs.data
  | clear instID =>
    have ⟨inst, _, _, hinst, _, hs⟩ := (clearVM_calm hok).ok begin_calm h
    simp only [write, show db.instances.take instID = some inst from hinst]
    exact hs.data

end Begin

section Invariant

structure AttachOk (db : OverlayDB) (sent : List Command) (snapshot : OverlayDB)
    (pending : List Command) (h : Int) (iface : Interface) : Prop where
  mem : iface ∈ snapshot.interfaces
  notGateway : iface.type ≠ .gateway
  adds : ∀ c ∈ pending, c.IsAdd
  spread : ∃ cmds, Spread (snapshot.placeIface iface.id h) routerID { iface with hyper := h } cmds ∧
    ∀ c ∈ cmds, c ∈ sent ∨ c ∈ pending
  sees : ∀ y ∈ db.interfaces, y.routerID = routerID → y.hyper ≠ h → y ∈ snapshot.interfaces

structure ClearOk (db : OverlayDB) (sent : List Command) (snapshot : OverlayDB)
    (pending : List Command) (instID : Nat) : Prop where
  inst : ∃ inst, snapshot.instances.take instID = some inst
  withdrawn : ∃ hyper cmds,
    Withdrawn (snapshot.routerHypers routerID) hyper (snapshot.ifacesOf instID) cmds ∧
      (∀ c ∈ cmds, c ∈ sent ∨ c ∈ pending) ∧ ∀ c ∈ pending, c ∈ cmds
  sees : ∀ y ∈ db.interfaces, y.floatingIp = 0 → y ∈ snapshot.interfaces
  hosts : ∀ h ∈ db.hosts routerID, h ∈ snapshot.routerHypers routerID

def RunOk (base db : OverlayDB) (sent : List Command) (r : Running) : Prop :=
  Wf routerID base r.snapshot ∧
    match r.cb with
    | .attach instID macAddr h => ∃ iface, r.snapshot.ifaceByMac instID macAddr = some iface ∧
        AttachOk routerID db sent r.snapshot r.pending h iface
    | .clear instID => ClearOk routerID db sent r.snapshot r.pending instID

structure FdbSys.Inv (base : OverlayDB) (s : FdbSys) : Prop where
  wf : Wf routerID base s.db
  running : ∀ r ∈ s.running, RunOk routerID base s.db s.sent r
  uniform : ∃ host, ∀ r ∈ s.running, r.cb.host? = host
  pairs : ∀ x y ax tx ay ty hx hy, Hosted routerID s.db x ax tx hx → Hosted routerID s.db y ay ty hy →
    x.hyper ≠ y.hyper → ∃ c ∈ s.sent, c.Adds x.hyper (fdbRule y ay ty hy)
  -- only a callback that clears the instance of an interface takes its rules back
  kept : ∀ y ∈ s.db.interfaces, y.routerID = routerID → ∀ address subnet, y.Inner address subnet →
    (∀ r ∈ s.running, r.cb ≠ .clear y.inst) → ∀ c ∈ s.sent, ¬c.Takes y
  withdrawn : ∀ y hosts, (y, hosts) ∈ s.deleted → ∀ h ∈ hosts,
    ∃ c ∈ s.sent, ∃ r, FdbRule.For r y ∧ c.Deletes h r

variable {routerID} {base : OverlayDB} {s t : FdbSys}

theorem FdbSys.Inv.exact (h : s.Inv routerID base) : s.Exact routerID := by
  refine ⟨?_, h.withdrawn⟩
  intro hquiet x y ax tx ay ty hx hy hhx hhy hne
  have ⟨c, hc, hadds⟩ := h.pairs x y ax tx ay ty hx hy hhx hhy hne
  have ⟨before, after, heq⟩ := append_of_mem hc
  refine ⟨before, c, after, heq, hadds, ?_⟩
  intro c' hc'
  apply h.kept y hhy.mem hhy.router ay ty hhy.inner (by simp [hquiet]) c'
  rw [heq]
  exact mem_append_right _ (mem_cons_of_mem _ hc')

theorem FdbSys.Inv.begin (h : s.Inv routerID base) (hr : RunOk routerID base s.db s.sent r)
    (hhost : ∀ r' ∈ s.running, r'.cb.host? = r.cb.host?)
    : FdbSys.Inv routerID base { s with running := s.running ++ [r] } := by
  refine ⟨h.wf, ?running, ⟨r.cb.host?, ?uniform⟩, h.pairs, ?kept, h.withdrawn⟩
  case running => exact forall_mem_append.mpr ⟨h.running, forall_mem_singleton.mpr hr⟩
  case uniform => exact forall_mem_append.mpr ⟨hhost, forall_mem_singleton.mpr rfl⟩
  case kept =>
    intro y hy hyrouter address subnet hinner hnot
    exact h.kept y hy hyrouter address subnet hinner (fun r hr => hnot r (mem_append_left _ hr))

theorem RunOk.mono
    (h : RunOk routerID base db sent ⟨cb, snapshot, pending⟩)
    (hsub : ∀ c ∈ pending', c ∈ pending) (hall : ∀ c, c ∈ sent ∨ c ∈ pending → c ∈ sent' ∨ c ∈ pending')
    : RunOk routerID base db sent' ⟨cb, snapshot, pending'⟩ := by
  refine ⟨h.1, ?_⟩
  have hrun := h.2
  cases cb with
  | attach instID macAddr hyperID =>
    have ⟨iface, hiface, hattach⟩ := hrun
    have ⟨cmds, hspread, hcmds⟩ := hattach.spread
    exact ⟨iface, hiface, { hattach with
      adds := fun c hc => hattach.adds c (hsub c hc)
      spread := ⟨cmds, hspread, fun c hc => hall c (hcmds c hc)⟩ }⟩
  | clear instID =>
    have ⟨hyper, cmds, hwithdrawn, hcmds, honly⟩ := ClearOk.withdrawn hrun
    exact { hrun with
      withdrawn := ⟨hyper, cmds, hwithdrawn, fun c hc => hall c (hcmds c hc),
        fun c hc => honly c (hsub c hc)⟩ }

theorem RunOk.sent {sent : List Command} (h : RunOk routerID base db sent r) (c : Command)
    : RunOk routerID base db (sent ++ [c]) r :=
  h.mono (fun _ hc => hc) (fun _ hc => hc.imp_left (mem_append_left _))

theorem RunOk.pop {sent : List Command}
    (h : RunOk routerID base db sent ⟨cb, snapshot, c :: pending⟩)
    : RunOk routerID base db (sent ++ [c]) ⟨cb, snapshot, pending⟩ := by
  refine h.mono (fun _ hc => mem_cons_of_mem _ hc) (fun c' hc' => ?_)
  rw [mem_append, mem_singleton, or_assoc, ← mem_cons]
  exact hc'

theorem forall_set_cb {l : List Running} {a a' : Running} (hk : l[k]? = some a) (hcb : a'.cb = a.cb)
    {p : Callback → Prop}
    : (∀ r ∈ l.set k a', p r.cb) ↔ ∀ r ∈ l, p r.cb := by
  have hcbk : (l.map Running.cb)[k]? = some a.cb := by rw [getElem?_map, hk, Option.map_some]
  have ⟨_, hcbk⟩ := List.getElem?_eq_some_iff.mp hcbk
  have hmap : (l.set k a').map Running.cb = l.map Running.cb := by
    rw [map_set, hcb, ← hcbk, set_getElem_self]
  rw [← forall_mem_map, hmap, forall_mem_map]

theorem mem_of_mem_eraseIdx_or {l : List Running} (hk : l[k]? = some a) (hr : r ∈ l)
    : r ∈ l.eraseIdx k ∨ r = a := by
  have ⟨j, hj⟩ := mem_iff_getElem?.mp hr
  by_cases heq : j = k
  . rw [heq, hk] at hj
    exact .inr (Option.some.inj hj).symm
  . exact .inl (mem_eraseIdx_iff_getElem?.mpr ⟨j, heq, hj⟩)

variable {k : Nat} {instID : Nat} {macAddr : String} {hyperID : Int} {snapshot : OverlayDB}
variable {iface : Interface} {inst : Instance}

theorem Wf.placeIface (hwf : Wf routerID base s.db) (hlike : Like base iface) (htype : iface.type ≠ .gateway)
    : Wf routerID base (s.db.placeIface iface.id hyperID) := by
  refine ⟨hwf.hypers, ?_, ?_⟩
  . intro y hy
    obtain ⟨y0, hy0, hyper, rfl⟩ := of_mem_placeIface hy
    exact (hwf.like y0 hy0).of_hyper hyper
  . intro y hy hrouter hgateway
    have ⟨y0, hy0, heq⟩ := mem_placeIface.mp hy
    split at heq
    . next hid =>
      rw [heq] at hgateway
      rw [((hwf.like y0 hy0).static_of_id hlike hid).1] at hgateway
      exact absurd hgateway htype
    . rw [heq] at hrouter hgateway ⊢
      exact hwf.gateway y0 hy0 hrouter hgateway

-- the row that is placed is the interface that the callback has read, on its new hypervisor
theorem hosted_of_placeIface
    (hhosted : Hosted routerID (s.db.placeIface iface.id hyperID) x ax tx hx) (hid : x.id ≠ iface.id)
    : Hosted routerID s.db x ax tx hx := by
  have ⟨x0, hx0, heq⟩ := mem_placeIface.mp hhosted.mem
  have hid0 : x0.id ≠ iface.id := by
    intro h
    rw [if_pos h] at heq
    rw [heq] at hid
    exact hid h
  rw [if_neg hid0] at heq
  exact ⟨heq ▸ hx0, hhosted.router, hhosted.inner, hhosted.known, hhosted.pos⟩

theorem AttachOk.rules (hwf : Wf routerID base s.db) (hsnapshot : Wf routerID base snapshot)
    (hok : AttachOk routerID s.db s.sent snapshot [] hyperID iface)
    (hpos : 0 ≤ hyperID) (hinner : ({ iface with hyper := hyperID } : Interface).Inner ax tx)
    (hknown : s.db.hyperByHostid hyperID = some hx) (hhosted : Hosted routerID s.db y ay ty hy)
    (hid : y.id ≠ iface.id) (hne : y.hyper ≠ hyperID)
    : (∃ c ∈ s.sent, c.Adds y.hyper (fdbRule { iface with hyper := hyperID } ax tx hx)) ∧
      ∃ c ∈ s.sent, c.Adds hyperID (fdbRule y ay ty hy) := by
  have ⟨cmds, hspread, hcmds⟩ := hok.spread
  have hsent : ∀ c ∈ cmds, c ∈ s.sent := by
    intro c hc
    simpa using hcmds c hc
  have hypers : (snapshot.placeIface iface.id hyperID).hypers = s.db.hypers :=
    hsnapshot.hypers.trans hwf.hypers.symm
  have hfind : ∀ k, (snapshot.placeIface iface.id hyperID).hyperByHostid k = s.db.hyperByHostid k := by
    intro k
    rw [OverlayDB.hyperByHostid, hypers]
    rfl
  have hmem : y ∈ (snapshot.placeIface iface.id hyperID).interfaces :=
    mem_placeIface.mpr ⟨y, hok.sees y hhosted.mem hhosted.router hne, by rw [if_neg hid]⟩
  have htype : y.type ≠ .gateway := by
    intro htype
    have := hwf.gateway y hhosted.mem hhosted.router htype
    have := hhosted.pos
    omega
  have ⟨⟨c, hc, hadds⟩, c', hc', hadds'⟩ := hspread.others ax tx hinner hx ((hfind _).trans hknown) hpos y
    hmem hhosted.router htype hne hhosted.pos ay ty hhosted.inner hy ((hfind _).trans hhosted.known)
  exact ⟨⟨c, hsent c hc, hadds⟩, c', hsent c' hc', hadds'⟩

theorem FdbSys.Inv.host?_eq (h : s.Inv routerID base) (hk : s.running[k]? = some r)
    : ∀ r' ∈ s.running, r'.cb.host? = r.cb.host? := by
  have ⟨host, hall⟩ := h.uniform
  exact fun r' hr' => (hall r' hr').trans (hall r (mem_of_getElem? hk)).symm

theorem OverlayDB.releaseAll_hypers {db : OverlayDB} : (db.releaseAll ifaces).hypers = db.hypers := by
  induction ifaces generalizing db with
  | nil => rfl
  | cons z ifaces ih =>
    have hz : (db.releaseIface z).hypers = db.hypers := by
      unfold OverlayDB.releaseIface
      split
      . rfl
      . rfl
    exact ih.trans hz

theorem Left.eq_of_zero (h : Left s.db ifaces y y0)
    (hwf : Wf routerID base s.db) (hlike : ∀ z ∈ ifaces, Like base z) (hfip : y.floatingIp = 0)
    : y = y0 := by
  obtain heq | ⟨heq, z, hz, hid, hne⟩ := h.same
  . exact heq
  . rw [((hlike z hz).static_of_id (hwf.like y0 h.mem) hid).2] at hne
    rw [heq] at hfip
    exact absurd hfip hne

theorem Left.fields (h : Left s.db ifaces y y0)
    : y.routerID = y0.routerID ∧ y.type = y0.type ∧ y.hyper = y0.hyper := by
  obtain heq | heq := h.same
  . simp [heq]
  . simp [heq.1]

theorem Wf.releaseAll (hwf : Wf routerID base s.db) {ifaces : List Interface}
    (hlike : ∀ z ∈ ifaces, Like base z) {inst : Instance}
    : Wf routerID base ((s.db.releaseAll ifaces).deleteInstance inst) := by
  refine ⟨OverlayDB.releaseAll_hypers.trans hwf.hypers, ?_, ?_⟩
  . intro y hy
    have ⟨y0, hleft⟩ := mem_releaseAll hy
    obtain heq | ⟨heq, z, hz, hid, hne⟩ := hleft.same
    . exact heq ▸ hwf.like y0 hleft.mem
    . rw [((hlike z hz).static_of_id (hwf.like y0 hleft.mem) hid).2] at hne
      rw [heq]
      exact (hwf.like y0 hleft.mem).released hne "fip"
  . intro y hy hrouter htype
    have ⟨y0, hleft⟩ := mem_releaseAll hy
    have ⟨hrouter0, htype0, hhyper0⟩ := hleft.fields
    rw [hhyper0]
    exact hwf.gateway y0 hleft.mem (hrouter0 ▸ hrouter) (htype0 ▸ htype)

theorem ClearOk.releaseAll {r : Running} {instID' : Nat} (hwf : Wf routerID base s.db)
    {ifaces : List Interface} (hlike : ∀ z ∈ ifaces, Like base z)
    (h : ClearOk routerID s.db s.sent r.snapshot r.pending instID')
    : ClearOk routerID ((s.db.releaseAll ifaces).deleteInstance inst) s.sent r.snapshot r.pending instID' := by
  refine { h with sees := ?_, hosts := ?_ }
  . intro y hy hfip
    have ⟨y0, hleft⟩ := mem_releaseAll hy
    have heq := hleft.eq_of_zero hwf hlike hfip
    rw [heq] at hfip ⊢
    exact h.sees y0 hleft.mem hfip
  . intro j hj
    apply h.hosts j
    have ⟨y, hy, heq⟩ := mem_map.mp hj
    have ⟨hmem, hcond⟩ := Table.mem_filter.mp hy
    have ⟨y0, hleft⟩ := mem_releaseAll hmem
    have ⟨hrouter, _, hhyper⟩ := hleft.fields
    rw [hrouter, hhyper] at hcond
    exact mem_map.mpr ⟨y0, Table.mem_filter.mpr ⟨hleft.mem, hcond⟩, hhyper ▸ heq⟩

theorem ClearOk.deletes (hwf : Wf routerID base s.db)
    (hsnapshot : Wf routerID base snapshot) (h : ClearOk routerID s.db s.sent snapshot [] instID)
    {hosts : List Int}
    (hy : (y, hosts) ∈ Running.deletes routerID ⟨.clear instID, snapshot, []⟩ s.db) {j : Int} (hj : j ∈ hosts)
    : ∃ c ∈ s.sent, ∃ r, FdbRule.For r y ∧ c.Deletes j r := by
  have ⟨i, hi, heq⟩ := mem_map.mp hy
  have ⟨himem, hany⟩ := Table.mem_filter.mp hi
  cases heq
  have ⟨z, hz, hcond⟩ := any_eq_true.mp hany
  simp only [Bool.and_eq_true, beq_iff_eq] at hcond
  have ⟨hzmem, _⟩ := Table.mem_filter.mp hz
  have ⟨hyper, cmds, hwithdrawn, hsent, _⟩ := h.withdrawn
  have ⟨a, t, hload, hc⟩ := hwithdrawn.all z hz
  have hsame := (hsnapshot.like z hzmem).eq_of_id (hwf.like y himem) hcond.1 hcond.2
  refine ⟨withdraw _ hyper z a t, by simpa using hsent _ hc, fdbRule z a t hyper, ?_, h.hosts j hj, _, rfl,
    by simp⟩
  rw [hsame]
  exact ⟨a, t, hload, rfl, rfl, rfl⟩

section Base

variable (hbase : Unplaced routerID base)

include hbase

theorem AttachOk.of_wf
    (hwf : Wf routerID base snapshot) (hne : instID ≠ 0)
    (hiface : snapshot.ifaceByMac instID macAddr = some iface)
    : iface ∈ snapshot.interfaces ∧ iface.type ≠ .gateway := by
  have ⟨hmem, hmac⟩ := find?_eq_some hiface
  refine ⟨hmem, ?_⟩
  intro htype
  have ⟨z, hz, heq, hinst⟩ := hwf.like iface hmem
  have hinstID : iface.inst = instID := by
    simp only [Bool.and_eq_true, beq_iff_eq] at hmac
    exact hmac.1
  have hztype : z.type = .gateway := by
    rw [heq] at htype
    exact htype
  have hzero := hbase.gateway z hz hztype
  obtain h | h := hinst
  . omega
  . omega

theorem RunOk.not_takes (hwf : Wf routerID base s.db)
    (h : RunOk routerID base s.db s.sent r) (hy : y ∈ s.db.interfaces)
    (hrouter : y.routerID = routerID) (hinner : y.Inner address subnet)
    (hnot : r.cb ≠ .clear y.inst) (hc : c ∈ r.pending)
    : ¬c.Takes y := by
  intro ⟨k, rule, hfor, _, rules, hscript, hmem⟩
  have hrun := h.2
  split at hrun
  . have ⟨_, _, hattach⟩ := hrun
    have ⟨_, hadd⟩ := hattach.adds c hc
    rw [hadd] at hscript
    contradiction
  . next instID hcb =>
    have ⟨hyper, cmds, hwithdrawn, _, honly⟩ := hrun.withdrawn
    have ⟨z, hz, a, t, hload, heq⟩ := hwithdrawn.only c (honly c hc)
    rw [heq] at hscript
    cases hscript
    rw [mem_singleton] at hmem
    have hforz : FdbRule.For rule z := ⟨a, t, hload, by simp [hmem, fdbRule]⟩
    have ⟨hzmem, hzinst⟩ := Table.mem_filter.mp hz
    have hid := hbase.same_id (hwf.like y hy) (h.1.like z hzmem) hfor hforz
    have hsame := (hwf.like y hy).eq_of_id (h.1.like z hzmem) hid
      (hbase.floating_zero (hwf.like y hy) hrouter hinner)
    apply hnot
    rw [hcb]
    rw [hsame] at hzinst
    rw [beq_iff_eq.mp hzinst]

theorem placed_eq (hwf : Wf routerID base s.db) (hlike : Like base iface)
    (hhosted : Hosted routerID (s.db.placeIface iface.id hyperID) x ax tx hx) (hid : x.id = iface.id)
    : x = { iface with hyper := hyperID } := by
  have ⟨x0, hx0, heq⟩ := mem_placeIface.mp hhosted.mem
  have hid0 : x0.id = iface.id := by
    rw [heq] at hid
    split at hid
    . exact hid
    . exact hid
  rw [if_pos hid0] at heq
  have hlike0 := hwf.like x0 hx0
  have hrouter := hhosted.router
  have hinner := hhosted.inner
  rw [heq] at hrouter hinner
  have hfip := hbase.floating_zero hlike0 hrouter hinner
  rw [heq, hlike0.eq_of_id hlike hid0 hfip]

theorem hosted_of_releaseAll (hwf : Wf routerID base s.db) (hlike : ∀ z ∈ ifaces, Like base z)
    (hhosted : Hosted routerID ((s.db.releaseAll ifaces).deleteInstance inst) y ay ty hy)
    : Hosted routerID s.db y ay ty hy := by
  have ⟨y0, hleft⟩ := mem_releaseAll hhosted.mem
  have hyLike := (@Wf.releaseAll _ _ s hwf ifaces hlike inst).like y hhosted.mem
  have hfip := hbase.floating_zero hyLike hhosted.router hhosted.inner
  have heq := hleft.eq_of_zero hwf hlike hfip
  have hknown := hhosted.known
  rw [OverlayDB.hyperByHostid] at hknown
  change (s.db.releaseAll ifaces).hypers.find? _ = some hy at hknown
  rw [OverlayDB.releaseAll_hypers] at hknown
  exact ⟨heq ▸ hleft.mem, hhosted.router, hhosted.inner, hknown, hhosted.pos⟩

theorem FdbSys.Inv.start : FdbSys.Inv routerID base ⟨base, [], [], []⟩ := by
  refine ⟨⟨rfl, ?like, ?gateway⟩, by simp, ⟨none, by simp⟩, ?pairs, by simp, by simp⟩
  case like =>
    intro y hy
    exact ⟨y, hy, rfl, .inl ⟨rfl, rfl⟩⟩
  case gateway =>
    intro y hy hrouter _
    exact hbase.hyper y hy hrouter
  case pairs =>
    intro x y ax tx ay ty hx hy hhx hhy hne
    have := hbase.hyper x hhx.mem hhx.router
    have := hhx.pos
    omega

variable (h : s.Inv routerID base)

include h

theorem FdbSys.Inv.begin_attach
    (hok : s.Apart (.begin (.attach instID macAddr hyperID)))
    (hrouter : (Callback.attach instID macAddr hyperID).ofRouter routerID s.db = true)
    (hexec : (Callback.attach instID macAddr hyperID).exec s.db = some cmds)
    : FdbSys.Inv routerID base
        { s with running := s.running ++ [⟨.attach instID macAddr hyperID, s.db, cmds⟩] } := by
  have ⟨inst, _, hinstRouter, htake, hne⟩ := Callback.ofRouter_iff.mp hrouter
  have ⟨inst', iface, htake', hiface, hspread⟩ := exec_attach hexec
  cases htake.symm.trans htake'
  have hspread := hspread (by have := hbase.pos; omega)
  rw [hinstRouter] at hspread
  have ⟨hmem, htype⟩ := AttachOk.of_wf hbase h.wf hne hiface
  apply h.begin
  . exact ⟨h.wf, iface, hiface, hmem, htype, hspread.adds, ⟨cmds, hspread, fun c hc => .inr hc⟩,
      fun y hy _ _ => hy⟩
  . exact fun r hr => Callback.host?_eq_some.mpr (hok r hr)

theorem FdbSys.Inv.begin_clear
    (hok : s.Apart (.begin (.clear instID))) (hrouter : (Callback.clear instID).ofRouter routerID s.db = true)
    (hexec : (Callback.clear instID).exec s.db = some cmds)
    : FdbSys.Inv routerID base { s with running := s.running ++ [⟨.clear instID, s.db, cmds⟩] } := by
  have ⟨inst, hkey, hinstRouter, htake, _⟩ := Callback.ofRouter_iff.mp hrouter
  have hpos := hok.2 inst hkey
  have hall : ∀ inst', s.db.instances.take instID = some inst' → 0 < inst'.routerID ∧ 0 ≤ inst'.hyper := by
    intro inst' htake'
    cases htake.symm.trans htake'
    rw [hinstRouter]
    exact ⟨hbase.pos, hpos⟩
  have ⟨inst', hyper, htake', hcmds⟩ := exec_clear hall hexec
  cases htake.symm.trans htake'
  rw [hinstRouter] at hcmds
  apply h.begin
  . exact ⟨h.wf, ⟨inst, htake⟩, ⟨hyper, cmds, hcmds, fun c hc => .inr hc, fun c hc => hc⟩,
      fun y hy _ => hy, fun k hk => OverlayDB.mem_routerHypers hk⟩
  . exact fun r hr => Callback.host?_eq_none.mpr (hok.1 r hr)

theorem FdbSys.Inv.send {pending : List Command}
    (hk : s.running[k]? = some ⟨cb, snapshot, c :: pending⟩)
    : FdbSys.Inv routerID base
        { s with running := s.running.set k ⟨cb, snapshot, pending⟩, sent := s.sent ++ [c] } := by
  have hr := h.running _ (mem_of_getElem? hk)
  have hcb := fun p => @forall_set_cb _ _ _ ⟨cb, snapshot, pending⟩ hk rfl p
  refine ⟨h.wf, ?running, ?uniform, ?pairs, ?kept, ?withdrawn⟩
  case running =>
    intro r hmem
    obtain hold | heq := mem_or_eq_of_mem_set hmem
    . exact (h.running r hold).sent c
    . exact heq ▸ hr.pop
  case uniform =>
    have ⟨host, hall⟩ := h.uniform
    exact ⟨host, (hcb (·.host? = host)).mpr hall⟩
  case pairs =>
    intro x y ax tx ay ty hx hy hhx hhy hne
    have ⟨c', hc', hadds⟩ := h.pairs x y ax tx ay ty hx hy hhx hhy hne
    exact ⟨c', mem_append_left _ hc', hadds⟩
  case kept =>
    intro y hy hrouter address subnet hinner hnot c' hc'
    have hnot := (hcb (· ≠ .clear y.inst)).mp hnot
    rw [mem_append, mem_singleton] at hc'
    obtain hold | heq := hc'
    . exact h.kept y hy hrouter address subnet hinner hnot c' hold
    . rw [heq]
      exact hr.not_takes hbase h.wf hy hrouter hinner (hnot _ (mem_of_getElem? hk)) (by simp)
  case withdrawn =>
    intro y hosts hmem k hk
    have ⟨c', hc', hrest⟩ := h.withdrawn y hosts hmem k hk
    exact ⟨c', mem_append_left _ hc', hrest⟩

theorem FdbSys.Inv.pairs_placeIface (hlike : Like base iface) (hsnapshot : Wf routerID base snapshot)
    (hok : AttachOk routerID s.db s.sent snapshot [] hyperID iface)
    (hhx : Hosted routerID (s.db.placeIface iface.id hyperID) x ax tx hx)
    (hhy : Hosted routerID (s.db.placeIface iface.id hyperID) y ay ty hy) (hne : x.hyper ≠ y.hyper)
    : ∃ c ∈ s.sent, c.Adds x.hyper (fdbRule y ay ty hy) := by
  by_cases hxid : x.id = iface.id
  . by_cases hyid : y.id = iface.id
    . rw [placed_eq hbase h.wf hlike hhx hxid, placed_eq hbase h.wf hlike hhy hyid] at hne
      contradiction
    . have heq := placed_eq hbase h.wf hlike hhx hxid
      have hpos := hhx.pos
      have hinner := hhx.inner
      have hknown := hhx.known
      rw [heq] at hpos hinner hknown hne ⊢
      exact (hok.rules h.wf hsnapshot hpos hinner hknown (hosted_of_placeIface hhy hyid) hyid hne.symm).2
  . have hhx := hosted_of_placeIface hhx hxid
    by_cases hyid : y.id = iface.id
    . have heq := placed_eq hbase h.wf hlike hhy hyid
      have hpos := hhy.pos
      have hinner := hhy.inner
      have hknown := hhy.known
      rw [heq] at hpos hinner hknown hne ⊢
      exact (hok.rules h.wf hsnapshot hpos hinner hknown hhx hxid hne).1
    . exact h.pairs x y ax tx ay ty hx hy hhx (hosted_of_placeIface hhy hyid) hne

theorem FdbSys.Inv.commit_attach (hk : s.running[k]? = some ⟨.attach instID macAddr hyperID, snapshot, []⟩)
    (hok : AttachOk routerID s.db s.sent snapshot [] hyperID iface) (hsnapshot : Wf routerID base snapshot)
    : FdbSys.Inv routerID base
        { s with db := s.db.placeIface iface.id hyperID, running := s.running.eraseIdx k } := by
  have hlike := hsnapshot.like iface hok.mem
  have hhost := h.host?_eq hk
  refine ⟨h.wf.placeIface hlike hok.notGateway, ?running, ?uniform, ?pairs, ?kept, h.withdrawn⟩
  case running =>
    intro r hr
    have ⟨instID', macAddr', hcb⟩ := Callback.host?_eq_some.mp (hhost r (mem_of_mem_eraseIdx hr))
    have ⟨hwf, hrun⟩ := h.running r (mem_of_mem_eraseIdx hr)
    unfold RunOk
    rw [hcb] at hrun ⊢
    have ⟨iface', hiface', hattach⟩ := hrun
    refine ⟨hwf, iface', hiface', { hattach with sees := ?_ }⟩
    -- the row that has changed is on the hypervisor of the callback
    intro y hy hrouter hne
    have ⟨y0, hy0, heq⟩ := mem_placeIface.mp hy
    split at heq
    . rw [heq] at hne
      contradiction
    . rw [heq] at hrouter hne ⊢
      exact hattach.sees y0 hy0 hrouter hne
  case uniform => exact ⟨_, fun r hr => hhost r (mem_of_mem_eraseIdx hr)⟩
  case pairs =>
    intro x y ax tx ay ty hx hy hhx hhy hne
    exact h.pairs_placeIface hbase hlike hsnapshot hok hhx hhy hne
  case kept =>
    intro y hy hrouter address subnet hinner _ c hc htakes
    obtain ⟨y0, hy0, _, rfl⟩ := of_mem_placeIface hy
    refine h.kept y0 hy0 hrouter address subnet hinner ?_ c hc htakes
    intro r hr hclear
    have := hhost r hr
    rw [hclear] at this
    contradiction

theorem FdbSys.Inv.commit_clear (hk : s.running[k]? = some ⟨.clear instID, snapshot, []⟩)
    (hok : ClearOk routerID s.db s.sent snapshot [] instID) (hsnapshot : Wf routerID base snapshot)
    : FdbSys.Inv routerID base
        { s with
          db := (s.db.releaseAll (snapshot.ifacesOf instID)).deleteInstance inst
          running := s.running.eraseIdx k
          deleted := s.deleted ++ Running.deletes routerID ⟨.clear instID, snapshot, []⟩ s.db } := by
  have hhost := h.host?_eq hk
  have hlike : ∀ z ∈ snapshot.ifacesOf instID, Like base z := by
    intro z hz
    exact hsnapshot.like z (Table.mem_filter.mp hz).1
  have hwf := @Wf.releaseAll _ _ s h.wf _ hlike inst
  refine ⟨hwf, ?running, ⟨_, fun r hr => hhost r (mem_of_mem_eraseIdx hr)⟩, ?pairs, ?kept, ?withdrawn⟩
  case running =>
    intro r hr
    have ⟨instID', hcb⟩ := Callback.host?_eq_none.mp (hhost r (mem_of_mem_eraseIdx hr))
    have ⟨hrwf, hrun⟩ := h.running r (mem_of_mem_eraseIdx hr)
    unfold RunOk
    rw [hcb] at hrun ⊢
    exact ⟨hrwf, ClearOk.releaseAll h.wf hlike hrun⟩
  case pairs =>
    intro x y ax tx ay ty hx hy hhx hhy hne
    exact h.pairs x y ax tx ay ty hx hy (hosted_of_releaseAll hbase h.wf hlike hhx)
      (hosted_of_releaseAll hbase h.wf hlike hhy) hne
  case kept =>
    intro y hy hrouter address subnet hinner hnot
    have ⟨y0, hleft⟩ := mem_releaseAll hy
    have hfip := hbase.floating_zero (hwf.like y hy) hrouter hinner
    have heq := hleft.eq_of_zero h.wf hlike hfip
    subst heq
    apply h.kept y hleft.mem hrouter address subnet hinner
    intro r hr hcb
    obtain hrest | hthis := mem_of_mem_eraseIdx_or hk hr
    . exact hnot r hrest hcb
    . -- the callback would have removed the interface
      rw [hthis] at hcb
      cases hcb
      have hmem : y ∈ snapshot.ifacesOf y.inst :=
        Table.mem_filter.mpr ⟨hok.sees y hleft.mem hfip, by simp⟩
      exact hleft.kept y hmem hfip rfl
  case withdrawn =>
    intro y hosts hmem j hj
    rw [mem_append] at hmem
    obtain hold | hnew := hmem
    . exact h.withdrawn y hosts hold j hj
    . exact hok.deletes h.wf hsnapshot hnew hj

theorem FdbSys.Inv.commit
    (hk : s.running[k]? = some ⟨cb, snapshot, []⟩)
    : FdbSys.Inv routerID base
        { s with
          db := cb.write snapshot s.db
          running := s.running.eraseIdx k
          deleted := s.deleted ++ Running.deletes routerID ⟨cb, snapshot, []⟩ s.db } := by
  have ⟨hsnapshot, hrun⟩ := h.running _ (mem_of_getElem? hk)
  cases cb with
  | attach instID macAddr hyperID =>
    have ⟨iface, hiface, hok⟩ := hrun
    have hnext := h.commit_attach hbase hk hok hsnapshot
    simp only [Callback.write, hiface, Running.deletes, append_nil]
    exact hnext
  | clear instID =>
    have hok := hrun
    have ⟨inst, hinst⟩ := hok.inst
    have hnext := @FdbSys.Inv.commit_clear _ _ _ _ _ _ inst hbase h hk hok hsnapshot
    simp only [Callback.write, hinst]
    exact hnext

theorem FdbSys.Inv.step (hstep : Guarded FdbSys.Apart (FdbSys.Step routerID) s e t)
    : t.Inv routerID base := by
  have ⟨hok, hstep⟩ := hstep
  unfold FdbSys.Step FdbSys.step at hstep
  cases e with
  | begin cb =>
    dsimp only at hstep
    split at hstep
    . next hrouter =>
      obtain ⟨cmds, hexec, rfl⟩ := Option.map_eq_some_iff.mp hstep
      cases cb with
      | attach => exact h.begin_attach hbase hok hrouter hexec
      | clear => exact h.begin_clear hbase hok hrouter hexec
    . contradiction
  | send k =>
    dsimp only at hstep
    split at hstep
    . next hk =>
      cases hstep
      exact h.send hbase hk
    . contradiction
  | commit k =>
    dsimp only at hstep
    split at hstep
    . next hk =>
      cases hstep
      exact h.commit hbase hk
    . contradiction

end Base

end Invariant

theorem fdb_rules_reach_peers {db : OverlayDB} (hdb : Unplaced routerID db) {l : List FdbEvent} {t : FdbSys}
    (hrun : Run (Guarded FdbSys.Apart (FdbSys.Step routerID)) ⟨db, [], [], []⟩ l t)
    : t.Exact routerID :=
  (hrun.invariant (FdbSys.Inv routerID db) (fun _ _ _ h hstep => h.step hdb hstep)
    (FdbSys.Inv.start hdb)).exact

section Example

def tenantNet : Subnet := ⟨.internal, 5001, "192.168.10.1/24", 5⟩

def nic1 (hyper : Int) : Interface :=
  ⟨1, "eth0", "52:54:00:00:00:01", 1, 0, 0, 5, hyper, .vm, some ⟨"192.168.10.2/24", some tenantNet⟩⟩

def nic2 (hyper : Int) : Interface :=
  ⟨2, "eth0", "52:54:00:00:00:02", 2, 0, 0, 5, hyper, .vm, some ⟨"192.168.10.3/24", some tenantNet⟩⟩

def newRouter : OverlayDB where
  hypers := (empty.insert ⟨0, 1, 1, 0, "10.0.0.1"⟩).insert ⟨0, 2, 1, 0, "10.0.0.2"⟩
  interfaces := (empty.insert (nic1 (-1))).insert (nic2 (-1))
  instances := (empty.insert ⟨0, 1, 5⟩).insert ⟨0, 2, 5⟩
  vrrpInstances := empty
  loadBalancers := empty

theorem newRouter_unplaced : Unplaced 5 newRouter where
  pos := by decide
  loaded := by decide
  hyper := by decide
  gateway := by decide
  distinct := by
    have hmac : ∀ i ∈ newRouter.interfaces, ∀ j ∈ newRouter.interfaces, i.macAddr = j.macAddr → i = j := by
      decide
    intro i hi j hj r ⟨_, _, _, _, _, hri⟩ ⟨_, _, _, _, _, hrj⟩
    exact hmac i hi j hj (hri.symm.trans hrj)
  floating := by
    have hzero : ∀ i ∈ newRouter.interfaces, i.floatingIp = 0 := by decide
    intro i hi hne
    exact absurd (hzero i hi) hne

def attach1 : Callback := .attach 1 "52:54:00:00:00:01" 1

def attach2 : Callback := .attach 2 "52:54:00:00:00:02" 2

instance (s : FdbSys) (e : FdbEvent) : Decidable (s.Apart e) :=
  match e with
  | .begin (.attach _ _ hyperID) =>
    decidable_of_iff (∀ r ∈ s.running, r.cb.host? = some hyperID)
      (forall₂_congr (fun _ _ => Callback.host?_eq_some))
  | .begin (.clear instID) =>
    decidable_of_iff ((∀ r ∈ s.running, r.cb.host? = none) ∧
        ∀ inst ∈ s.db.instances.byKey? instID, 0 ≤ inst.hyper)
      (and_congr (forall₂_congr (fun _ _ => Callback.host?_eq_none)) Iff.rfl)
  | .send _ => .isTrue trivial
  | .commit _ => .isTrue trivial

theorem fdb_rules_reach_peers_serial
    : Unplaced 5 newRouter ∧
      (∃ t, Run (Guarded FdbSys.Apart (FdbSys.Step 5)) ⟨newRouter, [], [], []⟩
          [.begin attach1, .commit 0, .begin attach2, .send 0, .send 0, .commit 0] t ∧
        t.running.length = 0 ∧ t.db.interfaces.rows = [nic1 1, nic2 2] ∧ t.Exact 5) ∧
      ∃ t, Run (Guarded FdbSys.Apart (FdbSys.Step 5)) ⟨newRouter, [], [], []⟩
          [.begin attach1, .commit 0, .begin attach2, .send 0, .send 0, .commit 0, .begin (.clear 1),
            .send 0, .commit 0] t ∧
        t.deleted = [(nic1 1, [1, 2])] ∧ t.Exact 5 := by
  refine ⟨newRouter_unplaced, ?_, ?_⟩
  . refine Run.exists_of_checked (fun t => t.running.length = 0 ∧ t.db.interfaces.rows = [nic1 1, nic2 2])
      (by decide +kernel) ?_
    intro t hrun ⟨hquiet, hrows⟩
    exact ⟨hquiet, hrows, fdb_rules_reach_peers 5 newRouter_unplaced hrun⟩
  . refine Run.exists_of_checked (fun t => t.deleted = [(nic1 1, [1, 2])]) (by decide +kernel) ?_
    exact fun t hrun ht => ⟨ht, fdb_rules_reach_peers 5 newRouter_unplaced hrun⟩

theorem fdb_rules_missed_by_overlapping_attaches
    : Unplaced 5 newRouter ∧
      ∃ t, Run (FdbSys.Step 5) ⟨newRouter, [], [], []⟩
          [.begin attach1, .begin attach2, .commit 0, .commit 0] t ∧
        t.running.length = 0 ∧ t.db.interfaces.rows = [nic1 1, nic2 2] ∧ t.sent = [] ∧ ¬t.Exact 5 := by
  refine ⟨newRouter_unplaced, Run.exists_of_foldlM
    (fun t => t.running.length = 0 ∧ t.db.interfaces.rows = [nic1 1, nic2 2] ∧ t.sent = [] ∧
      t.db.hyperByHostid 1 = some ⟨1, 1, 1, 0, "10.0.0.1"⟩ ∧
      t.db.hyperByHostid 2 = some ⟨2, 2, 1, 0, "10.0.0.2"⟩)
    (by decide +kernel) ?_⟩
  intro t hrun ⟨hquiet, hrows, hsent, h1, h2⟩
  refine ⟨hquiet, hrows, hsent, ?_⟩
  intro hexact
  have hmem1 : nic1 1 ∈ t.db.interfaces := by
    rw [mem_def, hrows]
    simp
  have hmem2 : nic2 2 ∈ t.db.interfaces := by
    rw [mem_def, hrows]
    simp
  have ⟨_, _, _, heq, _⟩ := hexact.reach (length_eq_zero_iff.mp hquiet) (nic1 1) (nic2 2) _ _ _ _ _ _
    ⟨hmem1, rfl, ⟨rfl, by decide⟩, h1, by decide⟩ ⟨hmem2, rfl, ⟨rfl, by decide⟩, h2, by decide⟩ (by decide)
  rw [hsent] at heq
  simp at heq

end Example

end Web.Overlay
