import Cloudland.Lib.Run
import Cloudland.Web.LoadBalancer.Model

/-!
What the hypervisors of a load balancer were last told, against the rows.
-/

namespace Web.LoadBalancer

open List Table Check

inductive Request where
  | createListener (m : MemberShip) (name mode key cert : String) (port : Int) (now : Nat)
  | updateListener (m : MemberShip) (listener : Nat) (name : String)
  | deleteListener (m : MemberShip) (listener : Nat)
  | createBackend (m : MemberShip) (listener : Nat) (name backendAddr : String) (ssl : Bool) (now : Nat)
  | updateBackend (m : MemberShip) (listener backend : Nat) (backendAddr : String)
  | deleteBackend (m : MemberShip) (listener backend : Nat)
  deriving DecidableEq

def Request.caller : Request → MemberShip
  | .createListener m .. => m
  | .updateListener m .. => m
  | .deleteListener m .. => m
  | .createBackend m .. => m
  | .updateBackend m .. => m
  | .deleteBackend m .. => m

def LbDB.request (db : LbDB) (lb : Lb) (r : Request) : Except CLError (LbDB × List Command) := do
  LbDB.getLoadBalancer r.caller lb
  match r with
  | .createListener m name mode key cert port now => db.createListener m lb name mode key cert port now
  | .updateListener m listener name =>
    let l ← db.getListener m lb listener
    db.updateListener lb l.row name
  | .deleteListener m listener =>
    let l ← db.getListener m lb listener
    db.deleteListener m lb l
  | .createBackend m listener name backendAddr ssl now =>
    let l ← db.getListener m lb listener
    db.createBackend m lb l name backendAddr ssl now
  | .updateBackend m listener backend backendAddr =>
    let l ← db.getListener m lb listener
    let b ← db.getBackend m backend l.row
    db.updateBackend b backendAddr
  | .deleteBackend m listener backend =>
    let l ← db.getListener m lb listener
    let b ← db.getBackend m backend l.row
    db.deleteBackend m lb (db.load lb) l b

structure System where
  lb : Lb
  db : LbDB
  sent : List Command

def System.step (s : System) (r : Request) : Option System :=
  match s.db.request s.lb r with
  | .ok (db, sent) => some { s with db := db, sent := s.sent ++ sent }
  | .error _ => none

def System.Step (s : System) (r : Request) (t : System) : Prop := s.step r = some t

def Command.configFor (hyper : Int) : Command → Option LoadBalancerConfig
  | .createHaproxyConf hypers config => if hyper ∈ hypers then some config else none
  | _ => none

def lastConfig (hyper : Int) (sent : List Command) : Option LoadBalancerConfig :=
  (sent.filterMap (Command.configFor hyper)).getLast?

def serving (listeners : List Loaded) : List Loaded := listeners.filter (fun l => !l.backends.isEmpty)

structure Shows (lb : Lb) (c : ListenerConfig) (l : Loaded) : Prop where
  name : c.name = listenerName lb l.row
  mode : c.mode = l.row.mode
  key : c.key = l.row.key
  cert : c.cert = l.row.certificate
  port : c.port = l.row.port
  backends : c.backends.Perm (l.backends.map backendConfig)

/--
The entries are exactly the listeners, in their order.
-/
structure Lists (lb : Lb) (c : LoadBalancerConfig) (listeners : List Loaded) : Prop where
  floatingIps : c.floatingIps = lb.floatingIps
  listeners : List.Forall₂ (Shows lb) c.listeners listeners

/--
What the builders make of the listeners, of which they leave out those without a backend.
-/
structure Describes (lb : Lb) (c : LoadBalancerConfig) (listeners : List Loaded) : Prop where
  floatingIps : c.floatingIps = lb.floatingIps
  listeners : List.Forall₂ (Shows lb) c.listeners (serving listeners)

def Lb.hypers (lb : Lb) : List Int := [lb.master, lb.backup].filter (fun h => 0 ≤ h)

structure System.InSync (s : System) : Prop where
  last : ∀ h ∈ s.lb.hypers, ∀ c, lastConfig h s.sent = some c → Describes s.lb c (s.db.load s.lb)
  none : ∀ h ∈ s.lb.hypers, lastConfig h s.sent = none → serving (s.db.load s.lb) = []
  fresh : ∀ b ∈ s.db.backends, b.listenerID < s.db.listeners.next

section Describes

variable {lb : Lb} {c : LoadBalancerConfig}

structure Alike (l l' : Loaded) : Prop where
  id : l.row.id = l'.row.id
  mode : l.row.mode = l'.row.mode
  key : l.row.key = l'.row.key
  certificate : l.row.certificate = l'.row.certificate
  port : l.row.port = l'.row.port
  backends : l.backends.Perm l'.backends

theorem Alike.refl (l : Loaded) : Alike l l := ⟨rfl, rfl, rfl, rfl, rfl, .refl _⟩

theorem Shows.of_alike (h : Shows lb e l) (ha : Alike l l') : Shows lb e l' where
  name := by rw [h.name, listenerName, listenerName, ha.id]
  mode := h.mode.trans ha.mode
  key := h.key.trans ha.key
  cert := h.cert.trans ha.certificate
  port := h.port.trans ha.port
  backends := h.backends.trans (ha.backends.map _)

theorem serving_of_alike (h : List.Forall₂ Alike ls ls') : List.Forall₂ Alike (serving ls) (serving ls') := by
  induction h with
  | nil => exact .nil
  | cons ha _ ih =>
    have hempty := ha.backends.isEmpty_eq
    unfold serving
    rw [filter_cons, filter_cons, hempty]
    split
    . exact .cons ha ih
    . exact ih

theorem Describes.of_serving (h : Describes lb c ls) (ha : List.Forall₂ Alike (serving ls) (serving ls'))
    : Describes lb c ls' := by
  refine ⟨h.floatingIps, ?_⟩
  have hall := h.listeners
  generalize serving ls = s at ha hall
  generalize serving ls' = s' at ha ⊢
  generalize c.listeners = es at hall ⊢
  induction hall generalizing s' with
  | nil =>
    cases ha
    exact .nil
  | cons hshow _ ih =>
    cases ha with
    | cons ha hrest => exact .cons (hshow.of_alike ha) (ih _ hrest)

theorem Describes.of_alike (h : Describes lb c ls) (ha : List.Forall₂ Alike ls ls') : Describes lb c ls' :=
  h.of_serving (serving_of_alike ha)

theorem haproxyConfig_describes (ls : List Loaded) : Describes lb (haproxyConfig backendConfig lb ls) ls := by
  refine ⟨rfl, ?_⟩
  show List.Forall₂ _ ((serving ls).map _) (serving ls)
  rw [forall₂_map_left_iff, forall₂_same]
  exact fun l _ => ⟨rfl, rfl, rfl, rfl, rfl, .refl _⟩

theorem recovered_describes (h : ∀ l ∈ ls, ∀ b ∈ l.backends, b.ssl = false)
    : haproxyConfig recoveredBackendConfig lb ls = haproxyConfig backendConfig lb ls := by
  unfold haproxyConfig
  congr 1
  apply map_congr_left
  intro l hl
  have hbackends : l.backends.map recoveredBackendConfig = l.backends.map backendConfig := by
    apply map_congr_left
    intro b hb
    rw [recoveredBackendConfig, backendConfig, h l (mem_of_mem_filter hl) b hb]
  rw [listenerConfig, listenerConfig, hbackends]

end Describes

section Sent

variable {h : Int} {sent new : List Command}

def Plain (new : List Command) : Prop := ∀ h, ∀ command ∈ new, Command.configFor h command = none

theorem lastConfig_append_plain (hplain : Plain new) : lastConfig h (sent ++ new) = lastConfig h sent := by
  have hnone := filterMap_eq_nil_iff.mpr (hplain h)
  rw [lastConfig, filterMap_append, hnone, append_nil]
  rfl

theorem lastConfig_append_push (hh : h ∈ hypers)
    : lastConfig h (sent ++ [.createHaproxyConf hypers c]) = some c := by
  have hone : [Command.createHaproxyConf hypers c].filterMap (Command.configFor h) = [c] := by
    simp [Command.configFor, hh]
  rw [lastConfig, filterMap_append, hone, getLast?_concat]

theorem plain_createVrrpConf (lb : Lb) (listeners : List Listener) : Plain (createVrrpConf lb listeners) := by
  intro h command hc
  unfold createVrrpConf at hc
  split at hc
  . contradiction
  . obtain ⟨_, _, rfl⟩ := mem_map.mp hc
    rfl

theorem createHaproxyConf_eq_ok
    (h : createHaproxyConf lb ls updated = .ok command)
    : command = .createHaproxyConf lb.hypers
        (haproxyConfig backendConfig lb (ls.map (fun l => if l.row.id = updated.row.id then updated else l))) := by
  unfold createHaproxyConf at h
  simp only [bind_eq_ok, pure_eq_ok] at h
  obtain ⟨hypers, hgroup, heq⟩ := h
  unfold vrrpHyperGroup at hgroup
  dsimp only at hgroup
  split at hgroup
  . contradiction
  . cases hgroup
    exact heq.symm

inductive Follows (lb : Lb) (db db' : LbDB) : List Command → Prop where
  | quiet {new : List Command} (hplain : Plain new)
      (halike : List.Forall₂ Alike (serving (db.load lb)) (serving (db'.load lb)))
    : Follows lb db db' new
  | pushed {pre post : List Command} {c : LoadBalancerConfig} (hplain : Plain post)
      (hdescribes : Describes lb c (db'.load lb))
    : Follows lb db db' (pre ++ [.createHaproxyConf lb.hypers c] ++ post)

theorem System.InSync.step {s : System} (hs : s.InSync) {db' : LbDB} (hfollows : Follows s.lb s.db db' new)
    (hfresh : ∀ b ∈ db'.backends, b.listenerID < db'.listeners.next)
    : System.InSync { s with db := db', sent := s.sent ++ new } := by
  refine ⟨?_, ?_, hfresh⟩
  . intro h hh c hc
    cases hfollows with
    | quiet hplain halike =>
      rw [lastConfig_append_plain hplain] at hc
      exact (hs.last h hh c hc).of_serving halike
    | pushed hplain hdescribes =>
      rw [← append_assoc, ← append_assoc, lastConfig_append_plain hplain, lastConfig_append_push hh] at hc
      cases hc
      exact hdescribes
  . intro h hh hnone
    cases hfollows with
    | quiet hplain halike =>
      rw [lastConfig_append_plain hplain] at hnone
      rw [hs.none h hh hnone] at halike
      exact forall₂_nil_left_iff.mp halike
    | pushed hplain hdescribes =>
      rw [← append_assoc, ← append_assoc, lastConfig_append_plain hplain, lastConfig_append_push hh] at hnone
      contradiction

end Sent

section Operations

variable {db db' : LbDB} {m : MemberShip} {lb : Lb} {new : List Command}

theorem forall₂_map_alike {ls : List Loaded} (h : ∀ l ∈ ls, Alike (f l) (g l))
    : List.Forall₂ Alike (ls.map f) (ls.map g) := by
  rw [forall₂_map_left_iff, forall₂_map_right_iff, forall₂_same]
  exact h

theorem mem_load : l ∈ db.load lb ↔ ∃ r ∈ db.listeners, r.loadBalancerID = lb.id ∧ l = db.preload r := by
  simp only [LbDB.load, mem_map, Table.mem_filter, beq_iff_eq, and_assoc, @eq_comm _ l]

theorem getListener_eq_ok {id : Nat} {l : Loaded} (h : db.getListener m lb id = .ok l)
    : l.row ∈ db.listeners ∧ l.row.id = id ∧ l.row.loadBalancerID = lb.id ∧ l = db.preload l.row := by
  unfold LbDB.getListener at h
  simp only [bind_eq_ok, found_eq_ok, require_eq_ok, pure_eq_ok] at h
  obtain ⟨r, hfind, _, _, _, hlb, heq⟩ := h
  obtain ⟨hmem, hid⟩ := find?_eq_some hfind
  simp only [Bool.and_eq_true, beq_iff_eq] at hid
  rw [← heq]
  exact ⟨hmem, hid.1, hlb, rfl⟩

theorem getBackend_eq_ok {id : Nat} {l : Listener} {b : Backend} (h : db.getBackend m id l = .ok b)
    : b ∈ db.backends ∧ b.id = id ∧ b.listenerID = l.id := by
  unfold LbDB.getBackend at h
  simp only [bind_eq_ok, found_eq_ok, require_eq_ok, pure_eq_ok] at h
  obtain ⟨r, hfind, _, _, _, hl, heq⟩ := h
  obtain ⟨hmem, hid⟩ := find?_eq_some hfind
  simp only [Bool.and_eq_true, beq_iff_eq] at hid
  rw [← heq]
  exact ⟨hmem, hid.1, hl⟩

theorem load_insert (hid : r.id = db.listeners.next) (hlb : r.loadBalancerID = lb.id)
    : LbDB.load { db with listeners := db.listeners.insert r } lb = db.load lb ++ [db.preload r] := by
  have hr : Keyed.setKey r db.listeners.next = r := by
    rw [← hid]
    exact Keyed.setKey_key r
  show ((db.listeners.rows ++ [Keyed.setKey r db.listeners.next]).filter _).map db.preload = _
  rw [hr, filter_append, map_append, filter_singleton, hlb, beq_self_eq_true]
  rfl

theorem createListener_eq_ok (hfresh : ∀ b ∈ db.backends, b.listenerID < db.listeners.next)
    (h : db.createListener m lb name mode key cert port now = .ok (db', new))
    : Follows lb db db' new ∧ ∀ b ∈ db'.backends, b.listenerID < db'.listeners.next := by
  unfold LbDB.createListener at h
  simp only [bind_eq_ok, require_eq_ok, pure_eq_ok] at h
  obtain ⟨_, _, _, _, heq⟩ := h
  cases heq
  refine ⟨.quiet (plain_createVrrpConf lb _) ?_, ?_⟩
  . -- no backend has the new id
    have hnone : db.backends.filter (fun b => b.listenerID == db.listeners.next) = [] := by
      rw [Table.filter, filter_eq_nil_iff]
      intro b hb
      have := hfresh b hb
      rw [beq_iff_eq]
      omega
    rw [load_insert rfl rfl, LbDB.preload, hnone, serving, serving, filter_append]
    show List.Forall₂ _ _ (_ ++ [])
    rw [append_nil, forall₂_same]
    exact fun l _ => .refl l
  . intro b hb
    exact Nat.lt_succ_of_lt (hfresh b hb)

theorem load_update {p : Listener → Bool} {f : Listener → Listener}
    (hlb : ∀ r, (f r).loadBalancerID = r.loadBalancerID)
    : LbDB.load { db with listeners := db.listeners.update p f } lb
        =
      (db.load lb).map (fun x => if p x.row then ⟨{ f x.row with id := x.row.id }, x.backends⟩ else x) := by
  unfold LbDB.load Table.filter
  show ((db.listeners.rows.map (fun r => if p r then { f r with id := r.id } else r)).filter _).map db.preload = _
  rw [filter_map, map_map, map_map]
  have hfilter : ((fun r : Listener => r.loadBalancerID == lb.id) ∘ fun r => if p r then { f r with id := r.id } else r)
      = fun r => r.loadBalancerID == lb.id := by
    funext r
    rw [Function.comp_apply]
    split
    . show ((f r).loadBalancerID == lb.id) = _
      rw [hlb]
    . rfl
  rw [hfilter]
  apply map_congr_left
  intro r _
  show db.preload (if p r then { f r with id := r.id } else r)
      = if p r then ⟨{ f r with id := r.id }, (db.preload r).backends⟩ else db.preload r
  split
  . rfl
  . rfl

theorem updateListener_eq_ok (h : db.updateListener lb l name = .ok (db', new))
    : Follows lb db db' new ∧ db'.backends = db.backends ∧ db'.listeners.next = db.listeners.next := by
  unfold LbDB.updateListener at h
  split at h
  . simp only [bind_eq_ok, require_eq_ok, pure_eq_ok] at h
    obtain ⟨_, _, heq⟩ := h
    cases heq
    refine ⟨.quiet (by simp [Plain]) (serving_of_alike ?_), rfl, rfl⟩
    rw [@load_update db lb _ (fun r => { r with name := name }) (fun _ => rfl)]
    nth_rewrite 1 [← map_id (db.load lb)]
    apply forall₂_map_alike
    intro x _
    split
    . exact ⟨rfl, rfl, rfl, rfl, rfl, .refl _⟩
    . exact .refl x
  . cases h
    refine ⟨.quiet (by simp [Plain]) ?_, rfl, rfl⟩
    rw [forall₂_same]
    exact fun l _ => .refl l

theorem preload_insertBackend (hid : b.id = db.backends.next) (r : Listener)
    : LbDB.preload { db with backends := db.backends.insert b } r
        =
      if b.listenerID = r.id then ⟨r, (db.preload r).backends ++ [b]⟩ else db.preload r := by
  have hb : Keyed.setKey b db.backends.next = b := by
    rw [← hid]
    exact Keyed.setKey_key b
  unfold LbDB.preload Table.filter
  show Loaded.mk r ((db.backends.rows ++ [Keyed.setKey b db.backends.next]).filter _) = _
  rw [hb, filter_append, filter_singleton]
  by_cases hr : b.listenerID = r.id
  . rw [if_pos hr, hr, beq_self_eq_true]
    rfl
  . rw [if_neg hr, beq_eq_false_iff_ne.mpr hr]
    show Loaded.mk r (_ ++ []) = _
    rw [append_nil]

theorem load_insertBackend (hid : b.id = db.backends.next) (hl : l.row ∈ db.listeners)
    (hload : l = db.preload l.row) (hb : b.listenerID = l.row.id)
    : LbDB.load { db with backends := db.backends.insert b } lb
        =
      (db.load lb).map (fun x => if x.row.id = l.row.id then { l with backends := l.backends ++ [b] } else x) := by
  unfold LbDB.load
  rw [map_map]
  apply map_congr_left
  intro r hr
  rw [Function.comp_apply, preload_insertBackend hid]
  show _ = if r.id = l.row.id then _ else _
  by_cases hsame : r.id = l.row.id
  . have heq : r = l.row := Table.eq_of_key (Table.mem_filter.mp hr).1 hl hsame
    rw [if_pos hsame, if_pos (hb.trans hsame.symm), heq, ← hload]
  . rw [if_neg hsame, if_neg (fun h => hsame (h.symm.trans hb))]

theorem createBackend_eq_ok
    (hfresh : ∀ b ∈ db.backends, b.listenerID < db.listeners.next) (hl : l.row ∈ db.listeners)
    (hload : l = db.preload l.row) (h : db.createBackend m lb l name backendAddr ssl now = .ok (db', new))
    : Follows lb db db' new ∧ ∀ b ∈ db'.backends, b.listenerID < db'.listeners.next := by
  unfold LbDB.createBackend at h
  simp only [bind_eq_ok, require_eq_ok, pure_eq_ok] at h
  obtain ⟨_, _, _, _, command, hcommand, heq⟩ := h
  cases heq
  constructor
  . rw [createHaproxyConf_eq_ok hcommand]
    refine @Follows.pushed lb db _ [] [] _ (by simp [Plain]) ?_
    rw [load_insertBackend rfl hl hload rfl]
    exact haproxyConfig_describes _
  . intro b hb
    obtain hb | hb := mem_insert.mp hb
    . exact hfresh b hb
    . rw [hb]
      exact (db.listeners.bounds l.row hl).2

structure Base (db : LbDB) (lb : Lb) (ls : List Loaded) (l : Loaded) : Prop where
  rows : ls.map Loaded.row = db.listeners.filter (fun r => r.loadBalancerID == lb.id)
  others : ∀ x ∈ ls, x.row.id ≠ l.row.id → x = db.preload x.row
  mem : l.row ∈ db.listeners

variable {ls : List Loaded} {l : Loaded}

theorem Base.load (hl : l.row ∈ db.listeners) : Base db lb (db.load lb) l := by
  refine ⟨?_, ?_, hl⟩
  . rw [LbDB.load, map_map]
    exact map_id _
  . intro x hx _
    obtain ⟨r, _, _, rfl⟩ := mem_load.mp hx
    rfl

theorem Base.load_eq (hbase : Base db lb ls l) : db.load lb = ls.map (fun x => db.preload x.row) := by
  rw [LbDB.load, ← hbase.rows, map_map]
  rfl

theorem Base.mem_row (hbase : Base db lb ls l) (hx : x ∈ ls) : x.row ∈ db.listeners := by
  have hrow : x.row ∈ ls.map Loaded.row := mem_map_of_mem hx
  rw [hbase.rows] at hrow
  exact (Table.mem_filter.mp hrow).1

def Sees (m : MemberShip) (db : LbDB) (listener : Nat) : Prop :=
  ∀ b ∈ db.backends, b.listenerID = listener → m.getWhere b.owner = true

theorem listBackends_perm (hsees : Sees m db r.id)
    : (db.listBackends m r).Perm (db.preload r).backends := by
  have hfilter : db.backends.filter (fun b => b.listenerID == r.id && m.getWhere b.owner)
      = db.backends.filter (fun b => b.listenerID == r.id) := by
    apply filter_congr
    intro b hb
    cases hid : b.listenerID == r.id with
    | false => rfl
    | true => rw [hsees b hb (beq_iff_eq.mp hid)]; rfl
  unfold LbDB.listBackends
  rw [hfilter]
  exact perm_insertionSort _ _

theorem preload_delete (hkey : ∀ b' ∈ db.backends, b'.id = b.id → b' = b)
    (hr : b.listenerID ≠ r.id)
    : LbDB.preload { db with backends := db.backends.delete (fun r => r.id == b.id) } r = db.preload r := by
  unfold LbDB.preload Table.filter Table.delete
  rw [filter_filter]
  congr 1
  apply filter_congr
  intro b' hb'
  cases hid : b'.listenerID == r.id with
  | false => rfl
  | true =>
    have hne : b'.id ≠ b.id := fun h => hr (hkey b' hb' h ▸ beq_iff_eq.mp hid)
    simp [hne]

theorem deleteBackend_eq_ok {b : Backend} (hbase : Base db lb ls l) (hb : b.listenerID = l.row.id)
    (hkey : ∀ b' ∈ db.backends, b'.id = b.id → b' = b) (hsees : Sees m db l.row.id)
    (h : db.deleteBackend m lb ls l b = .ok (db', new))
    : db' = { db with backends := db.backends.delete (fun r => r.id == b.id) } ∧ Base db' lb ls l ∧
      Sees m db' l.row.id ∧ ∃ c, new = [.createHaproxyConf lb.hypers c] ∧ Describes lb c (db'.load lb) := by
  unfold LbDB.deleteBackend at h
  simp only [bind_eq_ok, require_eq_ok, pure_eq_ok] at h
  obtain ⟨_, _, command, hcommand, heq⟩ := h
  obtain ⟨hdb, hnew⟩ := Prod.mk.inj heq
  have hbase' : Base db' lb ls l := by
    rw [← hdb]
    refine ⟨hbase.rows, ?_, hbase.mem⟩
    intro x hx hne
    rw [preload_delete hkey (fun h => hne (h.symm.trans hb))]
    exact hbase.others x hx hne
  have hsees' : Sees m db' l.row.id := by
    rw [← hdb]
    exact fun b' hb' => hsees b' (mem_delete.mp hb').1
  have hcommand := createHaproxyConf_eq_ok hcommand
  rw [hdb] at hcommand
  rw [hcommand] at hnew
  refine ⟨hdb.symm, hbase', hsees', _, hnew.symm, ?_⟩
  apply Describes.of_alike (haproxyConfig_describes _)
  rw [hbase'.load_eq]
  apply forall₂_map_alike
  intro x hx
  split
  . next hsame =>
    have hrow := eq_of_key (hbase'.mem_row hx) hbase'.mem hsame
    rw [hrow]
    exact ⟨rfl, rfl, rfl, rfl, rfl, listBackends_perm hsees'⟩
  . next hne =>
    have hx' := hbase'.others x hx hne
    rw [← hx']
    exact .refl x

theorem deleteBackends_eq_ok (hbase : Base db lb ls l) (hbs : ∀ b ∈ bs, b.listenerID = l.row.id)
    (hkey : ∀ b ∈ bs, ∀ b' ∈ db.backends, b'.id = b.id → b' = b) (hsees : Sees m db l.row.id)
    (h : LbDB.deleteBackends m lb ls l db bs = .ok (db', new))
    : db'.listeners = db.listeners ∧ (∀ b, b ∈ db'.backends ↔ b ∈ db.backends ∧ ∀ b' ∈ bs, b.id ≠ b'.id) ∧
      (bs = [] → new = [] ∧ db' = db) ∧
      (bs ≠ [] → ∃ pre c, new = pre ++ [.createHaproxyConf lb.hypers c] ∧ Describes lb c (db'.load lb)) := by
  induction bs generalizing db new with
  | nil =>
    cases h
    exact ⟨rfl, by simp, fun _ => ⟨rfl, rfl⟩, by simp⟩
  | cons b bs ih =>
    simp only [LbDB.deleteBackends, bind_eq_ok, pure_eq_ok] at h
    obtain ⟨⟨db1, sent⟩, hdelete, ⟨db2, sent'⟩, hrest, heq⟩ := h
    cases heq
    obtain ⟨hdb1, hbase1, hsees1, c, hsent, hdescribes⟩ :=
      deleteBackend_eq_ok hbase (hbs b (by simp)) (hkey b (by simp)) hsees hdelete
    have hmem1 : ∀ b', b' ∈ db1.backends ↔ b' ∈ db.backends ∧ b'.id ≠ b.id := by
      intro b'
      rw [hdb1]
      simp
    obtain ⟨hlisteners, hmem, hnil, hcons⟩ := ih hbase1 (fun b hb => hbs b (mem_cons_of_mem _ hb))
      (fun b hb b' hb' => hkey b (mem_cons_of_mem _ hb) b' ((hmem1 b').mp hb').1) hsees1 hrest
    refine ⟨?_, ?_, by simp, ?_⟩
    . rw [hlisteners, hdb1]
    . intro b'
      rw [hmem, hmem1, forall_mem_cons, and_assoc]
    . intro _
      cases bs with
      | nil =>
        obtain ⟨hsent', hdb⟩ := hnil rfl
        exact ⟨[], c, by rw [hsent, hsent']; rfl, hdb ▸ hdescribes⟩
      | cons b' bs =>
        obtain ⟨pre, c', hsent', hdescribes'⟩ := hcons (by simp)
        exact ⟨sent ++ pre, c', by rw [hsent', append_assoc], hdescribes'⟩

theorem serving_deleteListener {r : Listener} (hnone : ∀ b ∈ db.backends, b.listenerID ≠ r.id)
    : serving (LbDB.load { db with listeners := db.listeners.delete (fun r' => r'.id == r.id) } lb)
        =
      serving (db.load lb) := by
  have hempty : ∀ r' : Listener, r'.id = r.id → (db.preload r').backends = [] := by
    intro r' hid
    unfold LbDB.preload Table.filter
    rw [filter_eq_nil_iff]
    intro b hb
    rw [beq_iff_eq, hid]
    exact hnone b hb
  unfold serving LbDB.load Table.filter Table.delete
  rw [filter_map, filter_map, filter_filter, filter_filter, filter_filter]
  show (filter _ _).map db.preload = _
  congr 1
  apply filter_congr
  intro r' _
  show (!(db.preload r').backends.isEmpty && r'.loadBalancerID == lb.id && !(r'.id == r.id))
      = (!(db.preload r').backends.isEmpty && r'.loadBalancerID == lb.id)
  by_cases hid : r'.id = r.id
  . rw [hempty r' hid]
    rfl
  . rw [beq_eq_false_iff_ne.mpr hid, Bool.not_false, Bool.and_true]

theorem deleteListener_eq_ok (hl : l.row ∈ db.listeners) (hsees : Sees m db l.row.id)
    (h : db.deleteListener m lb l = .ok (db', new))
    : Follows lb db db' new ∧ (∀ b ∈ db'.backends, b ∈ db.backends) ∧
      db'.listeners.next = db.listeners.next := by
  unfold LbDB.deleteListener at h
  simp only [bind_eq_ok, require_eq_ok, pure_eq_ok] at h
  obtain ⟨_, _, ⟨db1, sent⟩, hdelete, heq⟩ := h
  cases heq
  have hperm := listBackends_perm hsees
  have hlisted : ∀ b, b ∈ db.listBackends m l.row ↔ b ∈ db.backends ∧ b.listenerID = l.row.id := by
    intro b
    rw [hperm.mem_iff, LbDB.preload, Table.mem_filter, beq_iff_eq]
  obtain ⟨hlisteners, hmem, hnil, hcons⟩ := deleteBackends_eq_ok (Base.load hl)
    (fun b hb => ((hlisted b).mp hb).2)
    (fun b hb b' hb' hid => eq_of_key hb' ((hlisted b).mp hb).1 hid) hsees hdelete
  have hserving := @serving_deleteListener db1 lb l.row (by
    intro b hb hid
    obtain ⟨hold, hne⟩ := (hmem b).mp hb
    exact hne b ((hlisted b).mpr ⟨hold, hid⟩) rfl)
  refine ⟨?_, fun b hb => ((hmem b).mp hb).1, by rw [← hlisteners]; rfl⟩
  by_cases hbs : db.listBackends m l.row = []
  . obtain ⟨rfl, hdb⟩ := hnil hbs
    rw [nil_append]
    refine .quiet (plain_createVrrpConf lb _) ?_
    rw [hserving, hdb, forall₂_same]
    exact fun l _ => .refl l
  . obtain ⟨pre, c, rfl, hdescribes⟩ := hcons hbs
    refine .pushed (plain_createVrrpConf lb _) (hdescribes.of_serving ?_)
    rw [hserving, forall₂_same]
    exact fun l _ => .refl l

end Operations

def System.Allowed (s : System) : Request → Prop
  | .createListener .. => True
  | .updateListener .. => True
  | .createBackend .. => True
  | .deleteListener m listener => Sees m s.db listener
  | .deleteBackend m listener _ => Sees m s.db listener
  | .updateBackend _ _ backend backendAddr => ∀ b ∈ s.db.backends, b.id = backend → b.backendAddr = backendAddr

instance (m : MemberShip) (db : LbDB) (listener : Nat) : Decidable (Sees m db listener) :=
  inferInstanceAs (Decidable (∀ b ∈ db.backends, b.listenerID = listener → m.getWhere b.owner = true))

instance (s : System) : (r : Request) → Decidable (s.Allowed r)
  | .createListener .. => .isTrue trivial
  | .updateListener .. => .isTrue trivial
  | .createBackend .. => .isTrue trivial
  | .deleteListener m listener => inferInstanceAs (Decidable (Sees m s.db listener))
  | .deleteBackend m listener _ => inferInstanceAs (Decidable (Sees m s.db listener))
  | .updateBackend _ _ backend backendAddr =>
    inferInstanceAs (Decidable (∀ b ∈ s.db.backends, b.id = backend → b.backendAddr = backendAddr))

theorem request_eq_ok {s : System} (hs : s.InSync) {r : Request} (hok : s.Allowed r) {db' : LbDB} {new : List Command}
    (h : s.db.request s.lb r = .ok (db', new))
    : Follows s.lb s.db db' new ∧ ∀ b ∈ db'.backends, b.listenerID < db'.listeners.next := by
  unfold LbDB.request at h
  rw [bind_eq_ok] at h
  obtain ⟨_, _, h⟩ := h
  cases r with
  | createListener m name mode key cert port now => exact createListener_eq_ok hs.fresh h
  | updateListener m listener name =>
    simp only [bind_eq_ok] at h
    obtain ⟨l, _, h⟩ := h
    obtain ⟨hfollows, hbackends, hnext⟩ := updateListener_eq_ok h
    exact ⟨hfollows, by rw [hbackends, hnext]; exact hs.fresh⟩
  | deleteListener m listener =>
    simp only [bind_eq_ok] at h
    obtain ⟨l, hl, h⟩ := h
    obtain ⟨hmem, hid, _, _⟩ := getListener_eq_ok hl
    obtain ⟨hfollows, hbackends, hnext⟩ := deleteListener_eq_ok hmem (hid ▸ hok) h
    exact ⟨hfollows, fun b hb => hnext ▸ hs.fresh b (hbackends b hb)⟩
  | createBackend m listener name backendAddr ssl now =>
    simp only [bind_eq_ok] at h
    obtain ⟨l, hl, h⟩ := h
    obtain ⟨hmem, _, _, hload⟩ := getListener_eq_ok hl
    exact createBackend_eq_ok hs.fresh hmem hload h
  | updateBackend m listener backend backendAddr =>
    simp only [bind_eq_ok] at h
    obtain ⟨l, _, b, hb, h⟩ := h
    obtain ⟨hmem, hid, _⟩ := getBackend_eq_ok hb
    unfold LbDB.updateBackend at h
    rw [if_neg (by simp [hok b hmem hid])] at h
    cases h
    refine ⟨.quiet (by simp [Plain]) ?_, hs.fresh⟩
    rw [forall₂_same]
    exact fun l _ => .refl l
  | deleteBackend m listener backend =>
    simp only [bind_eq_ok] at h
    obtain ⟨l, hl, b, hb, h⟩ := h
    obtain ⟨hmem, hid, _, _⟩ := getListener_eq_ok hl
    obtain ⟨hbmem, _, hlistener⟩ := getBackend_eq_ok hb
    obtain ⟨hdb, _, _, c, hnew, hdescribes⟩ := deleteBackend_eq_ok (Base.load hmem) hlistener
      (fun b' hb' hid => eq_of_key hb' hbmem hid) (hid ▸ hok) h
    constructor
    . rw [hnew]
      exact @Follows.pushed _ _ _ [] [] c (by simp [Plain]) hdescribes
    . intro b' hb'
      rw [hdb] at hb' ⊢
      exact hs.fresh b' (mem_delete.mp hb').1

theorem System.InSync.kept {s t : System} (hs : s.InSync) (hstep : Guarded System.Allowed System.Step s r t)
    : t.InSync := by
  have ⟨hok, hstep⟩ := hstep
  unfold System.Step System.step at hstep
  split at hstep
  . next db' new h =>
    cases hstep
    have ⟨hfollows, hfresh⟩ := request_eq_ok hs hok h
    exact hs.step hfollows hfresh
  . contradiction

-- each hypervisor was last told of all live listeners
def System.Followed (s : System) : Prop :=
  ∀ h ∈ s.lb.hypers, match lastConfig h s.sent with
    | some c => Lists s.lb c (s.db.load s.lb)
    | none => s.db.load s.lb = []

def System.Served (s : System) : Prop := ∀ l ∈ s.db.load s.lb, l.backends ≠ []

theorem System.Served.serving {s : System} (h : s.Served) : serving (s.db.load s.lb) = s.db.load s.lb := by
  rw [LoadBalancer.serving, filter_eq_self]
  intro l hl
  simp [h l hl]

theorem Describes.lists {s : System} (hserved : s.Served) (h : Describes s.lb c (s.db.load s.lb))
    : Lists s.lb c (s.db.load s.lb) :=
  ⟨h.floatingIps, hserved.serving ▸ h.listeners⟩

theorem System.InSync.followed {s : System} (hs : s.InSync) (hserved : s.Served) : s.Followed := by
  intro h hh
  split
  . next c hc => exact (hs.last h hh c hc).lists hserved
  . next hnone => exact hserved.serving ▸ hs.none h hh hnone

structure ListenerConfig.Same (e e' : ListenerConfig) : Prop where
  name : e.name = e'.name
  mode : e.mode = e'.mode
  key : e.key = e'.key
  cert : e.cert = e'.cert
  port : e.port = e'.port
  backends : e.backends.Perm e'.backends

structure LoadBalancerConfig.Same (c c' : LoadBalancerConfig) : Prop where
  floatingIps : c.floatingIps = c'.floatingIps
  listeners : List.Forall₂ ListenerConfig.Same c.listeners c'.listeners

theorem Lists.same (h : Lists lb c ls) (h' : Lists lb c' ls) : c.Same c' := by
  obtain ⟨hips, hl⟩ := h
  obtain ⟨hips', hl'⟩ := h'
  refine ⟨hips.trans hips'.symm, ?_⟩
  generalize c.listeners = es at hl ⊢
  generalize c'.listeners = es' at hl' ⊢
  induction hl generalizing es' with
  | nil =>
    cases hl'
    exact .nil
  | cons hshow _ ih =>
    cases hl' with
    | cons hshow' hrest =>
      refine .cons ⟨?_, ?_, ?_, ?_, ?_, hshow.backends.trans hshow'.backends.symm⟩ (ih _ hrest)
      . exact hshow.name.trans hshow'.name.symm
      . exact hshow.mode.trans hshow'.mode.symm
      . exact hshow.key.trans hshow'.key.symm
      . exact hshow.cert.trans hshow'.cert.symm
      . exact hshow.port.trans hshow'.port.symm

structure Recoverable (s : System) (hyperID : Int) (byId : Bool) : Prop where
  affected : hyperID ∈ s.lb.hypers
  available : s.lb.status = "available"
  plain : ∀ b ∈ s.db.backends, b.ssl = false
  subnets : byId = true → s.lb.floatingIps = []

theorem recoverLoadbalancer_eq_ok (h : Recoverable s hyperID byId)
    : ∃ commands, recoverLoadbalancer s.db s.lb hyperID byId = .ok commands ∧
        commands.filterMap (Command.configFor hyperID) = [haproxyConfig backendConfig s.lb (s.db.load s.lb)] := by
  have haffected : s.lb.master = hyperID ∨ s.lb.backup = hyperID := by
    have hmem := mem_of_mem_filter h.affected
    simp only [mem_cons, not_mem_nil, or_false] at hmem
    exact hmem.imp Eq.symm Eq.symm
  have hconfig : haproxyConfig recoveredBackendConfig s.lb (s.db.load s.lb)
      = haproxyConfig backendConfig s.lb (s.db.load s.lb) := by
    apply recovered_describes
    intro l hl b hb
    obtain ⟨r, _, _, heq⟩ := mem_load.mp hl
    rw [heq] at hb
    exact h.plain b (Table.mem_filter.mp hb).1
  have hvrrp : ∀ (hyper : Int) (role : String) (ports : List Int),
      (if hyper = hyperID then [Command.setVrrpIp hyper role, .createKeepalivedConf hyper ports] else []).filterMap
        (Command.configFor hyperID) = [] := by
    intro hyper role ports
    split
    . rfl
    . rfl
  have hfloating : (s.lb.floatingIps.map (fun address => Command.createLbFloating hyperID address)).filterMap
      (Command.configFor hyperID) = [] := by
    rw [filterMap_map]
    exact filterMap_eq_nil_iff.mpr (fun _ _ => rfl)
  unfold recoverLoadbalancer
  rw [if_neg (fun hnone => haffected.elim hnone.2.1 hnone.2.2), if_neg (fun hne => hne h.available),
    if_neg (fun hpanic => hpanic.2 (h.subnets hpanic.1))]
  refine ⟨_, rfl, ?_⟩
  rw [filterMap_append, filterMap_append, filterMap_append, hvrrp, hvrrp, hfloating, hconfig]
  simp [Command.configFor]

theorem haproxy_follows {s t : System} (hs : s.InSync) {l : List Request}
    (hrun : Run (Guarded System.Allowed System.Step) s l t) (hserved : t.Served)
    : t.Followed ∧
      ∀ h byId, Recoverable t h byId →
        ∃ commands c, recoverLoadbalancer t.db t.lb h byId = .ok commands ∧
          commands.filterMap (Command.configFor h) = [c] ∧ Lists t.lb c (t.db.load t.lb) ∧
          ∀ c' ∈ lastConfig h t.sent, c.Same c' := by
  have ht := hrun.invariant System.InSync (fun _ _ _ hs h => hs.kept h) hs
  refine ⟨ht.followed hserved, ?_⟩
  intro h byId hrec
  have ⟨commands, hok, hconfig⟩ := recoverLoadbalancer_eq_ok hrec
  have hlists := (haproxyConfig_describes (t.db.load t.lb)).lists hserved
  exact ⟨commands, _, hok, hconfig, hlists, fun c' hc' => hlists.same ((ht.last h hrec.affected c' hc').lists hserved)⟩

section Example

def front : Lb := ⟨1, 2, "available", ["10.0.0.9"], 3, 5⟩

def unused : System := ⟨front, ⟨empty, empty⟩, []⟩

theorem unused_inSync : unused.InSync where
  last _ _ _ h := nomatch h
  none _ _ _ := rfl
  fresh _ h := nomatch h

def alice : MemberShip := ⟨1, "alice", 2, "alice", .owner⟩

def web (ssl : Bool) : List Request :=
  [.createListener alice "web" "http" "" "" 80 1, .createBackend alice 1 "b1" "192.168.1.10:80" ssl 2]

theorem haproxy_follows_alice
    : unused.InSync ∧
      ∃ t, Run (Guarded System.Allowed System.Step) unused
          (web false ++ [.createBackend alice 1 "b2" "192.168.1.12:80" false 3, .deleteBackend alice 1 1]) t ∧
        lastConfig 5 t.sent = some
          ⟨[⟨"lb-1-lsn-1", "http", "", "", 80, [⟨"192.168.1.12:80", "available", false⟩]⟩], ["10.0.0.9"]⟩ ∧
        t.Served ∧ t.Followed ∧ Recoverable t 5 false ∧
        ∃ commands c, recoverLoadbalancer t.db t.lb 5 false = .ok commands ∧
          commands.filterMap (Command.configFor 5) = [c] ∧ Lists t.lb c (t.db.load t.lb) := by
  refine ⟨unused_inSync, Run.exists_of_checked
    (fun t => lastConfig 5 t.sent = some
        ⟨[⟨"lb-1-lsn-1", "http", "", "", 80, [⟨"192.168.1.12:80", "available", false⟩]⟩], ["10.0.0.9"]⟩ ∧
      5 ∈ t.lb.hypers ∧ t.lb.status = "available" ∧ (∀ b ∈ t.db.backends, b.ssl = false) ∧
      ∀ l ∈ t.db.load t.lb, l.backends ≠ [])
    (by decide +kernel) ?_⟩
  intro t hrun ⟨hlast, haffected, havailable, hplain, hserved⟩
  have hrec : Recoverable t 5 false := ⟨haffected, havailable, hplain, by simp⟩
  have ⟨hfollowed, hrecover⟩ := haproxy_follows unused_inSync hrun hserved
  have ⟨commands, c, hok, hconfig, hlists, _⟩ := hrecover 5 false hrec
  exact ⟨hlast, hserved, hfollowed, hrec, commands, c, hok, hconfig, hlists⟩

theorem haproxy_not_followed
    : unused.InSync ∧
      ∃ t, Run System.Step unused (web true ++ [.updateBackend alice 1 1 "192.168.1.11:80"]) t ∧
        lastConfig 3 t.sent = some
          ⟨[⟨"lb-1-lsn-1", "http", "", "", 80, [⟨"192.168.1.10:80", "available", true⟩]⟩], ["10.0.0.9"]⟩ ∧
        t.db.backends.rows = [⟨1, 2, "b1", 1, "192.168.1.11:80", "available", true, 2⟩] ∧ t.Served ∧
        ¬t.Followed ∧ ∃ commands c, recoverLoadbalancer t.db t.lb 3 false = .ok commands ∧
          commands.filterMap (Command.configFor 3) = [c] ∧ ¬Lists t.lb c (t.db.load t.lb) := by
  refine ⟨unused_inSync, Run.exists_of_foldlM
    (fun t => t.lb = front ∧ lastConfig 3 t.sent = some
        ⟨[⟨"lb-1-lsn-1", "http", "", "", 80, [⟨"192.168.1.10:80", "available", true⟩]⟩], ["10.0.0.9"]⟩ ∧
      t.db.backends.rows = [⟨1, 2, "b1", 1, "192.168.1.11:80", "available", true, 2⟩] ∧
      t.db.load t.lb = [⟨⟨1, 2, "web", "http", 80, 1, "", "", 1⟩,
        [⟨1, 2, "b1", 1, "192.168.1.11:80", "available", true, 2⟩]⟩] ∧
      recoverLoadbalancer t.db t.lb 3 false = .ok
        [.setVrrpIp 3 "MASTER", .createKeepalivedConf 3 [80], .createHaproxyConf [3]
            ⟨[⟨"lb-1-lsn-1", "http", "", "", 80, [⟨"192.168.1.11:80", "available", false⟩]⟩], ["10.0.0.9"]⟩,
          .createLbFloating 3 "10.0.0.9"])
    (by decide +kernel) ?_⟩
  intro t _ ⟨hlb, hlast, hrows, hload, hrecover⟩
  have hshown : ∀ c, Lists t.lb c (t.db.load t.lb) → ∃ e, c.listeners = [e] ∧
      e.backends.Perm [⟨"192.168.1.11:80", "available", true⟩] := by
    intro c hc
    have hlisteners := hc.listeners
    rw [hload] at hlisteners
    generalize c.listeners = es at hlisteners ⊢
    cases hlisteners with
    | cons hshows hrest =>
      cases hrest
      exact ⟨_, rfl, hshows.backends⟩
  refine ⟨hlast, hrows, by simp [System.Served, hload], ?_, _, _, hrecover, rfl, ?_⟩
  . intro hfollowed
    have hlists := hfollowed 3 (by rw [hlb]; decide)
    rw [hlast] at hlists
    have ⟨e, he, hperm⟩ := hshown _ hlists
    cases he
    exact absurd hperm (by decide)
  . intro hlists
    have ⟨e, he, hperm⟩ := hshown _ hlists
    cases he
    exact absurd hperm (by decide)

end Example

end Web.LoadBalancer
