import Mathlib.Data.List.Nodup
import Cloudland.Lib.Run
import Cloudland.Web.Alarm.Model

/-!
The link table is a picture of the anchors: when it stays one, and what is recovered from it.
-/

namespace Web.Alarm

open List Option Check

structure Key where
  ruleType : RuleType
  ruleUUID : String
  vm : String
  interface : String
  deriving DecidableEq

def Labels.key (l : Labels) : Key := ⟨l.anchorType.ruleType, l.ruleUUID, l.instanceID, l.targetDevice.getD ""⟩

def Link.key (link : Link) : Key := ⟨link.ruleType, link.ruleUUID, link.vmUUID, link.interface⟩

def Active (s : State) (l : Labels) (v : Rat) : Prop := s.store l = some v ∧ 0 < v

structure Agrees (s : State) : Prop where
  once : (s.links.map Link.key).Nodup
  row : ∀ l v, Active s l v → ∃ link ∈ s.links, link.key = l.key ∧ link.threshold = v ∧ link.tenantID = l.tenantID
  anchor : ∀ link ∈ s.links, ∃ l v, Active s l v ∧ l.key = link.key
  single : ∀ l v l' v', Active s l v → Active s l' v' → l.key = l'.key → l = l'

def Recovers (rules : Rules) (s : State) : Prop :=
  ∀ metadata : Metadata, (∀ l v, Active s l v → metadata.find l.instanceID = some (l.domain, l.region)) →
    recoverAnchorThresholds rules metadata s.links (fun _ => none) = fun l => (s.store l).filter (0 < ·)

def Follows (rules : Rules) (s : State) : Prop := Agrees s ∧ Recovers rules s

def LinkRequest.key (req : LinkRequest) (vm : VM) : Key := ⟨req.ruleType, req.ruleUUID, vm.instanceID, vm.interface⟩

structure LinkRequest.Allowed (s : State) (req : LinkRequest) : Prop where
  positive : 0 < req.threshold
  interface : req.ruleType ≠ .bandwidth → ∀ vm ∈ req.vms, vm.interface = ""
  nodup : req.vms.Nodup
  fresh : ∀ vm ∈ req.vms, ∀ link ∈ s.links, link.key ≠ req.key vm

def UnlinkRequest.Allowed (s : State) (req : UnlinkRequest) : Prop :=
  ∀ link ∈ s.links, link.ruleUUID = req.ruleUUID → (∃ vm ∈ req.vms, vm.instanceID = link.vmUUID) →
    link.ruleType = req.ruleType ∧ ⟨link.vmUUID, link.interface⟩ ∈ req.vms

def Allowed (rules : Rules) (s : State) (req : Request) : Prop :=
  (exec rules s req).toOption.isSome →
    match req with
    | .link req => req.Allowed s
    | .unlink req => req.Allowed s

structure Inv (rules : Rules) (s : State) : Prop extends Agrees s where
  positive : ∀ l v, s.store l = some v → 0 < v
  rule : ∀ l v, Active s l v →
    ∃ rule, rules.find l.ruleUUID l.anchorType.ruleType = some (rule, l.anchorType) ∧ l.owner = rule.owner
  device : ∀ l v, Active s l v → (l.targetDevice.isSome ↔ l.anchorType.ruleType = .bandwidth)
  owner : ∀ link ∈ s.links, ∃ rule t, rules.find link.ruleUUID link.ruleType = some (rule, t) ∧
    link.owner = rule.owner
  named : ∀ link ∈ s.links, link.vmUUID ≠ ""

section Store

variable {t : AnchorType} {l : Labels} {store : Store}

theorem write_of_not_mem (h : ∀ inst ∈ insts, inst.labels t ≠ l)
    : writeAnchorThresholdBatch t insts store l = store l := by
  unfold writeAnchorThresholdBatch
  induction insts generalizing store with
  | nil => rfl
  | cons inst insts ih =>
    rw [foldl_cons, ih (fun i hi => h i (mem_cons_of_mem _ hi)),
      Function.update_of_ne (h inst (by simp)).symm]

theorem write_of_mem (hmem : ∃ inst ∈ insts, inst.labels t = l)
    (h : ∀ inst ∈ insts, inst.labels t = l → inst.threshold = v)
    : writeAnchorThresholdBatch t insts store l = some v := by
  induction insts generalizing store with
  | nil => simp at hmem
  | cons inst insts ih =>
    by_cases hrest : ∃ inst ∈ insts, inst.labels t = l
    . exact ih hrest (fun i hi => h i (mem_cons_of_mem _ hi))
    . have hinst : inst.labels t = l := by
        have ⟨i, hi, hl⟩ := hmem
        obtain heq | hi := mem_cons.mp hi
        . exact heq ▸ hl
        . exact absurd ⟨i, hi, hl⟩ hrest
      have hnot : ∀ i ∈ insts, i.labels t ≠ l := fun i hi hl => hrest ⟨i, hi, hl⟩
      show writeAnchorThresholdBatch t insts (Function.update store (inst.labels t) (some inst.threshold)) l = some v
      rw [write_of_not_mem hnot, hinst, Function.update_self, h inst (by simp) hinst]

theorem delete_eq {vms : List VM}
    : vms.foldl (fun store vm => deleteAnchorSeries t uuid vm.instanceID vm.interface store) store l
        =
      if ∃ vm ∈ vms, l.matches t uuid vm.instanceID vm.interface then none else store l := by
  induction vms generalizing store with
  | nil => simp
  | cons vm vms ih =>
    rw [foldl_cons, ih]
    by_cases hrest : ∃ vm ∈ vms, l.matches t uuid vm.instanceID vm.interface
    . have ⟨vm', hmem, hl⟩ := hrest
      rw [if_pos hrest, if_pos ⟨vm', mem_cons_of_mem _ hmem, hl⟩]
    . rw [if_neg hrest, deleteAnchorSeries]
      congr 1
      simp only [mem_cons, exists_eq_or_imp, hrest, or_false]

end Store

theorem checkInterfaces_eq_ok
    : checkInterfaces ruleType vms = .ok u ↔ (ruleType = .bandwidth → ∀ vm ∈ vms, vm.interface ≠ "") := by
  unfold checkInterfaces
  split
  . next hbw =>
    cases hidx : vms.findIdx? (fun vm => vm.interface = "") with
    | some idx =>
      have ⟨vm, hmem, hnone⟩ := findIdx?_isSome.symm.trans (congrArg isSome hidx) |> any_eq_true.mp
      simp only [reduceCtorEq, false_iff, not_forall]
      exact ⟨hbw, vm, hmem, fun hne => hne (by simpa using hnone)⟩
    | none =>
      rw [findIdx?_eq_none_iff] at hidx
      simpa [hbw] using hidx
  . next hbw => simp [hbw]

theorem foldl_filter (c : α → Bool) (p : α → β → Bool) (l : List α) (xs : List β)
    : l.foldl (fun xs a => if c a then xs.filter (p a) else xs) xs
        =
      xs.filter (fun x => l.all (fun a => !c a || p a x)) := by
  induction l generalizing xs with
  | nil => simp
  | cons a l ih =>
    rw [foldl_cons, ih]
    cases hc : c a with
    | false => simp [hc]
    | true =>
      simp only [if_true, List.filter_filter, List.all_cons, hc, Bool.not_true, Bool.false_or, Bool.and_comm]

def UnlinkRequest.Keeps (req : UnlinkRequest) (link : Link) : Prop :=
  ¬(link.ruleUUID = req.ruleUUID ∧ ∃ vm ∈ req.vms, vm.instanceID = link.vmUUID)

instance (req : UnlinkRequest) (link : Link) : Decidable (req.Keeps link) := inferInstanceAs (Decidable (¬_))

theorem unlink_links (req : UnlinkRequest) (hnamed : ∀ link ∈ links, link.vmUUID ≠ "")
    : (getVMRuleLinks req.ruleUUID links).foldl
        (fun links link =>
          if req.vms.any (fun vm => link.vmUUID = vm.instanceID) then
            deleteVMRuleLink req.ruleUUID link.vmUUID link.interface links
          else
            links) links
        =
      links.filter (fun link => req.Keeps link) := by
  unfold deleteVMRuleLink
  rw [foldl_filter]
  apply List.filter_congr
  intro x hx
  rw [Bool.eq_iff_iff, decide_eq_true_eq, List.all_eq_true]
  constructor
  . intro hall ⟨huuid, vm, hvm, hid⟩
    have hself := hall x (mem_filter.mpr ⟨hx, by simpa using huuid⟩)
    simp only [Bool.or_eq_true, Bool.not_eq_true', List.any_eq_false, decide_eq_true_eq, huuid, implies_true,
      and_self, not_true] at hself
    exact hself.elim (fun hnot => hnot vm hvm hid.symm) False.elim
  . intro hkeeps link hlink
    have ⟨hlink, huuid⟩ := List.mem_filter.mp hlink
    rw [Bool.or_eq_true, decide_eq_true_eq, Bool.not_eq_true', List.any_eq_false]
    by_cases hnamed' : ∃ vm ∈ req.vms, link.vmUUID = vm.instanceID
    . have ⟨vm, hvm, hid⟩ := hnamed'
      refine .inr ?_
      intro ⟨hxuuid, hxvm, _⟩
      exact hkeeps ⟨hxuuid, vm, hvm, by rw [← hid, hxvm (hnamed link hlink)]⟩
    . refine .inl ?_
      intro vm hvm hid
      exact hnamed' ⟨vm, hvm, by simpa using hid⟩

structure Unlinked (rules : Rules) (s : State) (req : UnlinkRequest) (t : AnchorType) (s' : State) : Prop where
  type : anchorTypeOf rules req.ruleUUID req.ruleType = some t
  interfaces : req.ruleType = .bandwidth → ∀ vm ∈ req.vms, vm.interface ≠ ""
  store : ∀ l, s'.store l =
    if ∃ vm ∈ req.vms, l.matches t req.ruleUUID vm.instanceID vm.interface then none else s.store l
  links : s'.links = s.links.filter (fun link => req.Keeps link)

theorem unlink_eq_ok {s : State}
    (hnamed : ∀ link ∈ s.links, link.vmUUID ≠ "") (h : unlinkVMsFromRule rules req s = .ok s')
    : ∃ t, Unlinked rules s req t s' := by
  unfold unlinkVMsFromRule at h
  simp only [bind_eq_ok, require_eq_ok, found_eq_ok, checkInterfaces_eq_ok] at h
  obtain ⟨_, _, t, ht, _, hinterfaces, h⟩ := h
  cases h
  exact ⟨t, ht, hinterfaces, fun l => delete_eq, unlink_links req hnamed⟩

theorem mapM_zipIdx {vms : List VM} {find : String → Option (String × String)}
    {f : VM → String × String → AnchorInstance} (h : (vms.zipIdx n).mapM (fun (vm, idx) =>
      match find vm.instanceID with
      | some info => Except.ok (f vm info)
      | none => .error (Failure.noMetadata idx vm.instanceID)) = .ok insts)
    : insts = vms.map (fun vm => f vm ((find vm.instanceID).getD ("", ""))) ∧
      ∀ vm ∈ vms, (find vm.instanceID).isSome := by
  induction vms generalizing n insts with
  | nil =>
    cases h
    simp
  | cons vm vms ih =>
    simp only [zipIdx_cons, mapM_cons, bind_eq_ok] at h
    obtain ⟨inst, hinst, rest, hrest, h⟩ := h
    obtain ⟨hmap, hall⟩ := ih hrest
    cases h
    cases hfind : find vm.instanceID with
    | none => simp [hfind] at hinst
    | some info =>
      simp only [hfind, Except.ok.injEq] at hinst
      constructor
      . rw [map_cons, hmap, hfind, ← hinst]
        rfl
      . intro vm' hvm'
        obtain heq | hmem := mem_cons.mp hvm'
        . rw [heq, hfind]; rfl
        . exact hall vm' hmem

def LinkRequest.labels (req : LinkRequest) (rule : Rule) (t : AnchorType) (vm : VM) : Labels :=
  (req.anchorInstance rule vm ((req.metadata.find vm.instanceID).getD ("", ""))).labels t

structure Linked (rules : Rules) (s : State) (req : LinkRequest) (rule : Rule) (t : AnchorType) (s' : State)
    : Prop where
  find : rules.find req.ruleUUID req.ruleType = some (rule, t)
  some : req.vms ≠ []
  interfaces : req.ruleType = .bandwidth → ∀ vm ∈ req.vms, vm.interface ≠ ""
  ids : ∀ vm ∈ req.vms, vm.instanceID ≠ ""
  store : ∀ l, s'.store l = if ∃ vm ∈ req.vms, req.labels rule t vm = l then .some req.threshold else s.store l
  links : s'.links = s.links ++ req.vms.map (req.link rule)

theorem link_eq_ok (h : linkVMsToRule rules req s = .ok s') : ∃ rule t, Linked rules s req rule t s' := by
  unfold linkVMsToRule at h
  simp only [bind_eq_ok, require_eq_ok, found_eq_ok, checkInterfaces_eq_ok] at h
  obtain ⟨_, hbound, ⟨rule, t⟩, hrule, _, hinterfaces, insts, hinsts, h⟩ := h
  obtain ⟨hmap, hsome⟩ := mapM_zipIdx hinsts
  cases h
  refine ⟨rule, t, hrule, hbound.2.2.2.2, hinterfaces, ?_, ?_, rfl⟩
  . intro vm hvm hid
    have hfind := hsome vm hvm
    rw [hid, req.metadata.named] at hfind
    contradiction
  . intro l
    rw [hmap]
    split
    . next hmem =>
      obtain ⟨vm, hvm, hl⟩ := hmem
      apply write_of_mem
      . exact ⟨_, mem_map_of_mem hvm, hl⟩
      . intro inst hinst _
        obtain ⟨_, _, rfl⟩ := List.mem_map.mp hinst
        rfl
    . next hmem =>
      apply write_of_not_mem
      intro inst hinst hl
      obtain ⟨vm, hvm, heq⟩ := List.mem_map.mp hinst
      exact hmem ⟨vm, hvm, by rw [← hl, ← heq]; rfl⟩

section Steps

variable {rules : Rules} {s s' : State}

theorem Inv.active (h : Inv rules s) (hl : s.store l = some v) : Active s l v :=
  ⟨hl, h.positive l v hl⟩

theorem anchorTypeOf_of_find (h : rules.find uuid ruleType = some (rule, t))
    : anchorTypeOf rules uuid ruleType = some t := by
  cases ruleType
  all_goals
    obtain ⟨_, hrule, heq⟩ := map_eq_some_iff.mp h
    cases heq
    simp [anchorTypeOf, hrule]

theorem anchorTypeOf_ruleType (h : anchorTypeOf rules uuid ruleType = some t)
    : t.ruleType = ruleType := by
  cases ruleType with
  | cpu =>
    cases h
    rfl
  | memory =>
    cases h
    rfl
  | bandwidth =>
    obtain ⟨rule, _, rfl⟩ := map_eq_some_iff.mp h
    rw [BandwidthRule.anchorType]
    split <;> rfl

theorem find_ruleType (h : rules.find uuid ruleType = some (rule, t))
    : t.ruleType = ruleType :=
  anchorTypeOf_ruleType (anchorTypeOf_of_find h)

theorem Agrees.eq_of_key (h : Agrees s) (hlink : link ∈ s.links) (hlink' : link' ∈ s.links)
    (hkey : link.key = link'.key)
    : link = link' :=
  inj_on_of_nodup_map h.once hlink hlink' hkey

theorem LinkRequest.eq_of_key (req : LinkRequest) (h : req.key vm = req.key vm') : vm = vm' := by
  cases vm
  cases vm'
  simpa [LinkRequest.key] using h

namespace Linked

variable {req : LinkRequest} {rule : Rule} {t : AnchorType}

section Linked

variable (hl : Linked rules s req rule t s')

include hl

theorem device (vm : VM)
    : (req.labels rule t vm).targetDevice = if req.ruleType = .bandwidth then .some vm.interface else none := by
  have htype := find_ruleType hl.find
  simp only [LinkRequest.labels, AnchorInstance.labels, htype]
  rfl

theorem key_labels
    (hinterface : req.ruleType ≠ .bandwidth → ∀ vm ∈ req.vms, vm.interface = "") (hvm : vm ∈ req.vms)
    : (req.labels rule t vm).key = req.key vm := by
  have hdevice : (req.labels rule t vm).targetDevice.getD "" = vm.interface := by
    rw [hl.device]
    split
    . rfl
    . next hbw => exact (hinterface hbw vm hvm).symm
  have htype := find_ruleType hl.find
  rw [Labels.key, hdevice]
  exact congrArg (fun ruleType => (⟨ruleType, req.ruleUUID, vm.instanceID, vm.interface⟩ : Key)) htype

theorem mem_links : link ∈ s'.links ↔ link ∈ s.links ∨ ∃ vm ∈ req.vms, req.link rule vm = link := by
  rw [hl.links, mem_append, List.mem_map]

theorem store_cases (h : s'.store l = .some v)
    : (∃ vm ∈ req.vms, req.labels rule t vm = l ∧ v = req.threshold) ∨ s.store l = .some v := by
  rw [hl.store] at h
  split at h
  . next hmem =>
    have ⟨vm, hvm, heq⟩ := hmem
    exact .inl ⟨vm, hvm, heq, (some.inj h).symm⟩
  . exact .inr h

theorem allowed_of_agrees (hinv : Inv rules s) (h : Agrees s') : req.Allowed s := by
  have honce := h.once
  rw [hl.links, List.map_append, List.map_map, List.nodup_append] at honce
  have ⟨_, hnodup, hdisjoint⟩ := honce
  have hanchor : ∀ vm ∈ req.vms, ∃ l v, Active s' l v ∧ l.key = req.key vm ∧ v = req.threshold := by
    intro vm hvm
    have hmem := hl.mem_links.mpr (.inr ⟨vm, hvm, rfl⟩)
    have ⟨l, v, hactive, hkey⟩ := h.anchor _ hmem
    have ⟨link, hlink, hkey', hv, _⟩ := h.row l v hactive
    have heq := h.eq_of_key hlink hmem (hkey'.trans hkey)
    exact ⟨l, v, hactive, hkey, by rw [← hv, heq]; rfl⟩
  constructor
  case positive =>
    have ⟨vm, hvm⟩ := exists_mem_of_ne_nil _ hl.some
    have ⟨l, v, hactive, _, hv⟩ := hanchor vm hvm
    exact hv ▸ hactive.2
  case interface =>
    intro hbw vm hvm
    have ⟨l, v, hactive, hkey, _⟩ := hanchor vm hvm
    have htype : l.anchorType.ruleType = req.ruleType := congrArg Key.ruleType hkey
    have hdevice : l.targetDevice = none := by
      obtain ⟨vm', _, rfl, _⟩ | hold := hl.store_cases hactive.1
      . rw [hl.device, if_neg hbw]
      . have hiff := hinv.device l v (hinv.active hold)
        rw [htype] at hiff
        exact Option.not_isSome_iff_eq_none.mp (fun hsome => hbw (hiff.mp hsome))
    have hinterface := congrArg Key.interface hkey
    simp only [Labels.key, hdevice, Option.getD_none, LinkRequest.key] at hinterface
    exact hinterface.symm
  case nodup => exact List.Nodup.of_map _ hnodup
  case fresh =>
    intro vm hvm link hlink hkey
    exact hdisjoint _ (mem_map_of_mem hlink) _ (mem_map_of_mem hvm) hkey

theorem fresh_labels (hinv : Inv rules s) (h : req.Allowed s)
    (hold : s.store l = .some v) (hvm : vm ∈ req.vms)
    : l.key ≠ (req.labels rule t vm).key := by
  have ⟨link, hlink, hkey, _⟩ := hinv.row l v (hinv.active hold)
  rw [hl.key_labels h.interface hvm, ← hkey]
  exact h.fresh vm hvm link hlink

theorem labels_eq_of_key (h : req.Allowed s) (hvm : vm ∈ req.vms)
    (hvm' : vm' ∈ req.vms) (hkey : (req.labels rule t vm).key = (req.labels rule t vm').key)
    : req.labels rule t vm = req.labels rule t vm' := by
  rw [hl.key_labels h.interface hvm, hl.key_labels h.interface hvm'] at hkey
  rw [req.eq_of_key hkey]

theorem inv (hinv : Inv rules s) (h : req.Allowed s) : Inv rules s' := by
  have hpositive : ∀ l v, s'.store l = .some v → 0 < v := by
    intro l v hstore
    obtain ⟨_, _, _, rfl⟩ | hold := hl.store_cases hstore
    . exact h.positive
    . exact hinv.positive l v hold
  have hnew : ∀ vm ∈ req.vms, Active s' (req.labels rule t vm) req.threshold := by
    intro vm hvm
    refine ⟨?_, h.positive⟩
    rw [hl.store, if_pos ⟨vm, hvm, rfl⟩]
  refine ⟨⟨?_, ?_, ?_, ?_⟩, hpositive, ?_, ?_, ?_, ?_⟩
  . -- once
    rw [hl.links, map_append, List.map_map, nodup_append]
    refine ⟨hinv.once, h.nodup.map ?_, ?_⟩
    . exact fun _ _ => req.eq_of_key
    . intro key hkey key' hkey' heq
      have ⟨link, hlink, hlinkKey⟩ := List.mem_map.mp hkey
      have ⟨vm, hvm, hvmKey⟩ := List.mem_map.mp hkey'
      exact h.fresh vm hvm link hlink (hlinkKey.trans (heq.trans hvmKey.symm))
  . -- row
    intro l v hactive
    obtain ⟨vm, hvm, rfl, rfl⟩ | hold := hl.store_cases hactive.1
    . exact ⟨req.link rule vm, hl.mem_links.mpr (.inr ⟨vm, hvm, rfl⟩), (hl.key_labels h.interface hvm).symm, rfl, rfl⟩
    . obtain ⟨link, hlink, hrow⟩ := hinv.row l v (hinv.active hold)
      exact ⟨link, hl.mem_links.mpr (.inl hlink), hrow⟩
  . -- anchor
    intro link hlink
    obtain hold | ⟨vm, hvm, rfl⟩ := hl.mem_links.mp hlink
    . obtain ⟨l, v, hactive, hkey⟩ := hinv.anchor link hold
      refine ⟨l, v, ⟨?_, hactive.2⟩, hkey⟩
      rw [hl.store, if_neg]
      . exact hactive.1
      . rintro ⟨vm, hvm, rfl⟩
        exact hl.fresh_labels hinv h hactive.1 hvm rfl
    . exact ⟨_, _, hnew vm hvm, hl.key_labels h.interface hvm⟩
  . -- single
    intro l v l' v' hactive hactive' hkey
    obtain ⟨vm, hvm, rfl, _⟩ | hold := hl.store_cases hactive.1
    . obtain ⟨vm', hvm', rfl, _⟩ | hold' := hl.store_cases hactive'.1
      . exact hl.labels_eq_of_key h hvm hvm' hkey
      . exact absurd hkey.symm (hl.fresh_labels hinv h hold' hvm)
    . obtain ⟨vm', hvm', rfl, _⟩ | hold' := hl.store_cases hactive'.1
      . exact absurd hkey (hl.fresh_labels hinv h hold hvm')
      . exact hinv.single l v l' v' (hinv.active hold) (hinv.active hold') hkey
  . -- rule
    intro l v hactive
    obtain ⟨vm, hvm, rfl, _⟩ | hold := hl.store_cases hactive.1
    . refine ⟨rule, ?_, rfl⟩
      show rules.find req.ruleUUID t.ruleType = .some (rule, t)
      rw [find_ruleType hl.find, hl.find]
    . exact hinv.rule l v (hinv.active hold)
  . -- device
    intro l v hactive
    obtain ⟨vm, hvm, rfl, _⟩ | hold := hl.store_cases hactive.1
    . rw [hl.device]
      show _ ↔ t.ruleType = .bandwidth
      rw [find_ruleType hl.find]
      split
      . next hbw => simp [hbw]
      . next hbw => simp [hbw]
    . exact hinv.device l v (hinv.active hold)
  . -- owner
    intro link hlink
    obtain hold | ⟨vm, hvm, rfl⟩ := hl.mem_links.mp hlink
    . exact hinv.owner link hold
    . exact ⟨rule, t, hl.find, rfl⟩
  . -- named
    intro link hlink
    obtain hold | ⟨vm, hvm, rfl⟩ := hl.mem_links.mp hlink
    . exact hinv.named link hold
    . exact hl.ids vm hvm

end Linked

end Linked

namespace Unlinked

variable {req : UnlinkRequest} {t : AnchorType}

section Unlinked

variable (hu : Unlinked rules s req t s')

include hu

theorem mem_links : link ∈ s'.links ↔ link ∈ s.links ∧ req.Keeps link := by
  rw [hu.links, mem_filter, decide_eq_true_eq]

theorem store_eq_some
    : s'.store l = some v
        ↔
      s.store l = some v ∧ ¬∃ vm ∈ req.vms, l.matches t req.ruleUUID vm.instanceID vm.interface := by
  rw [hu.store]
  split
  . next hmem => simp [hmem]
  . next hmem => simp [hmem]

theorem named_of_matches (hinv : Inv rules s) {link : Link}
    {vm : VM} (hactive : Active s l v) (hkey : l.key = link.key) (hvm : vm ∈ req.vms)
    (hl : l.matches t req.ruleUUID vm.instanceID vm.interface)
    : link.ruleType = req.ruleType ∧ ⟨link.vmUUID, link.interface⟩ ∈ req.vms := by
  have ⟨htype, huuid, hid, hdevice⟩ := hl
  have hruleType : l.anchorType.ruleType = req.ruleType := by
    rw [htype, anchorTypeOf_ruleType hu.type]
  rw [Labels.key, Link.key, Key.mk.injEq] at hkey
  have hinterface : link.interface = vm.interface := by
    by_cases hnone : vm.interface = ""
    . have hbw : req.ruleType ≠ .bandwidth := fun hbw => hu.interfaces hbw vm hvm hnone
      have hno : ¬l.targetDevice.isSome := by
        rw [hinv.device l v hactive, hruleType]
        exact hbw
      rw [← hkey.2.2.2, not_isSome_iff_eq_none.mp hno, hnone]
      rfl
    . rw [← hkey.2.2.2, hdevice hnone]
      rfl
  refine ⟨hkey.1.symm.trans hruleType, ?_⟩
  rw [← hkey.2.2.1, hid, hinterface]
  exact hvm

theorem allowed_of_agrees (hinv : Inv rules s) (h : Agrees s') : req.Allowed s := by
  intro link hlink huuid hnamed
  have ⟨l, v, hactive, hkey⟩ := hinv.anchor link hlink
  have hdeleted : ∃ vm ∈ req.vms, l.matches t req.ruleUUID vm.instanceID vm.interface := by
    apply Classical.byContradiction
    intro hnot
    have ⟨link', hlink', hkey', _⟩ := h.row l v ⟨hu.store_eq_some.mpr ⟨hactive.1, hnot⟩, hactive.2⟩
    have ⟨hlink', hkeeps⟩ := hu.mem_links.mp hlink'
    have heq := hinv.eq_of_key hlink' hlink (hkey'.trans hkey)
    rw [heq] at hkeeps
    exact hkeeps ⟨huuid, hnamed⟩
  have ⟨vm, hvm, hl⟩ := hdeleted
  exact hu.named_of_matches hinv hactive hkey hvm hl

theorem matches_of_named (hinv : Inv rules s) (h : req.Allowed s)
    (hactive : Active s l v) (hlink : link ∈ s.links) (hkey : link.key = l.key)
    (hnot : ¬req.Keeps link)
    : ∃ vm ∈ req.vms, l.matches t req.ruleUUID vm.instanceID vm.interface := by
  have ⟨huuid, hnamed⟩ := Classical.not_not.mp hnot
  have ⟨hruleType, hvm⟩ := h link hlink huuid hnamed
  have ⟨rule, hfind, _⟩ := hinv.rule l v hactive
  rw [Labels.key, Link.key, Key.mk.injEq] at hkey
  refine ⟨_, hvm, ?_, hkey.2.1.symm.trans huuid, hkey.2.2.1.symm, ?_⟩
  . have htype := anchorTypeOf_of_find hfind
    rw [← hkey.1, hruleType, ← hkey.2.1, huuid, hu.type] at htype
    exact (some.inj htype).symm
  . intro hne
    cases hdevice : l.targetDevice with
    | none =>
      rw [hdevice] at hkey
      exact absurd hkey.2.2.2 hne
    | some device =>
      rw [hdevice] at hkey
      exact congrArg some hkey.2.2.2.symm

theorem inv (hinv : Inv rules s) (h : req.Allowed s) : Inv rules s' := by
  have hold : ∀ {l v}, Active s' l v → Active s l v := fun hactive => ⟨(hu.store_eq_some.mp hactive.1).1, hactive.2⟩
  constructor
  case toAgrees =>
    constructor
    case once =>
      rw [hu.links]
      exact hinv.once.sublist (filter_sublist.map _)
    case row =>
      intro l v hactive
      have ⟨link, hlink, hkey, hrow⟩ := hinv.row l v (hold hactive)
      refine ⟨link, hu.mem_links.mpr ⟨hlink, ?_⟩, hkey, hrow⟩
      apply Classical.byContradiction
      intro hnot
      exact (hu.store_eq_some.mp hactive.1).2 (hu.matches_of_named hinv h (hold hactive) hlink hkey hnot)
    case anchor =>
      intro link hlink
      have ⟨hlink, hkeeps⟩ := hu.mem_links.mp hlink
      have ⟨l, v, hactive, hkey⟩ := hinv.anchor link hlink
      refine ⟨l, v, ⟨hu.store_eq_some.mpr ⟨hactive.1, ?_⟩, hactive.2⟩, hkey⟩
      intro ⟨vm, hvm, _, huuid, hid, _⟩
      rw [Labels.key, Link.key, Key.mk.injEq] at hkey
      exact hkeeps ⟨hkey.2.1.symm.trans huuid, vm, hvm, hid.symm.trans hkey.2.2.1⟩
    case single =>
      intro l v l' v' hactive hactive'
      exact hinv.single l v l' v' (hold hactive) (hold hactive')
  case positive => exact fun l v hl => hinv.positive l v (hu.store_eq_some.mp hl).1
  case rule => exact fun l v hactive => hinv.rule l v (hold hactive)
  case device => exact fun l v hactive => hinv.device l v (hold hactive)
  case owner => exact fun link hlink => hinv.owner link (hu.mem_links.mp hlink).1
  case named => exact fun link hlink => hinv.named link (hu.mem_links.mp hlink).1

end Unlinked

end Unlinked

section Recovery

variable {l : Labels} {recovered : List (AnchorType × AnchorInstance)} {store : Store}

def writeBatches (recovered : List (AnchorType × AnchorInstance)) (types : List AnchorType) (store : Store) : Store :=
  types.foldl (fun store t =>
    writeAnchorThresholdBatch t ((recovered.filter (fun r => r.1 = t)).map (·.2)) store) store

theorem mem_batch : inst ∈ (recovered.filter (fun r => r.1 = t)).map (·.2) ↔ (t, inst) ∈ recovered := by
  simp only [List.mem_map, mem_filter, decide_eq_true_eq]
  constructor
  . intro ⟨r, ⟨hmem, ht⟩, hinst⟩
    rwa [← ht, ← hinst]
  . intro hmem
    exact ⟨_, ⟨hmem, rfl⟩, rfl⟩

theorem writeBatches_of_not_mem (h : ∀ t ∈ types, ∀ inst, (t, inst) ∈ recovered → inst.labels t ≠ l)
    : writeBatches recovered types store l = store l := by
  unfold writeBatches
  induction types generalizing store with
  | nil => rfl
  | cons t types ih =>
    rw [foldl_cons, ih (fun t' ht' => h t' (mem_cons_of_mem _ ht'))]
    apply write_of_not_mem
    intro inst hinst
    exact h t (by simp) inst (mem_batch.mp hinst)

theorem writeBatches_of_mem (htype : l.anchorType ∈ types)
    (hmem : ∃ inst, (l.anchorType, inst) ∈ recovered ∧ inst.labels l.anchorType = l)
    (h : ∀ inst, (l.anchorType, inst) ∈ recovered → inst.labels l.anchorType = l → inst.threshold = v)
    : writeBatches recovered types store l = some v := by
  induction types generalizing store with
  | nil => contradiction
  | cons t types ih =>
    by_cases hrest : l.anchorType ∈ types
    . exact ih hrest
    . have ht : t = l.anchorType := ((mem_cons.mp htype).resolve_right hrest).symm
      show writeBatches recovered types
        (writeAnchorThresholdBatch t ((recovered.filter (fun r => r.1 = t)).map (·.2)) store) l = some v
      rw [writeBatches_of_not_mem, ht]
      . have ⟨inst, hinst, hl⟩ := hmem
        exact write_of_mem ⟨inst, mem_batch.mpr hinst, hl⟩ (fun inst hinst => h inst (mem_batch.mp hinst))
      . -- the labels of a batch are of its own kind
        intro t' ht' inst _ hl
        rw [← hl] at hrest
        exact hrest ht'

theorem recoverLink_eq (hinv : Inv rules s) (hlink : link ∈ s.links)
    (hmeta : ∀ l v, Active s l v → metadata.find l.instanceID = some (l.domain, l.region))
    : ∃ l inst, Active s l inst.threshold ∧ l.key = link.key ∧ inst.labels l.anchorType = l ∧
        recoverLink rules metadata link = some (l.anchorType, inst) := by
  have ⟨l, v, hactive, hkey⟩ := hinv.anchor link hlink
  have ⟨link', hlink', hkey', hv, htenant⟩ := hinv.row l v hactive
  have heq := hinv.eq_of_key hlink' hlink (hkey'.trans hkey)
  rw [heq] at hv htenant
  have ⟨rule, hfind, howner⟩ := hinv.rule l v hactive
  have ⟨rule', t, hfind', howner'⟩ := hinv.owner link hlink
  have hparts := hkey
  rw [Labels.key, Link.key, Key.mk.injEq] at hparts
  have hrules : rule = rule' := by
    rw [hparts.1, hparts.2.1, hfind'] at hfind
    exact (Prod.mk.inj (some.inj hfind)).1.symm
  refine ⟨l, ⟨link.ruleUUID, l.region, l.domain, link.vmUUID, link.interface, link.owner, link.tenantID,
    link.threshold⟩, hv ▸ hactive, hkey, ?_, ?_⟩
  . have hdevice : (if l.anchorType.ruleType = .bandwidth then some link.interface else none) = l.targetDevice := by
      have hiff := hinv.device l v hactive
      cases hl : l.targetDevice with
      | none =>
        rw [hl] at hiff
        rw [if_neg (fun hbw => by simp [hbw] at hiff)]
      | some device =>
        rw [hl] at hiff hparts
        rw [if_pos (hiff.mp rfl), ← hparts.2.2.2]
        rfl
    rw [AnchorInstance.labels, hdevice, ← hparts.2.1, ← hparts.2.2.1, howner', htenant, ← hrules, ← howner]
  . have htype := anchorTypeOf_of_find hfind
    rw [hparts.1, hparts.2.1] at htype
    have hfound := hmeta l v hactive
    rw [hparts.2.2.1] at hfound
    rw [recoverLink, if_neg (by rw [hv]; exact Rat.not_le.mpr hactive.2), htype, hfound]
    rfl

theorem Inv.recovers (hinv : Inv rules s) : Recovers rules s := by
  intro metadata hmeta
  funext l
  show writeBatches (s.links.filterMap (recoverLink rules metadata)) [.cpu, .mem, .bwIn, .bwOut] (fun _ => none) l = _
  have hmem : ∀ t inst, (t, inst) ∈ s.links.filterMap (recoverLink rules metadata) → inst.labels t = l →
      s.store l = some inst.threshold := by
    intro t inst hrec hl
    have ⟨link, hlink, hrec⟩ := mem_filterMap.mp hrec
    have ⟨l', inst', hactive, _, hlabels, hrec'⟩ := recoverLink_eq hinv hlink hmeta
    rw [hrec', some.injEq, Prod.mk.injEq] at hrec
    rw [← hl, ← hrec.1, ← hrec.2, hlabels]
    exact hactive.1
  cases hstore : s.store l with
  | none =>
    rw [writeBatches_of_not_mem]
    . rfl
    . intro t _ inst hrec hl
      have hsome := hmem t inst hrec hl
      rw [hstore] at hsome
      contradiction
  | some v =>
    have hactive := hinv.active hstore
    have ⟨link, hlink, hkey, _⟩ := hinv.row l v hactive
    have ⟨l', inst, hactive', hkey', hlabels, hrec⟩ := recoverLink_eq hinv hlink hmeta
    have heq := hinv.single l' _ l v hactive' hactive (hkey'.trans hkey)
    rw [heq] at hlabels hrec
    have hpositive : Option.filter (fun v => decide (0 < v)) (some v) = some v := by
      simpa using hactive.2
    rw [hpositive]
    apply writeBatches_of_mem
    . cases l.anchorType <;> simp
    . exact ⟨inst, mem_filterMap.mpr ⟨link, hlink, hrec⟩, hlabels⟩
    . intro inst' hrec' hl
      have hsome := hmem _ inst' hrec' hl
      rw [hstore] at hsome
      exact (some.inj hsome).symm

end Recovery

theorem Inv.follows (hinv : Inv rules s) : Follows rules s := ⟨hinv.toAgrees, hinv.recovers⟩

theorem allowed_step (hinv : Inv rules s) (req : Request)
    : (Follows rules (next rules s req) ↔ Allowed rules s req) ∧
      (Allowed rules s req → Inv rules (next rules s req)) := by
  cases hexec : exec rules s req with
  | error e =>
    have hsame : next rules s req = s := by rw [next, hexec]
    have hallowed : Allowed rules s req := by
      intro hsome
      simp [hexec, Except.toOption] at hsome
    rw [hsame]
    exact ⟨⟨fun _ => hallowed, fun _ => hinv.follows⟩, fun _ => hinv⟩
  | ok s' =>
    have hnext : next rules s req = s' := by rw [next, hexec]
    have hsome : (exec rules s req).toOption.isSome := by rw [hexec]; rfl
    rw [hnext]
    cases req with
    | link req =>
      have ⟨rule, t, hl⟩ := link_eq_ok hexec
      have hstep : Allowed rules s (.link req) → Inv rules s' := fun h => hl.inv hinv (h hsome)
      exact ⟨⟨fun h _ => hl.allowed_of_agrees hinv h.1, fun h => (hstep h).follows⟩, hstep⟩
    | unlink req =>
      have ⟨t, hu⟩ := unlink_eq_ok hinv.named hexec
      have hstep : Allowed rules s (.unlink req) → Inv rules s' := fun h => hu.inv hinv (h hsome)
      exact ⟨⟨fun h _ => hu.allowed_of_agrees hinv h.1, fun h => (hstep h).follows⟩, hstep⟩

end Steps

def start : State := ⟨fun _ => none, []⟩

theorem start_inv (rules : Rules) : Inv rules start := by
  have hnone : ∀ l v, ¬Active start l v := fun _ _ hactive => by simp [Active, start] at hactive
  constructor
  case toAgrees =>
    exact ⟨by simp [start], fun l v h => absurd h (hnone l v), by simp [start], fun l v _ _ h => absurd h (hnone l v)⟩
  case positive => simp [start]
  case rule => exact fun l v h => absurd h (hnone l v)
  case device => exact fun l v h => absurd h (hnone l v)
  case owner => simp [start]
  case named => simp [start]

theorem anchors_followed (rules : Rules) (reqs : List Request)
    : Along (next rules) (fun s req => Follows rules (next rules s req)) start reqs
        ↔
      Along (next rules) (Allowed rules) start reqs := by
  apply Along.iff_of_invariant (Inv rules)
  . intro s req hinv
    exact (allowed_step hinv req).1
  . intro s req hinv
    exact (allowed_step hinv req).2
  . exact start_inv rules

theorem relinked_not_followed
    : ∃ rules reqs, (reqs.foldl (next rules) start).links.map (fun link => (link.key, link.threshold))
          =
        [(⟨.cpu, "r", "vm", ""⟩, 80), (⟨.cpu, "r", "vm", ""⟩, 90)] ∧
      ¬Along (next rules) (fun s req => Follows rules (next rules s req)) start reqs := by
  let rules : Rules := ⟨fun _ => some ⟨"owner", "group"⟩, fun _ => none, fun _ => none⟩
  let metadata : Metadata := ⟨fun id => if id = "" then none else some ("inst-1", "sv6"), rfl⟩
  let req (threshold : Rat) : Request := .link ⟨"r", .cpu, "tenant", "region", threshold, [⟨"vm", ""⟩], metadata⟩
  have hlinks : ([req 80, req 90].foldl (next rules) start).links.map (fun link => (link.key, link.threshold))
      = [(⟨.cpu, "r", "vm", ""⟩, 80), (⟨.cpu, "r", "vm", ""⟩, 90)] := by
    decide +kernel
  refine ⟨rules, [req 80, req 90], hlinks, ?_⟩
  intro ⟨_, ⟨hagrees, _⟩, _⟩
  have honce : ((([req 80, req 90].foldl (next rules) start).links.map (fun link => (link.key, link.threshold))).map
      Prod.fst).Nodup := by
    rw [List.map_map]
    exact hagrees.once
  rw [hlinks] at honce
  simp at honce

end Web.Alarm
