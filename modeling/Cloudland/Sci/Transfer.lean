import Cloudland.Core.Packing
import Cloudland.Lib.CInt
import Cloudland.Sci.DGroup.Impl

/-!
The messages that carry the state of one node to another (`libsci/topology.cpp`, `libsci/dgroup.cpp`).
-/

open CInt CString OrdMap Packer
open Std (ExtTreeMap)

namespace Sci.Transfer

open List Option

abbrev BEMap := ExtTreeMap Int32 CString compare

structure Topology where
  agentID : Int32
  fanOut : Int32
  level : Int32
  height : Int32
  bePath : CString
  agentPath : CString
  beMap : BEMap

namespace Topology

def entryChunks (e : Int32 × CString) : List (List UInt8) := packInt e.1 :: strChunks e.2

variable (topo : Topology)

def chunks : List (List UInt8) :=
  [packInt topo.agentID, packInt topo.fanOut, packInt topo.level, packInt topo.height]
    ++ strChunks topo.bePath ++ strChunks topo.agentPath
    ++ [packInt (Int32.ofNat topo.beMap.size)] ++ topo.beMap.toList.flatMap entryChunks

def packMsg : Option (List UInt8) := getPackedMsg topo.chunks

def unpackEntry (beMap : BEMap) : Unpacker BEMap := do
  let id ← unpackInt
  let host ← unpackStr
  return beMap.insert id host

def unpackMsg : Unpacker Topology := do
  let agentID ← unpackInt
  let fanOut ← unpackInt
  let level ← unpackInt
  let height ← unpackInt
  let bePath ← unpackStr
  let agentPath ← unpackStr
  let beMap ← unpackLoop unpackEntry topo.beMap
  return { agentID, fanOut, level, height, bePath, agentPath, beMap }

def Transferred (sender receiver : Topology) : Prop :=
  ∃ msg topo rest, sender.packMsg = some msg ∧ receiver.unpackMsg msg = some (topo, rest) ∧
    topo.agentID = sender.agentID ∧ topo.fanOut = sender.fanOut ∧ topo.level = sender.level ∧
    topo.beMap = sender.beMap

variable {sender receiver : Topology}

theorem unpackEntry_chunks (h : (entryChunks e).flatten.length ≤ 2 ^ 30) (beMap : BEMap)
    (rest : List UInt8)
    : unpackEntry beMap ((entryChunks e).flatten ++ rest) = some (beMap.insert e.1 (cut e.2), rest) := by
  have hstr : (strChunks e.2).flatten.length ≤ 2 ^ 30 := by
    rw [entryChunks, flatten_cons, length_append] at h
    omega
  rw [unpackEntry, entryChunks, flatten_cons, append_assoc]
  simp [Unpacker.bind_apply, unpackInt_packInt, bind_some, unpackStr_strChunks hstr]

theorem unpackMsg_chunks (h : sender.chunks.flatten.length ≤ 2 ^ 30)
    : receiver.unpackMsg sender.chunks.flatten
        =
      some ({ sender with
        bePath := cut sender.bePath
        agentPath := cut sender.agentPath
        beMap := insertEach (fun _ host => some (cut host)) sender.beMap receiver.beMap }, []) := by
  have hflatten : sender.chunks.flatten
      = packInt sender.agentID ++ (packInt sender.fanOut ++ (packInt sender.level ++ (packInt sender.height ++
        ((strChunks sender.bePath).flatten ++ ((strChunks sender.agentPath).flatten ++
        (packInt (Int32.ofNat sender.beMap.toList.length) ++
        (sender.beMap.toList.flatMap (fun e => (entryChunks e).flatten) ++ []))))))) := by
    rw [ExtTreeMap.length_toList, ← flatten_flatMap]
    simp [chunks]
  rw [hflatten] at h ⊢
  simp only [length_append, length_nil] at h
  have hbody : ∀ e ∈ sender.beMap.toList, ∀ beMap rest,
      unpackEntry beMap ((entryChunks e).flatten ++ rest) = some (beMap.insert e.1 (cut e.2), rest) := by
    intro e he
    have hle := @length_le_of_mem _ (fun e => (entryChunks e).flatten) _ _ he
    exact unpackEntry_chunks (by omega)
  have hlen : sender.beMap.toList.length < 2 ^ 31 := by
    have hle := @length_le_flatMap _ (fun e => (entryChunks e).flatten) sender.beMap.toList (by
      intro e _
      simp [entryChunks, packInt])
    omega
  rw [unpackMsg]
  simp only [Unpacker.bind_apply, unpackInt_packInt, bind_some]
  rw [unpackStr_strChunks (by omega)]
  simp only [bind_some]
  rw [unpackStr_strChunks (by omega)]
  simp only [bind_some]
  rw [unpackLoop_flatMap hbody hlen]
  simp only [bind_some, Unpacker.pure_apply, insertEach, ExtTreeMap.foldl_eq_foldl_toList]
  rfl

theorem cut_eq_self_iff {value : CString} : cut value = value ↔ 0 ∉ value := by
  rw [cut, takeWhile_eq_self_iff]
  simp only [bne_iff_ne]
  exact ⟨fun h hmem => h 0 hmem rfl, fun h c hc heq => h (heq ▸ hc)⟩

theorem transferred_iff
    : sender.Transferred receiver
        ↔
      sender.chunks.flatten.length ≤ 2 ^ 30 ∧ (∀ id ∈ receiver.beMap, id ∈ sender.beMap) ∧
        ∀ e ∈ sender.beMap.toList, 0 ∉ e.2 := by
  have hbeMap := @insertEach_eq_self_iff _ _ _ _ _ cut sender.beMap receiver.beMap
  simp only [cut_eq_self_iff] at hbeMap
  rw [Transferred, packMsg, getPackedMsg_eq, ← hbeMap]
  by_cases h : sender.chunks.flatten.length ≤ 2 ^ 30
  . rw [if_pos h]
    constructor
    . intro ⟨msg, topo, rest, hmsg, hunpack, _, _, _, hbeMap⟩
      rw [← some.inj hmsg, unpackMsg_chunks h, some.injEq, Prod.mk.injEq] at hunpack
      rw [← hunpack.1] at hbeMap
      exact ⟨h, hbeMap⟩
    . intro ⟨_, hbeMap⟩
      exact ⟨_, _, _, rfl, unpackMsg_chunks h, rfl, rfl, rfl, hbeMap⟩
  . rw [if_neg h]
    constructor
    . intro ⟨_, _, _, hmsg, _⟩
      contradiction
    . intro hcase
      exact absurd hcase.1 h

end Topology

structure Groups where
  parentId : Int32
  dgroup : DistributedGroup

namespace Groups

abbrev Info := IntMap Parts

def memberChunk (i : Int) : List UInt8 := packInt (Int32.ofInt i)

def childChunks (e : Int × Group) : List (List UInt8) :=
  [packInt (Int32.ofInt e.1), packInt (Int32.ofInt e.2.size)] ++ e.2.members.map memberChunk

def groupChunks (e : Int × Parts) : List (List UInt8) :=
  [packInt (Int32.ofInt e.1), packInt (Int32.ofNat e.2.size)] ++ e.2.toList.flatMap childChunks

def chunks (groups : Groups) : List (List UInt8) :=
  [packInt groups.parentId, packInt (Int32.ofNat groups.dgroup.generalInfo.size)]
    ++ groups.dgroup.generalInfo.toList.flatMap groupChunks

def packMsg (groups : Groups) : Option (List UInt8) := getPackedMsg groups.chunks

def unpackMember (grp : Group) : Unpacker Group := do
  let i ← unpackInt
  return grp.add i.toInt

def assign (info : Info) (group child : Int) (grp : Group) : Info :=
  info.insert group ((info.getD group ∅).insert child grp)

def unpackChild (group : Int) (info : Info) : Unpacker Info := do
  let childId ← unpackInt
  let grp ← unpackLoop unpackMember ∅
  return assign info group childId.toInt grp

def unpackGroup (info : Info) : Unpacker Info := do
  let groupId ← unpackInt
  unpackLoop (unpackChild groupId.toInt) info

def unpackMsg (groups : Groups) : Unpacker Groups := do
  let parentId ← unpackInt
  let generalInfo ← unpackLoop unpackGroup groups.dgroup.generalInfo
  return ⟨parentId, { groups.dgroup with generalInfo }⟩

def InInt (info : Info) : Prop :=
  ∀ e ∈ info.toList, IsInt e.1 ∧ ∀ c ∈ e.2.toList, IsInt c.1 ∧ ∀ i ∈ c.2.members, IsInt i

instance (info : Info) : Decidable (InInt info) :=
  inferInstanceAs (Decidable (∀ e ∈ info.toList, IsInt e.1 ∧ ∀ c ∈ e.2.toList, IsInt c.1 ∧ ∀ i ∈ c.2.members, IsInt i))

def Transferred (sender receiver : Groups) : Prop :=
  ∃ msg groups rest, sender.packMsg = some msg ∧ receiver.unpackMsg msg = some (groups, rest) ∧
    groups.dgroup.generalInfo = sender.dgroup.generalInfo

variable {sender receiver : Groups}

theorem toInt_ofInt (h : IsInt i) : (Int32.ofInt i).toInt = i := Int32.toInt_ofInt_of_le h.1 h.2

theorem foldl_add_members (grp : Group) : grp.members.foldl Group.add ∅ = grp := by
  apply Group.ext_mem
  intro i
  rw [Group.mem_foldl_add, Group.mem_members]
  simp

theorem unpackMember_chunk (h : IsInt i) (grp : Group) (rest : List UInt8)
    : unpackMember grp (memberChunk i ++ rest) = some (grp.add i, rest) := by
  rw [unpackMember, memberChunk, Unpacker.bind_apply, unpackInt_packInt, bind_some, toInt_ofInt h]
  rfl

theorem unpackChild_chunks (h : (childChunks e).flatten.length ≤ 2 ^ 30) (hid : IsInt e.1)
    (hmembers : ∀ i ∈ e.2.members, IsInt i) (group : Int) (info : Info) (rest : List UInt8)
    : unpackChild group info ((childChunks e).flatten ++ rest) = some (assign info group e.1 e.2, rest) := by
  have hflatten : (childChunks e).flatten ++ rest
      = packInt (Int32.ofInt e.1) ++ (packInt (Int32.ofNat e.2.members.length) ++
        (e.2.members.flatMap memberChunk ++ rest)) := by
    have hsize : e.2.size = e.2.members.length := (RangeList.length_members e.2.wf).symm
    rw [childChunks, hsize, flatMap_def, Int32.ofInt_eq_ofNat]
    simp
  have hlen : e.2.members.length < 2 ^ 31 := by
    have hle := @length_le_flatMap _ memberChunk e.2.members (by simp [memberChunk, packInt])
    have htotal := congrArg length hflatten
    simp only [length_append] at htotal
    omega
  have hloop := @unpackLoop_flatMap _ _ unpackMember memberChunk Group.add e.2.members ∅ rest
    (fun i hi grp rest => unpackMember_chunk (hmembers i hi) grp rest) hlen
  rw [hflatten, unpackChild]
  simp only [Unpacker.bind_apply, unpackInt_packInt, bind_some, hloop, toInt_ofInt hid, foldl_add_members]
  rfl

def assignAll (info : Info) (group : Int) (parts : Parts) : Info :=
  parts.foldl (fun info child grp => assign info group child grp) info

theorem unpackGroup_chunks (h : (groupChunks e).flatten.length ≤ 2 ^ 30) (hid : IsInt e.1)
    (hparts : ∀ c ∈ e.2.toList, IsInt c.1 ∧ ∀ i ∈ c.2.members, IsInt i) (info : Info) (rest : List UInt8)
    : unpackGroup info ((groupChunks e).flatten ++ rest) = some (assignAll info e.1 e.2, rest) := by
  have hflatten : (groupChunks e).flatten ++ rest
      = packInt (Int32.ofInt e.1) ++ (packInt (Int32.ofNat e.2.toList.length) ++
        (e.2.toList.flatMap (fun c => (childChunks c).flatten) ++ rest)) := by
    rw [groupChunks, ExtTreeMap.length_toList, ← flatten_flatMap]
    simp
  have htotal := congrArg length hflatten
  simp only [length_append] at htotal
  have hlen : e.2.toList.length < 2 ^ 31 := by
    have hle := @length_le_flatMap _ (fun c => (childChunks c).flatten) e.2.toList (by simp [childChunks, packInt])
    omega
  have hbody : ∀ c ∈ e.2.toList, ∀ info rest, unpackChild e.1 info ((childChunks c).flatten ++ rest)
      = some (assign info e.1 c.1 c.2, rest) := by
    intro c hc
    have hle := @length_le_of_mem _ (fun c => (childChunks c).flatten) _ _ hc
    exact unpackChild_chunks (by omega) (hparts c hc).1 (hparts c hc).2 e.1
  rw [hflatten, unpackGroup, Unpacker.bind_apply, unpackInt_packInt, bind_some]
  rw [toInt_ofInt hid, unpackLoop_flatMap hbody hlen, assignAll, ExtTreeMap.foldl_eq_foldl_toList]

theorem unpackMsg_chunks (h : sender.chunks.flatten.length ≤ 2 ^ 30) (hint : InInt sender.dgroup.generalInfo)
    : receiver.unpackMsg sender.chunks.flatten
        =
      some (⟨sender.parentId, { receiver.dgroup with
        generalInfo := sender.dgroup.generalInfo.foldl assignAll receiver.dgroup.generalInfo }⟩, []) := by
  have hflatten : sender.chunks.flatten
      = packInt sender.parentId ++ (packInt (Int32.ofNat sender.dgroup.generalInfo.toList.length) ++
        (sender.dgroup.generalInfo.toList.flatMap (fun e => (groupChunks e).flatten) ++ [])) := by
    rw [chunks, ExtTreeMap.length_toList, ← flatten_flatMap]
    simp
  have htotal := congrArg length hflatten
  simp only [length_append] at htotal
  have hlen : sender.dgroup.generalInfo.toList.length < 2 ^ 31 := by
    have hle := @length_le_flatMap _ (fun e => (groupChunks e).flatten) sender.dgroup.generalInfo.toList
      (by simp [groupChunks, packInt])
    omega
  have hbody : ∀ e ∈ sender.dgroup.generalInfo.toList, ∀ info rest,
      unpackGroup info ((groupChunks e).flatten ++ rest) = some (assignAll info e.1 e.2, rest) := by
    intro e he
    have hle := @length_le_of_mem _ (fun e => (groupChunks e).flatten) _ _ he
    exact unpackGroup_chunks (by omega) (hint e he).1 (hint e he).2
  rw [hflatten, unpackMsg]
  simp only [Unpacker.bind_apply, unpackInt_packInt, bind_some]
  rw [unpackLoop_flatMap hbody hlen, ExtTreeMap.foldl_eq_foldl_toList]
  rfl

theorem foldl_assign {l : List (Int × Group)} {info : Info} (hne : l ≠ [])
    : l.foldl (fun info e => assign info group e.1 e.2) info
        =
      info.insert group (l.foldl (fun parts e => parts.insert e.1 e.2) (info.getD group ∅)) := by
  induction l generalizing info with
  | nil => exact absurd rfl hne
  | cons e l ih =>
    rw [foldl_cons, foldl_cons]
    cases l with
    | nil => rfl
    | cons e' l =>
      rw [ih (cons_ne_nil _ _)]
      apply ExtTreeMap.ext_getElem?
      intro g
      simp only [assign, ExtTreeMap.getElem?_insert, ExtTreeMap.getD_insert_self]
      split <;> rfl

theorem assignAll_eq {info : Info} {parts : Parts}
    : assignAll info group parts
        =
      if parts.isEmpty then info
      else info.insert group (insertEach (fun _ grp => some grp) parts (info.getD group ∅)) := by
  rw [assignAll, ExtTreeMap.foldl_eq_foldl_toList]
  split
  . next hempty =>
    rw [← ExtTreeMap.isEmpty_toList, List.isEmpty_iff] at hempty
    rw [hempty]
    rfl
  . next hempty =>
    have hne : parts.toList ≠ [] := by
      rwa [← ExtTreeMap.isEmpty_toList, List.isEmpty_iff] at hempty
    rw [foldl_assign hne, insertEach, ExtTreeMap.foldl_eq_foldl_toList]
    rfl

theorem getElem?_foldl_assignAll (sent info : Info) (g : Int)
    : (sent.foldl assignAll info)[g]?
        =
      sent[g]?.elim info[g]? (fun parts =>
        if parts.isEmpty then info[g]?
        else some (insertEach (fun _ grp => some grp) parts (info[g]?.getD ∅))) := by
  refine view_foldl (fun (info : Info) (g : Int) => info[g]?) (fun _ parts old =>
    if parts.isEmpty then old else some (insertEach (fun _ grp => some grp) parts (old.getD ∅))) ?_ ?_ sent info g
  . intro info g parts
    rw [assignAll_eq]
    split
    . rfl
    . rw [ExtTreeMap.getElem?_insert_self, ExtTreeMap.getD_eq_getD_getElem?]
  . intro info g parts g' hne
    rw [assignAll_eq]
    split
    . rfl
    . exact getElem?_insert_of_ne hne

def Covered (sent info : Info) (g : Int) : Prop :=
  (g ∈ info → g ∈ sent) ∧ (∀ child ∈ info.getD g ∅, child ∈ sent.getD g ∅) ∧
    (g ∈ sent → (sent.getD g ∅).isEmpty → g ∈ info)

theorem getElem?_foldl_assignAll_eq_iff
    : (sent.foldl assignAll info)[g]? = sent[g]? ↔ Covered sent info g := by
  rw [getElem?_foldl_assignAll, Covered, ExtTreeMap.getD_eq_getD_getElem?, ExtTreeMap.getD_eq_getD_getElem?,
    ExtTreeMap.mem_iff_isSome_getElem?, ExtTreeMap.mem_iff_isSome_getElem?]
  cases sent[g]? with
  | none =>
    cases info[g]? with
    | none => simp
    | some old => simp
  | some parts =>
    rw [elim_some]
    by_cases hempty : parts.isEmpty
    . have hparts := ExtTreeMap.isEmpty_iff.mp hempty
      subst hparts
      rw [if_pos hempty]
      constructor
      . intro h
        rw [h]
        simp
      . intro ⟨_, hchild, hin⟩
        have ⟨old, hold⟩ := isSome_iff_exists.mp (hin rfl hempty)
        rw [hold, getD_some, getD_some] at hchild
        have hnone : old = ∅ := by
          rw [ExtTreeMap.eq_empty_iff_forall_not_mem]
          exact fun child hmem => ExtTreeMap.not_mem_empty (hchild child hmem)
        rw [hold, hnone]
    . have hiff := @insertEach_eq_self_iff _ _ _ _ _ id parts (info[g]?.getD ∅)
      simp only [id_eq, implies_true, and_true] at hiff
      rw [if_neg hempty, some.injEq, hiff]
      exact ⟨fun h => ⟨fun _ => rfl, h, fun _ hparts => absurd hparts hempty⟩, fun h => h.2.1⟩

theorem transferred_iff (hint : InInt sender.dgroup.generalInfo)
    : sender.Transferred receiver
        ↔
      sender.chunks.flatten.length ≤ 2 ^ 30 ∧
        ∀ g, Covered sender.dgroup.generalInfo receiver.dgroup.generalInfo g := by
  have hinfo : sender.dgroup.generalInfo.foldl assignAll receiver.dgroup.generalInfo = sender.dgroup.generalInfo
      ↔ ∀ g, Covered sender.dgroup.generalInfo receiver.dgroup.generalInfo g := by
    rw [← forall_congr' (fun g => getElem?_foldl_assignAll_eq_iff)]
    exact ⟨fun h g => by rw [h], fun h => ExtTreeMap.ext_getElem? h⟩
  rw [Transferred, packMsg, getPackedMsg_eq, ← hinfo]
  by_cases h : sender.chunks.flatten.length ≤ 2 ^ 30
  . rw [if_pos h]
    constructor
    . intro ⟨msg, groups, rest, hmsg, hunpack, hgroups⟩
      rw [← some.inj hmsg, unpackMsg_chunks h hint, some.injEq, Prod.mk.injEq] at hunpack
      rw [← hunpack.1] at hgroups
      exact ⟨h, hgroups⟩
    . intro ⟨_, hgroups⟩
      exact ⟨_, _, _, rfl, unpackMsg_chunks h hint, hgroups⟩
  . rw [if_neg h]
    constructor
    . intro ⟨_, _, _, hmsg, _⟩
      contradiction
    . intro hcase
      exact absurd hcase.1 h

end Groups

theorem state_transferred_iff (sender receiver : Topology) (dsender dreceiver : Groups)
    (hint : Groups.InInt dsender.dgroup.generalInfo)
    : (sender.Transferred receiver
          ↔
        sender.chunks.flatten.length ≤ 2 ^ 30 ∧ (∀ id ∈ receiver.beMap, id ∈ sender.beMap) ∧
          ∀ e ∈ sender.beMap.toList, 0 ∉ e.2)
        ∧
      (dsender.Transferred dreceiver
          ↔
        dsender.chunks.flatten.length ≤ 2 ^ 30 ∧
          ∀ g, Groups.Covered dsender.dgroup.generalInfo dreceiver.dgroup.generalInfo g) :=
  ⟨Topology.transferred_iff, Groups.transferred_iff hint⟩

def node (beMap : BEMap) : Topology := ⟨-2, 32, 1, 1, [], [], beMap⟩

def table (info : Groups.Info) : Groups := ⟨-2, { DistributedGroup.new with generalInfo := info }⟩

def allOfTwo : Groups.Info :=
  (∅ : Groups.Info).insert SCI_GROUP_ALL ((∅ : Parts).insert (-3) (Group.ofList [0, 1]))

theorem allOfTwo_parts : allOfTwo.getD SCI_GROUP_ALL ∅ = (∅ : Parts).insert (-3) (Group.ofList [0, 1]) := by
  rw [allOfTwo, ExtTreeMap.getD_insert_self]

theorem state_transferred_to_new
    : (node ((∅ : BEMap).insert 0 (ofString "host"))).Transferred (node ∅) ∧
        (table allOfTwo).Transferred (table ∅) := by
  have hint : Groups.InInt (table allOfTwo).dgroup.generalInfo := by decide +kernel
  have h := state_transferred_iff (node ((∅ : BEMap).insert 0 (ofString "host"))) (node ∅) (table allOfTwo)
    (table ∅) hint
  refine ⟨h.1.mpr ⟨by decide +kernel, ?_, by decide +kernel⟩, h.2.mpr ⟨by decide +kernel, ?_⟩⟩
  . intro id hid
    exact absurd hid ExtTreeMap.not_mem_empty
  . intro g
    refine ⟨fun hg => absurd hg ExtTreeMap.not_mem_empty, ?_, ?_⟩
    . intro child hchild
      have hnone : (table ∅).dgroup.generalInfo.getD g ∅ = (∅ : Parts) := ExtTreeMap.getD_empty
      rw [hnone] at hchild
      exact absurd hchild ExtTreeMap.not_mem_empty
    . intro hg hempty
      have hg : g ∈ allOfTwo := hg
      have hall : SCI_GROUP_ALL = g := by simpa [allOfTwo] using hg
      rw [← hall, table, allOfTwo_parts] at hempty
      simp at hempty

theorem state_not_transferred_to_used
    : ¬(node ∅).Transferred (node ((∅ : BEMap).insert 7 (ofString "old"))) ∧
        ¬(table ∅).Transferred (table allOfTwo) := by
  constructor
  . intro h
    have hid := (Topology.transferred_iff.mp h).2.1 7 (by simp [node])
    exact ExtTreeMap.not_mem_empty hid
  . intro h
    have hint : Groups.InInt (table ∅).dgroup.generalInfo := by decide +kernel
    have hg := ((Groups.transferred_iff hint).mp h).2 SCI_GROUP_ALL
    exact ExtTreeMap.not_mem_empty (hg.1 (by simp [table, allOfTwo]))

end Sci.Transfer
