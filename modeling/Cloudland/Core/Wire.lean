import Cloudland.Core.Cloudlet

/-!
What `Execute`, the filter, the cloudlet and the front end's handler agree on about a message.
-/

open CString Packer Scheduler Cloudlet RpcWorker List Option

namespace CString

theorem infix_of_strstr {s t key more : CString} (h : strstr s key = some t)
    : key ++ more <:+: t ↔ key ++ more <:+: s := by
  refine ⟨fun hoccurs => hoccurs.trans (strstr_eq_some h).1.isInfix, ?_⟩
  intro hoccurs
  induction s with
  | nil =>
    have hnil := infix_nil.mp hoccurs
    rw [hnil]
    exact nil_infix
  | cons c s ih =>
    rw [strstr] at h
    split at h
    . rw [some.injEq] at h
      exact h ▸ hoccurs
    . next hp =>
      apply ih h
      have hcons := infix_cons_iff.mp hoccurs
      refine hcons.resolve_left ?_
      intro hstarts
      exact hp (List.isPrefixOf_iff_prefix.mpr ((prefix_append key more).trans hstarts))

end CString

theorem Scheduler.has_iff : has s key = true ↔ key <:+: s := strstr_isSome

namespace Request

theorem unpackFields_pack (req : Request) : unpackFields req.pack = none := by
  simp [pack, unpackFields]

theorem unpackJob_pack (req : Request)
    : unpackJob req.pack
        =
      if drops req.control.chars then
        some (.dropped req.id req.extra req.control.chars, packStr req.command.chars)
      else if has req.control.chars "type=file" then
        none
      else if has req.control.chars "inter=" || has req.control.chars "toall=" ||
          has req.control.chars "group=" || has req.control.chars "select=" then
        none
      else
        some (.idle req.id req.extra req.control.chars req.command.chars, []) := by
  simp only [pack, unpackJob, append_assoc, Unpacker.bind_apply, unpackInt_packInt, unpackStr_packStr,
    bind_some]
  split
  . rfl
  . split
    . simp
    . simp only [Unpacker.bind_apply, unpackStr_packStr_nil, bind_some]
      split
      . simp
      . rfl

end Request

namespace Cloudlet

def Job.AgreesWith (req : Request) : Job → Prop
  | .dropped id extra control => id = req.id ∧ extra = req.extra ∧ control = req.control.chars
  | .file .. => False
  | .run id extra control command _ =>
    id = req.id ∧ extra = req.extra ∧ control = req.control.chars ∧ command = req.command.chars
  | .idle id extra control command =>
    id = req.id ∧ extra = req.extra ∧ control = req.control.chars ∧ command = req.command.chars

end Cloudlet

namespace Request

def Agreed (req : Request) : Prop :=
  ∀ filtered, (plan req.control.chars).filtered = some filtered →
    (filtered = true →
      ∃ f rest, unpackFields req.pack = some (f, rest) ∧ f.msgID = req.id ∧ f.beID = req.extra ∧
        f.control = req.control.chars ∧ f.message = req.command.chars)
      ∧
    ∃ job rest, unpackJob req.pack = some (job, rest) ∧ job.AgreesWith req

def Unread (control : CString) : Prop :=
  (∀ key ∈ [ofString "inter=", ofString "group=", ofString "select=", ofString "toall="], ¬key <:+: control)
    ∨
  (ofString "toall=agent" <:+: control ∧
    ((∃ inter, strstr control "inter=" = some inter ∧ 0 ≤ interNode inter) ∨
      ((∀ key ∈ [ofString "inter=", ofString "group=", ofString "select="], ¬key <:+: control) ∧
        ∀ toall, strstr control "toall=" = some toall → cutAt BLANK (toall.drop 6) ≠ ofString "agent")))

theorem filtered_plan (control : CString)
    : (plan control).filtered
        =
      match strstr control "inter=", strstr control "toall=" with
      | some inter, _ => some (decide (interNode inter < 0))
      | none, toall =>
        if has control "group=" || has control "select=" then
          some true
        else
          toall.map (fun toall => decide (cutAt BLANK (toall.drop 6) = ofString "agent")) := by
  unfold plan has
  split
  . next inter hinter =>
    rw [hinter]
    split
    . next hnode => simp [Plan.filtered, hnode]
    . next hnode => simp [Plan.filtered, Int.not_le.mp hnode]
  . next hinter =>
    rw [eq_none_iff_forall_ne_some.mpr hinter]
    split
    . next group hgroup => simp [Plan.filtered, hgroup]
    . next hgroup =>
      rw [eq_none_iff_forall_ne_some.mpr hgroup]
      split
      . next select hselect => simp [Plan.filtered, hselect]
      . next hselect =>
        rw [eq_none_iff_forall_ne_some.mpr hselect]
        split
        . next toall htoall =>
          rw [htoall]
          dsimp only
          split
          . next hname => simp [Plan.filtered, hname]
          . next hname => simp [Plan.filtered, hname]
        . next htoall =>
          rw [eq_none_iff_forall_ne_some.mpr htoall]
          show Plan.filtered _ = none
          split
          . rfl
          . split
            . rfl
            . split_ifs <;> rfl

theorem agreed_iff (req : Request)
    : req.Agreed
        ↔
      (plan req.control.chars).filtered = none
        ∨
      ((plan req.control.chars).filtered = some false ∧ drops req.control.chars = true) := by
  unfold Agreed
  rw [unpackFields_pack, unpackJob_pack]
  match hfiltered : (plan req.control.chars).filtered with
  | none => simp
  | some true => simp
  | some false =>
    have hkey : (has req.control.chars "inter=" || has req.control.chars "toall=" ||
        has req.control.chars "group=" || has req.control.chars "select=") = true := by
      rw [filtered_plan] at hfiltered
      unfold has
      split at hfiltered
      . next hinter => simp [hinter]
      . split at hfiltered
        . contradiction
        . have ⟨toall, htoall, _⟩ := map_eq_some_iff.mp hfiltered
          simp [htoall]
    by_cases hdrops : drops req.control.chars = true
    . simp [hdrops, Job.AgreesWith]
    . simp [hdrops, hkey]

theorem drops_iff {control : CString} (h : (plan control).filtered = some false)
    : drops control = true ↔ ofString "toall=agent" <:+: control := by
  unfold drops
  split
  . next toall htoall =>
    rw [has_iff]
    exact @infix_of_strstr _ _ _ (ofString "agent") htoall
  . next htoall =>
    have htoall := eq_none_iff_forall_ne_some.mpr htoall
    have hoccurs : ¬ofString "toall=agent" <:+: control := by
      intro hoccurs
      refine strstr_eq_none.mp htoall (List.IsInfix.trans ?_ hoccurs)
      exact (prefix_append (ofString "toall=") (ofString "agent")).isInfix
    rw [filtered_plan, htoall] at h
    split
    . next inter hinter =>
      simp only [hinter, some.injEq, decide_eq_false_iff_not, Int.not_lt] at h
      have hatoi : 0 ≤ atoi (inter.drop 6) := by
        simp only [interNode] at h
        split at h
        . contradiction
        . split at h
          . contradiction
          . exact h
      simp [hoccurs, Int.not_lt.mpr hatoi]
    . simp [hoccurs]

theorem filtered_eq_none_iff {control : CString}
    : (plan control).filtered = none
        ↔
      ∀ key ∈ [ofString "inter=", ofString "group=", ofString "select=", ofString "toall="],
        ¬key <:+: control := by
  simp only [forall_mem_cons, ← strstr_eq_none]
  rw [filtered_plan]
  split
  . next hinter => simp [hinter]
  . next hinter =>
    unfold has
    split
    . next hkey =>
      simp only [Bool.or_eq_true, isSome_iff_ne_none] at hkey
      simp
      tauto
    . next hkey =>
      simp only [Bool.or_eq_true, isSome_iff_ne_none, not_or, not_not] at hkey
      simp [hinter, hkey]

theorem filtered_eq_false_iff {control : CString}
    : (plan control).filtered = some false
        ↔
      (∃ inter, strstr control "inter=" = some inter ∧ 0 ≤ interNode inter) ∨
        ((∀ key ∈ [ofString "inter=", ofString "group=", ofString "select="], ¬key <:+: control) ∧
          ∃ toall, strstr control "toall=" = some toall ∧ cutAt BLANK (toall.drop 6) ≠ ofString "agent") := by
  simp only [forall_mem_cons, ← strstr_eq_none]
  rw [filtered_plan]
  split
  . next hinter => simp [hinter]
  . next hinter =>
    unfold has
    split
    . next hkey =>
      simp only [Bool.or_eq_true, isSome_iff_ne_none] at hkey
      simp [hinter]
      tauto
    . next hkey =>
      simp only [Bool.or_eq_true, isSome_iff_ne_none, not_or, not_not] at hkey
      simp [hinter, hkey]

theorem agreed_iff_unread (req : Request) : req.Agreed ↔ Unread req.control.chars := by
  rw [agreed_iff, filtered_eq_none_iff, Unread]
  refine or_congr Iff.rfl ?_
  constructor
  . intro ⟨hfiltered, hdrops⟩
    refine ⟨(drops_iff hfiltered).mp hdrops, ?_⟩
    refine (filtered_eq_false_iff.mp hfiltered).imp_right ?_
    intro ⟨hkeys, toall, htoall, hname⟩
    refine ⟨hkeys, ?_⟩
    intro toall' htoall'
    rw [htoall, some.injEq] at htoall'
    exact htoall' ▸ hname
  . intro ⟨hagent, hdirect⟩
    have hfiltered : (plan req.control.chars).filtered = some false := by
      refine filtered_eq_false_iff.mpr (hdirect.imp_right ?_)
      intro ⟨hkeys, hname⟩
      have htoall :=
        (prefix_append (ofString "toall=") (ofString "agent")).isInfix.trans hagent
      have ⟨toall, htoall⟩ := isSome_iff_exists.mp (strstr_isSome.mpr htoall)
      exact ⟨hkeys, toall, htoall, hname toall htoall⟩
    exact ⟨hfiltered, (drops_iff hfiltered).mpr hagent⟩

end Request

namespace Scheduler

variable {env : Env} {filter : Filter} {group : Int} {f : Fields}

theorem Fields.unpack_pack (msgID beID : Int32) (control message trace : Text)
    : unpackFields (Fields.pack ⟨msgID, beID, control.chars, message.chars, trace.chars⟩)
        =
      some (⟨msgID, beID, control.chars, message.chars, trace.chars⟩, []) := by
  simp [Fields.pack, unpackFields]

theorem Fields.le_length_pack (f : Fields) : 16 ≤ f.pack.length := by
  simp [Fields.pack, packInt, packStr]
  omega

theorem filterInput_passUp
    (h : ∀ key ∈ [ofString "report", ofString "inter=", ofString "group=", ofString "select=",
      ofString "toall="], ¬key <:+: f.control)
    : filterInput env filter group f
        =
      (filter, [.upload group ⟨f.msgID, env.myID, f.control, f.message, []⟩]) := by
  simp only [forall_mem_cons, ← has_iff, Bool.not_eq_true] at h
  simp [filterInput, h, uploadMessage]

end Scheduler

namespace Cloudlet

theorem unpackFields_replies (id extra myID : Int32) (control command trace : Text) (outcome : Outcome)
    : ∀ reply ∈ replies myID outcome (.run id extra control.chars command.chars trace.chars),
        unpackFields reply.pack = Option.some (reply, []) := by
  intro reply hreply
  rw [replies, mem_append, List.mem_map] at hreply
  obtain ⟨piece, _, heq⟩ | herror := hreply
  . rw [← heq]
    exact Fields.unpack_pack id myID ⟨"callback", by decide, by decide⟩ piece trace
  . split at herror
    . rw [mem_singleton.mp herror]
      exact Fields.unpack_pack id myID ⟨"error", by decide, by decide⟩ command trace
    . contradiction

theorem unpackFields_report (myID : Int32) (result : Text)
    : unpackFields (report myID result).pack = some (report myID result, []) :=
  Fields.unpack_pack 0 myID ⟨"report", by decide, by decide⟩ result ⟨[], by simp, by decide⟩

end Cloudlet

theorem wire_agreement (req : Request) (id extra myID : Int32) (control command trace result : Text)
    (outcome : Outcome) (env : Env) (filter : Filter) (group : Int) (f : Fields)
    : (req.Agreed ↔ Request.Unread req.control.chars)
        ∧
      (∀ reply ∈ replies myID outcome (.run id extra control.chars command.chars trace.chars),
        16 ≤ reply.pack.length ∧ unpackFields reply.pack = some (reply, []))
        ∧
      unpackFields (report myID result).pack = some (report myID result, [])
        ∧
      ((∀ key ∈ [ofString "report", ofString "inter=", ofString "group=", ofString "select=",
        ofString "toall="], ¬key <:+: f.control) →
        (filterInput env filter group f = (filter, [.upload group f])
          ↔
        f.beID = env.myID ∧ f.trace = [])) := by
  refine ⟨req.agreed_iff_unread, ?_, unpackFields_report myID result, ?_⟩
  . intro reply hreply
    exact ⟨reply.le_length_pack, unpackFields_replies id extra myID control command trace outcome reply hreply⟩
  . intro hkeys
    rw [filterInput_passUp hkeys]
    cases f with
    | mk msgID beID control message trace => simp [eq_comm]

def listOnThree : Request := ⟨7, 0, ⟨"inter=3", by decide, by decide⟩, ⟨"ls", by decide, by decide⟩⟩

theorem cloudlet_reads_beyond_message
    : (plan listOnThree.control.chars).filtered = some false
        ∧
      unpackJob listOnThree.pack = none
        ∧
      unpackJob (listOnThree.pack ++ [0, 0, 0, 3, 104, 105, 0])
        =
      some (.run 7 0 "inter=3" "ls" "hi", []) := by
  decide +kernel
