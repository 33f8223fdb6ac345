import Cloudland.Core.NetLayer

/-!
Commands for a named group stay inside it.
-/

open CString RpcWorker Function
open Sci (SCI_GROUP_ALL FrontEnd Topology Message Session Sets deliver)

namespace NetLayer

open List Option

def number (digits : CString) : Option Int :=
  if digits ≠ [] ∧ digits.all isdigit = true ∧ value digits < 2 ^ 31 then some (value digits) else none

def item (token : CString) : Option (List Int) :=
  match token.splitOn DASH with
  | [id] => (number id).map (fun n => [n])
  | [start, stop] =>
    match number start, number stop with
    | some lo, some hi => if lo ≤ hi then upTo lo hi else none
    | _, _ => none
  | _ => none

def listed (desc : CString) : Option (List Int) :=
  (((cutAt BLANK (memberText desc)).splitOn COMMA).mapM item).map flatten

def afterList (desc : CString) : CString := (memberText desc).dropWhile (· != BLANK)

section Text

variable {splitter : UInt8}

theorem go_eq (h : ((str.splitOn splitter).modifyHead (temp ++ ·)).getLast? ≠ some [])
    : string2Array.go splitter temp str = (str.splitOn splitter).modifyHead (temp ++ ·) := by
  induction str generalizing temp with
  | nil =>
    rw [show ([] : CString).splitOn splitter = [[]] from rfl] at h ⊢
    have htemp : temp ≠ [] := by simpa using h
    rw [string2Array.go, if_neg htemp]
    simp
  | cons c str ih =>
    have ⟨piece, pieces, hpieces⟩ := exists_cons_of_ne_nil (@splitOn_ne_nil splitter str)
    rw [splitOn_cons, hpieces] at h ⊢
    rw [string2Array.go]
    split
    . next hc =>
      rw [if_pos hc] at h
      have hrest := @ih [] (by simpa [hpieces] using h)
      rw [hrest, hpieces]
      simp
    . next hc =>
      rw [if_neg hc] at h
      have hrest := @ih (temp ++ [c]) (by simpa [hpieces] using h)
      rw [hrest, hpieces]
      simp

theorem string2Array_eq
    (h : str.splitOn splitter = init ++ [last]) (hne : last ≠ [])
    : string2Array splitter str = init ++ [last] := by
  have hhead : (str.splitOn splitter).modifyHead ([] ++ ·) = init ++ [last] := by
    rw [h]
    cases init <;> rfl
  rw [string2Array, go_eq (by rw [hhead]; simpa using hne), hhead]

theorem number_eq_some (h : number digits = some n)
    : digits ≠ [] ∧ ∀ rest : CString, (∀ c ∈ rest.head?, isdigit c = false) → atoi (digits ++ rest) = n := by
  unfold number at h
  split at h
  . next hdigits =>
    rw [some.injEq] at h
    refine ⟨hdigits.1, ?_⟩
    intro rest hrest
    rw [atoi_digits hdigits.1 hdigits.2.1 hdigits.2.2 hrest]
    exact h
  . contradiction

theorem tokenIds_append {token rest : CString} {l : List Int} (h : item token = some l)
    (hrest : ∀ c ∈ rest.head?, isdigit c = false) (hdash : DASH ∉ rest)
    : tokenIds (token ++ rest) = some l ∧ token ≠ [] := by
  have ⟨init, last, hsplit, happend⟩ := @splitOn_append DASH token rest hdash
  have hlast : ∀ n, number last = some n → last ++ rest ≠ [] := by
    intro n hn
    simp [(number_eq_some hn).1]
  have htoken : token = [] → init = [] ∧ last = [] := by
    intro htoken
    rw [htoken] at hsplit
    exact (append_eq_singleton_iff.mp hsplit.symm).elim (fun h => by simpa using h) (by simp)
  unfold item at h
  rw [hsplit] at h
  match init with
  | [] =>
    have ⟨n, hn, hl⟩ := map_eq_some_iff.mp h
    have ⟨hne, hatoi⟩ := number_eq_some hn
    refine ⟨?_, fun htoken' => hne (htoken htoken').2⟩
    rw [tokenIds, string2Array_eq happend (hlast n hn), ← hl]
    simp [hatoi rest hrest]
  | [start] =>
    simp only [cons_append, nil_append] at h
    split at h
    . next lo hi hlo hhi =>
      have hstart := (number_eq_some hlo).2 [] (by simp)
      have hstop := (number_eq_some hhi).2 rest hrest
      split at h
      . refine ⟨?_, fun htoken' => absurd (htoken htoken').1 (by simp)⟩
        rw [tokenIds, string2Array_eq happend (hlast hi hhi), ← h, ← hstop, ← hstart, append_nil]
        rfl
      . cases h
    . cases h
  | _ :: _ :: _ => simp at h

theorem mapM_tokenIds {tokens : List CString} {ls : List (List Int)} (h : tokens.mapM item = some ls)
    : tokens.mapM tokenIds = some ls := by
  induction tokens generalizing ls with
  | nil => exact h
  | cons token tokens ih =>
    simp only [mapM_cons, bind_eq_bind, bind_eq_some_iff, Option.pure_def,
      Option.some.injEq] at h ⊢
    have ⟨l, hl, ls', hls', heq⟩ := h
    have hplain := (@tokenIds_append token [] l hl (by simp) (by simp)).1
    exact ⟨l, by simpa using hplain, ls', ih hls', heq⟩

theorem isdigit_head_afterList (desc : CString) : ∀ c ∈ (afterList desc).head?, isdigit c = false := by
  intro c hc
  have hblank := head?_dropWhile_not (· != BLANK) (memberText desc)
  rw [show (memberText desc).dropWhile (· != BLANK) = afterList desc from rfl, mem_def.mp hc] at hblank
  have hc : c = BLANK := by simpa using hblank
  rw [hc]
  decide

theorem memberIds_eq (h : listed desc = some l)
    (hcomma : COMMA ∉ afterList desc) (hdash : DASH ∉ afterList desc)
    : memberIds desc = some l := by
  have ⟨ls, hls, hl⟩ := map_eq_some_iff.mp h
  have ⟨init, last, hsplit, happend⟩ :=
    @splitOn_append COMMA (cutAt BLANK (memberText desc)) (afterList desc) hcomma
  rw [cutAt, afterList, takeWhile_append_dropWhile] at happend
  rw [hsplit, mapM_append] at hls
  simp only [mapM_cons, mapM_nil, bind_eq_bind, bind_eq_some_iff, Option.pure_def,
    Option.some.injEq] at hls
  have ⟨front, hfront, back, ⟨tail, htail, _, hnil, hback⟩, heq⟩ := hls
  have ⟨hids, hne⟩ := tokenIds_append htail (isdigit_head_afterList desc) hdash
  rw [afterList] at hids
  rw [memberIds, string2Array_eq happend (by simp [hne]), mapM_append, mapM_tokenIds hfront, ← hl, ← heq, ← hback,
    ← hnil]
  simp [hids]

theorem upTo_ne_nil (h : lo ≤ hi) (hl : upTo lo hi = some l) : l ≠ [] := by
  unfold upTo at hl
  split at hl
  . cases hl
  . cases hl
    intro hnil
    have hlen := congrArg length hnil
    simp only [length_map, length_range, length_nil] at hlen
    omega

theorem item_ne_nil (h : item token = some l) : l ≠ [] := by
  unfold item at h
  split at h
  . have ⟨n, _, hl⟩ := map_eq_some_iff.mp h
    simp [← hl]
  . split at h
    . split at h
      . next hle => exact upTo_ne_nil hle h
      . cases h
    . cases h
  . cases h

theorem listed_ne_nil (h : listed desc = Option.some l) : l ≠ [] := by
  have ⟨ls, hls, hl⟩ := map_eq_some_iff.mp h
  have ⟨token, tokens, hcons⟩ :=
    exists_cons_of_ne_nil (@splitOn_ne_nil COMMA (cutAt BLANK (memberText desc)))
  simp only [hcons, mapM_cons, bind_eq_bind, bind_eq_some_iff, Option.pure_def,
    Option.some.injEq] at hls
  have ⟨front, hfront, _, _, heq⟩ := hls
  simp [← hl, ← heq, item_ne_nil hfront]

end Text

end NetLayer

namespace Plan

def desc : Plan → Option CString
  | .select desc => some desc
  | .toall desc => some desc
  | _ => none

def listed : Plan → Option (List Int)
  | .select desc => if NetLayer.COLON ∈ desc then NetLayer.listed desc else none
  | .group desc => if NetLayer.COLON ∈ desc then NetLayer.listed desc else none
  | .toall desc => if NetLayer.COLON ∈ desc then NetLayer.listed desc else none
  | _ => none

def clash : Plan → Plan → Bool
  | .select d, .select d' => NetLayer.groupName d = NetLayer.groupName d' && d != d'
  | .select d, .toall d' => NetLayer.groupName d = NetLayer.groupName d'
  | .toall d, .select d' => NetLayer.groupName d = NetLayer.groupName d'
  | _, _ => false

theorem clash_comm (p p' : Plan) : p.clash p' = p'.clash p := by
  cases p <;> cases p' <;> simp [clash, eq_comm, bne_comm]

end Plan

namespace NetLayer

def Valid (topo : Topology) (desc : CString) : Prop :=
  COLON ∈ desc ∧ (∃ l ∈ listed desc, l.all topo.hasBE = true) ∧
    COMMA ∉ afterList desc ∧ DASH ∉ afterList desc

instance (topo : Topology) (desc : CString) : Decidable (Valid topo desc) :=
  inferInstanceAs (Decidable (_ ∧ _))

def Event.Allowed (topo : Topology) (s : NetLayer) : Event → Prop
  | .execute req =>
    (∃ desc ∈ (plan req.control.chars).desc, Valid topo desc) ∧
      ∀ th ∈ s.threads, th.todo ≠ [] →
        (plan th.request.control.chars).clash (plan req.control.chars) = false
  | .step _ _ => True

instance (topo : Topology) (s : NetLayer) : DecidablePred (Event.Allowed topo s)
  | .execute _ => inferInstanceAs (Decidable (_ ∧ _))
  | .step _ _ => .isTrue trivial

variable {topo : Topology} {a : Int} {s s' : NetLayer} {groups : Int → Option (Set Int)} {desc : CString}

theorem Valid.memberIds (h : Valid topo desc)
    : ∃ l, memberIds desc = some l ∧ listed desc = some l ∧ l ≠ [] ∧ l.all topo.hasBE = true := by
  have ⟨_, ⟨l, hl, hknown⟩, hcomma, hdash⟩ := h
  exact ⟨l, memberIds_eq hl hcomma hdash, hl, listed_ne_nil hl, hknown⟩

def requests (s : NetLayer) : List Request := s.threads.map Thread.request

def Confined (reqs : List Request) (S : Sets) : Message → Prop
  | .command g text =>
    ∃ req ∈ reqs, text = content req.pack ∧
      ∃ l, (plan req.control.chars).listed = some l ∧ ∀ i ∈ S g, i ∈ l
  | _ => True

structure Table (topo : Topology) (s : NetLayer) (groups : Int → Option (Set Int)) : Prop where
  session : Session.Inv topo ⟨s.fe, groups⟩
  entry : ∀ name d, s.groupMap name = some d →
    d.group < SCI_GROUP_ALL ∧ ∃ l, memberIds d.desc = some l ∧ groups d.group = some {i | i ∈ l}
  distinct : ∀ name name' d d', s.groupMap name = some d → s.groupMap name' = some d' →
    d.group = d'.group → name = name'
  confined : Relay.Admits Message.after (Confined s.requests) (.initial topo.ids) s.fe.routerIn.tail

def Registered (s : NetLayer) (desc : CString) : Prop :=
  ∃ group, s.groupMap (groupName desc) = some ⟨group, desc⟩

namespace Table

theorem foldl_after (h : Table topo s groups)
    : s.fe.routerIn.tail.foldl Message.after (.initial topo.ids) = Session.sets ⟨s.fe, groups⟩ := by
  have ⟨hist, hlogged⟩ := h.session.logged
  rw [hlogged.routerIn, List.tail_cons]
  exact hlogged.sets

theorem confined_append (h : Table topo s groups) {fe : FrontEnd}
    (hrouter : fe.routerIn = s.fe.routerIn ++ [msg])
    (hmsg : Confined s.requests (Session.sets ⟨s.fe, groups⟩) msg)
    : Relay.Admits Message.after (Confined s.requests) (.initial topo.ids) fe.routerIn.tail := by
  have ⟨hist, hlogged⟩ := h.session.logged
  have hne : s.fe.routerIn ≠ [] := by rw [hlogged.routerIn]; simp
  rw [hrouter, List.tail_append_of_ne_nil hne, Relay.admits_append, h.foldl_after]
  exact ⟨h.confined, hmsg⟩

variable (h : Table topo s groups) (hd : topo.Deployable a) (hcs : Sci.ChildrenOk topo.children)
include h hd hcs

theorem enterGroup (hvalid : Valid topo desc) (garbage : Int)
    : ∃ fe' groups', s.enterGroup desc garbage = some { s with
        fe := fe'
        groupMap := update s.groupMap (groupName desc) (some ⟨s.fe.nextGroupID, desc⟩) } ∧
      Table topo { s with
        fe := fe'
        groupMap := update s.groupMap (groupName desc) (some ⟨s.fe.nextGroupID, desc⟩) } groups' := by
  have ⟨l, hids, _, hne, hknown⟩ := hvalid.memberIds
  have ⟨fe', hcreate, hrouter, hinv⟩ := h.session.groupCreate_of_known hd hcs hknown
  have hfresh : groups s.fe.nextGroupID = none := h.session.fresh s.fe.nextGroupID (Int.le_refl _)
  have hold : ∀ name d, s.groupMap name = some d → d.group ≠ s.fe.nextGroupID := by
    intro name d hd heq
    have ⟨_, _, hgroup⟩ := (h.entry name d hd).2
    rw [heq, hfresh] at hgroup
    cases hgroup
  refine ⟨fe', _, ?_, hinv, ?_, ?_, h.confined_append hrouter trivial⟩
  . simp only [NetLayer.enterGroup, hids, Option.bind_eq_bind, Option.bind_some, hne, if_false, hcreate]
    rfl
  . intro name d hentry
    by_cases hname : name = groupName desc
    . dsimp only at hentry
      rw [hname, update_self, Option.some.injEq] at hentry
      rw [← hentry]
      exact ⟨h.session.next_lt, l, hids, update_self ..⟩
    . dsimp only at hentry
      rw [update_of_ne hname] at hentry
      have ⟨hlt, l', hids', hother⟩ := h.entry name d hentry
      exact ⟨hlt, l', hids', (update_of_ne (hold name d hentry) ..).trans hother⟩
  . intro name name' d d' hentry hentry' hgroup
    dsimp only at hentry hentry'
    by_cases hname : name = groupName desc
    . by_cases hname' : name' = groupName desc
      . exact hname.trans hname'.symm
      . rw [hname, update_self, Option.some.injEq] at hentry
        rw [update_of_ne hname'] at hentry'
        exact absurd (hgroup.symm.trans (hentry ▸ rfl)) (hold name' d' hentry')
    . rw [update_of_ne hname] at hentry
      by_cases hname' : name' = groupName desc
      . rw [hname', update_self, Option.some.injEq] at hentry'
        exact absurd (hgroup.trans (hentry' ▸ rfl)) (hold name d hentry)
      . rw [update_of_ne hname'] at hentry'
        exact h.distinct name name' d d' hentry hentry' hgroup

theorem bcast (hreg : s.Registered desc) {req : Request} (hreq : req ∈ s.requests)
    (hlisted : (plan req.control.chars).listed = memberIds desc)
    : ∃ fe', s.bcast (s.target (some (groupName desc))) req = some ({ s with fe := fe' }, true) ∧
        Table topo { s with fe := fe' } groups := by
  have ⟨group, hgroup⟩ := hreg
  have ⟨hlt, l, hids, hset⟩ := h.entry _ _ hgroup
  have htarget : s.target (some (groupName desc)) = group := by simp [NetLayer.target, hgroup]
  have hex : group ∈ s.fe.routingList.myDistriGroup.generalInfo := by
    refine (h.session.exist group).mpr ?_
    dsimp only
    rw [hset]
    rfl
  have ⟨fe', hbcast, hrouter, _, hinv⟩ :=
    h.session.bcast_of_exist hd hcs (Int.le_of_lt hlt) (content req.pack) hex
  refine ⟨fe', ?_, hinv, h.entry, h.distinct, h.confined_append hrouter ?_⟩
  . rw [htarget, NetLayer.bcast, hbcast]
    rfl
  . refine ⟨req, hreq, rfl, l, hlisted.trans hids, ?_⟩
    intro i hi
    rw [Session.sets] at hi
    dsimp only at hi
    rw [hset] at hi
    exact hi

theorem freeGroup (name : CString)
    : ∃ fe' groups', s.freeGroup name = some { s with
        fe := fe'
        groupMap := update s.groupMap name none } ∧
      Table topo { s with fe := fe', groupMap := update s.groupMap name none } groups' := by
  match hname : s.groupMap name with
  | none =>
    have hsame : update s.groupMap name none = s.groupMap := by
      rw [← hname, update_eq_self]
    rw [hsame]
    refine ⟨s.fe, groups, ?_, h⟩
    simp [NetLayer.freeGroup, hname]
  | some d =>
    have ⟨hlt, _, _, hset⟩ := h.entry name d hname
    have hex : s.fe.isGroupExist d.group = true := by
      refine h.session.isGroupExist.mpr ?_
      dsimp only
      rw [hset]
      rfl
    have ⟨fe', hfree, hrouter, _, hinv⟩ := h.session.groupFree_of_exist hd hcs hlt hex
    have hother : ∀ name' d', update s.groupMap name none name' = some d' →
        name' ≠ name ∧ s.groupMap name' = some d' := by
      intro name' d' hentry
      by_cases heq : name' = name
      . rw [heq, update_self] at hentry
        cases hentry
      . rw [update_of_ne heq] at hentry
        exact ⟨heq, hentry⟩
    refine ⟨fe', _, ?_, hinv, ?_, ?_, h.confined_append hrouter trivial⟩
    . simp only [NetLayer.freeGroup, hname, hfree]
      rfl
    . intro name' d' hentry
      have ⟨hne, hentry⟩ := hother name' d' hentry
      have ⟨hlt', l, hids, hset'⟩ := h.entry name' d' hentry
      have hgroup : d'.group ≠ d.group := fun heq => hne (h.distinct name' name d' d hentry hname heq)
      exact ⟨hlt', l, hids, (update_of_ne hgroup ..).trans hset'⟩
    . intro name' name'' d' d'' hentry hentry'
      exact h.distinct name' name'' d' d'' (hother name' d' hentry).2 (hother name'' d'' hentry').2

end Table

inductive Fine (s : NetLayer) (t : Nat) : Plan → List Op → Prop where
  | done (p : Plan) : Fine s t p []
  | selectCheck (desc : CString)
    : Fine s t (.select desc) [.check desc, .send (some (groupName desc)) true]
  | selectUpdate (desc : CString)
    : Fine s t (.select desc) [.update desc, .send (some (groupName desc)) true]
  | selectSend {desc : CString} (hreg : s.Registered desc)
    : Fine s t (.select desc) [.send (some (groupName desc)) true]
  | toallSerialize (desc : CString)
    : Fine s t (.toall desc)
        [.serialize, .check desc, .send (some (groupName desc)) false, .free (groupName desc), .deserialize]
  | toallCheck (desc : CString) (hser : s.ser = some t)
    : Fine s t (.toall desc)
        [.check desc, .send (some (groupName desc)) false, .free (groupName desc), .deserialize]
  | toallUpdate (desc : CString) (hser : s.ser = some t)
    : Fine s t (.toall desc)
        [.update desc, .send (some (groupName desc)) false, .free (groupName desc), .deserialize]
  | toallSend {desc : CString} (hser : s.ser = some t) (hreg : s.Registered desc)
    : Fine s t (.toall desc)
        [.send (some (groupName desc)) false, .free (groupName desc), .deserialize]
  | toallFree (desc : CString) (hser : s.ser = some t)
    : Fine s t (.toall desc) [.free (groupName desc), .deserialize]
  | toallDeserialize (desc : CString) (hser : s.ser = some t)
    : Fine s t (.toall desc) [.deserialize]

variable {t t' : Nat} {p p' : Plan} {todo todo' rest : List Op} {op : Op} {req : Request} {garbage : Int}

theorem Fine.frame (h : Fine s t p todo) (hser : s.ser = some t → s'.ser = some t)
    (hselect : ∀ desc, p = .select desc → todo ≠ [] → s.Registered desc → s'.Registered desc)
    (htoall : ∀ desc, p = .toall desc → todo ≠ [] → s.ser = some t → s.Registered desc → s'.Registered desc)
    : Fine s' t p todo := by
  cases h with
  | done => exact .done _
  | selectCheck => exact .selectCheck _
  | selectUpdate => exact .selectUpdate _
  | selectSend hreg => exact .selectSend (hselect _ rfl (by simp) hreg)
  | toallSerialize => exact .toallSerialize _
  | toallCheck _ h => exact .toallCheck _ (hser h)
  | toallUpdate _ h => exact .toallUpdate _ (hser h)
  | toallSend h hreg => exact .toallSend (hser h) (htoall _ rfl (by simp) h hreg)
  | toallFree _ h => exact .toallFree _ (hser h)
  | toallDeserialize _ h => exact .toallDeserialize _ (hser h)

theorem registered_update {fe : FrontEnd}
    (hne : groupName desc' ≠ name) (hreg : s.Registered desc')
    : Registered { s with fe := fe, groupMap := update s.groupMap name d } desc' := by
  have ⟨group, hgroup⟩ := hreg
  exact ⟨group, (update_of_ne hne ..).trans hgroup⟩

theorem registered_enter (desc : CString) (group : Int) (fe : FrontEnd)
    : Registered
        { s with fe := fe, groupMap := update s.groupMap (groupName desc) (some ⟨group, desc⟩) } desc :=
  ⟨group, update_self ..⟩

section Beside

variable {name : CString} {group : Int} {d : Option GroupDesc} {fe : FrontEnd}

theorem Fine.beside_select (hclash : todo ≠ [] → (Plan.select desc).clash p = false) (h : Fine s t p todo)
    : Fine { s with fe := fe, groupMap := update s.groupMap (groupName desc) (some ⟨group, desc⟩) }
        t p todo := by
  refine h.frame id ?_ ?_
  . intro desc' hp htodo hreg
    have hclash := hclash htodo
    rw [hp] at hclash
    by_cases hname : groupName desc' = groupName desc
    . have heq : desc = desc' := by simpa [Plan.clash, hname] using hclash
      exact heq ▸ registered_enter desc group fe
    . exact registered_update hname hreg
  . intro desc' hp htodo _ hreg
    have hclash := hclash htodo
    rw [hp] at hclash
    have hname : groupName desc ≠ groupName desc' := by simpa [Plan.clash] using hclash
    exact registered_update hname.symm hreg

theorem Fine.beside_toall (hser : s.ser = some t) (hne : t' ≠ t)
    (hclash : todo ≠ [] → (Plan.toall desc).clash p = false) (h : Fine s t' p todo)
    : Fine { s with fe := fe, groupMap := update s.groupMap (groupName desc) d } t' p todo := by
  refine h.frame id ?_ ?_
  . intro desc' hp htodo hreg
    have hclash := hclash htodo
    rw [hp] at hclash
    have hname : groupName desc ≠ groupName desc' := by simpa [Plan.clash] using hclash
    exact registered_update hname.symm hreg
  . intro desc' _ _ hser' _
    rw [hser, Option.some.injEq] at hser'
    exact absurd hser'.symm hne

end Beside

def Advances (topo : Topology) (s : NetLayer) (t : Nat) (p : Plan) (s' : NetLayer) (todo' : List Op) : Prop :=
  (∃ groups, Table topo s' groups) ∧ Fine s' t p todo' ∧ s'.threads = s.threads ∧
    ∀ t' p' todo, t' ≠ t → (todo ≠ [] → p.clash p' = false) → Fine s t' p' todo → Fine s' t' p' todo

theorem perform_check (hvalid : Valid topo desc)
    (h : s.perform t req garbage rest (.check desc) = some (s', todo'))
    : s' = s ∧ (todo' = rest ∧ s.Registered desc ∨ todo' = .update desc :: rest) := by
  simp only [NetLayer.perform] at h
  split at h
  . next hknown =>
    have hany := hknown.resolve_left (fun hcolon => hcolon hvalid.1)
    rw [Option.any_eq_true] at hany
    have ⟨d, hd, hdesc⟩ := hany
    have hdesc : d.desc = desc := by simpa using hdesc
    cases h
    refine ⟨rfl, .inl ⟨rfl, d.group, ?_⟩⟩
    rw [hd, ← hdesc]
  . next hnew =>
    cases h
    exact ⟨rfl, .inr rfl⟩

theorem Advances.of_eq (htable : Table topo s groups) (hfine : Fine s t p todo') : Advances topo s t p s todo' :=
  ⟨⟨groups, htable⟩, hfine, rfl, fun _ _ _ _ _ h => h⟩

section Perform

variable (htable : Table topo s groups) (hd : topo.Deployable a) (hcs : Sci.ChildrenOk topo.children)
include htable hd hcs

theorem perform_update (hvalid : Valid topo desc)
    (h : s.perform t req garbage rest (.update desc) = some (s', todo'))
    : todo' = rest ∧ (∃ groups, Table topo s' groups) ∧
        ∃ fe group, s' = { s with
          fe := fe
          groupMap := update s.groupMap (groupName desc) (some ⟨group, desc⟩) } := by
  have ⟨fe, groups', henter, htable'⟩ := htable.enterGroup hd hcs hvalid garbage
  rw [NetLayer.perform, henter] at h
  cases h
  exact ⟨rfl, ⟨groups', htable'⟩, fe, _, rfl⟩

theorem perform_send (hreg : s.Registered desc) (hreq : req ∈ s.requests)
    (hlisted : (plan req.control.chars).listed = memberIds desc)
    (h : s.perform t req garbage rest (.send (some (groupName desc)) useFilter) = some (s', todo'))
    : todo' = rest ∧ Table topo s' groups ∧ ∃ fe, s' = { s with fe := fe } := by
  have ⟨fe, hbcast, htable'⟩ := htable.bcast hd hcs hreg hreq hlisted
  rw [NetLayer.perform, hbcast] at h
  cases h
  exact ⟨rfl, htable', fe, rfl⟩

theorem perform_free (h : s.perform t req garbage rest (.free name) = some (s', todo'))
    : todo' = rest ∧ (∃ groups, Table topo s' groups) ∧
        ∃ fe, s' = { s with fe := fe, groupMap := update s.groupMap name none } := by
  have ⟨fe, groups', hfree, htable'⟩ := htable.freeGroup hd hcs name
  rw [NetLayer.perform, hfree] at h
  cases h
  exact ⟨rfl, ⟨groups', htable'⟩, fe, rfl⟩

theorem Fine.perform (hfine : Fine s t p (op :: rest)) (hvalid : ∀ desc, p.desc = some desc → Valid topo desc)
    (hreq : req ∈ s.requests) (hplan : plan req.control.chars = p)
    (h : s.perform t req garbage rest op = some (s', todo'))
    : Advances topo s t p s' todo' := by
  have hlisted : ∀ desc, p = .select desc ∨ p = .toall desc →
      (plan req.control.chars).listed = memberIds desc := by
    intro desc hp
    have hv : Valid topo desc := hvalid desc (by cases hp <;> simp [*, Plan.desc])
    have ⟨l, hids, hl, _⟩ := hv.memberIds
    rw [hplan, hids]
    cases hp <;> simp [*, Plan.listed, hv.1]
  -- commands change nothing that the other threads look at
  have hframe : ∀ fe t' p' todo, Fine s t' p' todo → Fine { s with fe := fe } t' p' todo :=
    fun fe t' p' todo h => h.frame id (fun _ _ _ h => h) (fun _ _ _ _ h => h)
  cases hfine with
  | selectCheck desc =>
    obtain ⟨rfl, htodo⟩ := perform_check (hvalid desc rfl) h
    obtain hold | hnew := htodo
    . exact .of_eq htable (hold.1 ▸ .selectSend hold.2)
    . exact .of_eq htable (hnew ▸ .selectUpdate desc)
  | selectUpdate desc =>
    obtain ⟨htodo, htable', fe, group, rfl⟩ := perform_update htable hd hcs (hvalid desc rfl) h
    refine ⟨htable', htodo ▸ .selectSend (registered_enter desc group fe), rfl, ?_⟩
    exact fun t' p' todo _ hclash h => h.beside_select hclash
  | selectSend hreg =>
    obtain ⟨htodo, htable', fe, rfl⟩ := perform_send htable hd hcs hreg hreq (hlisted _ (.inl rfl)) h
    exact ⟨⟨_, htable'⟩, htodo ▸ .done _, rfl, fun t' p' todo _ _ h => hframe fe t' p' todo h⟩
  | toallSerialize desc =>
    simp only [NetLayer.perform] at h
    split at h
    . next hser =>
      cases h
      refine ⟨⟨groups, ⟨htable.session, htable.entry, htable.distinct, htable.confined⟩⟩,
        .toallCheck desc rfl, rfl, ?_⟩
      intro t' p' todo _ _ h
      refine h.frame (fun hser' => ?_) (fun _ _ _ h => h) (fun _ _ _ _ h => h)
      rw [hser] at hser'
      cases hser'
    . cases h
  | toallCheck desc hser =>
    obtain ⟨rfl, htodo⟩ := perform_check (hvalid desc rfl) h
    obtain hold | hnew := htodo
    . exact .of_eq htable (hold.1 ▸ .toallSend hser hold.2)
    . exact .of_eq htable (hnew ▸ .toallUpdate desc hser)
  | toallUpdate desc hser =>
    obtain ⟨htodo, htable', fe, group, rfl⟩ := perform_update htable hd hcs (hvalid desc rfl) h
    refine ⟨htable', htodo ▸ .toallSend hser (registered_enter desc group fe), rfl, ?_⟩
    exact fun t' p' todo hne hclash h => h.beside_toall hser hne hclash
  | toallSend hser hreg =>
    obtain ⟨htodo, htable', fe, rfl⟩ := perform_send htable hd hcs hreg hreq (hlisted _ (.inr rfl)) h
    exact ⟨⟨_, htable'⟩, htodo ▸ .toallFree _ hser, rfl, fun t' p' todo _ _ h => hframe fe t' p' todo h⟩
  | toallFree desc hser =>
    obtain ⟨htodo, htable', fe, rfl⟩ := perform_free htable hd hcs h
    refine ⟨htable', htodo ▸ .toallDeserialize desc hser, rfl, ?_⟩
    exact fun t' p' todo hne hclash h => h.beside_toall hser hne hclash
  | toallDeserialize desc hser =>
    cases h
    refine ⟨⟨groups, ⟨htable.session, htable.entry, htable.distinct, htable.confined⟩⟩, .done _, rfl, ?_⟩
    intro t' p' todo hne _ h
    refine h.frame (fun hser' => ?_) (fun _ _ _ h => h) (fun _ _ _ _ h => h)
    rw [hser, Option.some.injEq] at hser'
    exact absurd hser'.symm hne

end Perform

structure Inv (topo : Topology) (s : NetLayer) : Prop where
  table : ∃ groups, Table topo s groups
  valid : ∀ th ∈ s.threads, ∃ desc, (plan th.request.control.chars).desc = some desc ∧ Valid topo desc
  fine : ∀ (t : Nat) (th : Thread), s.threads[t]? = some th → Fine s t (plan th.request.control.chars) th.todo
  apart : ∀ (t t' : Nat) (th th' : Thread), s.threads[t]? = some th → s.threads[t']? = some th' → t' ≠ t →
    th.todo ≠ [] → th'.todo ≠ [] →
    (plan th.request.control.chars).clash (plan th'.request.control.chars) = false

theorem Confined.mono (h : ∀ req ∈ reqs, req ∈ reqs') (hmsg : Confined reqs S msg)
    : Confined reqs' S msg := by
  cases msg with
  | command g text =>
    have ⟨req, hreq, hrest⟩ := hmsg
    exact ⟨req, h req hreq, hrest⟩
  | _ => trivial

theorem Table.of_threads (h : Table topo s groups) {threads : List Thread}
    (hreqs : ∀ req ∈ s.requests, req ∈ threads.map Thread.request)
    : Table topo { s with threads := threads } groups :=
  ⟨h.session, h.entry, h.distinct, h.confined.mono (fun _ _ hmsg => hmsg.mono hreqs) _⟩

theorem Fine.of_threads (h : Fine s t p todo) (threads : List Thread)
    : Fine { s with threads := threads } t p todo :=
  h.frame id (fun _ _ _ h => h) (fun _ _ _ _ h => h)

theorem Fine.start (hdesc : p.desc = some desc) (hvalid : Valid topo desc) : Fine s t p (program p) := by
  cases p with
  | select desc => exact .selectCheck desc
  | toall desc' =>
    rw [Plan.desc, Option.some.injEq] at hdesc
    rw [program, if_pos (hdesc ▸ hvalid.1)]
    exact .toallSerialize desc'
  | _ => cases hdesc

theorem Inv.execute (h : Inv topo s) (hok : (Event.execute req).Allowed topo s)
    : Inv topo { s with threads := s.threads ++ [⟨req, program (plan req.control.chars)⟩] } := by
  have ⟨⟨desc, hdesc, hvalid⟩, hclash⟩ := hok
  have ⟨groups, htable⟩ := h.table
  have hcases : ∀ (t : Nat) (th : Thread), (s.threads ++ [⟨req, program (plan req.control.chars)⟩])[t]? = some th →
      (s.threads[t]? = some th) ∨ (t = s.threads.length ∧ th = ⟨req, program (plan req.control.chars)⟩) := by
    intro t th hth
    rw [List.getElem?_append] at hth
    split at hth
    . exact .inl hth
    . next hge =>
      have ⟨hlt, heq⟩ := getElem?_eq_some_iff.mp hth
      rw [List.length_singleton] at hlt
      refine .inr ⟨by omega, ?_⟩
      rw [List.getElem_singleton] at heq
      exact heq.symm
  refine ⟨⟨groups, htable.of_threads (fun r hr => by simp [requests] at hr ⊢; exact .inl hr)⟩, ?_, ?_, ?_⟩
  . intro th hth
    rw [List.mem_append, List.mem_singleton] at hth
    obtain hold | hnew := hth
    . exact h.valid th hold
    . exact ⟨desc, hnew ▸ hdesc, hvalid⟩
  . intro t th hth
    obtain hold | hnew := hcases t th hth
    . exact (h.fine t th hold).of_threads _
    . rw [hnew.2]
      exact Fine.start hdesc hvalid
  . intro t t' th th' hth hth' hne htodo htodo'
    obtain hold | hnew := hcases t th hth
    . obtain hold' | hnew' := hcases t' th' hth'
      . exact h.apart t t' th th' hold hold' hne htodo htodo'
      . exact hnew'.2 ▸ hclash th (List.mem_of_getElem? hold) htodo
    . obtain hold' | hnew' := hcases t' th' hth'
      . rw [Plan.clash_comm]
        exact hnew.2 ▸ hclash th' (List.mem_of_getElem? hold') htodo'
      . exact absurd (hnew'.1.trans hnew.1.symm) hne

section Inv

variable (h : Inv topo s) (hd : topo.Deployable a) (hcs : Sci.ChildrenOk topo.children)

include h hd hcs

theorem Inv.step (hexec : (Event.step t garbage).exec s = some s') : Inv topo s' := by
  have ⟨groups, htable⟩ := h.table
  simp only [Event.exec, Option.bind_eq_bind, Option.bind_eq_some_iff] at hexec
  have ⟨th, hth, hexec⟩ := hexec
  split at hexec
  . cases hexec
  . next op rest htodo =>
    simp only [Option.bind_eq_some_iff, Option.pure_def, Option.some.injEq] at hexec
    have ⟨⟨s₁, todo'⟩, hperform, heq⟩ := hexec
    have hmem := List.mem_of_getElem? hth
    have ⟨desc, hdesc, hvalid⟩ := h.valid th hmem
    have hfine := h.fine t th hth
    rw [htodo] at hfine
    have ⟨⟨groups', htable'⟩, hfine', hthreads, hothers⟩ :=
      hfine.perform htable hd hcs (fun desc' hdesc' => by
        rw [hdesc, Option.some.injEq] at hdesc'
        exact hdesc' ▸ hvalid) (List.mem_map_of_mem hmem) rfl hperform
    have hlt := (getElem?_eq_some_iff.mp hth).1
    have hbusy : th.todo ≠ [] := by simp [htodo]
    have hcases : ∀ (t' : Nat) (th' : Thread), (s.threads.set t { th with todo := todo' })[t']? = some th' →
        (t' = t ∧ th' = { th with todo := todo' }) ∨ (t' ≠ t ∧ s.threads[t']? = some th') := by
      intro t' th' hth'
      by_cases hne : t' = t
      . rw [hne, List.getElem?_set_self hlt, Option.some.injEq] at hth'
        exact .inl ⟨hne, hth'.symm⟩
      . rw [List.getElem?_set_ne (Ne.symm hne)] at hth'
        exact .inr ⟨hne, hth'⟩
    have hreqs : (s.threads.set t { th with todo := todo' }).map Thread.request = s.requests := by
      apply List.ext_getElem?
      intro i
      rw [requests, List.getElem?_map, List.getElem?_map]
      by_cases hi : i = t
      . rw [hi, List.getElem?_set_self hlt, hth]
        rfl
      . rw [List.getElem?_set_ne (Ne.symm hi)]
    subst heq
    dsimp only
    rw [hthreads]
    refine ⟨⟨groups', htable'.of_threads ?_⟩, ?_, ?_, ?_⟩
    . intro req hreq
      rw [hreqs]
      rw [requests, hthreads] at hreq
      exact hreq
    . intro th' hth'
      have ⟨t', hth'⟩ := List.getElem?_of_mem hth'
      obtain hself | hother := hcases t' th' hth'
      . exact hself.2 ▸ ⟨desc, hdesc, hvalid⟩
      . exact h.valid th' (List.mem_of_getElem? hother.2)
    . intro t' th' hth'
      obtain hself | hother := hcases t' th' hth'
      . rw [hself.1, hself.2]
        exact hfine'.of_threads _
      . refine (hothers t' _ _ hother.1 ?_ (h.fine t' th' hother.2)).of_threads _
        exact h.apart t t' th th' hth hother.2 hother.1 hbusy
    . intro t₁ t₂ th₁ th₂ hth₁ hth₂ hne htodo₁ htodo₂
      obtain hself₁ | hother₁ := hcases t₁ th₁ hth₁
      . obtain hself₂ | hother₂ := hcases t₂ th₂ hth₂
        . exact absurd (hself₂.1.trans hself₁.1.symm) hne
        . exact hself₁.2 ▸ h.apart t t₂ th th₂ hth hother₂.2 hother₂.1 hbusy htodo₂
      . obtain hself₂ | hother₂ := hcases t₂ th₂ hth₂
        . exact hself₂.2 ▸ h.apart t₁ t th₁ th hother₁.2 hth (Ne.symm hother₁.1) htodo₁ hbusy
        . exact h.apart t₁ t₂ th₁ th₂ hother₁.2 hother₂.2 hne htodo₁ htodo₂

theorem Inv.exec (hstep : Guarded (Event.Allowed topo) Event.Step s e s') : Inv topo s' := by
  have ⟨hok, hexec⟩ := hstep
  cases e with
  | execute req =>
    cases hexec
    exact h.execute hok
  | step t garbage => exact h.step hd hcs hexec

end Inv

theorem Inv.start {fe : FrontEnd} (h : Session.Inv topo (.start topo fe)) (hrouter : fe.routerIn.tail = [])
    : Inv topo (NetLayer.start fe) := by
  refine ⟨⟨_, h, by simp [NetLayer.start], by simp [NetLayer.start], ?_⟩, by simp [NetLayer.start],
    by simp [NetLayer.start], by simp [NetLayer.start]⟩
  rw [NetLayer.start, hrouter]
  trivial

theorem mem_relevant (h : Relay.Admits Message.after (Confined reqs) S hist)
    (hmem : .command g text ∈ Relay.relevant Message.after Message.target {b} S hist)
    : ∃ req ∈ reqs, text = content req.pack ∧ ∃ l, (plan req.control.chars).listed = some l ∧ b ∈ l := by
  induction hist generalizing S with
  | nil => simp [Relay.relevant] at hmem
  | cons msg hist ih =>
    rw [Relay.relevant, List.mem_append] at hmem
    obtain hhead | htail := hmem
    . by_cases hmeets : Relay.Meets Message.target {b} S msg
      . rw [Relay.passed_of_meets hmeets, List.mem_singleton] at hhead
        subst hhead
        obtain ⟨req, hreq, htext, l, hlisted, hsub⟩ := h.1
        exact ⟨req, hreq, htext, l, hlisted, hsub b (Relay.meets_singleton.mp hmeets)⟩
      . rw [Relay.passed_of_not_meets hmeets] at hhead
        cases hhead
    . exact ih h.2 htail

theorem commands_stay_in_group (topo : Topology) (hroot : topo.agentID = -1)
    (hids : Sci.Consecutive 0 topo.beMap) (hn : topo.beMap ≠ []) (hf : 2 ≤ topo.fanOut)
    (hvalid : ∀ t, Sci.Deployed topo t → t.agentID ≠ Sci.VALIDBACKENDIDS) (hfits : topo.FitsBuffer)
    : ∃ fe, FrontEnd.init topo = some fe ∧
        ∀ (events : List Event) (s : NetLayer),
          Run (Guarded (Event.Allowed topo) Event.Step) (.start fe) events s →
            ∃ out, (∀ fuel, topo.beMap.length ≤ fuel → deliver fuel s.fe.routerIn = some out)
              ∧
            ∀ b q g text, (b, q) ∈ out → .command g text ∈ q →
              ∃ req ∈ s.requests, text = content req.pack ∧
                ∃ l, (plan req.control.chars).listed = some l ∧ b ∈ l := by
  have hd : topo.Deployable 0 := ⟨hf, by omega, Int.le_refl _, hn, hids⟩
  have hvalid' : ∀ t, .agent t ∈ topo.children → t.agentID ≠ Sci.VALIDBACKENDIDS :=
    fun t ht => hvalid t (.child .root ht)
  have hcs := Topology.childrenOk hd hvalid' hfits
  obtain ⟨fe, hinit, hstart⟩ := Session.Inv.start hd hvalid'
  have hrouter : fe.routerIn.tail = [] := by
    simp only [FrontEnd.init, Option.bind_eq_bind, Option.bind_eq_some_iff, Option.pure_def,
      Option.some.injEq] at hinit
    obtain ⟨_, _, rfl⟩ := hinit
    rfl
  refine ⟨fe, hinit, ?_⟩
  intro events s hrun
  have hinv := hrun.invariant (Inv topo) (fun _ _ _ h hstep => h.exec hd hcs hstep) (.start hstart hrouter)
  obtain ⟨groups, htable⟩ := hinv.table
  obtain ⟨hist, hlogged⟩ := htable.session.logged
  obtain ⟨out, hdeliver, hdelivered⟩ := hlogged.deliverBy (fun _ _ _ => rfl) hd hvalid hfits
  refine ⟨out, hdeliver, ?_⟩
  intro b q g text hq hmem
  have hconfined := htable.confined
  rw [hlogged.routerIn, List.tail_cons] at hconfined
  have hqueue : q = _ := hdelivered.exact (b, q) hq
  rw [hqueue] at hmem
  exact mem_relevant hconfined hmem

section Example

def toallZero : Request := ⟨1, 0, ⟨"toall=g:0", by decide, by decide⟩, ⟨"uptime", by decide, by decide⟩⟩

def selectOne : Request := ⟨2, 0, ⟨"select=g:1", by decide, by decide⟩, ⟨"reboot", by decide, by decide⟩⟩

def selectRange : Request :=
  ⟨3, 0, ⟨"select=h:2-3,1 cpu=1", by decide, by decide⟩, ⟨"uptime", by decide, by decide⟩⟩

def toallNobody : Request := ⟨4, 0, ⟨"toall=g:", by decide, by decide⟩, ⟨"reboot", by decide, by decide⟩⟩

def sideBySide : List Event :=
  [.execute toallZero, .step 0 0, .step 0 0, .execute selectRange, .step 1 0, .step 0 0, .step 1 0, .step 0 0,
    .step 1 0, .step 0 0, .step 0 0]

theorem commands_stay_in_group_sideBySide
    : ∃ fe s out,
        FrontEnd.init Sci.fiveBackEnds = some fe
          ∧
        Run (Guarded (Event.Allowed Sci.fiveBackEnds) Event.Step) (.start fe) sideBySide s
          ∧
        s.threads = [⟨toallZero, []⟩, ⟨selectRange, []⟩]
          ∧
        deliver 5 s.fe.routerIn = some out
          ∧
        ∀ b q g text, (b, q) ∈ out → .command g text ∈ q →
          ∃ req ∈ s.requests, text = content req.pack ∧
            ∃ l, (plan req.control.chars).listed = Option.some l ∧ b ∈ l := by
  have hd : Sci.fiveBackEnds.Deployable 0 := by
    constructor <;> simp [Sci.fiveBackEnds, Sci.Consecutive]
  obtain ⟨fe, hinit, hstay⟩ := commands_stay_in_group Sci.fiveBackEnds rfl hd.consecutive hd.nonempty
    hd.fanOut (fun _ ht => (Sci.fiveBackEnds_deployed ht).1) (.inl (by decide))
  have hcheck : (FrontEnd.init Sci.fiveBackEnds).any (fun fe =>
      (sideBySide.foldlM (fun (s : NetLayer) (e : Event) =>
        if e.Allowed Sci.fiveBackEnds s then e.exec s else none) (.start fe)).any
          (fun s : NetLayer => s.threads = [⟨toallZero, []⟩, ⟨selectRange, []⟩])) = true := by
    decide +kernel
  rw [hinit, Option.any_some] at hcheck
  obtain ⟨s, hrun, hthreads⟩ := Run.exists_of_checked _ hcheck (fun _ _ h => h)
  obtain ⟨out, hdeliver, hlisted⟩ := hstay _ s hrun
  exact ⟨fe, s, out, hinit, hrun, hthreads, hdeliver 5 (by decide), hlisted⟩

theorem commands_leave_group
    : (∃ fe s out q g,
        FrontEnd.init Sci.fiveBackEnds = some fe
          ∧
        [Event.execute toallZero, .step 0 0, .step 0 0, .step 0 0, .execute selectOne, .step 1 0, .step 1 0,
          .step 0 0].foldlM Event.exec (.start fe) = some s
          ∧
        deliver 5 s.fe.routerIn = some out
          ∧
        (1, q) ∈ out ∧ .command g (content toallZero.pack) ∈ q
          ∧
        (plan toallZero.control.chars).listed = some [0])
        ∧
      (∃ fe s out q g,
        FrontEnd.init Sci.fiveBackEnds = some fe
          ∧
        [Event.execute toallNobody, .step 0 0, .step 0 0, .step 0 0, .step 0 0].foldlM Event.exec (.start fe)
          =
        some s
          ∧
        deliver 5 s.fe.routerIn = some out
          ∧
        (4, q) ∈ out ∧ .command g (content toallNobody.pack) ∈ q
          ∧
        (plan toallNobody.control.chars).listed = none ∧ respond (plan toallNobody.control.chars) = .ok) := by
  have hswap : (FrontEnd.init Sci.fiveBackEnds).any (fun fe =>
      ([Event.execute toallZero, .step 0 0, .step 0 0, .step 0 0, .execute selectOne, .step 1 0, .step 1 0,
        .step 0 0].foldlM Event.exec (.start fe)).any (fun s : NetLayer =>
          (deliver 5 s.fe.routerIn).any (fun out => out.any (fun e =>
            e.1 = 1 && e.2.contains (.command (-3) (content toallZero.pack)))))) = true := by
    decide +kernel
  have hall : (FrontEnd.init Sci.fiveBackEnds).any (fun fe =>
      ([Event.execute toallNobody, .step 0 0, .step 0 0, .step 0 0, .step 0 0].foldlM
        Event.exec (.start fe)).any (fun s : NetLayer =>
          (deliver 5 s.fe.routerIn).any (fun out => out.any (fun e =>
            e.1 = 4 && e.2.contains (.command (-1) (content toallNobody.pack)))))) = true := by
    decide +kernel
  simp only [Option.any_eq_true, List.any_eq_true, Bool.and_eq_true, decide_eq_true_eq,
    List.contains_iff_mem] at hswap hall
  have ⟨fe, hinit, s, hs, out, hout, e, he, hid, hmem⟩ := hswap
  have ⟨fe', hinit', s', hs', out', hout', e', he', hid', hmem'⟩ := hall
  refine ⟨⟨fe, s, out, e.2, -3, hinit, hs, hout, ?_, hmem, by decide +kernel⟩,
    fe', s', out', e'.2, -1, hinit', hs', hout', ?_, hmem', by decide +kernel, by decide +kernel⟩
  . rw [← hid]
    exact he
  . rw [← hid']
    exact he'

end Example

end NetLayer
