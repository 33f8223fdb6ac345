import Cloudland.Core.Cloud

/-!
Which back end a request is routed to, and when it is turned down.
-/

open CString Scheduler List Function
open Sci (SCI_GROUP_ALL)

namespace Overlay

variable {tree : Overlay} {n c : Int}

theorem mem_nodes (h : c ∈ tree.children n) : n ∈ tree.nodes := by
  by_contra hn
  rw [tree.no_children n hn] at h
  cases h

theorem go_eq (h : tree.rank n < fuel) (h' : tree.rank n < fuel')
    : below.go tree fuel n = below.go tree fuel' n := by
  induction fuel generalizing n fuel' with
  | zero => omega
  | succ fuel ih =>
    cases fuel' with
    | zero => omega
    | succ fuel' =>
      rw [below.go, below.go]
      split
      . rfl
      . apply flatMap_congr
        intro c hc
        have hlt := tree.rank_lt n (mem_nodes hc) c hc
        exact ih (by omega) (by omega)

theorem below_eq (tree : Overlay) (n : Int)
    : tree.below n = if 0 ≤ n then [n] else (tree.children n).flatMap tree.below := by
  rw [below, below.go]
  split
  . rfl
  . apply flatMap_congr
    intro c hc
    have hlt := tree.rank_lt n (mem_nodes hc) c hc
    exact go_eq hlt (by omega)

theorem mem_below (hn : n < 0) : b ∈ tree.below n ↔ ∃ c ∈ tree.children n, b ∈ tree.below c := by
  rw [below_eq, if_neg (Int.not_le.mpr hn), mem_flatMap]

theorem toInt_ofInt_child (h : c ∈ tree.children n) : (Int32.ofInt c).toInt = c := by
  have ⟨hlow, hhigh⟩ := tree.fits n (mem_nodes h) c h
  exact Int32.toInt_ofInt_of_le (by simpa using hlow) (by simpa using hhigh)

end Overlay

namespace Scheduler

variable {env : Env} {filter : Filter} {group : Int} {f : Fields}

theorem getValue_lt (message key : CString) : getValue message key < 2 ^ 63 := by
  have hatol : ∀ s, atol s < 2 ^ 63 := by
    intro s
    unfold atol
    split <;> unfold saturate <;> omega
  unfold getValue
  split
  . exact hatol _
  . decide

theorem rcMap_filterInput
    : (filterInput env filter group f).1.rcManager.rcMap
        =
      if has f.control "report" then
        filter.rcManager.rcMap.insert f.beID.toInt (reported f.message)
      else
        filter.rcManager.rcMap := by
  have htopology : ∀ msgID, (reportTopology env filter msgID).1.rcManager = filter.rcManager := by
    intro msgID
    unfold reportTopology
    split <;> rfl
  have hschedule : (schedule env filter group f).1.rcManager.rcMap = filter.rcManager.rcMap := by
    unfold schedule
    dsimp only
    split <;> simp
  unfold filterInput
  split
  . rfl
  . split
    . dsimp only
      split
      . split
        . rw [htopology]
        . rfl
      . exact hschedule
    . split
      . split
        . exact congrArg _ (htopology _)
        . rfl
      . rfl

theorem beID_of_upload (h : .upload g reply ∈ (filterInput env filter group f).2)
    : reply.beID = env.myID := by
  have htopology : ∀ msgID, .upload g reply ∈ (reportTopology env filter msgID).2 → reply.beID = env.myID := by
    intro msgID hmem
    unfold reportTopology at hmem
    split at hmem
    . cases hmem
    . unfold uploadTopology at hmem
      split at hmem
      . cases hmem
      . cases mem_singleton.mp hmem
        rfl
  have hbcast : .upload g reply ∉ bcastMessage env group := by
    unfold bcastMessage
    split <;> simp
  have hschedule : .upload g reply ∈ (schedule env filter group f).2 → reply.beID = env.myID := by
    intro hmem
    unfold schedule at hmem
    dsimp only at hmem
    split at hmem
    . simp at hmem
    . cases mem_singleton.mp hmem
      rfl
  unfold filterInput at h
  split at h
  . cases h
  . split at h
    . dsimp only at h
      split at h
      . split at h
        . exact htopology _ h
        . exact absurd h hbcast
      . exact hschedule h
    . split at h
      . split at h
        . obtain h | h := mem_append.mp h
          . exact htopology _ h
          . exact absurd h hbcast
        . exact absurd h hbcast
      . cases mem_singleton.mp h
        rfl

end Scheduler

namespace Cloud

structure Inv (s : Cloud) : Prop where
  known : ∀ n b, b ∈ s.tree.children n → 0 ≤ b → (s.filters n).rcManager.rcMap[b]? = s.last b
  queued : ∀ n, ∀ m ∈ s.queues n, m.2.beID.toInt ∈ s.tree.children n

variable {s s' : Cloud} {n c g b : Int} {f reply : Fields} {filter : Filter}

theorem Inv.start (tree : Overlay) : (Cloud.start tree).Inv :=
  ⟨fun _ _ _ _ => rfl, by simp [Cloud.start]⟩

theorem Inv.setQueue (h : s.Inv) (hqueue : ∀ m ∈ queue, m.2.beID.toInt ∈ s.tree.children n)
    : Inv { s with queues := update s.queues n queue } := by
  refine ⟨h.known, ?_⟩
  intro n' m hm
  dsimp only at hm
  by_cases hn : n' = n
  . rw [hn, update_self] at hm
    exact hn ▸ hqueue m hm
  . rw [update_of_ne hn] at hm
    exact h.queued n' m hm

theorem Inv.enqueue (h : s.Inv) (hf : f.beID.toInt ∈ s.tree.children n)
    : Inv { s with queues := update s.queues n (s.queues n ++ [(g, f)]) } :=
  h.setQueue (forall_mem_append.mpr ⟨h.queued n, by simpa using hf⟩)

theorem Inv.upload (h : s.Inv) (hn : n ∈ s.tree.nodes) (hf : f.beID = Int32.ofInt n) : (s.upload n g f).Inv := by
  unfold Cloud.upload
  split
  . exact ⟨h.known, h.queued⟩
  . next hne =>
    have hplaced := ((s.tree.placed n hn).resolve_left hne).2
    refine h.enqueue ?_
    rw [hf, Overlay.toInt_ofInt_child hplaced]
    exact hplaced

@[simp]
theorem tree_upload : (s.upload n g f).tree = s.tree := by
  unfold Cloud.upload
  split <;> rfl

theorem Inv.perform (h : s.Inv) (hn : n ∈ s.tree.nodes)
    (hactions : ∀ g reply, .upload g reply ∈ actions → reply.beID = Int32.ofInt n)
    : (s.perform n actions).Inv := by
  unfold Cloud.perform
  induction actions generalizing s with
  | nil => exact h
  | cons action actions ih =>
    rw [foldl_cons]
    have hrest : ∀ g reply, .upload g reply ∈ actions → reply.beID = Int32.ofInt n :=
      fun g reply hmem => hactions g reply (mem_cons_of_mem _ hmem)
    cases action with
    | bcast successors => exact ih h hn hrest
    | upload g reply =>
      exact ih (h.upload hn (hactions g reply mem_cons_self)) (by rwa [tree_upload]) hrest

theorem Inv.setFilter (h : s.Inv) (hmap : filter.rcManager.rcMap = (s.filters n).rcManager.rcMap)
    : (s.setFilter n filter).Inv := by
  refine ⟨?_, h.queued⟩
  intro n' b hb hpos
  rw [Cloud.setFilter]
  dsimp only
  by_cases hn : n' = n
  . rw [hn, update_self, hmap]
    exact h.known n b (hn ▸ hb) hpos
  . rw [update_of_ne hn]
    exact h.known n' b hb hpos

theorem Inv.report (h : s.Inv) (hc : c ∈ s.tree.children n)
    (hmap : filter.rcManager.rcMap = (s.filters n).rcManager.rcMap.insert c resc)
    : Inv (({ s with
        last := if 0 ≤ c then update s.last c (some resc) else s.last } : Cloud).setFilter n filter) := by
  refine ⟨?_, h.queued⟩
  intro n' b hb hpos
  rw [Cloud.setFilter]
  dsimp only
  by_cases hbc : b = c
  . subst hbc
    have hn : n' = n := by
      rw [← s.tree.parent_eq n' (Overlay.mem_nodes hb) b hb, s.tree.parent_eq n (Overlay.mem_nodes hc) b hc]
    rw [hn, update_self, if_pos hpos, update_self, hmap]
    simp
  . have hlast : (if 0 ≤ c then update s.last c (some resc) else s.last) b = s.last b := by
      split
      . exact update_of_ne hbc ..
      . rfl
    rw [hlast]
    by_cases hn : n' = n
    . rw [hn, update_self, hmap, OrdMap.getElem?_insert_of_ne (Ne.symm hbc)]
      exact h.known n b (hn ▸ hb) hpos
    . rw [update_of_ne hn]
      exact h.known n' b hb hpos

theorem Inv.process (h : s.Inv) (hexec : s.process n = some s') : s'.Inv := by
  unfold Cloud.process at hexec
  split at hexec
  . cases hexec
  . next g f queue hqueue =>
    have hsender := h.queued n (g, f) (hqueue ▸ mem_cons_self)
    have hn := Overlay.mem_nodes hsender
    have hdequeued := h.setQueue (fun m hm => h.queued n m (hqueue ▸ mem_cons_of_mem _ hm))
    have huploads : ∀ g' reply, .upload g' reply ∈ (filterInput (s.env n) (s.filters n) g f).2 →
        reply.beID = Int32.ofInt n := fun g' reply hmem => beID_of_upload hmem
    have hmap := @rcMap_filterInput (s.env n) (s.filters n) g f
    rw [Option.some.injEq] at hexec
    by_cases hreport : has f.control "report" = true
    . rw [if_pos hreport] at hmap
      have hentered := hdequeued.report hsender hmap
      rw [← hexec]
      by_cases hpos : 0 ≤ f.beID.toInt
      . rw [if_pos hpos] at hentered
        rw [if_pos (by simp [hreport, hpos])]
        exact hentered.perform hn huploads
      . rw [if_neg hpos] at hentered
        rw [if_neg (by simp [hpos])]
        exact hentered.perform hn huploads
    . rw [if_neg hreport] at hmap
      rw [← hexec, if_neg (by simp [hreport])]
      exact (hdequeued.setFilter hmap).perform hn huploads

theorem route_succ (hreq : f.IsRequest) (hn : n ∈ s.tree.nodes) (fuel : Nat)
    : ∃ filter, filter.rcManager.rcMap = (s.filters n).rcManager.rcMap ∧
        ((∃ c ∈ s.successors n g, (s.filters n).rcManager.Usable (demanded f.control) (s.recovery n) c ∧
          route (fuel + 1) s n g f
            =
          if 0 ≤ c then (s.setFilter n filter, .routed c) else route fuel (s.setFilter n filter) c g f)
          ∨
        ((∀ c ∈ s.successors n g, ¬(s.filters n).rcManager.Usable (demanded f.control) (s.recovery n) c) ∧
          ∃ reply, reply.beID = Int32.ofInt n ∧ reply.control = ofString "error=resource" ∧
            route (fuel + 1) s n g f = ((s.setFilter n filter).upload n g reply, .answered reply))) := by
  have hmap := @rcMap_filterInput (s.env n) (s.filters n) g f
  rw [if_neg hreq.1] at hmap
  refine ⟨_, hmap, ?_⟩
  simp only [route, filterInput_request hreq]
  have hspec := @ResourceManager.getBestBranch_spec (s.filters n).rcManager (demanded f.control)
    (s.successors n g) (s.recovery n)
  obtain hfound | hnone := hspec
  . have hchild := (mem_filter.mp hfound.1).1
    have hne : ((s.filters n).rcManager.getBestBranch (demanded f.control) (s.successors n g)
        (s.recovery n)).2 ≠ -1 := by
      intro heq
      rw [heq] at hchild
      exact s.tree.front_end_not_child n hn hchild
    refine .inl ⟨_, hfound.1, hfound.2, ?_⟩
    simp only [schedule, env, hne, ne_eq, not_false_eq_true, if_true]
  . refine .inr ⟨hnone.2, ⟨f.msgID, Int32.ofInt n, ofString "error=resource", f.message, []⟩, rfl, rfl, ?_⟩
    simp [schedule, env, hnone.1, uploadMessage]

theorem Inv.route (h : s.Inv) (hreq : f.IsRequest) (hn : n ∈ s.tree.nodes) (fuel : Nat)
    : (Cloud.route fuel s n g f).1.Inv := by
  induction fuel generalizing s n with
  | zero => exact h
  | succ fuel ih =>
    have ⟨filter, hmap, hcases⟩ := @route_succ s n g f hreq hn fuel
    obtain ⟨c, hc, _, heq⟩ | ⟨_, reply, hreply, _, heq⟩ := hcases
    . rw [heq]
      split
      . exact h.setFilter hmap
      . next hneg =>
        exact ih (h.setFilter hmap)
          (s.tree.agents_mem n hn c (mem_filter.mp hc).1 (Int.not_le.mp hneg))
    . rw [heq]
      exact (h.setFilter hmap).upload hn hreply

theorem Inv.exec (h : s.Inv) {e : Event} (hexec : e.exec s = some s') : s'.Inv := by
  cases e with
  | report n b result =>
    simp only [Event.exec] at hexec
    split at hexec
    . next hb =>
      cases hexec
      refine h.enqueue ?_
      rw [Cloudlet.report, Overlay.toInt_ofInt_child hb.1]
      exact hb.1
    . cases hexec
  | total n =>
    simp only [Event.exec] at hexec
    split at hexec
    . next hn =>
      cases hexec
      refine h.perform hn ?_
      intro g reply hmem
      unfold reportAvailibility at hmem
      split at hmem
      . cases mem_singleton.mp hmem
        rfl
      . cases hmem
    . cases hexec
  | process n => exact h.process hexec
  | request g f =>
    simp only [Event.exec] at hexec
    split at hexec
    . next hreq =>
      cases hexec
      exact h.route hreq s.tree.front_end_mem _
    . cases hexec
  | leave b =>
    cases hexec
    exact ⟨h.known, h.queued⟩
  | comeBack b =>
    cases hexec
    exact ⟨h.known, h.queued⟩
  | recover n children =>
    cases hexec
    exact ⟨h.known, h.queued⟩
  | regroup g members =>
    cases hexec
    exact ⟨h.known, h.queued⟩

def CanServe (s : Cloud) (g : Int) (need : Demand) (b : Int) : Prop :=
  s.inGroup g b = true ∧ ∃ resc ∈ s.last b, resc.Covers need

instance (s : Cloud) (g : Int) (need : Demand) : DecidablePred (s.CanServe g need) := fun _ =>
  inferInstanceAs (Decidable (_ ∧ _))

structure Honest (s : Cloud) (g : Int) (need : Demand) : Prop where
  promise : ∀ n ∈ s.tree.nodes, ∀ c ∈ s.successors n g, c < 0 → c ∉ s.recovery n →
    (∃ resc ∈ (s.filters n).rcManager.rcMap[c]?, resc.Covers need) →
    ∃ b ∈ s.tree.below c, s.CanServe g need b
  report : ∀ n ∈ s.tree.nodes, ∀ c ∈ s.tree.children n, (∃ b ∈ s.tree.below c, s.CanServe g need b) →
    c ∉ s.recovery n ∧ ∃ resc ∈ (s.filters n).rcManager.rcMap[c]?, resc.Covers need ∧ resc.Small

instance (s : Cloud) (g : Int) (need : Demand) : Decidable (s.Honest g need) :=
  decidable_of_iff (_ ∧ _) ⟨fun h => ⟨h.1, h.2⟩, fun h => ⟨h.promise, h.report⟩⟩

theorem Honest.setFilter (h : s.Honest g need) (hmap : filter.rcManager.rcMap = (s.filters n).rcManager.rcMap)
    : (s.setFilter n filter).Honest g need := by
  have hsame : ∀ n', ((s.setFilter n filter).filters n').rcManager.rcMap = (s.filters n').rcManager.rcMap := by
    intro n'
    rw [Cloud.setFilter]
    dsimp only
    by_cases hn : n' = n
    . rw [hn, update_self, hmap]
    . rw [update_of_ne hn]
  refine ⟨?_, ?_⟩
  . intro n' hn' c hc hneg hrecovery hpromise
    rw [hsame] at hpromise
    exact h.promise n' hn' c hc hneg hrecovery hpromise
  . intro n' hn' c hc hserve
    rw [hsame]
    exact h.report n' hn' c hc hserve

theorem canServe_of_routed (h : s.Inv) (hreq : f.IsRequest) (hn : n ∈ s.tree.nodes)
    (hrouted : (Cloud.route fuel s n g f).2 = .routed b)
    : s.CanServe g (demanded f.control) b := by
  induction fuel generalizing s n with
  | zero => cases hrouted
  | succ fuel ih =>
    have ⟨filter, hmap, hcases⟩ := @route_succ s n g f hreq hn fuel
    obtain ⟨c, hc, husable, heq⟩ | ⟨_, reply, _, _, heq⟩ := hcases
    . have ⟨hchild, hgroup⟩ := mem_filter.mp hc
      rw [heq] at hrouted
      split at hrouted
      . next hpos =>
        cases hrouted
        have ⟨_, resc, hresc, htest⟩ := husable
        refine ⟨?_, resc, ?_, ?_⟩
        . rw [Overlay.below_eq, if_pos hpos] at hgroup
          simpa [Int.not_lt.mpr hpos] using hgroup
        . rw [Option.mem_def, ← h.known n b hchild hpos]
          exact hresc
        . exact Resource.covers_of_testResource_pos ⟨getValue_lt _ _, getValue_lt _ _, getValue_lt _ _⟩ htest
      . next hneg =>
        exact @ih (s.setFilter n filter) c (h.setFilter hmap)
          (s.tree.agents_mem n hn c hchild (Int.not_le.mp hneg)) hrouted
    . rw [heq] at hrouted
      cases hrouted

theorem not_answered_of_canServe (hreq : f.IsRequest) (hn : n ∈ s.tree.nodes) (hneg : n < 0)
    (hneed : 0 ≤ (demanded f.control).cpu ∧ 0 ≤ (demanded f.control).memory ∧ 0 ≤ (demanded f.control).disk)
    (hhonest : s.Honest g (demanded f.control)) (hfuel : s.tree.rank n < fuel)
    (hserve : ∃ b ∈ s.tree.below n, s.CanServe g (demanded f.control) b)
    : ∃ b, (Cloud.route fuel s n g f).2 = .routed b := by
  induction fuel generalizing s n with
  | zero => omega
  | succ fuel ih =>
    have ⟨filter, hmap, hcases⟩ := @route_succ s n g f hreq hn fuel
    have ⟨b, hb, hserveb⟩ := hserve
    have ⟨c', hc', hbelow⟩ := (Overlay.mem_below hneg).mp hb
    have ⟨hwell, resc, hresc, hcovers, hsmall⟩ := hhonest.report n hn c' hc' ⟨b, hbelow, hserveb⟩
    obtain ⟨c, hc, husable, heq⟩ | hnone := hcases
    . have hchild := (mem_filter.mp hc).1
      rw [heq]
      split
      . exact ⟨c, rfl⟩
      . next hagent =>
        have hagent := Int.not_le.mp hagent
        have ⟨hrecovery, resc, hresc, htest⟩ := husable
        have hcovers := Resource.covers_of_testResource_pos
          ⟨getValue_lt _ _, getValue_lt _ _, getValue_lt _ _⟩ htest
        have hrank := s.tree.rank_lt n hn c hchild
        exact @ih (s.setFilter n filter) c (s.tree.agents_mem n hn c hchild hagent) hagent
          (hhonest.setFilter hmap) (show s.tree.rank c < fuel by omega)
          (hhonest.promise n hn c hc hagent hrecovery ⟨resc, hresc, hcovers⟩)
    . have hsuccessor : c' ∈ s.successors n g := by
        refine mem_filter.mpr ⟨hc', ?_⟩
        exact Bool.or_eq_true_iff.mpr (.inr (any_eq_true.mpr ⟨b, hbelow, hserveb.1⟩))
      refine absurd ⟨hwell, resc, hresc, ?_⟩ (hnone.1 c' hsuccessor)
      exact Resource.testResource_pos hneed hcovers hsmall

theorem route_total (hreq : f.IsRequest) (hn : n ∈ s.tree.nodes) {fuel : Nat} (hfuel : s.tree.rank n < fuel)
    : (∃ b, (Cloud.route fuel s n g f).2 = .routed b)
        ∨
      ∃ reply, (Cloud.route fuel s n g f).2 = .answered reply ∧ reply.control = ofString "error=resource" := by
  induction fuel generalizing s n with
  | zero => omega
  | succ fuel ih =>
    have ⟨filter, _, hcases⟩ := @route_succ s n g f hreq hn fuel
    obtain ⟨c, hc, _, heq⟩ | ⟨_, reply, _, hcontrol, heq⟩ := hcases
    . have hchild := (mem_filter.mp hc).1
      rw [heq]
      split
      . exact .inl ⟨c, rfl⟩
      . next hagent =>
        have hrank := s.tree.rank_lt n hn c hchild
        exact @ih (s.setFilter n filter) c (s.tree.agents_mem n hn c hchild (Int.not_le.mp hagent))
          (show s.tree.rank c < fuel by omega)
    . rw [heq]
      exact .inr ⟨reply, rfl, hcontrol⟩

section Example

def threeBackEnds : Overlay where
  nodes := [-1, -2, -3]
  children n := if n = -1 then [-2, -3] else if n = -2 then [0, 1] else if n = -3 then [2] else []
  parent n := if n = 0 ∨ n = 1 then -2 else if n = 2 then -3 else -1
  rank n := if n = -1 then 2 else if n < 0 then 1 else 0
  front_end_mem := by decide
  agents_mem := by decide
  placed := by decide
  no_children := by
    intro n hn
    simp only [mem_cons, not_mem_nil, or_false, not_or] at hn
    rw [if_neg hn.1, if_neg hn.2.1, if_neg hn.2.2]
  parent_eq := by decide
  rank_lt := by decide
  front_end_not_child := by decide
  fits := by decide

def oneOfEach : Text := ⟨"'cpu=1/1' 'memory=1/1' 'disk=1/1'", by decide, by decide⟩

def twoOfEach : Text := ⟨"'cpu=2/2' 'memory=2/2' 'disk=2/2'", by decide, by decide⟩

def wantsTwo : Fields := ⟨5, 0, "inter= cpu=2 memory=2 disk=2", "launch_vm.sh", []⟩

def reports (first second third : Text) : List Event :=
  [.report (-2) 0 first, .report (-2) 1 second, .report (-3) 2 third, .process (-2), .process (-3),
    .process (-2), .total (-2), .total (-3), .process (-1), .process (-1)]

end Example

end Cloud
