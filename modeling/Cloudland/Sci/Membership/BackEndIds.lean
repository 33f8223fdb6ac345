import Cloudland.Sci.Membership.Invariant

/-!
The ids of back ends that are added through the front end (`libsci/api.cpp`, `libsci/allocator.cpp`), by any
number of threads.
-/

namespace Sci

open OrdMap Option
open Std (ExtTreeMap)

inductive Request where
  | add (auto : Bool) (be_id : Int) (host : String) (lev : Int)
  | remove (be_id : Int)
  deriving DecidableEq

namespace Request

def adds : Request → Option Int
  | .add _ be_id _ _ => some be_id
  | .remove _ => none

def isAuto : Request → Bool
  | .add auto _ _ _ => auto
  | .remove _ => false

def exec (n : Node) (launch : Launch) : Request → Option (Node × SciRc)
  | .add _ be_id host lev => n.addBE be_id host lev launch
  | .remove be_id => n.removeBE be_id

theorem exec_ids {r : Request} (h : r.exec n launch = some (n', rc)) (hi : i ∈ n'.topo.ids)
    : i ∈ n.topo.ids ∨ r.adds = some i := by
  have hset : ∀ {b : Int} {host : String} {n1 : Node}, n1.topo = n.topo →
      i ∈ (n1.setHost b host).topo.ids → i ∈ n.topo.ids ∨ some b = some i := by
    intro b host n1 htopo hi
    rw [Node.mem_setHost_ids, htopo] at hi
    exact hi.imp_right (fun hi => by rw [hi])
  have hlaunch : ∀ {b : Int} {host : String}, (n.launchBE b host launch).1.topo = n.topo := by
    intro b host
    unfold Node.launchBE
    split <;> rfl
  cases r with
  | add auto be_id host lev =>
    cases Node.addBE_added h with
    | backEnd => exact hset hlaunch hi
    | givenUp =>
      rw [hlaunch] at hi
      exact .inl hi
    | backEndFailed =>
      rw [hlaunch] at hi
      exact .inl hi
    | agent hplace hstarted hn' =>
      have ⟨_, _, heq⟩ := Node.launchAgent_started hstarted hn'
      exact hset (by rw [heq]) hi
    | agentFailed hplace hstarted hn' =>
      rw [Node.launchAgent_failed hstarted hn'] at hi
      exact .inl hi
    | child hplace hn' =>
      have ⟨_, _, heq⟩ := Node.delegate_eq_some hn'
      exact hset (by rw [heq]) hi
  | remove be_id =>
    cases Node.removeBE_removed h with
    | unknown => exact .inl hi
    | backEnd => exact .inl (BEMap.mem_erase.mp hi).1
    | child => exact .inl (BEMap.mem_erase.mp hi).1

end Request

structure Allocation where
  node : Node
  nextBEID : Int
  -- calls that are past their check and have not produced their message
  ready : List Request
  queue : List Request

namespace Allocation

inductive Event where
  -- a negative id asks for one
  | add (be_id : Int) (host : String) (lev : Int)
  | remove (be_id : Int)
  | produce (k : Nat)
  | route (launch : Launch)
  deriving DecidableEq

def reset (n : Node) : Allocation := ⟨n, n.topo.beMap.length, [], []⟩

def Event.exec (s : Allocation) : Event → Option Allocation
  | .add be_id host lev =>
    if 0 ≤ be_id then
      if s.node.topo.hasBE be_id then
        some s
      else
        some { s with ready := s.ready ++ [.add false be_id host lev] }
    else
      some { s with
        nextBEID := s.nextBEID + 1
        ready := s.ready ++ [.add true s.nextBEID host lev] }
  | .remove be_id =>
    if s.node.topo.hasBE be_id then some { s with ready := s.ready ++ [.remove be_id] } else some s
  | .produce k => do
    let r ← s.ready[k]?
    return { s with ready := s.ready.eraseIdx k, queue := s.queue ++ [r] }
  | .route launch =>
    match s.queue with
    | [] => none
    | r :: rest => (r.exec s.node launch).map (fun res => { s with node := res.1, queue := rest })

def Event.Step (s : Allocation) (e : Event) (s' : Allocation) : Prop := e.exec s = some s'

def inFlight (s : Allocation) : List Request := s.ready ++ s.queue

def AutoIdsFree (s : Allocation) : Prop :=
  ∀ r ∈ s.inFlight, r.isAuto = true → ∀ i, r.adds = some i → i ∉ s.node.topo.ids

def Event.Allowed (s : Allocation) : Event → Prop
  | .add be_id _ _ =>
    0 ≤ be_id → be_id < s.nextBEID ∧ ∀ r ∈ s.inFlight, r.isAuto = true → r.adds ≠ some be_id
  | _ => True

instance (s : Allocation) (e : Event) : Decidable (e.Allowed s) := by
  unfold Event.Allowed
  cases e <;> infer_instance

-- two requests that could add the same id are both chosen by callers
def Apart (r r' : Request) : Prop :=
  (r.isAuto = true ∨ r'.isAuto = true) → ∀ i, r.adds = some i → r'.adds ≠ some i

theorem Apart.symm (h : Apart r r') : Apart r' r :=
  fun hauto i hi hi' => h hauto.symm i hi' hi

structure Inv (s : Allocation) : Prop where
  free : s.AutoIdsFree
  counted : ∀ i ∈ s.node.topo.ids, i < s.nextBEID
  inFlight : ∀ r ∈ s.inFlight, ∀ i, r.adds = some i → i < s.nextBEID
  apart : s.inFlight.Pairwise Apart

variable {s s' : Allocation}

section Inv

variable (h : s.Inv)

include h

theorem Inv.of_perm (hnode : s'.node = s.node) (hnext : s'.nextBEID = s.nextBEID)
    (hperm : s'.inFlight.Perm s.inFlight)
    : s'.Inv := by
  constructor
  . intro r hr
    rw [hnode]
    exact h.free r (hperm.mem_iff.mp hr)
  . rw [hnode, hnext]
    exact h.counted
  . intro r hr
    rw [hnext]
    exact h.inFlight r (hperm.mem_iff.mp hr)
  . exact (hperm.pairwise_iff (fun h => h.symm)).mpr h.apart

theorem Inv.submit (hnext : s.nextBEID ≤ next)
    (hfree : r.isAuto = true → ∀ i, r.adds = some i → i ∉ s.node.topo.ids)
    (hlt : ∀ i, r.adds = some i → i < next) (hapart : ∀ r' ∈ s.inFlight, Apart r' r)
    : Inv { s with nextBEID := next, ready := s.ready ++ [r] } := by
  have hperm : Allocation.inFlight { s with nextBEID := next, ready := s.ready ++ [r] }
      |>.Perm (r :: s.inFlight) := by
    simp only [Allocation.inFlight, List.append_assoc, List.singleton_append]
    exact List.perm_middle
  have hcases : ∀ r' ∈ Allocation.inFlight { s with nextBEID := next, ready := s.ready ++ [r] },
      r' = r ∨ r' ∈ s.inFlight :=
    fun r' hr' => List.mem_cons.mp (hperm.mem_iff.mp hr')
  constructor
  . intro r' hr'
    obtain heq | hr' := hcases r' hr'
    . exact heq ▸ hfree
    . exact h.free r' hr'
  . intro i hi
    exact lt_of_lt_of_le (h.counted i hi) hnext
  . intro r' hr' i hi
    obtain heq | hr' := hcases r' hr'
    . exact hlt i (heq ▸ hi)
    . exact lt_of_lt_of_le (h.inFlight r' hr' i hi) hnext
  . apply (hperm.pairwise_iff (fun h => h.symm)).mpr
    exact List.pairwise_cons.mpr ⟨fun r' hr' => (hapart r' hr').symm, h.apart⟩

theorem Inv.add (hallowed : (Event.add be_id host lev).Allowed s)
    (hexec : (Event.add be_id host lev).exec s = some s')
    : s'.Inv := by
  simp only [Event.exec] at hexec
  split at hexec
  . next hchosen =>
    have ⟨hlt, hother⟩ := hallowed hchosen
    split at hexec
    . rw [some.injEq] at hexec
      exact hexec ▸ h
    . cases hexec
      apply h.submit le_rfl
      . intro hauto
        contradiction
      . intro i hi
        simp only [Request.adds, some.injEq] at hi
        exact hi ▸ hlt
      . intro r hr hauto i hi hi'
        simp only [Request.adds, some.injEq] at hi'
        obtain hauto | hauto := hauto
        . exact hother r hr hauto (hi' ▸ hi)
        . contradiction
  . -- the counter is beyond every id that is in use or on its way
    cases hexec
    apply h.submit (Int.le_add_one le_rfl)
    . intro _ i hi hmem
      simp only [Request.adds, some.injEq] at hi
      have := h.counted i hmem
      omega
    . intro i hi
      simp only [Request.adds, some.injEq] at hi
      omega
    . intro r hr _ i hi hi'
      simp only [Request.adds, some.injEq] at hi'
      have := h.inFlight r hr i hi
      omega

theorem Inv.remove (hexec : (Event.remove be_id).exec s = some s') : s'.Inv := by
  simp only [Event.exec] at hexec
  split at hexec
  . cases hexec
    apply h.submit le_rfl
    . intro hauto
      contradiction
    . intro i hi
      contradiction
    . intro r hr _ i _ hi
      contradiction
  . rw [some.injEq] at hexec
    exact hexec ▸ h

theorem Inv.produce (hexec : (Event.produce k).exec s = some s') : s'.Inv := by
  simp only [Event.exec, bind_eq_bind, bind_eq_some_iff, pure_def,
    some.injEq] at hexec
  obtain ⟨r, hr, rfl⟩ := hexec
  have ⟨hlt, hget⟩ := List.getElem?_eq_some_iff.mp hr
  refine Inv.of_perm h rfl rfl ?_
  simp only [Allocation.inFlight]
  have hready : (r :: s.ready.eraseIdx k).Perm s.ready := by
    rw [← hget]
    exact List.getElem_cons_eraseIdx_perm hlt
  rw [← List.append_assoc]
  apply (List.perm_append_singleton _ _).trans
  exact hready.append_right _

theorem Inv.route (hexec : (Event.route launch).exec s = some s') : s'.Inv := by
  simp only [Event.exec] at hexec
  split at hexec
  . contradiction
  . next r rest hqueue =>
    have ⟨res, hres, heq⟩ := map_eq_some_iff.mp hexec
    have ⟨n', rc⟩ := res
    subst heq
    have hperm : s.inFlight.Perm (r :: (s.ready ++ rest)) := by
      rw [Allocation.inFlight, hqueue]
      exact List.perm_middle
    have hmem : ∀ r' ∈ s.ready ++ rest, r' ∈ s.inFlight :=
      fun r' hr' => hperm.mem_iff.mpr (List.mem_cons_of_mem _ hr')
    have hself := hperm.mem_iff.mpr (List.mem_cons_self ..)
    have hapart := List.pairwise_cons.mp ((hperm.pairwise_iff (fun h => h.symm)).mp h.apart)
    constructor
    . intro r' hr' hauto i hi hmem'
      obtain hold | hnew := Request.exec_ids hres hmem'
      . exact h.free r' (hmem r' hr') hauto i hi hold
      . exact hapart.1 r' hr' (.inr hauto) i hnew hi
    . intro i hi
      obtain hold | hnew := Request.exec_ids hres hi
      . exact h.counted i hold
      . exact h.inFlight r hself i hnew
    . intro r' hr'
      exact h.inFlight r' (hmem r' hr')
    . exact hapart.2

theorem Inv.step (hstep : Guarded Event.Allowed Event.Step s e s') : s'.Inv := by
  have ⟨hallowed, hexec⟩ := hstep
  cases e with
  | add be_id host lev => exact h.add hallowed hexec
  | remove be_id => exact h.remove hexec
  | produce k => exact h.produce hexec
  | route launch => exact h.route hexec

end Inv

theorem auto_ids_free {n : Node} (hids : Consecutive 0 n.topo.beMap) {events : List Event}
    (hrun : Run (Guarded Event.Allowed Event.Step) (reset n) events s)
    : s.AutoIdsFree := by
  have hstart : (reset n).Inv := by
    refine ⟨by simp [AutoIdsFree, Allocation.inFlight, reset], ?_,
      by simp [Allocation.inFlight, reset], by simp [Allocation.inFlight, reset]⟩
    intro i hi
    have := (hids.mem_iff i).mp hi
    simp only [reset]
    omega
  exact (hrun.invariant Inv (fun _ _ _ h hstep => h.step hstep) hstart).free

section Example

def comeBack : List Event :=
  [.add (-1) "b" 0, .produce 0, .route ⟨true, true⟩, .remove 0, .produce 0, .route ⟨true, true⟩,
    .add 0 "a" 0, .add (-1) "c" 0]

theorem auto_ids_free_comeBack
    : ∃ n s, Node.deploy Node.oneBackEnd = some n ∧
        Run (Guarded Event.Allowed Event.Step) (reset n) comeBack s ∧
        s.inFlight = [.add false 0 "a" 0, .add true 2 "c" 0] ∧ s.AutoIdsFree := by
  have hcheck : (Node.deploy Node.oneBackEnd).any (fun n =>
      n.topo = Node.oneBackEnd ∧
      (comeBack.foldlM
        (fun (s : Allocation) (e : Event) => if e.Allowed s then e.exec s else none) (reset n)).any
        (fun s : Allocation => s.inFlight = [.add false 0 "a" 0, .add true 2 "c" 0])) = true := by
    decide +kernel
  have ⟨n, hdeploy, hcheck⟩ := (any_eq_true _ _).mp hcheck
  rw [decide_eq_true_eq] at hcheck
  have ⟨s, hrun, hflight⟩ := Run.exists_of_checked _ hcheck.2 (fun _ _ h => h)
  have hids : Consecutive 0 n.topo.beMap := by
    rw [hcheck.1]
    simp [Node.oneBackEnd, Consecutive]
  exact ⟨n, s, hdeploy, hrun, hflight, auto_ids_free hids hrun⟩

theorem auto_id_taken
    : (Node.deploy Node.oneBackEnd).any (fun n =>
        ([Event.add 1 "b" 0, .produce 0, .route ⟨true, true⟩, .add (-1) "c" 0].foldlM Event.exec
          (reset n)).any
          (fun s : Allocation =>
            s.inFlight = [.add true 1 "c" 0] ∧ s.node.topo.ids = [0, 1])) := by
  decide +kernel

end Example

end Allocation
end Sci
