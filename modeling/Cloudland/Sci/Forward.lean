import Mathlib.Data.List.Nodup
import Cloudland.Lib.RefCount
import Cloudland.Lib.Run

/-!
The reference counts of the messages that a node forwards (`libsci/routerproc.cpp`, `libsci/routinglist.cpp`,
`libsci/filterproc.cpp`, `libsci/queue.cpp`), with the router, the filter thread and the writers interleaved.
-/

namespace Sci

open RefCount List Option

inductive Cast where
  -- `mcast` has read the count and not yet written it back
  | loaded (id : Nat) (dests : List Nat) (count : Int)
  -- the messages still have to be produced into the queues `dests`
  | sending (msgs : List Nat) (dests : List Nat)
  deriving DecidableEq

inductive Passing where
  | idle
  | reading (id : Nat)
  | counted (id : Nat)
  | produced (id : Nat)
  deriving DecidableEq

structure Forwarder where
  heap : Heap Nat
  inQueue : List Nat
  -- the message that the router is at, and whether it has been forwarded
  handling : Option (Nat × Bool)
  cast : Option Cast
  filterIn : List Nat
  passing : Passing
  queues : List (List Nat)
  deriving DecidableEq

namespace Forwarder

def start (n : Nat) : Forwarder := ⟨[], [], none, none, [], .idle, replicate n []⟩

variable (maxSegmentSize : Nat)

-- a header and the pieces of the content, of which the last one takes what is left
def segmentSizes (len : Nat) : List Nat :=
  let segnum := (len + maxSegmentSize - 1) / maxSegmentSize + 1
  0 :: (range (segnum - 1)).map (fun i =>
    if i + 1 < segnum - 1 then maxSegmentSize else (len - 1) % maxSegmentSize + 1)

def mcast (s : Forwarder) (id : Nat) (dests : List Nat) : Option Forwarder := do
  let msg ← s.heap[id]?
  if msg.val ≤ maxSegmentSize then
    return { s with cast := some (.loaded id dests msg.refCount) }
  else
    let sizes := segmentSizes maxSegmentSize msg.val
    return { s with
      heap := s.heap.new sizes dests.length
      cast := some (.sending (range' s.heap.length sizes.length) dests) }

inductive Event where
  | enter (len : Nat)
  | read
  | forward (dests : List Nat)
  | store
  | produce
  | castDone
  | finish
  | filterBcast (len : Nat) (dests : List Nat)
  | drain (d : Nat)
  | arrive (len : Nat)
  | filterRead
  | filterCount
  | filterProduce (d : Nat)
  | filterFinish
  | filterUpload (len : Nat) (d : Nat)
  deriving DecidableEq

def Event.exec (s : Forwarder) : Event → Option Forwarder
  | .enter len => some { s with heap := s.heap.new [len] 1, inQueue := s.inQueue ++ [s.heap.length] }
  | .read =>
    match s.handling, s.inQueue with
    | none, id :: _ => some { s with handling := some (id, false) }
    | _, _ => none
  | .forward dests =>
    match s.handling, s.cast with
    | some (id, false), none => mcast maxSegmentSize { s with handling := some (id, true) } id dests
    | _, _ => none
  | .store =>
    match s.cast with
    | some (.loaded id dests count) =>
      some { s with
        heap := s.heap.setCount id (count + dests.length)
        cast := some (.sending [id] dests) }
    | _ => none
  | .produce =>
    match s.cast with
    | some (.sending msgs (d :: dests)) => do
      let queue ← s.queues[d]?
      return { s with queues := s.queues.set d (queue ++ msgs), cast := some (.sending msgs dests) }
    | _ => none
  | .castDone =>
    match s.cast with
    | some (.sending _ []) => some { s with cast := none }
    | _ => none
  | .finish =>
    match s.handling, s.cast with
    | some (id, _), none =>
      some { s with heap := s.heap.dec id, inQueue := s.inQueue.tail, handling := none }
    | _, _ => none
  | .filterBcast len dests =>
    match s.handling, s.cast with
    | some _, none =>
      mcast maxSegmentSize { s with heap := s.heap.new [len] dests.length } s.heap.length dests
    | _, _ => none
  | .drain d => do
    match ← s.queues[d]? with
    | id :: queue => some { s with heap := s.heap.dec id, queues := s.queues.set d queue }
    | [] => none
  | .arrive len => some { s with heap := s.heap.new [len] 1, filterIn := s.filterIn ++ [s.heap.length] }
  | .filterRead =>
    match s.passing, s.filterIn with
    | .idle, id :: _ => some { s with passing := .reading id }
    | _, _ => none
  | .filterCount =>
    match s.passing with
    | .reading id => some { s with heap := s.heap.inc id, passing := .counted id }
    | _ => none
  | .filterProduce d =>
    match s.passing with
    | .counted id => do
      let queue ← s.queues[d]?
      return { s with queues := s.queues.set d (queue ++ [id]), passing := .produced id }
    | _ => none
  | .filterFinish =>
    match s.passing with
    -- a message that the filter has taken is not passed on
    | .reading id => some { s with heap := s.heap.dec id, filterIn := s.filterIn.tail, passing := .idle }
    | .produced id => some { s with heap := s.heap.dec id, filterIn := s.filterIn.tail, passing := .idle }
    | _ => none
  | .filterUpload len d => do
    let queue ← s.queues[d]?
    return { s with
      heap := s.heap.new [len] 1
      queues := s.queues.set d (queue ++ [s.heap.length]) }

def Event.Step (s : Forwarder) (e : Event) (s' : Forwarder) : Prop := e.exec maxSegmentSize s = some s'

def Event.Allowed (s : Forwarder) : Event → Prop
  | .forward dests =>
    (s.handling.bind (fun p => s.heap[p.1]?)).all (fun msg => msg.val ≤ maxSegmentSize ∨ dests ≠ []) = true
  | .filterBcast _ _ => False
  | _ => True

instance (s : Forwarder) (e : Event) : Decidable (e.Allowed maxSegmentSize s) := by
  unfold Event.Allowed
  cases e <;> infer_instance

def castRefs (id : Nat) : Option Cast → Nat
  | some (.sending msgs dests) => dests.length * msgs.count id
  | _ => 0

def passingId : Passing → Option Nat
  | .idle => none
  | .reading id => some id
  | .counted id => some id
  | .produced id => some id

def passingRefs (id : Nat) : Passing → Nat
  | .counted id' => if id' = id then 1 else 0
  | _ => 0

def refs (s : Forwarder) (id : Nat) : Nat :=
  s.queues.flatten.count id + s.inQueue.count id + castRefs id s.cast + s.filterIn.count id +
    passingRefs id s.passing

structure Inv (s : Forwarder) : Prop where
  ledger : Ledger s.heap s.refs
  handled : ∀ id fwd, s.handling = some (id, fwd) → ∃ rest, s.inQueue = id :: rest
  single : ∀ id, s.inQueue.count id ≤ 1
  apart : ∀ id, 0 < s.inQueue.count id → s.filterIn.count id = 0
  -- the router's messages are not yet anywhere else
  unforwarded : ∀ id, 0 < s.inQueue.count id → s.handling ≠ some (id, true) →
    s.queues.flatten.count id = 0 ∧ castRefs id s.cast = 0
  loaded : ∀ id dests count, s.cast = some (.loaded id dests count) →
    s.handling = some (id, true) ∧ s.queues.flatten.count id = 0 ∧ count = 1
  passed : ∀ id, passingId s.passing = some id → ∃ rest, s.filterIn = id :: rest

variable {maxSegmentSize} {s s' : Forwarder}

theorem count_cons_nat (id a : Nat) (l : List Nat)
    : (a :: l).count id = l.count id + if a = id then 1 else 0 := by
  rw [count_cons]
  simp

theorem count_append_one (id a : Nat) (l : List Nat)
    : (l ++ [a]).count id = l.count id + if a = id then 1 else 0 := by
  rw [count_append, count_cons_nat, count_nil, Nat.zero_add]

theorem Inv.absent (h : s.Inv)
    : s.queues.flatten.count s.heap.length = 0 ∧ s.inQueue.count s.heap.length = 0 ∧
        castRefs s.heap.length s.cast = 0 ∧ s.filterIn.count s.heap.length = 0 := by
  have := h.ledger.outside s.heap.length (Nat.le_refl _)
  simp only [refs] at this
  omega

theorem passingId_of_passingRefs {id : Nat} (h : 0 < passingRefs id p)
    : passingId p = some id := by
  cases p with
  | counted id' =>
    simp only [passingRefs] at h
    split at h
    . next heq => simp [passingId, heq]
    . omega
  | _ => simp [passingRefs] at h

theorem Inv.passingRefs_eq_zero (h : s.Inv) {id : Nat} (hid : s.filterIn.count id = 0)
    : passingRefs id s.passing = 0 := by
  by_contra hne
  have ⟨rest, hrest⟩ := h.passed id (passingId_of_passingRefs (by omega))
  rw [hrest, count_cons_nat, if_pos rfl] at hid
  omega

section Ledger

variable {heap : Heap Nat} {refs refs' : Nat → Nat} {id : Nat}

theorem ledger_new_one (h : Ledger heap refs) (len : Nat)
    (hrefs : ∀ id, refs' id = refs id + if heap.length = id then 1 else 0)
    : Ledger (heap.new [len] 1) refs' := by
  apply h.new [len] (by decide : 0 < 1)
  . intro id hle hlt
    rw [length_singleton] at hlt
    rw [hrefs, h.outside id hle, if_pos (by omega)]
  . intro id hid
    rw [length_singleton] at hid
    rw [hrefs, if_neg (by omega), Nat.add_zero]

theorem ledger_dec_one (h : Ledger heap refs) (hrefs : ∀ id', refs id' = refs' id' + if id = id' then 1 else 0)
    : Ledger (heap.dec id) refs' := by
  apply h.dec
  . rw [hrefs, if_pos rfl]
  . intro id' hne
    rw [hrefs, if_neg (Ne.symm hne), Nat.add_zero]

end Ledger

theorem Inv.enter (h : s.Inv) (hexec : (Event.enter len).exec maxSegmentSize s = some s') : s'.Inv := by
  cases hexec
  have ⟨hqueues, hin, hcast, hfilter⟩ := h.absent
  have hcount := fun id => count_append_one id s.heap.length s.inQueue
  constructor
  . apply ledger_new_one h.ledger
    intro id
    simp only [refs, hcount]
    omega
  . intro id fwd hid
    have ⟨rest, hrest⟩ := h.handled id fwd hid
    exact ⟨rest ++ [s.heap.length], by simp [hrest]⟩
  . intro id
    have := h.single id
    rw [hcount]
    split
    . next heq =>
      subst heq
      omega
    . omega
  . intro id hid
    rw [hcount] at hid
    split at hid
    . next heq => exact heq ▸ hfilter
    . exact h.apart id (by omega)
  . intro id hid hne
    rw [hcount] at hid
    split at hid
    . next heq => exact heq ▸ ⟨hqueues, hcast⟩
    . exact h.unforwarded id (by omega) hne
  . exact h.loaded
  . exact h.passed

theorem Inv.arrive (h : s.Inv) (hexec : (Event.arrive len).exec maxSegmentSize s = some s') : s'.Inv := by
  cases hexec
  have ⟨hqueues, hin, hcast, hfilter⟩ := h.absent
  have hcount := fun id => count_append_one id s.heap.length s.filterIn
  refine ⟨?_, h.handled, h.single, ?_, h.unforwarded, h.loaded, ?_⟩
  . apply ledger_new_one h.ledger
    intro id
    simp only [refs, hcount]
    omega
  . intro id hid
    have hold := h.apart id hid
    rw [hcount, hold]
    split
    . next heq =>
      subst heq
      exact absurd hin (by dsimp only at hid; omega)
    . rfl
  . intro id hid
    have ⟨rest, hrest⟩ := h.passed id hid
    exact ⟨rest ++ [s.heap.length], by simp [hrest]⟩

theorem Inv.read (h : s.Inv) (hexec : Event.read.exec maxSegmentSize s = some s') : s'.Inv := by
  simp only [Event.exec] at hexec
  split at hexec
  . next id rest hhandling hqueue =>
    cases hexec
    refine ⟨h.ledger, ?_, h.single, h.apart, ?_, ?_, h.passed⟩
    . intro id' fwd hid
      simp only [some.injEq, Prod.mk.injEq] at hid
      exact ⟨rest, hid.1 ▸ hqueue⟩
    . intro id' hid' _
      exact h.unforwarded id' hid' (by rw [hhandling]; simp)
    . intro id' dests count hcast
      have := (h.loaded id' dests count hcast).1
      rw [hhandling] at this
      contradiction
  . contradiction

section Inv

variable (h : s.Inv) {id : Nat} {fwd : Bool} (hid : s.handling = some (id, fwd))

include h hid

theorem Inv.count_handled : s.inQueue.count id = 1 := by
  have ⟨rest, hrest⟩ := h.handled id fwd hid
  have hsingle := h.single id
  rw [hrest, count_cons_nat, if_pos rfl] at hsingle ⊢
  omega

theorem Inv.refs_handled (hqueues : s.queues.flatten.count id = 0) (hcast : castRefs id s.cast = 0)
    : s.refs id = 1 := by
  have hcount := h.count_handled hid
  have hfilter := h.apart id (by omega)
  have hpassing := h.passingRefs_eq_zero hfilter
  simp only [refs]
  omega

end Inv

theorem castRefs_segments (id : Nat)
    : castRefs id (some (.sending (range' k m) dests))
        =
      if k ≤ id ∧ id < k + m then dests.length else 0 := by
  simp only [castRefs]
  split
  . next hid =>
    rw [count_eq_one_of_mem nodup_range' (mem_range'_1.mpr hid), Nat.mul_one]
  . next hid =>
    rw [count_eq_zero.mpr (fun hmem => hid (mem_range'_1.mp hmem)), Nat.mul_zero]

theorem Inv.forward (h : s.Inv) (hallowed : (Event.forward dests).Allowed maxSegmentSize s)
    (hexec : (Event.forward dests).exec maxSegmentSize s = some s')
    : s'.Inv := by
  simp only [Event.exec] at hexec
  split at hexec
  . next id hhandling hcast =>
    simp only [mcast, bind_eq_bind, bind_eq_some_iff] at hexec
    have ⟨msg, hmsg, hexec⟩ := hexec
    simp only [Event.Allowed, hhandling, bind_some, hmsg, all_some,
      decide_eq_true_eq] at hallowed
    have hself := h.count_handled hhandling
    have ⟨hqueues, hcastid⟩ := h.unforwarded id (by omega) (by rw [hhandling]; simp)
    have hrefs := h.refs_handled hhandling hqueues hcastid
    have hother : ∀ id', 0 < s.inQueue.count id' → s.queues.flatten.count id' = 0 := by
      intro id' hid'
      exact (h.unforwarded id' hid' (by rw [hhandling]; simp)).1
    have hhandled : ∀ id' fwd, some (id, true) = some (id', fwd) → ∃ rest, s.inQueue = id' :: rest := by
      intro id' fwd heq
      simp only [some.injEq, Prod.mk.injEq] at heq
      exact h.handled id' false (heq.1 ▸ hhandling)
    split at hexec
    . cases hexec
      refine ⟨?_, hhandled, h.single, h.apart, ?_, ?_, h.passed⟩
      . apply h.ledger.congr
        intro id'
        simp only [refs, castRefs, hcast]
      . intro id' hid' _
        exact ⟨hother id' hid', rfl⟩
      . intro id' dests' count heq
        simp only [some.injEq, Cast.loaded.injEq] at heq
        have hcount := (h.ledger.count id msg hmsg).1
        rw [hrefs] at hcount
        exact ⟨by rw [heq.1], heq.1 ▸ hqueues, by rw [← heq.2.2, hcount]; rfl⟩
    . next hlarge =>
      cases hexec
      have hdests := length_pos_iff.mpr (hallowed.resolve_left hlarge)
      refine ⟨?_, hhandled, h.single, h.apart, ?_, ?_, h.passed⟩
      . apply h.ledger.new _ hdests
        . intro id' hle hlt
          have hout := h.ledger.outside id' hle
          simp only [refs, castRefs_segments, if_pos (And.intro hle hlt)] at hout ⊢
          omega
        . intro id' hid'
          have hzero : castRefs id' s.cast = 0 := by rw [hcast]; rfl
          simp only [refs, castRefs_segments, if_neg hid', hzero]
      . intro id' hid' _
        refine ⟨hother id' hid', ?_⟩
        have hlt : id' < s.heap.length := h.ledger.lt_length (by simp only [refs]; dsimp only at hid'; omega)
        rw [castRefs_segments, if_neg (by omega)]
      . intro id' dests' count heq
        simp at heq
  . contradiction

theorem Inv.store (h : s.Inv) (hexec : Event.store.exec maxSegmentSize s = some s') : s'.Inv := by
  simp only [Event.exec] at hexec
  split at hexec
  . next id dests count hcast =>
    cases hexec
    have ⟨hhandling, hqueues, hone⟩ := h.loaded id dests count hcast
    have hrefs := h.refs_handled hhandling hqueues (by rw [hcast]; rfl)
    have hcastRefs : ∀ id', castRefs id' (some (.sending [id] dests))
        = if id = id' then dests.length else 0 := by
      intro id'
      simp only [castRefs, count_cons_nat, count_nil]
      split <;> simp
    refine ⟨?_, h.handled, h.single, h.apart, ?_, ?_, h.passed⟩
    . apply h.ledger.setCount (n := dests.length) (by omega)
      . rw [hone, hrefs]
        rfl
      . simp only [refs, hcastRefs, if_true]
        have : castRefs id s.cast = 0 := by rw [hcast]; rfl
        omega
      . intro id' hne
        have hzero : castRefs id' s.cast = 0 := by rw [hcast]; rfl
        simp only [refs, hcastRefs, if_neg (Ne.symm hne), hzero]
    . intro id' hid' hne
      have hid : id ≠ id' := by
        intro heq
        exact hne (heq ▸ hhandling)
      exact ⟨(h.unforwarded id' hid' hne).1, by rw [hcastRefs, if_neg hid]⟩
    . intro id' dests' count' heq
      simp at heq
  . contradiction

theorem Inv.produce (h : s.Inv) (hexec : Event.produce.exec maxSegmentSize s = some s') : s'.Inv := by
  simp only [Event.exec] at hexec
  split at hexec
  . next msgs d dests hcast =>
    obtain ⟨queue, hqueue, heq⟩ := bind_eq_some_iff.mp hexec
    cases heq
    have hflat := fun id => @count_flatten_set _ _ s.queues d queue (queue ++ msgs) hqueue id
    have hcastRefs : ∀ id, castRefs id s.cast
        = castRefs id (some (.sending msgs dests)) + msgs.count id := by
      intro id
      rw [hcast]
      simp only [castRefs, length_cons, Nat.succ_mul]
    simp only [count_append] at hflat
    refine ⟨?_, h.handled, h.single, h.apart, ?_, ?_, h.passed⟩
    . apply h.ledger.congr
      intro id
      have := hflat id
      have := hcastRefs id
      simp only [refs]
      omega
    . intro id hid hne
      have := h.unforwarded id hid hne
      have := hflat id
      have := hcastRefs id
      dsimp only
      omega
    . intro id dests' count heq
      simp at heq
  . contradiction

theorem Inv.castDone (h : s.Inv) (hexec : Event.castDone.exec maxSegmentSize s = some s') : s'.Inv := by
  simp only [Event.exec] at hexec
  split at hexec
  . next msgs hcast =>
    cases hexec
    have hcastRefs : ∀ id, castRefs id s.cast = 0 := by
      intro id
      simp [hcast, castRefs]
    refine ⟨?_, h.handled, h.single, h.apart, ?_, by simp, h.passed⟩
    . apply h.ledger.congr
      intro id
      rw [refs, refs, hcastRefs id]
      rfl
    . intro id hid hne
      exact ⟨(h.unforwarded id hid hne).1, rfl⟩
  . contradiction

theorem Inv.finish (h : s.Inv) (hexec : Event.finish.exec maxSegmentSize s = some s') : s'.Inv := by
  simp only [Event.exec] at hexec
  split at hexec
  . next id fwd hhandling hcast =>
    cases hexec
    have ⟨rest, hrest⟩ := h.handled id fwd hhandling
    have hcount : ∀ id', s.inQueue.count id' = rest.count id' + if id = id' then 1 else 0 := by
      intro id'
      rw [hrest, count_cons_nat]
    have hself := h.count_handled hhandling
    simp only [hrest, tail_cons]
    refine ⟨?_, by simp, ?_, ?_, ?_, ?_, h.passed⟩
    . apply ledger_dec_one h.ledger
      intro id'
      have := hcount id'
      simp only [refs]
      omega
    . intro id'
      have := hcount id'
      have := h.single id'
      dsimp only
      omega
    . intro id' hid'
      have := hcount id'
      exact h.apart id' (by dsimp only at hid'; omega)
    . intro id' hid' _
      have hid'' := hcount id'
      apply h.unforwarded id' (by dsimp only at hid'; omega)
      -- the router's own message is gone from its queue
      intro heq
      rw [hhandling, some.injEq, Prod.mk.injEq] at heq
      rw [← heq.1, if_pos rfl, hself] at hid''
      dsimp only at hid'
      rw [← heq.1] at hid'
      omega
    . intro id' dests count heq
      rw [hcast] at heq
      contradiction
  . contradiction

-- the router's messages in the queues do not become more
theorem Inv.requeue {heap : Heap Nat} {queues : List (List Nat)} {passing : Passing} (h : s.Inv)
    (hledger : Ledger heap (refs { s with heap, queues, passing }))
    (hcount : ∀ id, 0 < s.inQueue.count id → queues.flatten.count id ≤ s.queues.flatten.count id)
    (hpassed : passingId passing = passingId s.passing)
    : Inv { s with heap, queues, passing } := by
  refine ⟨hledger, h.handled, h.single, h.apart, ?_, ?_, hpassed ▸ h.passed⟩
  . intro id hid hne
    have ⟨hzero, hcast⟩ := h.unforwarded id hid hne
    exact ⟨Nat.le_zero.mp (hzero ▸ hcount id hid), hcast⟩
  . intro id dests count heq
    have ⟨hhandling, hzero, hone⟩ := h.loaded id dests count heq
    have hid := h.count_handled hhandling
    exact ⟨hhandling, Nat.le_zero.mp (hzero ▸ hcount id (by omega)), hone⟩

section Inv

variable (h : s.Inv)

include h

theorem Inv.drain (hexec : (Event.drain d).exec maxSegmentSize s = some s') : s'.Inv := by
  have ⟨queue, hqueue, hexec⟩ := bind_eq_some_iff.mp hexec
  split at hexec
  . next id rest =>
    cases hexec
    have hflat := fun id' => @count_flatten_set _ _ s.queues d (id :: rest) rest hqueue id'
    simp only [count_cons_nat] at hflat
    apply h.requeue _ _ rfl
    . apply ledger_dec_one h.ledger
      intro id'
      have := hflat id'
      simp only [refs]
      omega
    . intro id' _
      have := hflat id'
      omega
  . contradiction

theorem Inv.filterRead (hexec : Event.filterRead.exec maxSegmentSize s = some s') : s'.Inv := by
  simp only [Event.exec] at hexec
  split at hexec
  . next id rest hpassing hfilter =>
    cases hexec
    refine ⟨?_, h.handled, h.single, h.apart, h.unforwarded, h.loaded, ?_⟩
    . apply h.ledger.congr
      intro id'
      simp only [refs, hpassing, passingRefs]
    . intro id' heq
      simp only [passingId, some.injEq] at heq
      exact ⟨rest, heq ▸ hfilter⟩
  . contradiction

theorem Inv.filterCount (hexec : Event.filterCount.exec maxSegmentSize s = some s') : s'.Inv := by
  simp only [Event.exec] at hexec
  split at hexec
  . next id hpassing =>
    cases hexec
    have hfirst := h.passed id (by rw [hpassing]; rfl)
    have ⟨rest, hrest⟩ := hfirst
    have hpos : 0 < s.filterIn.count id := by
      rw [hrest, count_cons_nat, if_pos rfl]
      omega
    refine ⟨?_, h.handled, h.single, h.apart, h.unforwarded, h.loaded, ?_⟩
    . apply h.ledger.inc
      . simp only [refs]
        omega
      . simp only [refs, passingRefs, if_true, hpassing]
      . intro id' hne
        simp only [refs, passingRefs, if_neg (Ne.symm hne), hpassing]
    . intro id' heq
      simp only [passingId, some.injEq] at heq
      exact heq ▸ hfirst
  . contradiction

theorem Inv.filterProduce {d : Nat} (hexec : (Event.filterProduce d).exec maxSegmentSize s = some s')
    : s'.Inv := by
  simp only [Event.exec] at hexec
  split at hexec
  . next id hpassing =>
    obtain ⟨queue, hqueue, heq⟩ := bind_eq_some_iff.mp hexec
    cases heq
    have hfirst := h.passed id (by rw [hpassing]; rfl)
    have hflat := fun id' => @count_flatten_set _ _ s.queues d queue (queue ++ [id]) hqueue id'
    simp only [count_append_one] at hflat
    have hpassingRefs : ∀ id', passingRefs id' s.passing = if id = id' then 1 else 0 := by
      intro id'
      rw [hpassing]
      rfl
    -- the message of the filter thread is not one of the router's
    have hne : ∀ id', 0 < s.inQueue.count id' → id ≠ id' := by
      intro id' hid' heq
      have ⟨rest, hrest⟩ := hfirst
      have hzero := h.apart id' hid'
      rw [hrest, count_cons_nat, if_pos heq] at hzero
      omega
    apply h.requeue _ _ (by rw [hpassing]; rfl)
    . apply h.ledger.congr
      intro id'
      have := hflat id'
      have := hpassingRefs id'
      simp only [refs, passingRefs] at this ⊢
      omega
    . intro id' hid'
      have := hflat id'
      rw [if_neg (hne id' hid')] at this
      omega
  . contradiction

theorem Inv.filterDone {id : Nat} (hid : passingId s.passing = some id)
    (hrefs : ∀ id', passingRefs id' s.passing = 0)
    : Inv { s with heap := s.heap.dec id, filterIn := s.filterIn.tail, passing := .idle } := by
  have ⟨rest, hrest⟩ := h.passed id hid
  have hcount : ∀ id', s.filterIn.count id' = rest.count id' + if id = id' then 1 else 0 := by
    intro id'
    rw [hrest, count_cons_nat]
  simp only [hrest, tail_cons]
  refine ⟨?_, h.handled, h.single, ?_, h.unforwarded, h.loaded, by simp [passingId]⟩
  . apply ledger_dec_one h.ledger
    intro id'
    have := hcount id'
    have := hrefs id'
    simp only [refs, passingRefs] at this ⊢
    omega
  . intro id' hid'
    have := hcount id'
    have := h.apart id' hid'
    dsimp only
    omega

theorem Inv.filterFinish (hexec : Event.filterFinish.exec maxSegmentSize s = some s') : s'.Inv := by
  simp only [Event.exec] at hexec
  split at hexec
  . next id hpassing =>
    rw [some.injEq] at hexec
    exact hexec ▸ h.filterDone (by rw [hpassing]; rfl) (by simp [hpassing, passingRefs])
  . next id hpassing =>
    rw [some.injEq] at hexec
    exact hexec ▸ h.filterDone (by rw [hpassing]; rfl) (by simp [hpassing, passingRefs])
  . contradiction

theorem Inv.filterUpload {len d : Nat} (hexec : (Event.filterUpload len d).exec maxSegmentSize s = some s')
    : s'.Inv := by
  simp only [Event.exec, bind_eq_bind, bind_eq_some_iff, Option.pure_def,
    Option.some.injEq] at hexec
  have ⟨queue, hqueue, heq⟩ := hexec
  subst heq
  have ⟨_, hin, _, _⟩ := h.absent
  have hflat := fun id =>
    @count_flatten_set _ _ s.queues d queue (queue ++ [s.heap.length]) hqueue id
  simp only [count_append_one] at hflat
  have hne : ∀ id, 0 < s.inQueue.count id → s.heap.length ≠ id := by
    intro id hid heq
    rw [heq] at hin
    omega
  apply h.requeue _ _ rfl
  . apply ledger_new_one h.ledger
    intro id
    have := hflat id
    simp only [refs]
    omega
  . intro id hid
    have := hflat id
    rw [if_neg (hne id hid)] at this
    omega

theorem Inv.step (hstep : Guarded (Event.Allowed maxSegmentSize) (Event.Step maxSegmentSize) s e s')
    : s'.Inv := by
  have ⟨hallowed, hexec⟩ := hstep
  cases e with
  | enter len => exact h.enter hexec
  | read => exact h.read hexec
  | forward dests => exact h.forward hallowed hexec
  | store => exact h.store hexec
  | produce => exact h.produce hexec
  | castDone => exact h.castDone hexec
  | finish => exact h.finish hexec
  | filterBcast len dests => exact absurd hallowed (fun h => h)
  | drain d => exact h.drain hexec
  | arrive len => exact h.arrive hexec
  | filterRead => exact h.filterRead hexec
  | filterCount => exact h.filterCount hexec
  | filterProduce d => exact h.filterProduce hexec
  | filterFinish => exact h.filterFinish hexec
  | filterUpload len d => exact h.filterUpload hexec

end Inv

theorem inv_start (n : Nat) : (start n).Inv := by
  have hrefs : ∀ id, (start n).refs id = 0 := by
    intro id
    simp [refs, start, castRefs, passingRefs]
  refine ⟨Ledger.nil.congr hrefs, ?_, ?_, ?_, ?_, ?_, ?_⟩ <;> simp [start, passingId]

def Done (s : Forwarder) (id : Nat) : Prop :=
  id ∉ s.queues.flatten ∧ id ∉ s.inQueue ∧ id ∉ s.filterIn ∧ s.cast = none

theorem refcounts_balanced {n : Nat} {events : List Event}
    (hrun : Run (Guarded (Event.Allowed maxSegmentSize) (Event.Step maxSegmentSize)) (start n) events s)
    {id : Nat} {msg : Cell Nat} (hmsg : s.heap[id]? = some msg)
    : msg.refCount = s.refs id
        ∧
      (s.Done id → msg.refCount = 0 ∧ msg.deleted = 1)
        ∧
      (id ∈ s.queues.flatten ∨ id ∈ s.inQueue ∨ id ∈ s.filterIn → msg.deleted = 0) := by
  have hinv := hrun.invariant Inv (fun _ _ _ h hstep => h.step hstep) (inv_start n)
  have ⟨hcount, hdeleted⟩ := hinv.ledger.count id msg hmsg
  refine ⟨hcount, ?_, ?_⟩
  . intro ⟨hqueues, hin, hfilter, hcast⟩
    have hfilter := count_eq_zero.mpr hfilter
    have hrefs : s.refs id = 0 := by
      rw [refs, hcast, count_eq_zero.mpr hqueues, count_eq_zero.mpr hin, hfilter,
        hinv.passingRefs_eq_zero hfilter]
      rfl
    rw [hrefs] at hcount hdeleted
    exact ⟨hcount, hdeleted⟩
  . intro hqueued
    have hpos : 0 < s.refs id := by
      have hmem : ∀ {l : List Nat}, id ∈ l → 0 < l.count id := count_pos_iff.mpr
      simp only [refs]
      rcases hqueued with hqueued | hqueued | hqueued
      . have := hmem hqueued
        omega
      . have := hmem hqueued
        omega
      . have := hmem hqueued
        omega
    rw [hdeleted, if_neg (by omega)]

section Example

def forwardTwo : List Event :=
  [.enter 5, .enter 15, .read, .forward [0, 1], .store, .produce, .drain 0, .produce, .castDone, .finish,
    .drain 1, .read, .forward [1], .produce, .castDone, .finish, .drain 1, .drain 1, .drain 1]

theorem refcounts_balanced_forwardTwo
    : ∃ s, Run (Guarded (Event.Allowed 10) (Event.Step 10)) (start 2) forwardTwo s ∧
        s.heap.length = 5 ∧
        ∀ (id : Nat) (msg : Cell Nat), s.heap[id]? = some msg → msg.refCount = s.refs id := by
  refine Run.exists_of_checked (fun s => s.heap.length = 5) (by decide +kernel) ?_
  exact fun s hrun hs => ⟨hs, fun id msg hmsg => (refcounts_balanced hrun hmsg).1⟩

theorem refcounts_leak
    : ([Event.enter 5, .read, .filterBcast 3 [0, 1], .store, .produce, .produce, .castDone, .finish,
          .drain 0, .drain 1].foldlM (Event.exec 10) (start 2)).any
        (fun s : Forwarder =>
          s.queues = [[], []] ∧ s.inQueue = [] ∧ s.cast = none ∧ s.heap = [⟨5, 0, 1⟩, ⟨3, 2, 0⟩])
        ∧
      ([Event.enter 15, .read, .forward [], .castDone, .finish].foldlM (Event.exec 10) (start 2)).any
        (fun s : Forwarder =>
          s.queues = [[], []] ∧ s.inQueue = [] ∧ s.cast = none ∧
          s.heap = [⟨15, 0, 1⟩, ⟨0, 0, 0⟩, ⟨10, 0, 0⟩, ⟨5, 0, 0⟩]) := by
  decide +kernel

end Example

end Forwarder
end Sci
