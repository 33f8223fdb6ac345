import Mathlib.Algebra.Order.Ring.Int
import Cloudland.Lib.Run

/-!
The message queue between two threads of a node (`libsci/queue.cpp`), which interleave between the lock and the
semaphore.
-/

namespace Sci

open List Option

structure Entry (α : Type) where
  msg : α
  taken : Bool
  deriving DecidableEq

inductive Consumer where
  | idle
  -- in `consume`, between the semaphore and the lock
  | credited
  -- in `multiConsume(num)`, after `got` waits
  | batch (num got : Nat)
  deriving DecidableEq

-- the posts that the consumer has waited for and not yet turned into messages
def Consumer.credits : Consumer → Nat
  | .idle => 0
  | .credited => 1
  | .batch _ got => got

structure MessageQueue (α : Type) where
  queue : List (Entry α)
  thresHold : Int
  sem : Nat
  -- producers that have pushed and not yet posted
  releasing : Nat
  consumer : Consumer
  -- what the last `consume` has returned
  held : Option α
  deriving DecidableEq

namespace MessageQueue

variable {α : Type} (contentLen : α → Nat)

def new : MessageQueue α := ⟨[], 0, 0, 0, .idle, none⟩

inductive Event (α : Type) where
  | produce (msg : α)
  | insert (msg : α)
  | multiProduce (msgs : List α)
  | release
  | consumeWait
  | consumeTake
  | multiConsume (num : Nat)
  | multiWait
  | multiTake
  | remove
  -- a message that could not be sent is credited again
  | sendFailed
  deriving DecidableEq

def totalLen (msgs : List α) : Nat := (msgs.map contentLen).sum

def pushBack (q : MessageQueue α) (msgs : List α) : MessageQueue α :=
  { q with
    queue := q.queue ++ msgs.map (⟨·, false⟩)
    thresHold := q.thresHold + totalLen contentLen msgs
    releasing := q.releasing + 1 }

def pushFront (q : MessageQueue α) (msg : α) : MessageQueue α :=
  { q with
    queue := ⟨msg, false⟩ :: q.queue
    thresHold := q.thresHold + contentLen msg
    releasing := q.releasing + 1 }

def giveBack : List (Entry α) → List (Entry α)
  | [] => []
  | e :: l => if e.taken then { e with taken := false } :: l else e :: giveBack l

def Event.exec (q : MessageQueue α) : Event α → Option (MessageQueue α)
  | .produce msg => some (q.pushBack contentLen [msg])
  | .insert msg => some (q.pushFront contentLen msg)
  | .multiProduce msgs => if msgs = [] then none else some (q.pushBack contentLen msgs)
  | .release =>
    if 0 < q.releasing then some { q with sem := q.sem + 1, releasing := q.releasing - 1 } else none
  | .consumeWait =>
    if q.consumer = .idle ∧ 0 < q.sem then
      some { q with sem := q.sem - 1, consumer := .credited }
    else
      none
  | .consumeTake =>
    if q.consumer = .credited then
      match q.queue with
      | [] => some { q with consumer := .idle, held := none }
      | e :: rest =>
        some { q with
          queue := { e with taken := true } :: rest
          thresHold := q.thresHold - contentLen e.msg
          consumer := .idle
          held := some e.msg }
    else
      none
  | .multiConsume num => if q.consumer = .idle then some { q with consumer := .batch num 0 } else none
  | .multiWait =>
    match q.consumer with
    | .batch num got =>
      if got < num ∧ 0 < q.sem then
        some { q with sem := q.sem - 1, consumer := .batch num (got + 1) }
      else
        none
    | _ => none
  | .multiTake =>
    match q.consumer with
    | .batch num got =>
      if got = num ∧ num ≤ q.queue.length then
        some { q with
          queue := q.queue.drop num
          thresHold := q.thresHold - totalLen contentLen ((q.queue.take num).map (·.msg))
          consumer := .idle }
      else
        none
    | _ => none
  | .remove =>
    if q.consumer = .idle then some { q with queue := q.queue.tail, held := none } else none
  | .sendFailed =>
    if q.consumer = .idle ∧ q.held.isSome then
      some { q with queue := giveBack q.queue, sem := q.sem + 1, held := none }
    else
      none

def Event.Step (q : MessageQueue α) (e : Event α) (q' : MessageQueue α) : Prop :=
  e.exec contentLen q = some q'

def untaken (l : List (Entry α)) : List α := (l.filter (fun e => !e.taken)).map (·.msg)

section Untaken

variable {l l' : List (Entry α)} {contentLen : α → Nat}

theorem untaken_append : untaken (l ++ l') = untaken l ++ untaken l' := by
  simp [untaken]

theorem untaken_new (msgs : List α) : untaken (msgs.map (fun msg => ⟨msg, false⟩)) = msgs := by
  simp [untaken, List.filter_map, Function.comp_def]

theorem untaken_cons_false (h : e.taken = false) : untaken (e :: l) = e.msg :: untaken l := by
  simp [untaken, h]

theorem untaken_cons_true (h : e.taken = true) : untaken (e :: l) = untaken l := by
  simp [untaken, h]

theorem untaken_of_clear (h : ∀ e ∈ l, e.taken = false) : untaken l = l.map (·.msg) := by
  rw [untaken, filter_eq_self.mpr (by simpa using h)]

theorem totalLen_append (msgs msgs' : List α)
    : totalLen contentLen (msgs ++ msgs') = totalLen contentLen msgs + totalLen contentLen msgs' := by
  simp [totalLen]

theorem totalLen_cons (msg : α) (msgs : List α)
    : totalLen contentLen (msg :: msgs) = contentLen msg + totalLen contentLen msgs := by
  simp [totalLen]

end Untaken

structure Balanced (q : MessageQueue α) : Prop where
  credits : q.sem + q.releasing + q.consumer.credits = (untaken q.queue).length
  bytes : q.thresHold = totalLen contentLen (untaken q.queue)

def Clear (q : MessageQueue α) : Prop := ∀ e ∈ q.queue, e.taken = false

instance (q : MessageQueue α) : Decidable q.Clear :=
  inferInstanceAs (Decidable (∀ e ∈ q.queue, e.taken = false))

def Event.Allowed (q : MessageQueue α) : Event α → Prop
  | .multiProduce msgs => msgs.length = 1
  | .insert _ => q.Clear
  | .consumeWait => q.Clear
  | .multiConsume _ => q.Clear
  | .remove => ∀ e ∈ q.queue.head?, e.taken = true
  | .sendFailed => ∀ msg ∈ q.held, contentLen msg = 0
  | _ => True

instance (q : MessageQueue α) (e : Event α) : Decidable (e.Allowed contentLen q) := by
  unfold Event.Allowed
  cases e <;> infer_instance

inductive Shape : MessageQueue α → Prop where
  | clear {q : MessageQueue α} (h : q.Clear) (held : q.held = none) : Shape q
  | taken {q : MessageQueue α} {msg : α} {rest : List (Entry α)} (queue : q.queue = ⟨msg, true⟩ :: rest)
      (h : ∀ e ∈ rest, e.taken = false) (held : q.held = some msg) (consumer : q.consumer = .idle)
    : Shape q

structure Inv (q : MessageQueue α) : Prop where
  balanced : q.Balanced contentLen
  shape : q.Shape

variable {contentLen} {q q' : MessageQueue α}

theorem Shape.pushBack (h : q.Shape) (msgs : List α) : (q.pushBack contentLen msgs).Shape := by
  have hnew : ∀ e ∈ msgs.map (fun msg => (⟨msg, false⟩ : Entry α)), e.taken = false := by simp
  cases h with
  | clear hclear held =>
    refine .clear ?_ held
    intro e he
    obtain he | he := mem_append.mp he
    . exact hclear e he
    . exact hnew e he
  | @taken msg rest queue hrest held consumer =>
    refine @Shape.taken _ _ msg (rest ++ msgs.map (fun msg => ⟨msg, false⟩)) ?_ ?_ held consumer
    . rw [MessageQueue.pushBack, queue]
      rfl
    . intro e he
      obtain he | he := mem_append.mp he
      . exact hrest e he
      . exact hnew e he

theorem Inv.pushBack (h : q.Inv contentLen) (msg : α) : (q.pushBack contentLen [msg]).Inv contentLen := by
  have ⟨hcredits, hbytes⟩ := h.balanced
  refine ⟨⟨?_, ?_⟩, h.shape.pushBack [msg]⟩
  . simp only [MessageQueue.pushBack, untaken_append, untaken_new, length_append,
      length_singleton]
    omega
  . simp only [MessageQueue.pushBack, untaken_append, untaken_new, totalLen_append]
    omega

theorem Inv.insert (h : q.Inv contentLen) (hclear : q.Clear) (msg : α)
    : (q.pushFront contentLen msg).Inv contentLen := by
  have ⟨hcredits, hbytes⟩ := h.balanced
  refine ⟨⟨?_, ?_⟩, ?_⟩
  . simp only [pushFront, untaken_cons_false, length_cons]
    omega
  . simp only [pushFront, untaken_cons_false, totalLen_cons]
    omega
  . cases h.shape with
    | clear _ held =>
      refine .clear ?_ held
      intro e he
      obtain he | he := mem_cons.mp he
      . rw [he]
      . exact hclear e he
    | taken queue =>
      have := hclear _ (by rw [queue]; exact mem_cons_self ..)
      contradiction

theorem Inv.of_credits (h : q.Inv contentLen) (hqueue : q'.queue = q.queue)
    (hthres : q'.thresHold = q.thresHold) (hheld : q'.held = q.held)
    (hcredits : q'.sem + q'.releasing + q'.consumer.credits = q.sem + q.releasing + q.consumer.credits)
    (hconsumer : q'.consumer = q.consumer ∨ q.Clear)
    : q'.Inv contentLen := by
  refine ⟨⟨?_, ?_⟩, ?_⟩
  . rw [hcredits, hqueue]
    exact h.balanced.credits
  . rw [hthres, hqueue]
    exact h.balanced.bytes
  . cases h.shape with
    | clear hclear held => exact .clear (by rw [Clear, hqueue]; exact hclear) (hheld.trans held)
    | taken queue hrest held consumer =>
      obtain hsame | hclear := hconsumer
      . exact .taken (hqueue.trans queue) hrest (hheld.trans held) (hsame.trans consumer)
      . have := hclear _ (by rw [queue]; exact mem_cons_self ..)
        contradiction

theorem Shape.of_busy (h : q.Shape) (hbusy : q.consumer ≠ .idle) : q.Clear ∧ q.held = none := by
  cases h with
  | clear hclear held => exact ⟨hclear, held⟩
  | taken _ _ _ consumer => contradiction

section Inv

variable (h : q.Inv contentLen)

include h

theorem Inv.consumeTake (hexec : Event.consumeTake.exec contentLen q = some q')
    : q'.Inv contentLen := by
  have ⟨hcredits, hbytes⟩ := h.balanced
  simp only [Event.exec] at hexec
  split at hexec
  . next hconsumer =>
    have ⟨hclear, _⟩ := h.shape.of_busy (by rw [hconsumer]; simp)
    rw [hconsumer] at hcredits
    split at hexec
    . next hqueue =>
      -- the credit is backed by a message
      rw [hqueue] at hcredits
      simp [untaken, Consumer.credits] at hcredits
    . next e rest hqueue =>
      cases hexec
      have he := hclear e (by rw [hqueue]; exact mem_cons_self ..)
      have hrest : ∀ e' ∈ rest, e'.taken = false :=
        fun e' he' => hclear e' (by rw [hqueue]; exact mem_cons_of_mem _ he')
      rw [hqueue, untaken_cons_false he] at hcredits hbytes
      rw [length_cons] at hcredits
      rw [totalLen_cons] at hbytes
      refine ⟨⟨?_, ?_⟩, .taken rfl hrest rfl rfl⟩
      . simp only [untaken_cons_true, Consumer.credits] at hcredits ⊢
        omega
      . simp only [untaken_cons_true]
        omega
  . contradiction

theorem Inv.multiTake (hexec : Event.multiTake.exec contentLen q = some q') : q'.Inv contentLen := by
  have ⟨hcredits, hbytes⟩ := h.balanced
  simp only [Event.exec] at hexec
  split at hexec
  . next num got hconsumer =>
    have ⟨hclear, hheld⟩ := h.shape.of_busy (by rw [hconsumer]; simp)
    split at hexec
    . next hnum =>
      cases hexec
      have hdrop : ∀ e ∈ q.queue.drop num, e.taken = false :=
        fun e he => hclear e (mem_of_mem_drop he)
      have hsplit : untaken q.queue
          = (q.queue.take num).map (·.msg) ++ (q.queue.drop num).map (·.msg) := by
        rw [untaken_of_clear hclear, ← map_append, take_append_drop]
      rw [hsplit] at hcredits hbytes
      rw [totalLen_append] at hbytes
      refine ⟨⟨?_, ?_⟩, .clear hdrop hheld⟩
      . simp only [untaken_of_clear hdrop, hconsumer, Consumer.credits, length_append,
          length_map, length_take] at hcredits ⊢
        omega
      . simp only [untaken_of_clear hdrop]
        omega
    . contradiction
  . contradiction

theorem Inv.remove (hfront : ∀ e ∈ q.queue.head?, e.taken = true)
    (hexec : Event.remove.exec contentLen q = some q')
    : q'.Inv contentLen := by
  have ⟨hcredits, hbytes⟩ := h.balanced
  simp only [Event.exec] at hexec
  split at hexec
  . cases hexec
    cases h.shape with
    | clear hclear held =>
      have hnil : q.queue = [] := by
        cases hq : q.queue with
        | nil => rfl
        | cons e rest =>
          have hnot := hclear e (by rw [hq]; exact mem_cons_self ..)
          rw [hfront e (by rw [hq]; rfl)] at hnot
          contradiction
      exact ⟨⟨by rw [hcredits, hnil]; rfl, by rw [hbytes, hnil]; rfl⟩, .clear (by simp [Clear, hnil]) rfl⟩
    | taken queue hrest held consumer =>
      rw [queue, untaken_cons_true rfl] at hcredits hbytes
      simp only [queue, tail_cons]
      exact ⟨⟨hcredits, hbytes⟩, .clear hrest rfl⟩
  . contradiction

theorem Inv.sendFailed (hempty : ∀ msg ∈ q.held, contentLen msg = 0)
    (hexec : Event.sendFailed.exec contentLen q = some q')
    : q'.Inv contentLen := by
  have ⟨hcredits, hbytes⟩ := h.balanced
  simp only [Event.exec] at hexec
  split at hexec
  . next hheld =>
    cases hexec
    cases h.shape with
    | clear hclear held =>
      rw [held] at hheld
      simp at hheld
    | @taken msg rest queue hrest held consumer =>
      have hzero := hempty msg held
      rw [queue, untaken_cons_true rfl] at hcredits hbytes
      simp only [queue, giveBack, if_true]
      refine ⟨⟨?_, ?_⟩, .clear ?_ rfl⟩
      . rw [untaken_cons_false rfl, length_cons]
        dsimp only
        omega
      . rw [untaken_cons_false rfl, totalLen_cons]
        dsimp only
        omega
      . intro e he
        obtain he | he := mem_cons.mp he
        . rw [he]
        . exact hrest e he
  . contradiction

theorem Inv.release (hexec : Event.release.exec contentLen q = some q') : q'.Inv contentLen := by
  simp only [Event.exec] at hexec
  split at hexec
  . cases hexec
    refine Inv.of_credits h rfl rfl rfl ?_ (.inl rfl)
    dsimp only
    omega
  . contradiction

theorem Inv.consumeWait (hclear : q.Clear) (hexec : Event.consumeWait.exec contentLen q = some q')
    : q'.Inv contentLen := by
  simp only [Event.exec] at hexec
  split at hexec
  . next hidle =>
    cases hexec
    refine Inv.of_credits h rfl rfl rfl ?_ (.inr hclear)
    simp only [hidle.1, Consumer.credits]
    omega
  . contradiction

theorem Inv.multiConsume (hclear : q.Clear) (hexec : (Event.multiConsume num).exec contentLen q = some q')
    : q'.Inv contentLen := by
  simp only [Event.exec] at hexec
  split at hexec
  . next hidle =>
    cases hexec
    refine Inv.of_credits h rfl rfl rfl ?_ (.inr hclear)
    simp only [hidle, Consumer.credits]
  . contradiction

theorem Inv.multiWait (hexec : Event.multiWait.exec contentLen q = some q') : q'.Inv contentLen := by
  simp only [Event.exec] at hexec
  split at hexec
  . next num got hconsumer =>
    have hclear := (h.shape.of_busy (by rw [hconsumer]; simp)).1
    split at hexec
    . cases hexec
      refine Inv.of_credits h rfl rfl rfl ?_ (.inr hclear)
      simp only [hconsumer, Consumer.credits]
      omega
    . contradiction
  . contradiction

theorem Inv.step (hstep : Guarded (Event.Allowed contentLen) (Event.Step contentLen) q e q')
    : q'.Inv contentLen := by
  have ⟨hallowed, hexec⟩ := hstep
  cases e with
  | produce msg =>
    simp only [Event.Step, Event.exec, some.injEq] at hexec
    exact hexec ▸ h.pushBack msg
  | insert msg =>
    simp only [Event.Step, Event.exec, some.injEq] at hexec
    exact hexec ▸ h.insert hallowed msg
  | multiProduce msgs =>
    have ⟨msg, hmsg⟩ := length_eq_one_iff.mp hallowed
    simp only [Event.Step, Event.exec, hmsg, reduceCtorEq, if_false, some.injEq] at hexec
    exact hexec ▸ h.pushBack msg
  | release => exact h.release hexec
  | consumeWait => exact h.consumeWait hallowed hexec
  | consumeTake => exact h.consumeTake hexec
  | multiConsume num => exact h.multiConsume hallowed hexec
  | multiWait => exact h.multiWait hexec
  | multiTake => exact h.multiTake hexec
  | remove => exact h.remove hallowed hexec
  | sendFailed => exact h.sendFailed hallowed hexec

end Inv

theorem queue_accounting {events : List (Event α)}
    (hrun : Run (Guarded (Event.Allowed contentLen) (Event.Step contentLen)) new events q)
    : q.Balanced contentLen
        ∧
      0 ≤ q.thresHold
        ∧
      (q.consumer.credits < (untaken q.queue).length → 0 < q.sem ∨ 0 < q.releasing) := by
  have hstart : Inv contentLen (new : MessageQueue α) :=
    ⟨⟨rfl, rfl⟩, .clear (by simp [Clear, new]) rfl⟩
  have hinv := hrun.invariant (Inv contentLen) (fun _ _ _ h hstep => h.step hstep) hstart
  have hcredits := hinv.balanced.credits
  have hbytes := hinv.balanced.bytes
  exact ⟨hinv.balanced, by omega, by omega⟩

section Example

def sendOne : List (Event Nat) :=
  [.produce 3, .produce 4, .release, .consumeWait, .consumeTake, .multiProduce [5], .remove, .release,
    .release]

theorem queue_accounting_sendOne
    : ∃ q, Run (Guarded (Event.Allowed id) (Event.Step id)) new sendOne q ∧ q.sem = 2 ∧
        q.thresHold = 9 ∧ q.Balanced id := by
  refine Run.exists_of_checked (fun q => q.sem = 2 ∧ q.thresHold = 9) (by decide +kernel) ?_
  exact fun q hrun hq => ⟨hq.1, hq.2, (queue_accounting hrun).1⟩

theorem queue_accounting_lost
    : ([Event.multiProduce [3, 4], .release].foldlM (Event.exec id) new).any
        (fun q : MessageQueue Nat =>
          q.sem = 1 ∧ q.releasing = 0 ∧ q.consumer = .idle ∧ untaken q.queue = [3, 4])
        ∧
      ([Event.produce 5, .release, .consumeWait, .consumeTake, .sendFailed, .consumeWait,
          .consumeTake].foldlM (Event.exec id) new).any
        (fun q : MessageQueue Nat => q.thresHold = -5)
        ∧
      ([Event.produce 5, .release, .consumeWait, .consumeTake, .insert 7, .remove, .release].foldlM
          (Event.exec id) new).any
        (fun q : MessageQueue Nat =>
          q.sem = 1 ∧ q.thresHold = 7 ∧ untaken q.queue = [] ∧ q.queue.map (·.msg) = [5]) := by
  decide +kernel

end Example

section Delivery

/--
The messages in the order in which they are to leave the queue, and those that have left it.
-/
structure Log (α : Type) where
  order : List α
  sent : List α

def Event.note (q : MessageQueue α) (log : Log α) : Event α → Log α
  | .produce msg => { log with order := log.order ++ [msg] }
  | .multiProduce msgs => { log with order := log.order ++ msgs }
  | .insert msg => { log with order := log.sent ++ msg :: log.order.drop log.sent.length }
  | .multiTake =>
    match q.consumer with
    | .batch num _ => { log with sent := log.sent ++ (q.queue.take num).map (·.msg) }
    | _ => log
  -- the writer removes the message that it has written to the stream
  | .remove => { log with sent := log.sent ++ q.held.toList }
  | _ => log

-- one message is read, written and removed before the next one, and nothing is put before it
def Event.inTurn (s : MessageQueue α × Log α) : Event α → Bool
  | .insert _ | .consumeWait | .multiConsume _ => s.1.held.isNone
  | .remove => s.1.held.isSome
  | _ => true

def Event.logged (contentLen : α → Nat) (s : MessageQueue α × Log α) (e : Event α) : Option (MessageQueue α × Log α) :=
  (e.exec contentLen s.1).map (·, e.note s.1 s.2)

structure Delivers (q : MessageQueue α) (log : Log α) : Prop where
  order : log.order = log.sent ++ q.queue.map (·.msg)
  held : ∀ msg ∈ q.held, q.consumer = .idle ∧ ∃ rest, q.queue = ⟨msg, true⟩ :: rest

theorem map_giveBack (l : List (Entry α)) : (giveBack l).map (·.msg) = l.map (·.msg) := by
  induction l with
  | nil => rfl
  | cons e l ih =>
    rw [giveBack]
    split
    . rfl
    . rw [map_cons, map_cons, ih]

theorem Delivers.step (h : Delivers q log) (hturn : Event.inTurn (q, log) e)
    (hexec : Event.exec contentLen q e = some q')
    : Delivers q' (e.note q log) := by
  obtain ⟨horder, hheld⟩ := h
  cases e with
  | multiProduce msgs =>
    simp only [Event.exec] at hexec
    split at hexec
    . contradiction
    . cases hexec
      refine ⟨by simp [Event.note, pushBack, horder, Function.comp_def], ?_⟩
      grind [pushBack]
  | multiTake =>
    simp only [Event.exec] at hexec
    split at hexec
    . next hconsumer =>
      split at hexec
      . cases hexec
        refine ⟨by simp [Event.note, hconsumer, horder], ?_⟩
        grind
      . contradiction
    . contradiction
  | remove =>
    obtain ⟨msg, hmsg⟩ := isSome_iff_exists.mp hturn
    obtain ⟨_, rest, hqueue⟩ := hheld msg hmsg
    simp only [Event.exec, Event.note] at *
    constructor <;> grind
  | sendFailed =>
    simp only [Event.exec, Event.note] at *
    constructor <;> grind [map_giveBack]
  | _ =>
    simp only [Event.exec, pushBack, pushFront, Event.note, Event.inTurn, isNone_iff_eq_none] at *
    constructor <;> grind

theorem delivered_in_order {events : List (Event α)} {q : MessageQueue α} {log : Log α}
    (hrun : Run (Guarded (Event.inTurn · ·) (fun s e t => Event.logged contentLen s e = some t))
      (new, ⟨[], []⟩) events (q, log))
    : log.order = log.sent ++ q.queue.map (·.msg) := by
  refine (hrun.invariant (fun s => Delivers s.1 s.2) ?_ ⟨rfl, by simp [new]⟩).order
  intro s e t h ⟨hturn, hstep⟩
  obtain ⟨q', hexec, rfl⟩ := map_eq_some_iff.mp hstep
  exact h.step hturn hexec

theorem delivered_in_order_sendOne
    : ∃ s, Run (Guarded (Event.inTurn · ·) (fun s e t => Event.logged id s e = some t)) (new, ⟨[], []⟩)
        sendOne s ∧ s.2.sent = [3] ∧ s.2.order = s.2.sent ++ s.1.queue.map (·.msg) := by
  refine Run.exists_of_checked (fun s => s.2.sent = [3]) (by decide +kernel) ?_
  exact fun s hrun hs => ⟨hs, delivered_in_order hrun⟩

end Delivery

end MessageQueue
end Sci
