import Cloudland.Lib.Run

/-!
Waiting for and notifying of events (`libsci/eventntf.cpp`). What a call does under the lock is one step, and so
is each look at a flag without it.
-/

namespace Sci

open List Option

abbrev MAX_SERIAL_NUM : Nat := 1024

structure SerialNtfTest where
  freezed : Bool
  notified : Bool
  used : Bool
  ret : Option Nat
  deriving DecidableEq

inductive Waiter where
  | allocated
  -- `freeze_i` keeps the flags `notified` and `freezed` to restore them
  | waiting (saved : Option (Bool × Bool))
  | returned
  | gaveUp
  deriving DecidableEq

inductive Notifier where
  | pending
  -- between `getRetVal` and the store through the pointer
  | loaded (ret : Option Nat)
  | written
  | tested
  | notified
  | failed
  deriving DecidableEq

structure Allocated where
  id : Nat
  waiter : Waiter
  notifier : Notifier
  value : Option Nat
  deriving DecidableEq

structure EventNotify where
  serialTest : List SerialNtfTest
  serialNum : Nat
  serialSize : Int
  termState : Bool
  allocations : List Allocated
  deriving DecidableEq

namespace EventNotify

def INIT_VAL_NTF : SerialNtfTest := ⟨false, false, false, none⟩

def new : EventNotify := ⟨replicate MAX_SERIAL_NUM INIT_VAL_NTF, 0, 0, false, []⟩

def nextFree (serialTest : List SerialNtfTest) : Nat → Nat → Option Nat
  | 0, _ => none
  | fuel + 1, serialNum => do
    let serialNum := (serialNum + 1) % serialTest.length
    let slot ← serialTest[serialNum]?
    if slot.used then nextFree serialTest fuel serialNum else some serialNum

section

variable (s : EventNotify)

-- the size is compared as an unsigned number
def resized : List SerialNtfTest :=
  if s.serialSize < 0 ∨ s.serialTest.length ≤ s.serialSize then
    s.serialTest ++ replicate s.serialTest.length INIT_VAL_NTF
  else
    s.serialTest

inductive Event where
  | allocate
  | freeze (t : Nat)
  | freezeI (t : Nat)
  | wake (t : Nat)
  | giveUp (t : Nat)
  | getRetVal (t : Nat)
  | write (t : Nat)
  | test (t : Nat)
  | testFailed (t : Nat)
  | notify (t : Nat)
  | terminate
  deriving DecidableEq

def update (t : Nat) (a : Allocated) (slot : SerialNtfTest) : EventNotify :=
  { s with allocations := s.allocations.set t a, serialTest := s.serialTest.set a.id slot }

def allocate : Option EventNotify := do
  let serialTest := s.resized
  let num ← nextFree serialTest serialTest.length s.serialNum
  let slot ← serialTest[num]?
  return { s with
    serialTest := serialTest.set num { slot with used := true, notified := false, freezed := false }
    serialNum := num
    serialSize := s.serialSize + 1
    allocations := s.allocations ++ [⟨num, .allocated, .pending, none⟩] }

def step (t : Nat) (a : Allocated) (slot : SerialNtfTest) : Event → Option EventNotify
  | .freeze _ =>
    if a.waiter = .allocated then
      some (s.update t { a with waiter := .waiting none }
        { slot with ret := some t, notified := false, freezed := true })
    else
      none
  | .freezeI _ =>
    if a.waiter = .allocated then
      some (s.update t { a with waiter := .waiting (some (slot.notified, slot.freezed)) }
        { slot with ret := some t, notified := false, freezed := true })
    else
      none
  | .wake _ =>
    match a.waiter with
    | .waiting _ =>
      if slot.notified then
        some { s.update t { a with waiter := .returned } { slot with freezed := false, used := false } with
          serialSize := s.serialSize - 1 }
      else
        some s
    | _ => none
  | .giveUp _ =>
    match a.waiter with
    | .waiting (some (notified, freezed)) =>
      if s.termState ∧ slot.notified = false then
        some (s.update t { a with waiter := .gaveUp } { slot with notified, freezed })
      else
        none
    | _ => none
  | .getRetVal _ =>
    -- the assertion in `test` assigns
    if a.notifier = .pending ∧ slot.freezed then
      some (s.update t { a with notifier := .loaded slot.ret } { slot with used := true })
    else
      none
  | .test _ =>
    if (a.notifier = .pending ∨ a.notifier = .written) ∧ slot.freezed then
      some (s.update t { a with notifier := .tested } { slot with used := true })
    else
      none
  | .testFailed _ =>
    if (a.notifier = .pending ∨ a.notifier = .written) ∧ slot.freezed = false ∧ s.termState then
      some (s.update t { a with notifier := .failed } slot)
    else
      none
  | .notify _ =>
    if a.notifier = .tested then
      some (s.update t { a with notifier := .notified } { slot with used := false, notified := true })
    else
      none
  | _ => none

def write (t : Nat) (a : Allocated) : Option EventNotify :=
  match a.notifier with
  | .loaded (some p) => do
    let s := { s with allocations := s.allocations.set t { a with notifier := .written } }
    let owner ← s.allocations[p]?
    return { s with allocations := s.allocations.set p { owner with value := some t } }
  | _ => none

def Event.allocation : Event → Option Nat
  | .allocate => none
  | .terminate => none
  | .freeze t => some t
  | .freezeI t => some t
  | .wake t => some t
  | .giveUp t => some t
  | .getRetVal t => some t
  | .write t => some t
  | .test t => some t
  | .testFailed t => some t
  | .notify t => some t

def Event.exec : Event → Option EventNotify
  | .allocate => s.allocate
  | .terminate => some { s with termState := true }
  | .write t => do
    let a ← s.allocations[t]?
    s.write t a
  | e => do
    let t ← e.allocation
    let a ← s.allocations[t]?
    let slot ← s.serialTest[a.id]?
    s.step t a slot e

def Event.Step (e : Event) (s' : EventNotify) : Prop := e.exec s = some s'

def Event.Allowed : Event → Prop
  | .allocate =>
    s.serialSize < MAX_SERIAL_NUM ∧
    ((nextFree s.resized s.resized.length s.serialNum).bind (fun num => s.resized[num]?)).all
      (fun slot => slot.freezed = false) = true
  | _ => True

end

instance (s : EventNotify) (e : Event) : Decidable (e.Allowed s) := by
  unfold Event.Allowed
  cases e <;> infer_instance

end EventNotify

def Allocated.Ok (t : Nat) (a : Allocated) (slot : SerialNtfTest) : Prop :=
  match a.waiter with
  | .allocated => slot.used = true ∧ slot.freezed = false ∧ (a.notifier = .pending ∨ a.notifier = .failed)
  | .waiting saved =>
    slot.freezed = true ∧ slot.ret = some t ∧ (∀ flags, saved = some flags → flags.2 = false) ∧
      ((a.notifier = .notified ∧ slot.used = false ∧ slot.notified = true) ∨
        (a.notifier ≠ .notified ∧ slot.used = true ∧ slot.notified = false))
  | .returned => a.notifier = .notified
  | .gaveUp => a.notifier ≠ .notified → slot.used = true ∧ slot.freezed = false

def Allocated.Holds (a : Allocated) : Prop :=
  match a.waiter with
  | .allocated => True
  | .waiting _ => True
  | .returned => False
  | .gaveUp => a.notifier ≠ .notified

def Allocated.Own (t : Nat) (a : Allocated) : Prop :=
  (a.value = none ∨ a.value = some t) ∧ ∀ ret, a.notifier = .loaded ret → ret = some t

namespace EventNotify

variable {s s' : EventNotify} {t : Nat} {a a' : Allocated} {slot slot' : SerialNtfTest}

structure Inv (s : EventNotify) : Prop where
  own : ∀ (t : Nat) (a : Allocated), s.allocations[t]? = some a → a.Own t
  ok : ∀ (t : Nat) (a : Allocated), s.allocations[t]? = some a →
    ∃ slot, s.serialTest[a.id]? = some slot ∧ a.Ok t slot
  distinct : ∀ (t t' : Nat) (a a' : Allocated), s.allocations[t]? = some a →
    s.allocations[t']? = some a' → a.Holds → a'.Holds → a.id = a'.id → t = t'

theorem Ok_of_not_holds {slot' : SerialNtfTest} (h : a.Ok t slot) (hholds : ¬a.Holds) : a.Ok t slot' := by
  unfold Allocated.Ok Allocated.Holds at *
  split at h
  . simp_all
  . simp_all
  . exact h
  . next hwaiter =>
    rw [hwaiter] at hholds
    intro hne
    exact absurd hne hholds

theorem getElem?_set_cases {l : List α} {i j : Nat} {x y : α} (h : (l.set i x)[j]? = some y)
    : (i = j ∧ y = x) ∨ (i ≠ j ∧ l[j]? = some y) := by
  rw [getElem?_set] at h
  split at h
  . next heq =>
    split at h
    . rw [some.injEq] at h
      exact .inl ⟨heq, h.symm⟩
    . contradiction
  . next hne => exact .inr ⟨hne, h⟩

theorem Inv.update (h : s.Inv) (ha : s.allocations[t]? = some a) (hslot : s.serialTest[a.id]? = some slot)
    (hholds : a.Holds) (hid : a'.id = a.id) (hown : a'.Own t) (hok : a'.Ok t slot')
    : (s.update t a' slot').Inv := by
  have hlt := (List.getElem?_eq_some_iff.mp hslot).1
  constructor
  . intro t1 a1 h1
    obtain h1 | h1 := getElem?_set_cases h1
    . exact h1.1 ▸ h1.2 ▸ hown
    . exact h.own t1 a1 h1.2
  . intro t1 a1 h1
    obtain h1 | h1 := getElem?_set_cases h1
    . rw [h1.2, ← h1.1]
      refine ⟨slot', ?_, hok⟩
      simp only [EventNotify.update]
      rw [getElem?_set_self (by rw [hid]; exact hlt)]
    . have ⟨slot1, hslot1, hok1⟩ := h.ok t1 a1 h1.2
      by_cases hsame : a.id = a1.id
      . -- an allocation with the same id no longer holds it
        have hnot : ¬a1.Holds := fun hholds1 => h1.1 (h.distinct t t1 a a1 ha h1.2 hholds hholds1 hsame)
        refine ⟨slot', ?_, Ok_of_not_holds hok1 hnot⟩
        simp only [EventNotify.update]
        rw [hid, hsame, getElem?_set_self (by rw [← hsame]; exact hlt)]
      . refine ⟨slot1, ?_, hok1⟩
        simp only [EventNotify.update]
        rw [hid, getElem?_set_ne hsame]
        exact hslot1
  . have hback : ∀ (t1 : Nat) (a1 : Allocated), (s.allocations.set t a')[t1]? = some a1 → a1.Holds →
        ∃ a0, s.allocations[t1]? = some a0 ∧ a0.Holds ∧ a1.id = a0.id := by
      intro t1 a1 h1 hholds1
      obtain h1 | h1 := getElem?_set_cases h1
      . exact ⟨a, h1.1 ▸ ha, hholds, by rw [h1.2, hid]⟩
      . exact ⟨a1, h1.2, hholds1, rfl⟩
    intro t1 t2 a1 a2 h1 h2 hholds1 hholds2 heq
    have ⟨b1, hb1, hbholds1, hbid1⟩ := hback t1 a1 h1 hholds1
    have ⟨b2, hb2, hbholds2, hbid2⟩ := hback t2 a2 h2 hholds2
    exact h.distinct t1 t2 b1 b2 hb1 hb2 hbholds1 hbholds2 (by rw [← hbid1, ← hbid2, heq])

theorem nextFree_unused {serialTest : List SerialNtfTest} {fuel start num : Nat}
    (h : nextFree serialTest fuel start = some num) (hslot : serialTest[num]? = some slot)
    : slot.used = false := by
  induction fuel generalizing start with
  | zero => contradiction
  | succ fuel ih =>
    have ⟨slot', hslot', h⟩ := bind_eq_some_iff.mp h
    split at h
    . exact ih h
    . next hused =>
      rw [some.injEq] at h
      rw [h, hslot, some.injEq] at hslot'
      simpa [hslot'] using hused

theorem getElem?_resized {i : Nat} (h : s.serialTest[i]? = some slot) : s.resized[i]? = some slot := by
  unfold resized
  split
  . rw [List.getElem?_append_left (List.getElem?_eq_some_iff.mp h).1]
    exact h
  . exact h

theorem Inv.allocate (h : s.Inv) (hallowed : Event.allocate.Allowed s) (hexec : s.allocate = some s')
    : s'.Inv := by
  simp only [EventNotify.allocate, bind_eq_bind, bind_eq_some_iff, Option.pure_def,
    Option.some.injEq] at hexec
  have ⟨num, hnum, slot, hslot, hs'⟩ := hexec
  have hunused := nextFree_unused hnum hslot
  have hfreezed := hallowed.2
  rw [hnum, bind_some, hslot, all_some, decide_eq_true_eq] at hfreezed
  have hlt := (List.getElem?_eq_some_iff.mp hslot).1
  -- whoever holds the entry has it in use or is frozen on it
  have hfree : ∀ (t : Nat) (a : Allocated), s.allocations[t]? = some a → a.Holds → a.id ≠ num := by
    intro t a ha hholds hid
    have ⟨slot', hslot', hok⟩ := h.ok t a ha
    have hslot' := getElem?_resized hslot'
    rw [hid, hslot, some.injEq] at hslot'
    subst hslot'
    unfold Allocated.Ok at hok
    unfold Allocated.Holds at hholds
    split at hok
    . rw [hunused] at hok
      simp at hok
    . rw [hfreezed] at hok
      simp at hok
    . next hwaiter => simp [hwaiter] at hholds
    . next hwaiter =>
      rw [hwaiter] at hholds
      have := (hok hholds).1
      rw [hunused] at this
      contradiction
  have hcases : ∀ (t : Nat) (a : Allocated),
      (s.allocations ++ [⟨num, .allocated, .pending, none⟩])[t]? = some a →
      s.allocations[t]? = some a ∨ (t = s.allocations.length ∧ a = ⟨num, .allocated, .pending, none⟩) := by
    intro t a ha
    rw [getElem?_append] at ha
    split at ha
    . exact .inl ha
    . have ⟨hlen, hget⟩ := List.getElem?_eq_some_iff.mp ha
      rw [List.length_singleton] at hlen
      rw [getElem_singleton] at hget
      exact .inr ⟨by omega, hget.symm⟩
  subst hs'
  constructor
  . intro t a ha
    obtain ha | ha := hcases t a ha
    . exact h.own t a ha
    . rw [ha.2]
      exact ⟨.inl rfl, by simp⟩
  . intro t a ha
    obtain ha | ha := hcases t a ha
    . have ⟨slot', hslot', hok⟩ := h.ok t a ha
      by_cases hid : num = a.id
      . have hok' := fun slot' => @Ok_of_not_holds t a _ slot' hok (fun hholds => hfree t a ha hholds hid.symm)
        exact ⟨_, by rw [← hid]; exact getElem?_set_self hlt, hok' _⟩
      . exact ⟨slot', (getElem?_set_ne hid).trans (getElem?_resized hslot'), hok⟩
    . rw [ha.2]
      exact ⟨_, getElem?_set_self hlt, rfl, rfl, .inl rfl⟩
  . intro t t' a a' ha ha' hholds hholds' heq
    obtain ha | ha := hcases t a ha
    . obtain ha' | ha' := hcases t' a' ha'
      . exact h.distinct t t' a a' ha ha' hholds hholds' heq
      . rw [ha'.2] at heq
        exact absurd heq (hfree t a ha hholds)
    . obtain ha' | ha' := hcases t' a' ha'
      . rw [ha.2] at heq
        exact absurd heq.symm (hfree t' a' ha' hholds')
      . rw [ha.1, ha'.1]

theorem waiting_of_freezed (hok : a.Ok t slot) (hfreezed : slot.freezed = true)
    (hnotifier : a.notifier ≠ .notified)
    : ∃ saved, a.waiter = .waiting saved := by
  unfold Allocated.Ok at hok
  split at hok
  . rw [hfreezed] at hok
    simp at hok
  . next saved hwaiter => exact ⟨saved, hwaiter⟩
  . exact absurd hok hnotifier
  . rw [hfreezed] at hok
    simp at hok
    exact absurd hok hnotifier

section Inv

variable (h : s.Inv) (ha : s.allocations[t]? = some a) (hslot : s.serialTest[a.id]? = some slot) (hok : a.Ok t slot)

include h ha hslot hok

theorem Inv.advance (hwaiter : a.waiter = .waiting saved)
    (hbefore : a.notifier ≠ .notified) (hafter : notifier ≠ .notified)
    (hloaded : ∀ ret, notifier = .loaded ret → ret = some t)
    : (s.update t { a with notifier } { slot with used := true }).Inv := by
  have hown := h.own t a ha
  simp only [Allocated.Ok, hwaiter] at hok
  apply h.update ha hslot
  . simp [Allocated.Holds, hwaiter]
  . rfl
  . exact ⟨hown.1, hloaded⟩
  . have hnot := (hok.2.2.2.resolve_left (fun hn => hbefore hn.1)).2.2
    simp only [Allocated.Ok, hwaiter]
    exact ⟨hok.1, hok.2.1, hok.2.2.1, .inr ⟨hafter, trivial, hnot⟩⟩

theorem Inv.freeze (hwaiter : a.waiter = .allocated)
    (hsaved : ∀ flags, saved = some flags → flags.2 = slot.freezed)
    : (s.update t { a with waiter := .waiting saved }
        { slot with ret := some t, notified := false, freezed := true }).Inv := by
  have hown := h.own t a ha
  simp only [Allocated.Ok, hwaiter] at hok
  have ⟨hused, hfreezed, hnotifier⟩ := hok
  have hne : a.notifier ≠ .notified := by
    intro heq
    rw [heq] at hnotifier
    simp at hnotifier
  apply h.update ha hslot
  . simp [Allocated.Holds, hwaiter]
  . rfl
  . exact hown
  . exact ⟨rfl, rfl, fun flags hflags => (hsaved flags hflags).trans hfreezed, .inr ⟨hne, hused, rfl⟩⟩

theorem Inv.wake (hwaiter : a.waiter = .waiting saved) (hnotified : slot.notified = true)
    : (s.update t { a with waiter := .returned } { slot with freezed := false, used := false }).Inv := by
  simp only [Allocated.Ok, hwaiter, hnotified, Bool.true_eq_false, and_false, or_false] at hok
  apply h.update ha hslot
  . simp [Allocated.Holds, hwaiter]
  . rfl
  . exact h.own t a ha
  . exact hok.2.2.2.1

theorem Inv.giveUp (hwaiter : a.waiter = .waiting (some (notified, freezed)))
    (hnotified : slot.notified = false)
    : (s.update t { a with waiter := .gaveUp } { slot with notified, freezed }).Inv := by
  simp only [Allocated.Ok, hwaiter, hnotified, Bool.false_eq_true, and_false, false_or] at hok
  have hfreezed := hok.2.2.1 _ rfl
  apply h.update ha hslot
  . simp [Allocated.Holds, hwaiter]
  . rfl
  . exact h.own t a ha
  . exact fun _ => ⟨hok.2.2.2.2.1, hfreezed⟩

theorem Inv.testFailed (hfreezed : slot.freezed = false) (hbefore : a.notifier ≠ .notified)
    : (s.update t { a with notifier := .failed } slot).Inv := by
  have hown := h.own t a ha
  apply h.update ha hslot
  . unfold Allocated.Ok at hok
    unfold Allocated.Holds
    split at hok
    . simp
    . simp
    . exact absurd hok hbefore
    . next hwaiter => simpa [hwaiter] using hbefore
  . rfl
  . exact ⟨hown.1, by simp⟩
  . unfold Allocated.Ok at hok ⊢
    split at hok
    . next hwaiter =>
      simp only [hwaiter]
      exact ⟨hok.1, hok.2.1, .inr trivial⟩
    . rw [hfreezed] at hok
      simp at hok
    . exact absurd hok hbefore
    . next hwaiter =>
      simp only [hwaiter]
      exact fun _ => hok hbefore

theorem Inv.notify (htested : a.notifier = .tested)
    : (s.update t { a with notifier := .notified } { slot with used := false, notified := true }).Inv := by
  have hown := h.own t a ha
  unfold Allocated.Ok at hok
  have hafter : Allocated.Own t { a with notifier := .notified } := ⟨hown.1, by simp⟩
  split at hok
  . rw [htested] at hok
    simp at hok
  . next saved hwaiter =>
    refine h.update ha hslot (by simp [Allocated.Holds, hwaiter]) rfl hafter ?_
    simp only [Allocated.Ok, hwaiter]
    exact ⟨hok.1, hok.2.1, hok.2.2.1, .inl ⟨trivial, trivial, trivial⟩⟩
  . rw [htested] at hok
    contradiction
  . next hwaiter =>
    refine h.update ha hslot (by simp [Allocated.Holds, hwaiter, htested]) rfl hafter ?_
    simp [Allocated.Ok, hwaiter]

theorem Inv.step (hstep : s.step t a slot e = some s') : s'.Inv := by
  cases e with
  | freeze =>
    simp only [EventNotify.step, ite_none_right_eq_some, some.injEq] at hstep
    exact hstep.2 ▸ h.freeze ha hslot hok hstep.1 (by simp)
  | freezeI =>
    simp only [EventNotify.step, ite_none_right_eq_some, some.injEq] at hstep
    exact hstep.2 ▸ h.freeze ha hslot hok hstep.1 (by simp)
  | wake =>
    simp only [EventNotify.step] at hstep
    split at hstep
    . next saved hwaiter =>
      split at hstep
      . next hnotified =>
        rw [some.injEq] at hstep
        have hinv := h.wake ha hslot hok hwaiter hnotified
        exact hstep ▸ ⟨hinv.own, hinv.ok, hinv.distinct⟩
      . rw [some.injEq] at hstep
        exact hstep ▸ h
    . contradiction
  | giveUp =>
    simp only [EventNotify.step] at hstep
    split at hstep
    . next notified freezed hwaiter =>
      simp only [ite_none_right_eq_some, some.injEq] at hstep
      exact hstep.2 ▸ h.giveUp ha hslot hok hwaiter hstep.1.2
    . contradiction
  | getRetVal =>
    simp only [EventNotify.step, ite_none_right_eq_some, some.injEq] at hstep
    have ⟨⟨hpending, hfreezed⟩, heq⟩ := hstep
    have hbefore : a.notifier ≠ .notified := by
      rw [hpending]
      simp
    have ⟨saved, hwaiter⟩ := waiting_of_freezed hok hfreezed hbefore
    have hret : slot.ret = some t := by
      simp only [Allocated.Ok, hwaiter] at hok
      exact hok.2.1
    exact heq ▸ h.advance ha hslot hok hwaiter hbefore (by simp) (by simp [hret])
  | test =>
    simp only [EventNotify.step, ite_none_right_eq_some, some.injEq] at hstep
    have ⟨⟨hphase, hfreezed⟩, heq⟩ := hstep
    have hbefore : a.notifier ≠ .notified := by
      obtain hphase | hphase := hphase
      . simp [hphase]
      . simp [hphase]
    have ⟨saved, hwaiter⟩ := waiting_of_freezed hok hfreezed hbefore
    exact heq ▸ h.advance ha hslot hok hwaiter hbefore (by simp) (by simp)
  | testFailed =>
    simp only [EventNotify.step, ite_none_right_eq_some, some.injEq] at hstep
    have ⟨⟨hphase, hfreezed, _⟩, heq⟩ := hstep
    have hbefore : a.notifier ≠ .notified := by
      obtain hphase | hphase := hphase
      . simp [hphase]
      . simp [hphase]
    exact heq ▸ h.testFailed ha hslot hok hfreezed hbefore
  | notify =>
    simp only [EventNotify.step, ite_none_right_eq_some, some.injEq] at hstep
    exact hstep.2 ▸ h.notify ha hslot hok hstep.1
  | allocate => contradiction
  | write => contradiction
  | terminate => contradiction

end Inv

theorem set_eq_self {l : List α} {i : Nat} {x : α} (h : l[i]? = some x) : l.set i x = l := by
  obtain ⟨hlt, rfl⟩ := List.getElem?_eq_some_iff.mp h
  rw [set_getElem_self]

theorem Inv.write (h : s.Inv) (ha : s.allocations[t]? = some a) (hslot : s.serialTest[a.id]? = some slot)
    (hok : a.Ok t slot) (hwrite : s.write t a = some s')
    : s'.Inv := by
  simp only [EventNotify.write] at hwrite
  split at hwrite
  . next p hloaded =>
    have hown := h.own t a ha
    have hself := hown.2 _ hloaded
    rw [some.injEq] at hself
    subst hself
    have hlt := (List.getElem?_eq_some_iff.mp ha).1
    simp only [getElem?_set_self hlt, bind_eq_bind, bind_some, Option.pure_def,
      Option.some.injEq, set_set] at hwrite
    have hholds : a.Holds := by
      unfold Allocated.Ok at hok
      unfold Allocated.Holds
      split at hok
      . simp
      . simp
      . rw [hloaded] at hok
        contradiction
      . simp [hloaded]
    have hok' : Allocated.Ok p { a with notifier := .written, value := some p } slot := by
      unfold Allocated.Ok at hok ⊢
      split at hok
      . rw [hloaded] at hok
        simp at hok
      . next saved hwaiter =>
        simp only [hwaiter]
        simpa [hloaded] using hok
      . rw [hloaded] at hok
        contradiction
      . next hwaiter =>
        simp only [hwaiter]
        exact fun _ => hok (by simp [hloaded])
    have hinv := @Inv.update s p a { a with notifier := .written, value := Option.some p } slot slot h ha hslot
      hholds rfl ⟨.inr rfl, by simp⟩ hok'
    simp only [EventNotify.update, set_eq_self hslot] at hinv
    exact hwrite ▸ hinv
  . contradiction

theorem Inv.exec (h : s.Inv) (hstep : Guarded Event.Allowed Event.Step s e s') : s'.Inv := by
  have ⟨hallowed, hexec⟩ := hstep
  have hother : ∀ e : Event, (do
      let t ← e.allocation
      let a ← s.allocations[t]?
      let slot ← s.serialTest[a.id]?
      s.step t a slot e) = some s' → s'.Inv := by
    intro e hexec
    simp only [bind_eq_bind, bind_eq_some_iff] at hexec
    have ⟨t, _, a, ha, slot, hslot, hstep⟩ := hexec
    have ⟨slot', hslot', hok⟩ := h.ok t a ha
    rw [hslot, some.injEq] at hslot'
    exact h.step ha hslot (hslot' ▸ hok) hstep
  cases e with
  | allocate => exact h.allocate hallowed hexec
  | terminate =>
    simp only [Event.Step, Event.exec, some.injEq] at hexec
    exact hexec ▸ ⟨h.own, h.ok, h.distinct⟩
  | write t =>
    have ⟨a, ha, hwrite⟩ := bind_eq_some_iff.mp hexec
    have ⟨slot, hslot, hok⟩ := h.ok t a ha
    exact h.write ha hslot hok hwrite
  | freeze t => exact hother _ hexec
  | freezeI t => exact hother _ hexec
  | wake t => exact hother _ hexec
  | giveUp t => exact hother _ hexec
  | getRetVal t => exact hother _ hexec
  | test t => exact hother _ hexec
  | testFailed t => exact hother _ hexec
  | notify t => exact hother _ hexec

def Live (a : Allocated) : Prop := a.waiter ≠ .returned ∧ a.waiter ≠ .gaveUp

theorem notification_exact {events : List Event} (hrun : Run (Guarded Event.Allowed Event.Step) new events s)
    : (∀ (t t' : Nat) (a a' : Allocated), s.allocations[t]? = some a → s.allocations[t']? = some a' →
        Live a → Live a' → a.id = a'.id → t = t')
        ∧
      (∀ (t : Nat) (a : Allocated), s.allocations[t]? = some a → Live a → a.notifier = .notified →
        ∃ s', (Event.wake t).exec s = some s' ∧
          s'.allocations[t]? = some { a with waiter := .returned })
        ∧
      (∀ (t : Nat) (a : Allocated), s.allocations[t]? = some a → a.value = none ∨ a.value = some t) := by
  have hstart : (new : EventNotify).Inv := ⟨by simp [new], by simp [new], by simp [new]⟩
  have hinv := hrun.invariant Inv (fun _ _ _ h hstep => h.exec hstep) hstart
  have hholds : ∀ a : Allocated, Live a → a.Holds := by
    intro a hlive
    unfold Allocated.Holds
    split
    . trivial
    . trivial
    . next hwaiter => exact hlive.1 hwaiter
    . next hwaiter => exact absurd hwaiter hlive.2
  refine ⟨?_, ?_, fun t a ha => (hinv.own t a ha).1⟩
  . intro t t' a a' ha ha' hlive hlive'
    exact hinv.distinct t t' a a' ha ha' (hholds a hlive) (hholds a' hlive')
  . intro t a ha hlive hnotified
    have ⟨slot, hslot, hok⟩ := hinv.ok t a ha
    have hlt := (List.getElem?_eq_some_iff.mp ha).1
    unfold Allocated.Ok at hok
    split at hok
    . rw [hnotified] at hok
      simp at hok
    . next saved hwaiter =>
      have hset := (hok.2.2.2.resolve_right (fun hn => hn.1 hnotified)).2.2
      refine ⟨{ s.update t { a with waiter := .returned } { slot with freezed := false, used := false } with
        serialSize := s.serialSize - 1 }, ?_, getElem?_set_self hlt⟩
      simp [Event.exec, Event.allocation, ha, hslot, EventNotify.step, hwaiter, hset]
    . next hwaiter => exact absurd hwaiter hlive.1
    . next hwaiter => exact absurd hwaiter hlive.2

section Example

def twoWaiters : List Event :=
  [.allocate, .freeze 0, .getRetVal 0, .allocate, .write 0, .test 0, .freeze 1, .notify 0, .wake 0]

theorem notification_exact_twoWaiters
    : ∃ s, Run (Guarded Event.Allowed Event.Step) new twoWaiters s ∧
        s.allocations = [⟨1, .returned, .notified, some 0⟩, ⟨2, .waiting none, .pending, none⟩] ∧
        ∀ (t : Nat) (a : Allocated), s.allocations[t]? = some a → a.value = none ∨ a.value = some t := by
  refine Run.exists_of_checked (fun s =>
    s.allocations = [⟨1, .returned, .notified, some 0⟩, ⟨2, .waiting none, .pending, none⟩]) (by decide +kernel) ?_
  exact fun s hrun hs => ⟨hs, (notification_exact hrun).2.2⟩

def afterAllocations (k : Nat) : EventNotify where
  serialTest := INIT_VAL_NTF :: (replicate k ⟨false, false, true, none⟩ ++ replicate (1023 - k) INIT_VAL_NTF)
  serialNum := k
  serialSize := k
  termState := false
  allocations := (range' 1 k).map (fun id => ⟨id, .allocated, .pending, none⟩)

theorem allocate_afterAllocations (h : k < 1023)
    : (afterAllocations k).allocate = some (afterAllocations (k + 1)) := by
  have hlen : (afterAllocations k).serialTest.length = 1024 := by
    simp only [afterAllocations, length_cons, length_append, length_replicate]
    omega
  have hresized : (afterAllocations k).resized = (afterAllocations k).serialTest := by
    rw [resized, if_neg]
    rw [hlen]
    simp only [afterAllocations]
    omega
  have hrest : replicate (1023 - k) INIT_VAL_NTF = INIT_VAL_NTF :: replicate (1022 - k) INIT_VAL_NTF := by
    rw [← replicate_succ]
    congr 1
    omega
  have hslot : (afterAllocations k).serialTest[k + 1]? = some INIT_VAL_NTF := by
    simp [afterAllocations, hrest]
  have hset : (afterAllocations k).serialTest.set (k + 1) ⟨false, false, true, INIT_VAL_NTF.ret⟩
      = (afterAllocations (k + 1)).serialTest := by
    simp only [afterAllocations, hrest, show 1023 - (k + 1) = 1022 - k by omega]
    simp [replicate_succ', INIT_VAL_NTF]
  have hnext : nextFree (afterAllocations k).serialTest 1024 k = some (k + 1) := by
    rw [nextFree, hlen, Nat.mod_eq_of_lt (by omega), hslot]
    rfl
  have hnum : (afterAllocations k).serialNum = k := rfl
  simp only [allocate, hresized, hlen, hnum, hnext, hslot, hset, bind_eq_bind, bind_some]
  simp [afterAllocations, range'_concat, Nat.add_comm]

theorem run_allocations (h : k ≤ 1023)
    : (replicate k Event.allocate).foldlM Event.exec new = some (afterAllocations k) := by
  induction k with
  | zero => rfl
  | succ k ih =>
    rw [replicate_succ', foldlM_append, ih (by omega)]
    simp [Event.exec, allocate_afterAllocations (by omega : k < 1023)]

def wrapAround : List Event :=
  replicate 1023 .allocate ++ [.allocate] ++ [.freeze 1, .test 1, .notify 1] ++ [.wake 1] ++
    [.freeze 0, .test 0, .notify 0] ++ [.allocate]

theorem id_reused_before_return
    : ∃ s, wrapAround.foldlM Event.exec new = some s ∧
        s.allocations[0]? = some ⟨1, .waiting none, .notified, none⟩ ∧
        s.allocations[1024]? = some ⟨1, .allocated, .pending, none⟩ ∧
        s.serialTest[1]? = some ⟨false, false, true, some 0⟩ := by
  simp only [wrapAround, append_assoc]
  rw [foldlM_append, run_allocations (by decide)]
  have hcheck : ([Event.allocate, .freeze 1, .test 1, .notify 1, .wake 1, .freeze 0, .test 0, .notify 0,
      .allocate].foldlM Event.exec (afterAllocations 1023)).any (fun s =>
        s.allocations[0]? = some ⟨1, .waiting none, .notified, none⟩ ∧
        s.allocations[1024]? = some ⟨1, .allocated, .pending, none⟩ ∧
        s.serialTest[1]? = some ⟨false, false, true, some 0⟩) = true := by
    decide +kernel
  simpa using any_eq_true _ _ |>.mp hcheck
end Example

end EventNotify
end Sci
