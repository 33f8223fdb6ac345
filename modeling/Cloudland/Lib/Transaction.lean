import Mathlib.Data.List.Basic

/-!
Programs over a database with transactions, which send commands to the outside. Statements and commands may
fail, and a transaction with a failed statement takes no further ones.
-/

/--
`fails` says which of the statements and commands fail, counted from the first one.
-/
structure Session (σ : Type u) (κ : Type v) where
  data : σ
  inTx : Bool
  usable : Bool
  sent : List κ
  count : Nat
  fails : Nat → Bool

def SqlM (σ : Type u) (κ : Type v) (ε : Type w) (α : Type x) : Type _ :=
  Session σ κ → Except ε α × Session σ κ

namespace Session

variable {σ : Type u} {κ : Type v}

def begin (d : σ) (fails : Nat → Bool) : Session σ κ := ⟨d, true, true, [], 0, fails⟩

def works (s : Session σ κ) : Bool := s.usable && !s.fails s.count

def tick (s : Session σ κ) : Session σ κ := { s with count := s.count + 1 }

def afterFailure (s : Session σ κ) : Session σ κ :=
  { s with usable := s.usable && !s.inTx, count := s.count + 1 }

end Session

namespace SqlM

variable {σ : Type u} {κ : Type v} {ε : Type w} {α β : Type x} {γ : Type y}

def bind (m : SqlM σ κ ε α) (f : α → SqlM σ κ ε β) : SqlM σ κ ε β := fun s =>
  match m s with
  | (.ok a, s) => f a s
  | (.error e, s) => (.error e, s)

instance : Monad (SqlM σ κ ε) where
  pure a := fun s => (.ok a, s)
  bind := bind

def throw (e : ε) : SqlM σ κ ε α := fun s => (.error e, s)

def check (r : Except ε α) : SqlM σ κ ε α := fun s => (r, s)

@[simp]
theorem check_ok_bind : (check (.ok a) >>= f) = f a := rfl

def exec (f : σ → α × σ) (e : ε) : SqlM σ κ ε α := fun s =>
  if s.works then
    (.ok (f s.data).1, { s.tick with data := (f s.data).2 })
  else
    (.error e, s.afterFailure)

def update (f : σ → σ) (e : ε) : SqlM σ κ ε PUnit := exec (fun d => (⟨⟩, f d)) e

def query (f : σ → α) (e : ε) : SqlM σ κ ε α := exec (fun d => (f d, d)) e

-- that nothing is found is an error, but no failure of the statement
def find (f : σ → Option α) (e : ε) : SqlM σ κ ε α :=
  bind (query f e) (fun a => check (match a with
    | some a => .ok a
    | none => .error e))

def recover (m : SqlM σ κ ε α) (handler : ε → SqlM σ κ ε α) : SqlM σ κ ε α := fun s =>
  match m s with
  | (.ok a, s) => (.ok a, s)
  | (.error e, s) => handler e s

def attempt (m : SqlM σ κ ε PUnit.{x + 1}) : SqlM σ κ ε PUnit.{x + 1} := recover m (fun _ => pure ⟨⟩)

def send (c : κ) (e : ε) : SqlM σ κ ε PUnit.{x + 1} := fun s =>
  if s.fails s.count then (.error e, s.tick) else (.ok ⟨⟩, { s.tick with sent := s.sent ++ [c] })

def each (l : List γ) (f : γ → SqlM σ κ ε PUnit.{x + 1}) : SqlM σ κ ε PUnit.{x + 1} :=
  match l with
  | [] => pure ⟨⟩
  | a :: l => bind (f a) (fun _ => each l f)

def Triple (P : Session σ κ → Prop) (m : SqlM σ κ ε α) (Q : α → Session σ κ → Prop)
    (E : ε → Session σ κ → Prop) : Prop :=
  ∀ s, P s →
    match m s with
    | (.ok a, s) => Q a s
    | (.error e, s) => E e s

section Rules

variable {P P' : Session σ κ → Prop} {Q : α → Session σ κ → Prop} {E : ε → Session σ κ → Prop}

theorem Triple.ok (h : Triple P m Q E) (hs : P s) (hm : m s = (.ok a, s')) : Q a s' := by
  have := h s hs
  rw [hm] at this
  exact this

theorem Triple.error (h : Triple P m Q E) (hs : P s) (hm : m s = (.error e, s')) : E e s' := by
  have := h s hs
  rw [hm] at this
  exact this

theorem Triple.conseq
    (h : Triple P m Q E) (hP : ∀ s, P' s → P s) (hQ : ∀ a s, Q a s → Q' a s) (hE : ∀ e s, E e s → E' e s)
    : Triple P' m Q' E' := by
  intro s hs
  have := h s (hP s hs)
  split at this
  . exact hQ _ _ this
  . exact hE _ _ this

theorem Triple.of_and (h : p → Triple P m Q E) : Triple (fun s => p ∧ P s) m Q E := by
  intro s hs
  exact h hs.1 s hs.2

theorem Triple.of_exists {R : ι → Session σ κ → Prop} (h : ∀ i, Triple (R i) m Q E)
    : Triple (fun s => ∃ i, R i s) m Q E := by
  intro s ⟨i, hs⟩
  exact h i s hs

theorem Triple.pure (h : ∀ s, P s → Q a s) : Triple P (Pure.pure a : SqlM σ κ ε α) Q E := h

theorem Triple.throw (h : ∀ s, P s → E e s) : Triple P (SqlM.throw e : SqlM σ κ ε α) Q E := h

section SqlM

variable {m : SqlM σ κ ε α} {f : α → SqlM σ κ ε β} {R : β → Session σ κ → Prop}

theorem Triple.bind (hm : Triple P m Q E) (hf : ∀ a, Triple (Q a) (f a) R E)
    : Triple P (m >>= f) R E := by
  intro s hs
  simp only [Bind.bind, SqlM.bind]
  cases hres : m s with
  | mk res s' =>
    cases res with
    | ok a => exact hf a s' (hm.ok hs hres)
    | error e => exact hm.error hs hres

theorem Triple.seq {Q : Session σ κ → Prop} (hm : Triple P m (fun _ => Q) E) (hk : Triple Q k R E)
    : Triple P (m >>= fun _ => k) R E :=
  Triple.bind hm (fun _ => hk)

theorem Triple.seq_pure (hm : Triple P m (fun _ => R b) E) : Triple P (m >>= fun _ => Pure.pure b) R E :=
  Triple.seq hm (Triple.pure (fun _ h => h))

theorem Triple.bind_and {p : α → Prop}
    (hm : Triple P m (fun a s => p a ∧ Q a s) E) (hf : ∀ a, p a → Triple (Q a) (f a) R E)
    : Triple P (m >>= f) R E :=
  Triple.bind hm (fun a => Triple.of_and (hf a))

end SqlM

theorem Triple.ite [Decidable c] (hpos : c → Triple P m Q E) (hneg : ¬c → Triple P m' Q E)
    : Triple P (if c then m else m') Q E := by
  split
  . next h => exact hpos h
  . next h => exact hneg h

theorem Triple.check (hok : ∀ a, r = .ok a → ∀ s, P s → Q a s) (herr : ∀ e, r = .error e → ∀ s, P s → E e s)
    : Triple P (SqlM.check r : SqlM σ κ ε α) Q E := by
  intro s hs
  cases r with
  | ok a => exact hok a rfl s hs
  | error e => exact herr e rfl s hs

theorem Triple.check_and (hE : ∀ e, r = .error e → ∀ s, P s → E e s)
    : Triple P (SqlM.check r : SqlM σ κ ε α) (fun a s => r = .ok a ∧ P s) E :=
  Triple.check (fun _ ha _ hs => ⟨ha, hs⟩) hE

theorem Triple.exec (hok : ∀ s, P s → s.works = true → Q (f s.data).1 { s.tick with data := (f s.data).2 })
    (herr : ∀ s, P s → E e s.afterFailure)
    : Triple P (SqlM.exec f e : SqlM σ κ ε α) Q E := by
  intro s hs
  unfold SqlM.exec
  by_cases hworks : s.works = true
  . rw [if_pos hworks]
    exact hok s hs hworks
  . rw [if_neg hworks]
    exact herr s hs

theorem Triple.send {Q : PUnit.{x + 1} → Session σ κ → Prop}
    (hok : ∀ s, P s → Q ⟨⟩ { s.tick with sent := s.sent ++ [c] }) (herr : ∀ s, P s → E e s.tick)
    : Triple P (SqlM.send c e : SqlM σ κ ε PUnit.{x + 1}) Q E := by
  intro s hs
  unfold SqlM.send
  by_cases hfails : s.fails s.count = true
  . rw [if_pos hfails]
    exact herr s hs
  . rw [if_neg hfails]
    exact hok s hs

theorem Triple.recover (hm : Triple P m Q E') (hhandler : ∀ e, Triple (E' e) (handler e) Q E)
    : Triple P (SqlM.recover m handler) Q E := by
  intro s hs
  unfold SqlM.recover
  cases hres : m s with
  | mk res s' =>
    cases res with
    | ok a => exact hm.ok hs hres
    | error e => exact hhandler e s' (hm.error hs hres)

theorem Triple.each {l : List γ} {f : γ → SqlM σ κ ε PUnit.{x + 1}} (I : List γ → Session σ κ → Prop)
    (hf : ∀ a l, Triple (I (a :: l)) (f a) (fun _ => I l) E)
    : Triple (I l) (SqlM.each l f) (fun _ => I []) E := by
  induction l with
  | nil => exact Triple.pure (fun _ h => h)
  | cons a l ih => exact Triple.bind (hf a l) (fun _ => ih)

end Rules

end SqlM

namespace Session

variable {σ : Type u} {κ : Type v} {d : σ} {I : List κ → Prop} {s : Session σ κ}

structure Weak (d : σ) (I : List κ → Prop) (s : Session σ κ) : Prop where
  inTx : s.inTx = true
  data : s.usable = true → s.data = d
  sent : I s.sent

structure In (d : σ) (I : List κ → Prop) (s : Session σ κ) : Prop extends Weak d I s where
  usable : s.usable = true

structure Calm (d : σ) (l : List κ) (s : Session σ κ) : Prop where
  data : s.data = d
  usable : s.usable = true
  sent : s.sent = l
  fails : ∀ k, s.fails k = false

structure Keeps (s s' : Session σ κ) : Prop where
  inTx : s'.inTx = s.inTx
  fails : s'.fails = s.fails
  usable : s.inTx = false → s.usable → s'.usable

theorem Keeps.trans (h : s.Keeps s') (h' : s'.Keeps s'') : s.Keeps s'' where
  inTx := h'.inTx.trans h.inTx
  fails := h'.fails.trans h.fails
  usable hpool husable := h'.usable (h.inTx.trans hpool) (h.usable hpool husable)

theorem In.eq (h : In d I s) : s.data = d := h.data h.usable

theorem In.begin {fails : Nat → Bool} (h : I []) : In d I (Session.begin d fails) :=
  ⟨⟨rfl, fun _ => rfl, h⟩, rfl⟩

theorem Calm.begin : Calm d [] (Session.begin d (fun _ => false) : Session σ κ) :=
  ⟨rfl, rfl, rfl, fun _ => rfl⟩

theorem Weak.of_works (h : Weak d I s) (hworks : s.works = true) : In d I s := by
  simp only [works, Bool.and_eq_true] at hworks
  exact ⟨h, hworks.1⟩

theorem Weak.afterFailure (h : Weak d I s) (d' : σ) : Weak d' I s.afterFailure := by
  refine ⟨h.inTx, ?_, h.sent⟩
  intro husable
  simp [Session.afterFailure, h.inTx] at husable

theorem In.set (h : In d I s) (d' : σ) : In d' I { s.tick with data := d' } :=
  ⟨⟨h.inTx, fun _ => rfl, h.sent⟩, h.usable⟩

theorem In.append (h : In d I s) (hI : I (s.sent ++ [c])) : In d I { s.tick with sent := s.sent ++ [c] } :=
  ⟨⟨h.inTx, h.data, hI⟩, h.usable⟩

end Session

namespace SqlM

section InTx

variable {σ : Type u} {κ : Type v} {ε : Type w} {α β : Type x} {γ : Type y}
variable {d : σ} {I : List κ → Prop} {e : ε} {E : ε → Session σ κ → Prop}

theorem Triple.of_weak (h : Triple (Session.Weak d I) m Q E)
    : Triple (Session.In d I) m Q E :=
  h.conseq (fun _ hs => hs.toWeak) (fun _ _ hq => hq) (fun _ _ he => he)

theorem Triple.exec_in (hE : ∀ s, I s.sent → E e s)
    : Triple (Session.Weak d I) (SqlM.exec f e) (fun a s => a = (f d).1 ∧ s.In (f d).2 I) E := by
  apply Triple.exec
  . intro s hs hworks
    have hin := hs.of_works hworks
    rw [hin.eq]
    exact ⟨rfl, hin.set _⟩
  . intro s hs
    exact hE _ hs.sent

theorem Triple.query_in (hE : ∀ s, I s.sent → E e s)
    : Triple (Session.Weak d I) (SqlM.query f e) (fun a s => a = f d ∧ s.In d I) E :=
  Triple.exec_in hE

theorem Triple.query_weak
    : Triple (Session.Weak d I) (SqlM.query f e) (fun a s => a = f d ∧ s.In d I)
        (fun _ s => s.Weak d I) := by
  apply Triple.exec
  . intro s hs hworks
    have hin := hs.of_works hworks
    rw [hin.eq]
    exact ⟨rfl, hin.set _⟩
  . intro s hs
    exact hs.afterFailure d

theorem Triple.update_in (hE : ∀ s, I s.sent → E e s)
    : Triple (Session.Weak d I) (SqlM.update f e) (fun _ s => s.In (f d) I) E :=
  (Triple.exec_in hE).conseq (fun _ h => h) (fun _ _ h => h.2) (fun _ _ h => h)

theorem Triple.find_in (hE : ∀ s, I s.sent → E e s)
    : Triple (Session.Weak d I) (SqlM.find f e) (fun a s => f d = some a ∧ s.In d I) E := by
  apply Triple.bind (Triple.query_in hE)
  intro o
  apply Triple.check
  . intro a ho s ⟨hod, hs⟩
    cases o with
    | none => contradiction
    | some b =>
      cases ho
      exact ⟨hod.symm, hs⟩
  . intro e' ho s ⟨_, hs⟩
    cases o with
    | none =>
      cases ho
      exact hE s hs.sent
    | some b => contradiction

theorem Triple.attempt_update_in
    : Triple (Session.Weak d I) (SqlM.attempt (SqlM.update f e)) (fun _ => Session.Weak (f d) I) E := by
  have hupdate : Triple (Session.Weak d I) (SqlM.update f e) (fun _ => Session.Weak (f d) I)
      (fun _ => Session.Weak (f d) I) := by
    apply Triple.exec
    . intro s hs hworks
      have hin := hs.of_works hworks
      rw [hin.eq]
      exact (hin.set _).toWeak
    . intro s hs
      exact hs.afterFailure _
  exact Triple.recover hupdate (fun _ => Triple.pure (fun _ h => h))

theorem Triple.send_in (hI : ∀ l, I l → I (l ++ [c])) (hE : ∀ s, I s.sent → E e s)
    : Triple (Session.In d I) (SqlM.send c e) (fun _ s => s.In d I) E := by
  apply Triple.send
  . intro s hs
    exact hs.append (hI _ hs.sent)
  . intro s hs
    exact hE _ hs.sent

end InTx

section Calm

variable {σ : Type u} {κ : Type v} {ε : Type w} {α β : Type x} {γ : Type y}
variable {d : σ} {l : List κ} {e : ε} {E : ε → Session σ κ → Prop}

theorem Triple.exec_calm
    : Triple (Session.Calm d l) (SqlM.exec f e) (fun a s => a = (f d).1 ∧ s.Calm (f d).2 l) E := by
  intro s hs
  have hworks : s.works = true := by simp [Session.works, hs.usable, hs.fails]
  rw [SqlM.exec, if_pos hworks, hs.data]
  exact ⟨rfl, rfl, hs.usable, hs.sent, hs.fails⟩

theorem Triple.query_calm
    : Triple (Session.Calm d l) (SqlM.query f e) (fun a s => a = f d ∧ s.Calm d l) E :=
  Triple.exec_calm

theorem Triple.update_calm : Triple (Session.Calm d l) (SqlM.update f e) (fun _ s => s.Calm (f d) l) E :=
  Triple.exec_calm.conseq (fun _ h => h) (fun _ _ h => h.2) (fun _ _ h => h)

theorem Triple.find_calm {f : σ → Option α} (hE : ∀ s, f d = none → E e s)
    : Triple (Session.Calm d l) (SqlM.find f e) (fun a s => f d = some a ∧ s.Calm d l) E := by
  apply Triple.bind_and Triple.query_calm
  intro o ho
  cases o with
  | some a => exact Triple.pure (fun _ hs => ⟨ho.symm, hs⟩)
  | none => exact Triple.throw (fun s _ => hE s ho.symm)

section Bind

variable {k : α → SqlM σ κ ε β} {Q : β → Session σ κ → Prop}

theorem Triple.exec_bind (h : Triple (Session.Calm (f d).2 l) (k (f d).1) Q E)
    : Triple (Session.Calm d l) (SqlM.exec f e >>= k) Q E := by
  apply Triple.bind_and Triple.exec_calm
  intro a ha
  rw [ha]
  exact h

theorem Triple.update_bind (h : Triple (Session.Calm (g d) l) m Q E)
    : Triple (Session.Calm d l) (SqlM.update g e >>= fun _ => m) Q E :=
  Triple.seq Triple.update_calm h

theorem Triple.query_bind (h : Triple (Session.Calm d l) (k (f d)) Q E)
    : Triple (Session.Calm d l) (SqlM.query f e >>= k) Q E :=
  Triple.exec_bind h

theorem Triple.find_bind {f : σ → Option α} (h : Triple (Session.Calm d l) (k a) Q E) (hf : f d = some a)
    : Triple (Session.Calm d l) (SqlM.find f e >>= k) Q E := by
  apply Triple.bind_and (Triple.find_calm (by simp [hf]))
  intro a' ha
  rw [hf] at ha
  cases ha
  exact h

end Bind

theorem Triple.send_calm : Triple (Session.Calm d l) (SqlM.send c e) (fun _ s => s.Calm d (l ++ [c])) E := by
  intro s hs
  simp only [SqlM.send, hs.fails, Bool.false_eq_true, if_false, hs.sent]
  exact ⟨hs.data, hs.usable, rfl, hs.fails⟩

theorem Triple.attempt_calm {m : SqlM σ κ ε PUnit.{x + 1}}
    (h : Triple (Session.Calm d l) m (fun _ s => s.Calm d' l) (fun _ _ => False))
    : Triple (Session.Calm d l) (SqlM.attempt m) (fun _ s => s.Calm d' l) E :=
  Triple.recover h (fun _ _ h => h.elim)

theorem Triple.recover_send_calm {handler : ε → SqlM σ κ ε PUnit.{x + 1}}
    : Triple (Session.Calm d l) (SqlM.recover (SqlM.send c e) handler) (fun _ s => s.Calm d (l ++ [c])) E := by
  have hsend : Triple (Session.Calm d l) (SqlM.send c e : SqlM σ κ ε PUnit.{x + 1})
      (fun _ s => s.Calm d (l ++ [c])) (fun _ _ => False) := Triple.send_calm
  exact Triple.recover hsend (fun _ _ h => h.elim)

theorem Triple.each_update_calm {f : γ → σ → σ}
    : Triple (Session.Calm d l) (SqlM.each as (fun a => SqlM.update (f a) e))
        (fun _ s => s.Calm (as.foldl (fun d a => f a d) d) l) E := by
  induction as generalizing d with
  | nil => exact Triple.pure (fun _ h => h)
  | cons a as ih => exact Triple.bind Triple.update_calm (fun _ => ih)

end Calm

end SqlM

inductive Handle where
  | pool
  | tx (n : Nat)
  deriving DecidableEq

structure Tx (σ : Type u) where
  data : σ
  usable : Bool

structure World (σ : Type u) (κ : Type v) where
  pool : σ
  txs : List (Option (Tx σ))
  sent : List κ
  count : Nat
  fails : Nat → Bool

namespace World

variable {σ : Type u} {κ : Type v} {ε : Type w} {α : Type x}

def start (s : σ) (fails : Nat → Bool) : World σ κ := ⟨s, [], [], 0, fails⟩

def calm (s : σ) : World σ κ := start s (fun _ => false)

def session (w : World σ κ) (h : Handle) : Session σ κ :=
  match h with
  | .pool => ⟨w.pool, false, true, w.sent, w.count, w.fails⟩
  | .tx n =>
    match w.txs[n]?.join with
    | some t => ⟨t.data, true, t.usable, w.sent, w.count, w.fails⟩
    -- every statement of a transaction that is ended fails
    | none => ⟨w.pool, true, false, w.sent, w.count, w.fails⟩

def leave (w : World σ κ) (h : Handle) (s : Session σ κ) : World σ κ :=
  let w := { w with sent := s.sent, count := s.count }
  match h with
  | .pool => { w with pool := s.data }
  | .tx n => { w with txs := w.txs.modify n (Option.map (fun _ => ⟨s.data, s.usable⟩)) }

def on (h : Handle) (m : SqlM σ κ ε α) (w : World σ κ) : Except ε α × World σ κ :=
  let (res, s) := m (w.session h)
  (res, w.leave h s)

def begin (w : World σ κ) : Handle × World σ κ :=
  (.tx w.txs.length, { w with txs := w.txs ++ [some ⟨w.pool, true⟩] })

-- a transaction with a failed statement is rolled back also by a commit
def finish (w : World σ κ) (n : Nat) (commit : Bool) : World σ κ :=
  match w.txs[n]?.join with
  | some t => { w with pool := if commit && t.usable then t.data else w.pool, txs := w.txs.set n none }
  | none => w

structure IsCalm (d : σ) (l : List κ) (w : World σ κ) : Prop where
  pool : w.pool = d
  sent : w.sent = l
  fails : ∀ k, w.fails k = false

theorem calm_isCalm (d : σ) : IsCalm d [] (calm d : World σ κ) := ⟨rfl, rfl, fun _ => rfl⟩

section Calm

variable {d d' : σ} {l l' : List κ} {w : World σ κ} {m : SqlM σ κ ε α}

theorem IsCalm.session (h : IsCalm d l w) : Session.Calm d l (w.session .pool) :=
  ⟨h.pool, rfl, h.sent, h.fails⟩

theorem IsCalm.on_ok {Q : α → Prop} (hw : IsCalm d l w)
    (h : m.Triple (Session.Calm d l) (fun a s => Q a ∧ s.Calm d' l') (fun _ _ => False))
    : ∃ a w', w.on .pool m = (.ok a, w') ∧ Q a ∧ IsCalm d' l' w' := by
  cases hres : m (w.session .pool) with
  | mk res s =>
    cases res with
    | ok a =>
      have ⟨hQ, hs⟩ := h.ok hw.session hres
      exact ⟨a, w.leave .pool s, by rw [on, hres], hQ, hs.data, hs.sent, hw.fails⟩
    | error e => exact (h.error hw.session hres).elim

theorem IsCalm.on_error (hw : IsCalm d l w)
    (h : m.Triple (Session.Calm d l) (fun _ _ => False) (fun _ s => s.Calm d' l'))
    : ∃ e w', w.on .pool m = (.error e, w') ∧ IsCalm d' l' w' := by
  cases hres : m (w.session .pool) with
  | mk res s =>
    cases res with
    | ok a => exact (h.ok hw.session hres).elim
    | error e =>
      have hs := h.error hw.session hres
      exact ⟨e, w.leave .pool s, by rw [on, hres], hs.data, hs.sent, hw.fails⟩

theorem session_begin : w.begin.2.session w.begin.1 = ⟨w.pool, true, true, w.sent, w.count, w.fails⟩ := by
  simp [begin, World.session]

theorem finish_leave_begin
    : ((w.begin.2.leave w.begin.1 s).finish w.txs.length commit)
        =
      { w with pool := if commit && s.usable then s.data else w.pool
               txs := w.txs ++ [none], sent := s.sent, count := s.count } := by
  have htxs : ∀ (txs : List (Option (Tx σ))) a f,
      ((txs ++ [a]).modify txs.length f).set txs.length none = txs ++ [none] := by
    intro txs a f
    induction txs with
    | nil => rfl
    | cons b txs ih => simpa using ih
  simp [begin, leave, finish, htxs]

end Calm

variable {w : World σ κ} {h : Handle} {s : Session σ κ}

def Open (w : World σ κ) : Handle → Prop
  | .pool => True
  | .tx n => ∃ t, w.txs[n]? = some (some t)

theorem Open.leave (hopen : w.Open h) (s : Session σ κ) : (w.leave h s).Open h := by
  cases h with
  | pool => trivial
  | tx n =>
    obtain ⟨t, ht⟩ := hopen
    simp [Open, World.leave, ht]

theorem session_leave (hopen : w.Open h) (hkeeps : (w.session h).Keeps s) : (w.leave h s).session h = s := by
  obtain ⟨hinTx, hfails, husable⟩ := hkeeps
  cases h with
  | pool =>
    cases s
    simp_all [World.leave, session]
  | tx n =>
    obtain ⟨t, ht⟩ := hopen
    cases s
    simp_all [World.leave, session]

theorem leave_session (hopen : w.Open h) : w.leave h (w.session h) = w := by
  cases h with
  | pool => rfl
  | tx n =>
    obtain ⟨t, ht⟩ := hopen
    have htxs : w.txs.modify n (Option.map (fun _ => t)) = w.txs := by
      apply List.ext_getElem?
      grind
    simp [World.leave, session, ht, htxs]

theorem leave_leave (w : World σ κ) (h : Handle) (s s' : Session σ κ) : (w.leave h s).leave h s' = w.leave h s' := by
  cases h with
  | pool => rfl
  | tx n => simp [World.leave, List.modify_modify_eq, Function.comp_def]

end World
