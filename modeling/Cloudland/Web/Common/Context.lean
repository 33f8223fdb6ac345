import Cloudland.Lib.Transaction

/-!
This module models `common/db.go`: the database handle that a request context carries.
-/

namespace Web

abbrev Ctx := Option Handle

def getContextDB (ctx : Ctx) : Ctx × Handle :=
  match ctx with
  | some h => (ctx, h)
  | none => (some .pool, .pool)

def startTransaction (ctx : Ctx) (w : World σ κ) : (Ctx × Handle × Bool) × World σ κ :=
  match ctx with
  | some h => ((ctx, h, false), w)
  | none =>
    let (h, w) := w.begin
    ((some h, h, true), w)

-- on a handle that is no transaction neither `Rollback` nor `Commit` does anything
def endTransaction (ctx : Ctx) (failed : Bool) (w : World σ κ) : World σ κ :=
  match ctx with
  | some (.tx n) => w.finish n (!failed)
  | _ => w

/--
The pattern `StartTransaction`, `defer EndTransaction`, where `report` says which failures leave an
error that is passed to `EndTransaction`.
-/
def withTransaction (report : ε → Bool) (ctx : Ctx) (body : SqlM σ κ ε α) (w : World σ κ)
    : Except ε α × World σ κ :=
  let ((ctx, h, newTransaction), w) := startTransaction ctx w
  let (res, w) := w.on h body
  let failed := match res with
    | .ok _ => false
    | .error e => report e
  (res, if newTransaction then endTransaction ctx failed w else w)

theorem withTransaction_start {body : SqlM σ κ ε α} {d : σ} {fails : Nat → Bool}
    : withTransaction report none body (World.start d fails)
        =
      let (res, s) := body (Session.begin d fails)
      let failed := match res with
        | .ok _ => false
        | .error e => report e
      (res, { pool := if !failed && s.usable then s.data else d
              txs := [none], sent := s.sent, count := s.count, fails := fails }) := by
  rfl

theorem withTransaction_spec (report : ε → Bool) {body : SqlM σ κ ε α}
    (h : body.Triple (fun s => s = Session.begin d fails) Q E)
    : match withTransaction report none body (World.start d fails) with
      | (.ok a, w) => ∃ s, Q a s ∧ w.sent = s.sent ∧ w.pool = if s.usable then s.data else d
      | (.error e, w) =>
        ∃ s, E e s ∧ w.sent = s.sent ∧ w.pool = if !report e && s.usable then s.data else d := by
  rw [withTransaction_start]
  cases hres : body (Session.begin d fails) with
  | mk res s =>
    cases res with
    | ok a => exact ⟨s, h.ok rfl hres, rfl, rfl⟩
    | error e => exact ⟨s, h.error rfl hres, rfl, rfl⟩

section Calm

variable {report : ε → Bool} {body : SqlM σ κ ε α} {d d' : σ} {l l' : List κ} {w : World σ κ}

theorem withTransaction_none
    : withTransaction report none body w
        =
      let (res, s) := body ⟨w.pool, true, true, w.sent, w.count, w.fails⟩
      let failed := match res with
        | .ok _ => false
        | .error e => report e
      (res, { w with pool := if !failed && s.usable then s.data else w.pool
                     txs := w.txs ++ [none], sent := s.sent, count := s.count }) := by
  have hbegin : w.begin.2.session w.begin.1 = _ := World.session_begin
  simp only [withTransaction, startTransaction, World.on, hbegin, if_true]
  congr 1
  exact World.finish_leave_begin

theorem withTransaction_ok (report : ε → Bool) {Q : α → Prop} (hw : w.IsCalm d l)
    (h : body.Triple (Session.Calm d l) (fun a s => Q a ∧ s.Calm d' l') (fun _ _ => False))
    : ∃ a w', withTransaction report none body w = (.ok a, w') ∧ Q a ∧ w'.IsCalm d' l' := by
  have hcalm : Session.Calm d l ⟨w.pool, true, true, w.sent, w.count, w.fails⟩ := ⟨hw.pool, rfl, hw.sent, hw.fails⟩
  rw [withTransaction_none]
  cases hres : body ⟨w.pool, true, true, w.sent, w.count, w.fails⟩ with
  | mk res s =>
    cases res with
    | ok a =>
      have ⟨hQ, hs⟩ := h.ok hcalm hres
      exact ⟨a, _, rfl, hQ, by simp [hs.usable, hs.data], hs.sent, hw.fails⟩
    | error e => exact (h.error hcalm hres).elim

theorem withTransaction_error (hreport : ∀ e, report e = true) (hw : w.IsCalm d l)
    (h : body.Triple (Session.Calm d l) (fun _ _ => False) (fun _ s => s.sent = l'))
    : ∃ e w', withTransaction report none body w = (.error e, w') ∧ w'.IsCalm d l' := by
  have hcalm : Session.Calm d l ⟨w.pool, true, true, w.sent, w.count, w.fails⟩ := ⟨hw.pool, rfl, hw.sent, hw.fails⟩
  rw [withTransaction_none]
  cases hres : body ⟨w.pool, true, true, w.sent, w.count, w.fails⟩ with
  | mk res s =>
    cases res with
    | ok a => exact (h.ok hcalm hres).elim
    | error e =>
      have hs := h.error hcalm hres
      exact ⟨e, _, rfl, by simp [hreport e, hw.pool], hs, hw.fails⟩

end Calm

section Shared

variable {report : ε → Bool} {body : SqlM σ κ ε α} {d d' : σ} {l : List κ}

theorem withTransaction_calm (h : body.Triple (Session.Calm d []) (fun _ s => s.Calm d' l) (fun _ _ => False))
    : (withTransaction report none body (World.calm d)).2.pool = d' ∧
      (withTransaction report none body (World.calm d)).2.sent = l := by
  rw [World.calm, withTransaction_start]
  cases hres : body (Session.begin d (fun _ => false)) with
  | mk res s =>
    cases res with
    | ok a =>
      have hs := h.ok Session.Calm.begin hres
      simp [hs.usable, hs.data, hs.sent]
    | error e => exact (h.error Session.Calm.begin hres).elim

theorem withTransaction_or
    (h : body.Triple (Session.Calm d []) (fun _ s => s.Calm d' l) (fun e _ => report e = true))
    : (withTransaction report none body (World.calm d)).2.pool = d' ∨
      (withTransaction report none body (World.calm d)).2.pool = d := by
  rw [World.calm, withTransaction_start]
  cases hres : body (Session.begin d (fun _ => false)) with
  | mk res s =>
    cases res with
    | ok a =>
      have hs := h.ok Session.Calm.begin hres
      exact .inl (by simp [hs.usable, hs.data])
    | error e =>
      have he := h.error Session.Calm.begin hres
      exact .inr (by simp [he])

end Shared

section Nesting

variable {σ κ ε : Type} {w : World σ κ} {h : Handle}

inductive Action (σ κ : Type) where
  | statement (f : σ → σ)
  | send (c : κ)

def Action.run : Action σ κ → Session σ κ → Except Unit σ × Session σ κ
  | statement f, s => SqlM.exec (fun d => (d, f d)) () s
  | send c, s => if s.fails s.count then (.error (), s.tick) else (.ok s.data, { s.tick with sent := s.sent ++ [c] })

theorem Action.keeps_run (action : Action σ κ) (s : Session σ κ) : s.Keeps (action.run s).2 := by
  cases action with
  | statement f =>
    rw [run, SqlM.exec]
    split
    . exact ⟨rfl, rfl, fun _ h => h⟩
    . exact ⟨rfl, rfl, fun hpool h => by simp [Session.afterFailure, hpool, h]⟩
  | send c =>
    rw [run]
    split <;> exact ⟨rfl, rfl, fun _ h => h⟩

/--
What a function does next may depend on what it has read and on what has failed.
-/
inductive Call (σ κ ε : Type) where
  | ret (res : Except ε PUnit)
  | act (action : Action σ κ) (next : Except Unit σ → Call σ κ ε)
  -- a function that begins with `StartTransaction`, or with `GetContextDB`
  | enter (report : Option (ε → Bool)) (body : Call σ κ ε) (next : Except ε PUnit → Call σ κ ε)

namespace Call

def exec (ctx : Ctx) : Call σ κ ε → World σ κ → Except ε PUnit × World σ κ
  | ret res, w => (res, w)
  | act action next, w =>
    let (res, w) := w.on (getContextDB ctx).2 action.run
    (next res).exec ctx w
  | enter none body next, w =>
    let (res, w) := body.exec (getContextDB ctx).1 w
    (next res).exec ctx w
  | enter (some report) body next, w =>
    let ((ctx', _, newTransaction), w) := startTransaction ctx w
    let (res, w) := body.exec ctx' w
    let failed := match res with
      | .ok _ => false
      | .error e => report e
    (next res).exec ctx (if newTransaction then endTransaction ctx' failed w else w)

/--
The same calls on one session, as if no function started a transaction.
-/
def flat : Call σ κ ε → Session σ κ → Except ε PUnit × Session σ κ
  | ret res, s => (res, s)
  | act action next, s => (next (action.run s).1).flat (action.run s).2
  | enter _ body next, s => (next (body.flat s).1).flat (body.flat s).2

theorem keeps_flat (call : Call σ κ ε) (s : Session σ κ) : s.Keeps (call.flat s).2 := by
  induction call generalizing s with
  | ret => exact ⟨rfl, rfl, fun _ h => h⟩
  | act action next ih => exact (action.keeps_run s).trans (ih _ _)
  | enter report body next hbody hnext => exact (hbody s).trans (hnext _ _)

theorem exec_some (hopen : w.Open h) (call : Call σ κ ε)
    : call.exec (some h) w = ((call.flat (w.session h)).1, w.leave h (call.flat (w.session h)).2) := by
  induction call generalizing w with
  | ret res => rw [exec, flat, World.leave_session hopen]
  | act action next ih =>
    have hact : (act action next).exec (some h) w
        = (next (action.run (w.session h)).1).exec (some h) (w.leave h (action.run (w.session h)).2) := rfl
    rw [hact, ih _ (hopen.leave _), World.session_leave hopen (action.keeps_run _), World.leave_leave, flat]
  | enter report body next hbody hnext =>
    have henter : (enter report body next).exec (some h) w
        = (next (body.exec (some h) w).1).exec (some h) (body.exec (some h) w).2 := by
      cases report <;> rfl
    rw [henter, hbody hopen, hnext _ (hopen.leave _), World.session_leave hopen (body.keeps_flat _),
      World.leave_leave, flat]

/--
Whatever the functions below it start and end, the function that starts the transaction runs all of them in that one.
Below a function that begins with `GetContextDB` there is no transaction.
-/
theorem exec_enter (report : ε → Bool) (call : Call σ κ ε) (w : World σ κ)
    : (enter (some report) call ret).exec none w = withTransaction report none call.flat w
        ∧
      (enter none call ret).exec none w = w.on .pool call.flat := by
  have hopen : w.begin.2.Open w.begin.1 := by simp [World.begin, World.Open]
  have hpool : w.Open .pool := trivial
  constructor
  . have hbody := exec_some hopen call
    simp only [exec, startTransaction, hbody, withTransaction, World.on]
    cases (call.flat (w.begin.2.session w.begin.1)).1 with
    | ok => rfl
    | error => rfl
  . exact exec_some hpool call

end Call

end Nesting

end Web
