import Cloudland.Lib.CInt
import Cloudland.Lib.GoString
import Cloudland.Core.Scheduler

/-!
How the web service takes the topology that the agents report (`model/hyper.go`, `rpcs/frontback.go`), as bytes.
-/

open CString CInt GoString List

namespace Rpcs.Agent

-- `strconv.Atoi`
def goAtoi (s : CString) : Option Int := parseInt (s.map UInt8.toNat)

structure Hyper where
  hostid : Int
  hostname : CString
  status : Int
  parentid : Int
  children : Int
  deriving DecidableEq

namespace Hyper

def zero : Hyper := ⟨0, [], 0, 0, 0⟩

variable (hyper : Hyper)

def loadItem (item : CString) : Hyper :=
  match item.splitOn 61 with
  | [k, v] =>
    if v = [] then
      hyper
    else if k = ofString "id" then
      match goAtoi v with
      | some id => { hyper with hostid := wrap id }
      | none => hyper
    else if k = ofString "hostname" then
      { hyper with hostname := v }
    else if k = ofString "num" then
      match goAtoi v with
      | some num => { hyper with children := wrap num }
      | none => hyper
    else
      hyper
  | _ => hyper

def loadControl (control : CString) : Hyper := (control.splitOn 32).foldl loadItem hyper

def loadCommand (command : CString) : Hyper :=
  match command.splitOn 44 with
  | [id, hostname, status] =>
    let hyper := if hostname ≠ [] then { hyper with hostname := hostname } else hyper
    if id ≠ [] then loadStatus (loadID hyper id) status else hyper
  | _ => hyper
where
  loadID (hyper : Hyper) (id : CString) : Hyper :=
    match goAtoi id with
    | some id => { hyper with hostid := wrap id }
    | none => hyper
  loadStatus (hyper : Hyper) (status : CString) : Hyper :=
    match goAtoi status with
    | some status =>
      if status = 10 ∨ (hyper.status > 0 ∧ hyper.status ≠ wrap status) then
        { hyper with status := wrap status }
      else
        hyper
    | none => hyper

/--
An update with a structure writes the fields that are not zero.
-/
def updated (hyper values : Hyper) : Hyper where
  hostid := if values.hostid ≠ 0 then values.hostid else hyper.hostid
  hostname := if values.hostname ≠ [] then values.hostname else hyper.hostname
  status := if values.status ≠ 0 then values.status else hyper.status
  parentid := if values.parentid ≠ 0 then values.parentid else hyper.parentid
  children := if values.children ≠ 0 then values.children else hyper.children

end Hyper

abbrev Hypers := Int → Option Hyper

namespace Hypers

def updates (db : Hypers) (values : Hyper) : Hypers × Hyper :=
  let hyper := (db values.hostid).getD { Hyper.zero with hostid := values.hostid }
  let hyper := hyper.updated values
  (fun id => if id = values.hostid then some hyper else db id, hyper)

def callbackAgent (db : Hypers) (control command : CString) : Hypers :=
  let (db, agent) := db.updates (Hyper.zero.loadControl control)
  (command.splitOn 10).foldl (loadLine agent.hostid) db
where
  loadLine (parentid : Int) (db : Hypers) (item : CString) : Hypers :=
    if item = [] then db else (db.updates { Hyper.zero.loadCommand item with parentid := parentid }).1

def deliver (db : Hypers) : Scheduler.Action → Hypers
  | .upload _ f => if (f.control.splitOn 32).head? = some (ofString "callback=agent") then
      db.callbackAgent f.control f.message else db
  | .bcast _ => db

end Hypers

theorem splitOn_append_cons {s rest : CString} (h : sep ∉ s)
    : (s ++ sep :: rest).splitOn sep = s :: rest.splitOn sep := by
  induction s with
  | nil => rw [nil_append, splitOn_cons, if_pos rfl]
  | cons c s ih =>
    rw [mem_cons, not_or] at h
    rw [cons_append, splitOn_cons, if_neg (Ne.symm h.1), ih h.2]
    rfl

theorem isdigit_iff : isdigit c ↔ 48 ≤ c.toNat ∧ c.toNat ≤ 57 := by
  simp [isdigit, UInt8.le_iff_toNat_le]

theorem natural_numeral (n : Nat) : parseInt.natural ((numeral n).map UInt8.toNat) = some n := by
  have hdigits : ((numeral n).map UInt8.toNat).all (fun c => 48 ≤ c && c ≤ 57) := by
    simpa [all_eq_true] using fun c hc => isdigit_iff.mp (isdigit_of_mem_numeral hc)
  rw [parseInt.natural, if_pos ⟨mt map_eq_nil_iff.mp (numeral_ne_nil n), hdigits⟩, foldl_map]
  exact congrArg some (value_numeral n)

theorem goAtoi_decimal (h : IsInt n) : goAtoi (decimal n) = some n := by
  have hfits : parseInt.fits n = some n := if_pos ⟨by have := h.1; omega, by have := h.2; omega⟩
  rw [decimal]
  split
  . next hneg =>
    show (parseInt.natural ((numeral n.natAbs).map UInt8.toNat)).bind _ = _
    rw [natural_numeral, Option.bind_some, show -(n.natAbs : Int) = n by omega, hfits]
  . next hpos =>
    have ⟨c, digits, hcons⟩ := exists_cons_of_ne_nil (numeral_ne_nil n.natAbs)
    have hc := isdigit_iff.mp (isdigit_of_mem_numeral (hcons ▸ mem_cons_self : c ∈ numeral n.natAbs))
    have hunsigned : goAtoi (numeral n.natAbs) = (parseInt.natural ((numeral n.natAbs).map UInt8.toNat)).bind
        (fun n => parseInt.fits n) := by
      rw [goAtoi, parseInt]
      all_goals
        intro _ heq
        rw [hcons] at heq
        have := (cons.inj heq).1
        omega
    rw [hunsigned, natural_numeral, Option.bind_some, show (n.natAbs : Int) = n by omega, hfits]

theorem decimal_ne_nil (n : Int) : decimal n ≠ [] := by
  rw [decimal]
  split
  . exact cons_ne_nil _ _
  . exact numeral_ne_nil _

def separators : CString := [44, 32, 61, 10]

def Plain (s : CString) : Prop := ∀ c ∈ s, c ∉ separators

instance (s : CString) : Decidable (Plain s) := inferInstanceAs (Decidable (∀ c ∈ s, c ∉ separators))

theorem plain_decimal (n : Int) : Plain (decimal n) := by
  intro c hc
  have hchar : c = 45 ∨ isdigit c := by
    rw [decimal] at hc
    split at hc
    . obtain heq | hmem := mem_cons.mp hc
      . exact .inl heq
      . exact .inr (isdigit_of_mem_numeral hmem)
    . exact .inr (isdigit_of_mem_numeral hc)
  obtain heq | hdigit := hchar
  . rw [heq]
    decide
  . intro hsep
    simp only [separators, mem_cons, not_mem_nil, or_false] at hsep
    rcases hsep with h | h | h | h <;> rw [h] at hdigit <;> contradiction

theorem Plain.notMem (h : Plain s) (hc : c ∈ separators) : c ∉ s := fun hmem => h c hmem hc

section Decode

open Scheduler (Env Action uploadTopology queryHost childLine childLines MAXHOST)
open Sci (SCI_GROUP_ALL)

variable {env : Env} {c : Int}

def childrenOf (env : Env) : List Int := env.successors SCI_GROUP_ALL

def controlText (env : Env) : CString :=
  ofString "callback=agent" ++ ofString " id=" ++ decimal env.myID.toInt ++ ofString " port=" ++ decimal env.port
    ++ ofString " num=" ++ decimal (childrenOf env).length ++ ofString " hostname=" ++ env.hostname

def messageText (env : Env) : CString := childLines env [] (childrenOf env)

theorem uploadTopology_eq (h : childrenOf env ≠ [])
    : uploadTopology env (childrenOf env) msgID
        =
      [.upload SCI_GROUP_ALL ⟨msgID, env.myID, controlText env, messageText env, []⟩] := by
  rw [uploadTopology, if_neg h]
  rfl

structure Valid (env : Env) : Prop where
  ids : ∀ c ∈ childrenOf env, IsInt c
  num : IsInt (childrenOf env).length
  hosts : ∀ c ∈ childrenOf env, ∀ host ∈ env.host c, Plain host
  hostname : Plain env.hostname

theorem isInt_toInt (n : Int32) : IsInt n.toInt := ⟨n.le_toInt, n.toInt_lt⟩

theorem splitOn_controlText (h : Valid env)
    : (controlText env).splitOn 32
        =
      [ofString "callback=agent", ofString "id=" ++ decimal env.myID.toInt, ofString "port=" ++ decimal env.port,
        ofString "num=" ++ decimal (childrenOf env).length, ofString "hostname=" ++ env.hostname] := by
  have hsplit (key : CString) (hkey : (32 : UInt8) ∉ key) {n : Int} {rest : CString}
      : (key ++ decimal n ++ 32 :: rest).splitOn 32 = (key ++ decimal n) :: rest.splitOn 32 := by
    apply splitOn_append_cons
    rw [mem_append, not_or]
    exact ⟨hkey, (plain_decimal n).notMem (by decide)⟩
  have htext : controlText env
      = ofString "callback=agent" ++ 32 :: (ofString "id=" ++ decimal env.myID.toInt ++ 32 ::
        (ofString "port=" ++ decimal env.port ++ 32 :: (ofString "num=" ++ decimal (childrenOf env).length ++ 32 ::
        (ofString "hostname=" ++ env.hostname)))) := by
    simp only [controlText, append_assoc]
    rfl
  have hlast : (32 : UInt8) ∉ ofString "hostname=" ++ env.hostname := by
    rw [mem_append, not_or]
    exact ⟨by decide, h.hostname.notMem (by decide)⟩
  rw [htext, splitOn_append_cons (by decide), hsplit _ (by decide), hsplit _ (by decide), hsplit _ (by decide),
    CString.splitOn_eq_singleton hlast]

theorem loadItem_eq {hyper : Hyper} {key v : CString} (hkey : (61 : UInt8) ∉ key) (hv : Plain v) (hne : v ≠ [])
    : hyper.loadItem (key ++ 61 :: v)
        =
      if key = ofString "id" then
        match goAtoi v with
        | some id => { hyper with hostid := wrap id }
        | none => hyper
      else if key = ofString "hostname" then
        { hyper with hostname := v }
      else if key = ofString "num" then
        match goAtoi v with
        | some num => { hyper with children := wrap num }
        | none => hyper
      else
        hyper := by
  rw [Hyper.loadItem, splitOn_append_cons hkey, CString.splitOn_eq_singleton (hv.notMem (by decide))]
  dsimp only
  rw [if_neg hne]

theorem loadControl_controlText (h : Valid env)
    : Hyper.zero.loadControl (controlText env)
        =
      ⟨env.myID.toInt, env.hostname, 0, 0, (childrenOf env).length⟩ := by
  rw [Hyper.loadControl, splitOn_controlText h, foldl_cons, foldl_cons, foldl_cons, foldl_cons,
    foldl_cons, foldl_nil]
  have hcallback : Hyper.zero.loadItem (ofString "callback=agent") = Hyper.zero := by decide
  have hid {hyper : Hyper} {n : Int} (hn : IsInt n)
      : hyper.loadItem (ofString "id=" ++ decimal n) = { hyper with hostid := n } := by
    have := @loadItem_eq hyper (ofString "id") _ (by decide) (plain_decimal n) (decimal_ne_nil n)
    rw [if_pos rfl, goAtoi_decimal hn] at this
    dsimp only at this
    rw [wrap_eq_iff.mpr hn] at this
    exact this
  have hport {hyper : Hyper} {n : Int} : hyper.loadItem (ofString "port=" ++ decimal n) = hyper := by
    have := @loadItem_eq hyper (ofString "port") _ (by decide) (plain_decimal n) (decimal_ne_nil n)
    rw [if_neg (by decide), if_neg (by decide), if_neg (by decide)] at this
    exact this
  have hnum {hyper : Hyper} {n : Int} (hn : IsInt n)
      : hyper.loadItem (ofString "num=" ++ decimal n) = { hyper with children := n } := by
    have := @loadItem_eq hyper (ofString "num") _ (by decide) (plain_decimal n) (decimal_ne_nil n)
    rw [if_neg (by decide), if_neg (by decide), if_pos rfl, goAtoi_decimal hn] at this
    dsimp only at this
    rw [wrap_eq_iff.mpr hn] at this
    exact this
  rw [hcallback, hid (isInt_toInt env.myID), hport, hnum h.num]
  by_cases hempty : env.hostname = []
  . rw [hempty]
    rfl
  . have := @loadItem_eq ⟨env.myID.toInt, [], 0, 0, (childrenOf env).length⟩ (ofString "hostname") _ (by decide)
      h.hostname hempty
    rw [if_neg (by decide), if_pos rfl] at this
    exact this

def lineStatus (env : Env) (c : Int) : Int := if c ∈ env.recovery then 10 else 1

def lineOf (env : Env) (child : Int × CString) : CString :=
  decimal child.1 ++ 44 :: (child.2 ++ 44 :: decimal (lineStatus env child.1))

theorem childLine_eq : childLine env c hostname = lineOf env (c, hostname) ++ [10] := by
  simp only [childLine, lineOf, lineStatus, append_assoc, cons_append]
  rfl

theorem notMem_lineOf {child : Int × CString} (hhost : Plain child.2) : 10 ∉ lineOf env child := by
  simp only [lineOf, mem_append, mem_cons, not_or]
  exact ⟨(plain_decimal _).notMem (by decide), by decide, hhost.notMem (by decide), by decide,
    (plain_decimal _).notMem (by decide)⟩

theorem lineOf_ne_nil : lineOf env child ≠ [] := by
  rw [lineOf]
  exact append_ne_nil_of_left_ne_nil (decimal_ne_nil _) _

-- the children with the host names that stand in their lines
def named (env : Env) : CString → List Int → List (Int × CString)
  | _, [] => []
  | hostname, child :: children =>
    (child, queryHost env child hostname) :: named env (queryHost env child hostname) children

theorem map_fst_named (env : Env) (hostname : CString) (children : List Int)
    : (named env hostname children).map Prod.fst = children := by
  induction children generalizing hostname with
  | nil => rfl
  | cons child children ih => rw [named, map_cons, ih]

theorem plain_queryHost (h : ∀ host ∈ env.host c, Plain host) (hname : Plain hostname)
    : Plain (queryHost env c hostname) := by
  unfold queryHost
  split
  . next host hhost => exact fun b hb => h host hhost b (mem_of_mem_take hb)
  . exact hname

theorem plain_named {children : List Int} (h : ∀ c ∈ children, ∀ host ∈ env.host c, Plain host)
    (hname : Plain hostname)
    : ∀ child ∈ named env hostname children, Plain child.2 := by
  induction children generalizing hostname with
  | nil => simp [named]
  | cons c children ih =>
    have ⟨hc, h⟩ := forall_mem_cons.mp h
    have hfirst := plain_queryHost hc hname
    exact forall_mem_cons.mpr ⟨hfirst, ih h hfirst⟩

theorem Valid.plain_named (h : Valid env) : ∀ child ∈ named env [] (childrenOf env), Plain child.2 :=
  Agent.plain_named h.hosts (by simp [Plain])

theorem splitOn_childLines {hostname : CString} {children : List Int}
    (h : ∀ child ∈ named env hostname children, Plain child.2)
    : (childLines env hostname children).splitOn 10 = (named env hostname children).map (lineOf env) ++ [[]] := by
  induction children generalizing hostname with
  | nil => rfl
  | cons c children ih =>
    have ⟨hhost, h⟩ := forall_mem_cons.mp h
    rw [childLines, childLine_eq, append_assoc, singleton_append,
      splitOn_append_cons (notMem_lineOf hhost), ih h]
    rfl

-- the name in a child's line is that of its host if it has one that fits into the buffer
theorem named_eq_iff {hostname : CString} {children : List Int}
    : (named env hostname children).map (fun child => (child.1, some child.2)) = children.map (fun c => (c, env.host c))
        ↔
      ∀ c ∈ children, ∃ host ∈ env.host c, host.length < MAXHOST := by
  induction children generalizing hostname with
  | nil => simp [named]
  | cons c children ih =>
    rw [named, map_cons, map_cons, cons.injEq, ih, forall_mem_cons]
    refine and_congr_left (fun _ => ?_)
    unfold queryHost
    cases env.host c with
    | none => simp
    | some host =>
      simp only [Prod.mk.injEq, true_and, Option.some.injEq, take_eq_self_iff, Option.mem_def, exists_eq_left',
        MAXHOST]
      omega

def childValues (env : Env) (child : Int × CString) : Hyper :=
  ⟨child.1, child.2, if child.1 ∈ env.recovery then 10 else 0, 0, 0⟩

theorem loadCommand_lineOf {child : Int × CString} (hc : IsInt child.1) (hhost : Plain child.2)
    : Hyper.zero.loadCommand (lineOf env child) = childValues env child := by
  have hstatus : IsInt (lineStatus env child.1) := by
    rw [lineStatus]
    split
    . decide
    . decide
  rw [Hyper.loadCommand, lineOf, splitOn_append_cons ((plain_decimal _).notMem (by decide)),
    splitOn_append_cons (hhost.notMem (by decide)),
    CString.splitOn_eq_singleton ((plain_decimal _).notMem (by decide))]
  dsimp only
  rw [if_pos (decimal_ne_nil _), Hyper.loadCommand.loadID, goAtoi_decimal hc]
  rw [Hyper.loadCommand.loadStatus, goAtoi_decimal hstatus]
  dsimp only
  rw [wrap_eq_iff.mpr hc, wrap_eq_iff.mpr hstatus, childValues, lineStatus]
  by_cases hrec : child.1 ∈ env.recovery
  . by_cases hempty : child.2 = []
    . simp [hrec, hempty, Hyper.zero]
    . simp [hrec, hempty, Hyper.zero]
  . by_cases hempty : child.2 = []
    . simp [hrec, hempty, Hyper.zero]
    . simp [hrec, hempty, Hyper.zero]

end Decode

section Statuses

open Scheduler (Env Action Filter reportTopology)
open Hypers

variable {db : Hypers} {env : Env} {c : Int}

def statusOf (db : Hypers) (c : Int) : Int := ((db c).map Hyper.status).getD 0

theorem statusOf_updates
    : statusOf (updates db values).1 c
        =
      if c = values.hostid ∧ values.status ≠ 0 then values.status else statusOf db c := by
  unfold statusOf updates
  dsimp only
  by_cases hc : c = values.hostid
  . rw [if_pos hc, hc]
    by_cases hstatus : values.status = 0
    . cases db values.hostid with
      | none => simp [hstatus, Hyper.updated, Hyper.zero]
      | some hyper => simp [hstatus, Hyper.updated]
    . simp [hstatus, Hyper.updated]
  . rw [if_neg hc, if_neg (fun h => hc h.1)]

def takeReport (db : Hypers) (env : Env) : Hypers := callbackAgent db (controlText env) (messageText env)

theorem statusOf_foldl {children : List (Int × CString)} (hids : ∀ child ∈ children, IsInt child.1)
    (hhosts : ∀ child ∈ children, Plain child.2)
    : statusOf ((children.map (lineOf env)).foldl (callbackAgent.loadLine parentid) db) c
        =
      if c ∈ children.map Prod.fst ∧ c ∈ env.recovery then 10 else statusOf db c := by
  induction children generalizing db with
  | nil => rw [if_neg (fun h => absurd h.1 not_mem_nil)]; rfl
  | cons child children ih =>
    have ⟨hid, hids⟩ := forall_mem_cons.mp hids
    have ⟨hhost, hhosts⟩ := forall_mem_cons.mp hhosts
    rw [map_cons, foldl_cons, ih hids hhosts, callbackAgent.loadLine, if_neg lineOf_ne_nil,
      loadCommand_lineOf hid hhost, statusOf_updates, map_cons]
    dsimp only [childValues]
    by_cases hrec : c ∈ env.recovery
    . by_cases hrest : c ∈ children.map Prod.fst
      . simp [hrec, hrest]
      . by_cases hc : c = child.1
        . subst hc
          simp [hrec, hrest]
        . simp [hrest, hc]
    . by_cases hc : c = child.1
      . subst hc
        simp [hrec]
      . simp [hrec, hc]

theorem Valid.isInt_named (h : Valid env) : ∀ child ∈ named env [] (childrenOf env), IsInt child.1 := by
  intro child hchild
  have hmem : child.1 ∈ (named env [] (childrenOf env)).map Prod.fst := mem_map_of_mem hchild
  rw [map_fst_named] at hmem
  exact h.ids child.1 hmem

theorem statusOf_takeReport (h : Valid env)
    : statusOf (takeReport db env) c
        =
      if c ∈ childrenOf env ∧ c ∈ env.recovery then 10 else statusOf db c := by
  rw [takeReport, callbackAgent, messageText, splitOn_childLines h.plain_named, loadControl_controlText h]
  dsimp only
  rw [foldl_append, foldl_cons, foldl_nil, callbackAgent.loadLine, if_pos rfl,
    statusOf_foldl h.isInt_named h.plain_named, map_fst_named, statusOf_updates]
  -- the status of the agent itself is not reported
  have hagent : (if c = env.myID.toInt ∧ (0 : Int) ≠ 0 then 0 else statusOf db c) = statusOf db c :=
    if_neg (fun h => h.2 rfl)
  rw [hagent]

theorem statusOf_foldl_takeReport {reports : List Env} (h : ∀ env ∈ reports, Valid env)
    : statusOf (reports.foldl takeReport db) c = 10
        ↔
      statusOf db c = 10 ∨ ∃ env ∈ reports, c ∈ childrenOf env ∧ c ∈ env.recovery := by
  induction reports generalizing db with
  | nil => simp
  | cons env reports ih =>
    have ⟨hfirst, hrest⟩ := forall_mem_cons.mp h
    rw [foldl_cons, ih hrest, statusOf_takeReport hfirst]
    by_cases hrec : c ∈ childrenOf env ∧ c ∈ env.recovery
    . simp [hrec]
    . simp [hrec]

structure Call where
  env : Env
  msgID : Int32

abbrev Cluster := (Int32 → Filter) × Hypers

def report (s : Cluster) (call : Call) : Cluster :=
  let res := reportTopology call.env (s.1 call.env.myID) call.msgID
  (fun id => if id = call.env.myID then res.1 else s.1 id, res.2.foldl deliver s.2)

/--
The reports that are sent: none is while nothing is being recovered, unless one is asked for or is the first after a
recovery.
-/
def sent : (Int32 → Filter) → List Call → List Env
  | _, [] => []
  | filters, call :: calls =>
    let res := reportTopology call.env (filters call.env.myID) call.msgID
    let rest := sent (fun id => if id = call.env.myID then res.1 else filters id) calls
    if res.2 = [] then rest else call.env :: rest

theorem reportTopology_cases (env : Env) (filter : Filter) (msgID : Int32)
    : (reportTopology env filter msgID).2 = [] ∨
        (reportTopology env filter msgID).2
          = [.upload Sci.SCI_GROUP_ALL ⟨msgID, env.myID, controlText env, messageText env, []⟩] := by
  rw [reportTopology]
  split
  . exact .inl rfl
  . by_cases h : childrenOf env = []
    . exact .inl (if_pos h)
    . exact .inr (uploadTopology_eq h)

theorem deliver_report (h : Valid env)
    : deliver db (.upload group ⟨msgID, beID, controlText env, messageText env, []⟩) = takeReport db env := by
  rw [deliver]
  rw [splitOn_controlText h, head?_cons, if_pos rfl]
  rfl

theorem foldl_report (h : ∀ call ∈ calls, Valid call.env)
    : (calls.foldl report (filters, db)).2 = (sent filters calls).foldl takeReport db := by
  induction calls generalizing filters db with
  | nil => rfl
  | cons call calls ih =>
    have ⟨hfirst, hrest⟩ := forall_mem_cons.mp h
    rw [foldl_cons, report, ih hrest, sent]
    obtain hnone | hsome := reportTopology_cases call.env (filters call.env.myID) call.msgID
    . rw [if_pos hnone, hnone, foldl_nil]
    . rw [if_neg (by rw [hsome]; exact cons_ne_nil _ _), hsome, foldl_cons, foldl_nil,
        deliver_report hfirst, foldl_cons]

theorem env_of_mem_sent (h : env ∈ sent filters calls) : ∃ call ∈ calls, call.env = env := by
  induction calls generalizing filters with
  | nil => contradiction
  | cons call calls ih =>
    rw [sent] at h
    split at h
    . have ⟨other, hmem, heq⟩ := ih h
      exact ⟨other, mem_cons_of_mem _ hmem, heq⟩
    . obtain heq | hrest := mem_cons.mp h
      . exact ⟨call, mem_cons_self, heq.symm⟩
      . have ⟨other, hmem, heq⟩ := ih hrest
        exact ⟨other, mem_cons_of_mem _ hmem, heq⟩

structure RoundTrip (env : Env) : Prop where
  agent : Hyper.zero.loadControl (controlText env) = ⟨env.myID.toInt, env.hostname, 0, 0, (childrenOf env).length⟩
  children : (((messageText env).splitOn 10).filter (· ≠ [])).map
      (fun line => ((Hyper.zero.loadCommand line).hostid, some (Hyper.zero.loadCommand line).hostname))
    = (childrenOf env).map (fun c => (c, env.host c))

theorem Valid.roundTrip_iff (h : Valid env)
    : RoundTrip env ↔ ∀ c ∈ childrenOf env, ∃ host ∈ env.host c, host.length < Scheduler.MAXHOST := by
  have hlines : ((messageText env).splitOn 10).filter (· ≠ []) = (named env [] (childrenOf env)).map (lineOf env) := by
    rw [messageText, splitOn_childLines h.plain_named, filter_append, filter_eq_self.mpr,
      filter_cons_of_neg (by simp), filter_nil, append_nil]
    intro line hline
    obtain ⟨c, _, rfl⟩ := mem_map.mp hline
    rw [decide_eq_true_eq]
    exact lineOf_ne_nil
  have hparsed : (((messageText env).splitOn 10).filter (· ≠ [])).map
        (fun line => ((Hyper.zero.loadCommand line).hostid, some (Hyper.zero.loadCommand line).hostname))
      = (named env [] (childrenOf env)).map (fun child => (child.1, some child.2)) := by
    rw [hlines, map_map]
    apply map_congr_left
    intro child hchild
    rw [Function.comp_apply, loadCommand_lineOf (h.isInt_named child hchild) (h.plain_named child hchild)]
    rfl
  rw [← named_eq_iff, ← hparsed]
  exact ⟨fun hround => hround.children, fun hchildren => ⟨loadControl_controlText h, hchildren⟩⟩

def Current (db : Hypers) (last : Env) : Prop :=
  ∀ c ∈ childrenOf last, (c ∈ last.recovery → statusOf db c = 10) ∧ (c ∉ last.recovery → statusOf db c ≠ 10)

def oneChild (recovery : List Int) : Env where
  myID := -1
  successors := fun _ => [4]
  recovery := recovery
  host := fun _ => some (ofString "node4")
  port := 6688
  hostname := ofString "front"

theorem valid_oneChild (recovery : List Int) : Valid (oneChild recovery) where
  ids := by
    show ∀ c ∈ [(4 : Int)], IsInt c
    decide
  num := by
    show IsInt 1
    decide
  hosts := by
    show ∀ c ∈ [(4 : Int)], ∀ host ∈ some (ofString "node4"), Plain host
    decide +kernel
  hostname := by
    show Plain (ofString "front")
    decide +kernel

def newFilters : Int32 → Filter := fun _ => .new

def callsFor (recoveries : List (List Int)) : List Call := recoveries.map (fun recovery => ⟨oneChild recovery, 0⟩)

theorem valid_callsFor (recoveries : List (List Int)) : ∀ call ∈ callsFor recoveries, Valid call.env := by
  intro call hcall
  have ⟨recovery, _, heq⟩ := mem_map.mp hcall
  exact heq ▸ valid_oneChild recovery

end Statuses

end Rpcs.Agent
