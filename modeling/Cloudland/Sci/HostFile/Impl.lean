import Cloudland.Lib.Check
import Cloudland.Lib.CInt
import Cloudland.Lib.CString
import Cloudland.Lib.StdString
import Mathlib.Computability.RegularExpressions
import Mathlib.Data.List.AList

/-!
This module models the host files of `libsci/bemap.cpp`: how `BEMap::input` takes a file apart and gives
each host its id.
-/

namespace Sci.HostFile

open CString StdString Check

def opening : UInt8 := 91
def closing : UInt8 := 93
def percent : UInt8 := 37
def star : UInt8 := 42
def dash : UInt8 := 45
def colon : UInt8 := 58
def comma : UInt8 := 44
def bang : UInt8 := 33

/--
`BEMAP_ERROR`, and what has no result in C++: an `int` that overflows, `atoi` of a number that is not an
`int`, a write behind the end of a buffer and a read behind the end of a vector.
-/
inductive Failure where
  | error
  | undefined
  deriving DecidableEq

def int (n : Int) : Except Failure Int := if CInt.IsInt n then .ok n else .error .undefined

-- the standard does not say what `atoi` gives for a number that is not an `int`
def number (s : CString) : Except Failure Int := if CInt.IsInt (atol s) then .ok (atoi s) else .error .undefined

theorem number_eq_int (s : CString) : number s = int (atol s) := by
  unfold number int
  split
  . next h =>
    congr 1
    exact CInt.wrap_eq_iff.mpr h
  . rfl

namespace Form

inductive Sym where
  | digit
  | opening
  | closing
  | percent
  | star
  | dash
  | colon
  | comma
  | other
  deriving DecidableEq

def sym (c : UInt8) : Sym :=
  if isdigit c then .digit
  else if c = opening then .opening
  else if c = closing then .closing
  else if c = percent then .percent
  else if c = star then .star
  else if c = dash then .dash
  else if c = colon then .colon
  else if c = comma then .comma
  else .other

open RegularExpression

-- [^][%*]
def plain : RegularExpression Sym :=
  char Sym.digit + char Sym.dash + char Sym.colon + char Sym.comma + char Sym.other

-- [0-9]+
def digits : RegularExpression Sym := char Sym.digit * (char Sym.digit).star

-- [0-9]+-[0-9]+(:[0-9]+)?
def range : RegularExpression Sym := digits * (char Sym.dash * (digits * (1 + char Sym.colon * digits)))

def host : RegularExpression Sym :=
  plain.star * ((char Sym.opening * (range * char Sym.closing)).star * (plain.star * (1 + char Sym.star * digits)))

-- ([0-9]+,){0,}[0-9]+
def list : RegularExpression Sym := (digits * char Sym.comma).star * digits

def task : RegularExpression Sym := char Sym.opening * ((list + range) * char Sym.closing)

def valid : RegularExpression Sym := host * (1 + char Sym.percent * task)

end Form

def isValidForm (line : CString) : Bool :=
  if opening ∉ line ∧ star ∉ line ∧ percent ∉ line ∧ colon ∉ line then
    true
  else
    Form.valid.rmatch ((line.takeWhile (· != 0)).map Form.sym)

def steps (rangeEnd stride : Int) : Nat → Int → Except Failure (List Int)
  | 0, _ => .error .undefined
  | fuel + 1, start =>
    if start ≤ rangeEnd then do
      let next ← int (start + stride)
      let rest ← steps rangeEnd stride fuel next
      pure (start :: rest)
    else
      pure []

structure HostInfo where
  hostCnt : Int := 0
  front : CString := []
  endText : CString := []
  expandedRange : List Int := []
  repetition : Int := 1
  stride : Int := 1
  rangeBegin : Int := -1
  rangeEnd : Int := -1
  rangeDigits : Int := -1
  hostEntries : List CString := []

structure TaskInfo where
  taskCnt : Int := 0
  freeForm : List Int := []
  rangeBegin : Int := -1
  rangeEnd : Int := -1
  stride : Int := 1

def generateHostRange (hostinfo : HostInfo) : Except Failure HostInfo :=
  if hostinfo.rangeBegin = -1 then
    pure { hostinfo with hostCnt := hostinfo.repetition }
  else do
    let fuel := (hostinfo.rangeEnd - hostinfo.rangeBegin).toNat + 2
    let range ← steps hostinfo.rangeEnd hostinfo.stride fuel hostinfo.rangeBegin
    let hostCnt ← int ((hostinfo.hostCnt + range.length) * hostinfo.repetition)
    pure { hostinfo with hostCnt := hostCnt, expandedRange := hostinfo.expandedRange ++ range }

def padded (digits : Nat) (n : Int) : CString :=
  if n < 0 then
    45 :: (numeral n.natAbs).leftpad (digits - 1) 48
  else
    (numeral n.natAbs).leftpad digits 48

/--
The buffer has 128 bytes.
-/
def sprintf (digits n : Int) : Except Failure CString := do
  require ((padded digits.toNat n).length < 128) .undefined
  pure (padded digits.toNat n)

def generateHostEntries (hostinfo : HostInfo) : Except Failure HostInfo :=
  if hostinfo.expandedRange = [] then
    let entries := List.replicate hostinfo.repetition.toNat (hostinfo.front ++ hostinfo.endText)
    pure { hostinfo with hostEntries := hostinfo.hostEntries ++ entries }
  else do
    let entries ← hostinfo.expandedRange.mapM (fun n => do
      let buf ← sprintf hostinfo.rangeDigits n
      pure (List.replicate hostinfo.repetition.toNat (hostinfo.front ++ buf ++ hostinfo.endText)))
    pure { hostinfo with hostEntries := hostinfo.hostEntries ++ entries.flatten }

def expandHostRange.rightSide (range : CString) (pos : Int) : Except Failure (Int × Int) :=
  let pos1 := findFirstOf range colon (pos + 1)
  if pos1 = npos then do
    let rangeEnd ← number (substr range (pos + 1) npos)
    pure (rangeEnd, 1)
  else do
    let rangeEnd ← number (substr range (pos + 1) (pos1 - pos - 1))
    let stride ← number (substr range (pos1 + 1) npos)
    require (0 < stride) .error
    pure (rangeEnd, stride)

def expandHostRange (hostinfo : HostInfo) (range : CString) : Except Failure HostInfo := do
  let pos := findFirstOf range dash 0
  let tmps := substr range 0 pos
  let rangeBegin ← number tmps
  let (rangeEnd, stride) ← expandHostRange.rightSide range pos
  require (0 ≤ rangeBegin ∧ 0 ≤ rangeEnd) .error
  require (rangeBegin ≤ rangeEnd) .error
  pure { hostinfo with
    rangeBegin := rangeBegin, rangeDigits := tmps.length, rangeEnd := rangeEnd, stride := stride }

def expandHostRegion.repetition (hregion : CString) (pos : Int) : Except Failure Int :=
  if pos = npos then pure 1 else number (substr hregion (pos + 1) npos)

def expandHostRegion.brackets (hostinfo : HostInfo) (hregion : CString) (pos : Int) : Except Failure HostInfo :=
  let left := findFirstOf hregion opening 0
  let right := findFirstOf hregion closing 0
  if left = npos ∧ right = npos then
    pure { hostinfo with front := substr hregion 0 pos, endText := [], stride := 1, rangeBegin := -1, rangeEnd := -1 }
  else do
    require (left ≠ npos ∧ right ≠ npos) .error
    let endText := if pos = npos then substr hregion (right + 1) npos else substr hregion (right + 1) (pos - right - 1)
    expandHostRange { hostinfo with front := substr hregion 0 left, endText := endText }
      (substr hregion (left + 1) (right - left - 1))

def expandHostRegion (hostinfo : HostInfo) (hregion : CString) : Except Failure HostInfo := do
  let pos := findFirstOf hregion star 0
  let repetition ← expandHostRegion.repetition hregion pos
  require (0 < repetition) .error
  let hostinfo ← expandHostRegion.brackets { hostinfo with repetition := repetition } hregion pos
  let hostinfo ← generateHostRange hostinfo
  generateHostEntries hostinfo

def generateTaskRange (taskinfo : TaskInfo) : Except Failure TaskInfo :=
  if taskinfo.rangeBegin = -1 then
    pure { taskinfo with taskCnt := taskinfo.freeForm.length }
  else do
    let fuel := (taskinfo.rangeEnd - taskinfo.rangeBegin).toNat + 2
    let range ← steps taskinfo.rangeEnd taskinfo.stride fuel taskinfo.rangeBegin
    pure { taskinfo with taskCnt := taskinfo.taskCnt + range.length, freeForm := taskinfo.freeForm ++ range }

/--
A range of task ids is checked only where it has a stride.
-/
def expandTaskRegion.range (taskinfo : TaskInfo) (tregion : CString) (left right pos : Int)
    : Except Failure TaskInfo := do
  require (left ≤ pos ∧ pos ≤ right) .error
  let rangeBegin ← number (substr tregion (left + 1) (pos - left - 1))
  let pos1 := findFirstOf tregion colon (pos + 1)
  if pos1 = npos then do
    let rangeEnd ← number (substr tregion (pos + 1) (right - pos - 1))
    pure { taskinfo with rangeBegin := rangeBegin, rangeEnd := rangeEnd, stride := 1 }
  else do
    let rangeEnd ← number (substr tregion (pos + 1) (pos1 - pos - 1))
    let stride ← number (substr tregion (pos1 + 1) (right - pos1 - 1))
    require (0 < stride) .error
    require (0 ≤ rangeBegin ∧ 0 ≤ rangeEnd) .error
    require (rangeBegin ≤ rangeEnd) .error
    pure { taskinfo with rangeBegin := rangeBegin, rangeEnd := rangeEnd, stride := stride }

/--
The ids in front of a comma and the position of the last comma. The loop starts with `start` at the bracket.
-/
def expandTaskRegion.commas (tregion : CString) : Nat → Int → Int → Except Failure (List Int × Int)
  | 0, _, _ => .error .undefined
  | fuel + 1, start, pos1 =>
    if pos1 = npos then
      pure ([], start)
    else do
      let tid ← number (substr tregion (start + 1) (pos1 - start - 1))
      let (tids, last) ← commas tregion fuel pos1 (findFirstOf tregion comma (pos1 + 1))
      pure (tid :: tids, last)

def expandTaskRegion.list (taskinfo : TaskInfo) (tregion : CString) (left right : Int) : Except Failure TaskInfo := do
  let (tids, start) ← commas tregion (tregion.length + 1) left (findFirstOf tregion comma 0)
  let tid ← number (substr tregion (start + 1) (right - left - 1))
  pure { taskinfo with freeForm := taskinfo.freeForm ++ tids ++ [tid] }

def expandTaskRegion (taskinfo : TaskInfo) (tregion : CString) : Except Failure TaskInfo := do
  let left := findFirstOf tregion opening 0
  let right := findFirstOf tregion closing 0
  require (left ≠ npos ∧ right ≠ npos) .error
  let pos := findFirstOf tregion dash 0
  let taskinfo ←
    if pos ≠ npos then
      expandTaskRegion.range taskinfo tregion left right pos
    else
      expandTaskRegion.list taskinfo tregion left right
  generateTaskRange taskinfo

structure BEMap where
  mapping : AList (fun _ : Int => CString) := ∅
  firstEmpty : Int := 0

inductive Rc where
  | success
  | full
  deriving DecidableEq

namespace BEMap

def size (m : BEMap) : Nat := m.mapping.keys.length

def find (m : BEMap) (id : Int) : Option CString := m.mapping.lookup id

def maxId (m : BEMap) : Option Int := m.mapping.keys.max?

def isFull (m : BEMap) (num : Int) : Prop := 0 < num ∧ num ≤ m.size

instance (m : BEMap) (num : Int) : Decidable (m.isFull num) := inferInstanceAs (Decidable (_ ∧ _))

def assignTasks (num : Int) : List Int → List CString → BEMap → Except Failure (Rc × BEMap)
  | [], _, m => pure (.success, m)
  | _ :: _, [], _ => .error .undefined
  | tid :: tids, host :: hosts, m =>
    if tid < 0 then .error .error
    else if tid ∈ m.mapping then .error .error
    else if m.isFull num then pure (.full, m)
    else assignTasks num tids hosts { m with mapping := m.mapping.insert tid host }

def indices (first stop : Int) : List Int := (List.range (stop - first).toNat).map (fun k : Nat => first + k)

def nextIndex (m : BEMap) : Except Failure (Int × Int) :=
  match m.maxId with
  | none => pure (0, 1)
  | some maxId =>
    match (indices m.firstEmpty maxId).find? (· ∉ m.mapping) with
    | some index => pure (index, index + 1)
    | none => do
      let index ← int (maxId + 1)
      pure (index, m.firstEmpty)

def assignHosts (num : Int) : List CString → BEMap → Except Failure (Rc × BEMap)
  | [], m => pure (.success, m)
  | host :: hosts, m =>
    if m.isFull num then
      pure (.full, m)
    else do
      let (index, firstEmpty) ← m.nextIndex
      assignHosts num hosts ⟨m.mapping.insert index host, firstEmpty⟩

def updateMapping (m : BEMap) (hostinfo : HostInfo) (taskinfo : TaskInfo) (num : Int) : Except Failure (Rc × BEMap) :=
  if 0 < taskinfo.taskCnt then
    assignTasks num taskinfo.freeForm hostinfo.hostEntries m
  else
    assignHosts num hostinfo.hostEntries m

def expandLine (m : BEMap) (line : CString) (num : Int) : Except Failure (Rc × BEMap) := do
  let pos := findFirstOf line percent 0
  let hostinfo ← expandHostRegion {} (if pos ≠ npos then substr line 0 pos else line)
  let taskinfo ← if pos ≠ npos then expandTaskRegion {} (substr line (pos + 1) npos) else pure {}
  require (0 < taskinfo.taskCnt → hostinfo.hostCnt = taskinfo.taskCnt) .error
  m.updateMapping hostinfo taskinfo num

def trimWhitespace (line : CString) : CString := line.filter (fun c => !isspace c)

def input.isSkipped (line : CString) : Prop :=
  line = [] ∨ findFirstOf line bang 0 = 0 ∨ findFirstOf line star 0 = 0

instance (line : CString) : Decidable (input.isSkipped line) := inferInstanceAs (Decidable (_ ∨ _ ∨ _))

def input.loop (num : Int) : Nat → Fstream UInt8 → CString → BEMap → Except Failure BEMap
  | 0, _, _, _ => .error .undefined
  | fuel + 1, fs, line, m =>
    if fs.fail then
      pure m
    else if m.isFull num then
      pure m
    else
      let (fs, line) := getline NEWLINE fs line
      let line := trimWhitespace line
      if input.isSkipped line then
        loop num fuel fs line m
      else do
        require (isValidForm line) .error
        let (rc, m) ← m.expandLine line num
        match rc with
        | .full => pure m
        | .success => loop num fuel fs line m

def input (file : CString) (num : Int) : Except Failure BEMap := do
  let m ← input.loop num (file.length + 3) ⟨file, false, false⟩ [] {}
  let maxId ← found m.maxId .error
  require (maxId < m.size) .error
  pure m

end BEMap

end Sci.HostFile
