import Cloudland.Sci.HostFile.Impl
import Mathlib.Data.Int.Interval

/-!
The host files that are written as `prefix[a-b:s]suffix*r%[...]`, and what they mean.
-/

namespace Sci.HostFile

open CString StdString

structure Digits where
  text : CString
  ne_nil : text ≠ []
  isdigit : ∀ c ∈ text, CString.isdigit c = true

namespace Digits

def value (d : Digits) : Int := CString.value d.text

end Digits

structure Numeral where
  negative : Bool
  digits : Digits

namespace Numeral

def text (n : Numeral) : CString := if n.negative then dash :: n.digits.text else n.digits.text

def value (n : Numeral) : Int := if n.negative then -n.digits.value else n.digits.value

end Numeral

def progression (first last stride : Int) : List Int :=
  if first ≤ last ∧ 0 < stride then
    (List.range (((last - first) / stride).toNat + 1)).map (fun k : Nat => first + stride * k)
  else
    []

structure HostRange where
  first : Digits
  last : Digits
  stride : Option Digits

namespace HostRange

def text (g : HostRange) : CString :=
  g.first.text ++ dash :: (g.last.text ++ g.stride.elim [] (fun d => colon :: d.text))

def numbers (g : HostRange) : List Int :=
  progression g.first.value g.last.value (g.stride.elim 1 Digits.value)

end HostRange

inductive Tasks where
  | list (first : Numeral) (rest : List Numeral)
  | range (first last : Numeral) (stride : Option Numeral)

namespace Tasks

def listText : Numeral → List Numeral → CString
  | n, [] => n.text
  | n, m :: rest => n.text ++ comma :: listText m rest

def body : Tasks → CString
  | .list first rest => listText first rest
  | .range first last stride =>
    first.text ++ dash :: (last.text ++ stride.elim [] (fun n => colon :: n.text))

def text (t : Tasks) : CString := opening :: (t.body ++ [closing])

def ids : Tasks → List Int
  | .list first rest => (first :: rest).map Numeral.value
  | .range first last stride => progression first.value last.value (stride.elim 1 Numeral.value)

def Reversed : Tasks → Prop
  | .list _ _ => False
  | .range first last _ => last.value < first.value

instance : (t : Tasks) → Decidable t.Reversed
  | .list _ _ => inferInstanceAs (Decidable False)
  | .range _ _ _ => inferInstanceAs (Decidable (_ < _))

def HasStride : Tasks → Prop
  | .list _ _ => False
  | .range _ _ stride => stride.isSome

structure Fits (t : Tasks) (hosts : List CString) (used : List Int) : Prop where
  ordered : ¬t.Reversed
  nonneg : ∀ id ∈ t.ids, 0 ≤ id
  nodup : t.ids.Nodup
  fresh : ∀ id ∈ t.ids, id ∉ used
  length : t.ids.length = hosts.length

end Tasks

def Plain (c : UInt8) : Prop := c ≠ opening ∧ c ≠ closing ∧ c ≠ percent ∧ c ≠ star ∧ c ≠ 0

instance (c : UInt8) : Decidable (Plain c) := inferInstanceAs (Decidable (_ ∧ _ ∧ _ ∧ _ ∧ _))

structure HostLine where
  front : CString
  range : Option HostRange
  back : CString
  repetition : Option Digits
  tasks : Option Tasks
  plain_front : ∀ c ∈ front, Plain c
  plain_back : ∀ c ∈ back, Plain c

namespace HostLine

variable (l : HostLine)

def name : CString :=
  l.front ++ (l.range.elim [] (fun g => opening :: (g.text ++ [closing])) ++ l.back)

def hostText : CString := l.name ++ l.repetition.elim [] (fun d => star :: d.text)

def text (l : HostLine) : CString := l.hostText ++ l.tasks.elim [] (fun t => percent :: t.text)

def times : Nat := (l.repetition.elim 1 Digits.value).toNat

def hosts : List CString :=
  match l.range with
  | none => List.replicate l.times (l.front ++ l.back)
  | some g =>
    g.numbers.flatMap (fun n =>
      List.replicate l.times (l.front ++ (numeral n.toNat).leftpad g.first.text.length 48 ++ l.back))

end HostLine

theorem exists_unused (used : List Int) : ∃ n : Nat, (n : Int) ∉ used := by
  have ⟨n, hn⟩ := Infinite.exists_notMem_finset (used.map Int.toNat).toFinset
  refine ⟨n, fun hmem => hn ?_⟩
  rw [List.mem_toFinset, List.mem_map]
  exact ⟨n, hmem, Int.toNat_natCast n⟩

def leastUnused (used : List Int) : Nat := Nat.find (exists_unused used)

def numbered (used : List Int) : List CString → List (Int × CString)
  | [] => []
  | host :: hosts => ((leastUnused used : Int), host) :: numbered (used ++ [(leastUnused used : Int)]) hosts

def HostLine.place (used : List Int) (l : HostLine) : List (Int × CString) :=
  match l.tasks with
  | some t => t.ids.zip l.hosts
  | none => numbered used l.hosts

def ids (e : List (Int × CString)) : List Int := e.map Prod.fst

def placed (e : List (Int × CString)) : List HostLine → List (Int × CString)
  | [] => e
  | l :: lines => placed (e ++ l.place (ids e)) lines

def limited (num : Int) (e : List (Int × CString)) : List (Int × CString) :=
  if 0 < num then e.take num.toNat else e

def hostCount (lines : List HostLine) : Nat := (lines.flatMap HostLine.hosts).length

structure Meant (lines : List HostLine) (num : Int) (m : BEMap) : Prop where
  ids : ∀ i : Int, (m.find i).isSome ↔ 0 ≤ i ∧ i < m.size
  limit : 0 < num → m.size ≤ num
  hosts : ∀ i host, m.find i = some host ↔ (i, host) ∈ limited num (placed [] lines)
  tasks : ∀ before l after t, lines = before ++ l :: after → l.tasks = some t →
    t.Fits l.hosts (HostFile.ids (placed [] before))

structure Row where
  text : CString
  line : Option HostLine
  newline : NEWLINE ∉ text
  reads : match line with
    | none => BEMap.input.isSkipped (BEMap.trimWhitespace text)
    | some l => BEMap.trimWhitespace text = l.text ∧ ¬BEMap.input.isSkipped l.text

structure File where
  rows : List Row
  tail : Row

namespace File

def text (f : File) : CString := f.rows.flatMap (fun r => r.text ++ [NEWLINE]) ++ f.tail.text

def lines (f : File) : List HostLine := (f.rows ++ [f.tail]).filterMap Row.line

end File

end Sci.HostFile
