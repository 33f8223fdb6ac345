import Cloudland.Sci.Range

/-!
This module models the interval sets of `common/group.cpp`, with positions for iterators.
-/

namespace Sci

structure RangeList.WellFormed (l : List Range) : Prop where
  nonEmpty : ∀ x ∈ l, x.NonEmpty
  separated : l.Pairwise (fun x y => x.last < y.first)

namespace RangeList

def ids (l : List Range) : Set Int := { i | ∃ x ∈ l, i ∈ x.ids }

def absorb (x : Range) : List Range → List Range
  | [] => [x]
  | y :: ys => if x.touches y then absorb (x.union y) ys else x :: y :: ys

def addFrom (r : Range) : List Range → List Range × Nat
  | [] => ([r], 0)
  | x :: xs =>
    if r.touches x then
      (absorb (r.union x) xs, 0)
    else if r.isBefore x then
      (r :: x :: xs, 0)
    else
      let res := addFrom r xs
      (x :: res.1, res.2 + 1)

variable (l : List Range)

def addAt (r : Range) (pos : Nat) : List Range × Nat :=
  match l.getLast? with
  | some z =>
    -- shortcut for a higher range
    if !r.touches z && !r.isBefore z then (l ++ [r], l.length) else scan
  | none => scan
where
  scan : List Range × Nat :=
    let res := addFrom r (l.drop pos)
    (l.take pos ++ res.1, pos + res.2)

def addAll (rs : List Range) : List Range :=
  go l 0 rs
where
  go (l : List Range) (pos : Nat) : List Range → List Range
    | [] => l
    | r :: rs =>
      let res := addAt l r pos
      go res.1 res.2 rs

/--
The loop of `Group::Delete` that runs to the end of the vector once it has met a range that is not
split.
-/
def deleteRest (r : Range) : List Range → List Range
  | [] => []
  | x :: xs => if r.contains x then deleteRest r xs else x.difference r :: deleteRest r xs

def deleteFrom (r : Range) : List Range → List Range × Nat
  | [] => ([], 0)
  | x :: xs =>
    if r.intersects x then
      if r.splits x then
        (⟨x.first, r.first⟩ :: ⟨r.last, x.last⟩ :: xs, 1)
      else
        (deleteRest r (x :: xs), 0)
    else if r.isBefore x then
      (x :: xs, 0)
    else
      let res := deleteFrom r xs
      (x :: res.1, res.2 + 1)

def deleteAt (r : Range) (pos : Nat) : List Range × Nat :=
  let res := deleteFrom r (l.drop pos)
  (l.take pos ++ res.1, pos + res.2)

def deleteAll (rs : List Range) : List Range :=
  go l 0 rs
where
  go (l : List Range) (pos : Nat) : List Range → List Range
    | [] => l
    | r :: rs =>
      let res := deleteAt l r pos
      go res.1 res.2 rs

def hasMember (l : List Range) (clientId : Int) : Bool :=
  match l with
  | [] => false
  | x :: xs =>
    if clientId ≥ x.last then
      hasMember xs clientId
    else if clientId ≥ x.first then
      true
    else
      hasMember xs clientId

def members : List Int :=
  l.flatMap (fun x => (List.range (x.last - x.first).toNat).map (fun k : Nat => x.first + k))

def size : Int := (l.map (fun x => x.last - x.first)).sum

end RangeList
end Sci
