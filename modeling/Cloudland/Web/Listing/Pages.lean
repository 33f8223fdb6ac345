import Mathlib.Data.Rat.Floor
import Cloudland.Lib.CInt

/-!
The page links of `routes/page.go`.
-/

namespace Web.Paging

open CInt

structure PageLink where
  number : Int
  offset : Int
  isCurrent : Bool
  isEllipsis : Bool
  deriving DecidableEq

structure PageInfo where
  pages : List PageLink
  totalPages : Int
  currentPage : Int
  hasPrevious : Bool
  hasNext : Bool
  previousPage : Int
  nextPage : Int
  previousOffset : Int
  nextOffset : Int

def minPagesForSmartDisplay : Int := 11

def pageRangeAroundCurrent : Int := 5

def ellipsis : PageLink := ⟨0, 0, false, true⟩

-- the values of a loop that begins with `i`
def numbersFrom : Int → Nat → List Int
  | _, 0 => []
  | i, count + 1 => i :: numbersFrom (i + 1) count

section Smart

variable (limit currentPage : Int)

def pageOf (i : Int) : PageLink := ⟨i, (i - 1) * limit, i = currentPage, false⟩

def smartPages (totalPages : Int) : List PageLink :=
  if totalPages ≤ minPagesForSmartDisplay then
    (numbersFrom 1 totalPages.toNat).map (pageOf limit currentPage)
  else
    let rangeStart := currentPage - pageRangeAroundCurrent
    let rangeEnd := currentPage + pageRangeAroundCurrent
    let first := if rangeStart > 1 then ⟨1, 0, false, false⟩ :: (if rangeStart > 2 then [ellipsis] else []) else []
    let rangeStart := if rangeStart < 1 then 1 else rangeStart
    let rangeEnd := if rangeEnd > totalPages then totalPages else rangeEnd
    let last := if rangeEnd < totalPages then
        (if rangeEnd < totalPages - 1 then [ellipsis] else []) ++ [pageOf limit currentPage totalPages]
      else
        []
    first ++ ((numbersFrom rangeStart (rangeEnd + 1 - rangeStart).toNat).map (pageOf limit currentPage) ++ last)

end Smart

-- the quotient of two numbers of `float64` below `2 ^ 53` has the ceiling of the exact one
def getSmartPaginationInfo (total limit offset : Int) : PageInfo :=
  let limit := if limit ≤ 0 then 1 else limit
  let totalPages := ⌈(total / limit : ℚ)⌉
  let totalPages := if totalPages < 1 then 1 else totalPages
  let currentPage := offset.tdiv limit + 1
  let currentPage := if currentPage > totalPages then totalPages else currentPage
  let currentPage := if currentPage < 1 then 1 else currentPage
  { pages := smartPages limit currentPage totalPages
    totalPages
    currentPage
    hasPrevious := currentPage > 1
    hasNext := currentPage < totalPages
    previousPage := if currentPage > 1 then currentPage - 1 else 0
    nextPage := if currentPage < totalPages then currentPage + 1 else 0
    previousOffset := if currentPage > 1 then (currentPage - 1 - 1) * limit else 0
    nextOffset := if currentPage < totalPages then currentPage * limit else 0 }

def spaced : List PageLink → List PageLink
  | p :: q :: pages =>
    if q.number - p.number > 1 then p :: ellipsis :: spaced (q :: pages) else p :: spaced (q :: pages)
  | pages => pages

/--
An ellipsis stands exactly between two listed pages whose numbers differ by more than one. The scan knows the number
of the page before, and whether an ellipsis has come after it.
-/
def EllipsesOk : Option Int → Bool → List PageLink → Prop
  | _, seen, [] => seen = false
  | before, seen, p :: pages =>
    if p.isEllipsis then
      before.isSome ∧ seen = false ∧ EllipsesOk before true pages
    else
      (∀ n ∈ before, seen = decide (p.number - n > 1)) ∧ EllipsesOk (some p.number) false pages

def PageInfo.listed (info : PageInfo) : List PageLink := info.pages.filter (fun p => !p.isEllipsis)

structure PagedBy (total limit offset : Int) (info : PageInfo) : Prop where
  totalPages : info.totalPages = max 1 ⌈(total / limit : ℚ)⌉
  currentPage : 1 ≤ info.currentPage ∧ info.currentPage ≤ info.totalPages ∧ (info.currentPage - 1) * limit ≤ offset ∧
    (offset < info.currentPage * limit ∨ info.currentPage = info.totalPages)
  increasing : (info.listed.map PageLink.number).Pairwise (· < ·)
  ends : 1 ∈ info.listed.map PageLink.number ∧ info.totalPages ∈ info.listed.map PageLink.number
  offsets : ∀ p ∈ info.listed, 1 ≤ p.number ∧ p.number ≤ info.totalPages ∧ p.offset = (p.number - 1) * limit
  current : (info.pages.filter PageLink.isCurrent).map PageLink.number = [info.currentPage]
  ellipses : EllipsesOk none false info.pages
  previous : if 1 < info.currentPage then
      info.hasPrevious ∧ info.previousPage = info.currentPage - 1 ∧
        info.previousOffset = (info.previousPage - 1) * limit
    else
      info.hasPrevious = false ∧ info.previousPage = 0 ∧ info.previousOffset = 0
  next : if info.currentPage < info.totalPages then
      info.hasNext ∧ info.nextPage = info.currentPage + 1 ∧ info.nextOffset = (info.nextPage - 1) * limit
    else
      info.hasNext = false ∧ info.nextPage = 0 ∧ info.nextOffset = 0

section Smart

variable {limit currentPage totalPages : Int}

theorem mem_numbersFrom : n ∈ numbersFrom i count ↔ i ≤ n ∧ n < i + count := by
  induction count generalizing i with
  | zero =>
    simp only [numbersFrom, List.not_mem_nil, false_iff]
    omega
  | succ count ih =>
    rw [numbersFrom, List.mem_cons, ih]
    omega

theorem pairwise_numbersFrom (i : Int) (count : Nat) : (numbersFrom i count).Pairwise (· < ·) := by
  induction count generalizing i with
  | zero => apply List.Pairwise.nil
  | succ count ih =>
    apply List.Pairwise.cons _ (ih (i + 1))
    intro n hn
    rw [mem_numbersFrom] at hn
    omega

theorem spaced_numbersFrom (i : Int) (count : Nat) (rest : List PageLink)
    : spaced ((numbersFrom i (count + 1)).map (pageOf limit currentPage) ++ rest)
        =
      (numbersFrom i (count + 1)).map (pageOf limit currentPage) ++
        (spaced (pageOf limit currentPage (i + count) :: rest)).tail := by
  induction count generalizing i with
  | zero =>
    cases rest with
    | nil => simp [numbersFrom, spaced]
    | cons q rest =>
      simp only [numbersFrom, List.map_cons, List.map_nil, List.cons_append, List.nil_append, spaced, Nat.cast_zero,
        Int.add_zero]
      split
      . rfl
      . rfl
  | succ count ih =>
    have hnext := ih (i + 1)
    rw [show i + (count + 1 : Nat) = i + 1 + count by omega]
    rw [numbersFrom, List.map_cons, List.cons_append] at hnext ⊢
    rw [numbersFrom, List.map_cons, List.cons_append, spaced, if_neg (by simp [pageOf]), hnext]
    rfl

theorem spaced_cons (i j : Int) (rest : List PageLink)
    : spaced (pageOf limit currentPage i :: pageOf limit currentPage j :: rest)
        =
      pageOf limit currentPage i :: ((if j > i + 1 then [ellipsis] else []) ++
        spaced (pageOf limit currentPage j :: rest)) := by
  rw [spaced]
  by_cases h : j > i + 1
  . rw [if_pos h, if_pos (by simp only [pageOf]; omega)]
    rfl
  . rw [if_neg h, if_neg (by simp only [pageOf]; omega)]
    rfl

theorem smartPages_eq (hlow : 1 ≤ currentPage) (hhigh : currentPage ≤ totalPages)
    : ∃ numbers : List Int, numbers.Pairwise (· < ·) ∧ (∀ n ∈ numbers, 1 ≤ n ∧ n ≤ totalPages) ∧
        1 ∈ numbers ∧ totalPages ∈ numbers ∧ currentPage ∈ numbers ∧
        smartPages limit currentPage totalPages = spaced (numbers.map (pageOf limit currentPage)) := by
  unfold smartPages minPagesForSmartDisplay pageRangeAroundCurrent
  split
  . obtain ⟨count, hcount⟩ : ∃ count : Nat, totalPages = 1 + count := ⟨(totalPages - 1).toNat, by omega⟩
    rw [show totalPages.toNat = count + 1 by omega]
    refine ⟨_, pairwise_numbersFrom 1 (count + 1), ?_, ?_, ?_, ?_, ?_⟩
    . intro n hn
      rw [mem_numbersFrom] at hn
      omega
    . rw [mem_numbersFrom]
      omega
    . rw [mem_numbersFrom]
      omega
    . rw [mem_numbersFrom]
      omega
    . have hspaced := @spaced_numbersFrom limit currentPage 1 count []
      simpa [spaced] using hspaced.symm
  . dsimp only
    generalize hstart : (if currentPage - 5 < 1 then 1 else currentPage - 5) = rangeStart
    generalize hend : (if currentPage + 5 > totalPages then totalPages else currentPage + 5) = rangeEnd
    obtain ⟨count, hcount⟩ : ∃ count : Nat, rangeEnd = rangeStart + count := ⟨(rangeEnd - rangeStart).toNat, by
      split at hstart <;> split at hend <;> omega⟩
    rw [show (rangeEnd + 1 - rangeStart).toNat = count + 1 by omega]
    have hmem : ∀ n, n ∈ (if currentPage - 5 > 1 then [1] else []) ++
        (numbersFrom rangeStart (count + 1) ++ if rangeEnd < totalPages then [totalPages] else []) ↔
        (currentPage - 5 > 1 ∧ n = 1) ∨ (rangeStart ≤ n ∧ n ≤ rangeEnd) ∨ rangeEnd < totalPages ∧ n = totalPages := by
      intro n
      simp only [List.mem_append, List.mem_ite_nil_right, List.mem_singleton, mem_numbersFrom]
      omega
    refine ⟨_, ?_, ?_, (hmem _).mpr ?_, (hmem _).mpr ?_, (hmem _).mpr ?_, ?_⟩
    . simp only [List.pairwise_append, List.mem_append, List.mem_ite_nil_right, List.mem_singleton, mem_numbersFrom,
        pairwise_numbersFrom, true_and]
      refine ⟨?_, ⟨?_, ?_⟩, ?_⟩
      . split <;> simp
      . split <;> simp
      . omega
      . omega
    . intro n hn
      rw [hmem] at hn
      omega
    . omega
    . omega
    . omega
    . have hrest := @spaced_numbersFrom limit currentPage rangeStart count
        ((if rangeEnd < totalPages then [totalPages] else []).map (pageOf limit currentPage))
      rw [← hcount] at hrest
      have hlast : (spaced (pageOf limit currentPage rangeEnd ::
          (if rangeEnd < totalPages then [totalPages] else []).map (pageOf limit currentPage))).tail
          = if rangeEnd < totalPages then
            (if rangeEnd < totalPages - 1 then [ellipsis] else []) ++ [pageOf limit currentPage totalPages]
            else [] := by
        split
        . rw [List.map_singleton, spaced_cons]
          simp [spaced, show totalPages > rangeEnd + 1 ↔ rangeEnd < totalPages - 1 by omega]
        . rfl
      rw [hlast, ← List.map_append] at hrest
      rw [← hrest]
      split
      . have hone : pageOf limit currentPage 1 = ⟨1, 0, false, false⟩ := by
          simp [pageOf]
          omega
        simp only [numbersFrom, List.cons_append, List.nil_append, List.map_cons]
        rw [spaced_cons, hone]
        simp only [show rangeStart > 1 + 1 ↔ currentPage - 5 > 2 by omega]
      . rfl

theorem filter_spaced (f : PageLink → Bool) (hf : f ellipsis = false) (l : List PageLink)
    : (spaced l).filter f = l.filter f := by
  fun_induction spaced l with
  | case1 p q pages _ ih => simp only [List.filter_cons, hf, ih, Bool.false_eq_true, if_false]
  | case2 p q pages _ ih => rw [List.filter_cons, ih, ← List.filter_cons]
  | case3 => rfl

theorem filter_spaced_pageOf (limit currentPage : Int) (numbers : List Int)
    : (spaced (numbers.map (pageOf limit currentPage))).filter (fun p => !p.isEllipsis)
        =
      numbers.map (pageOf limit currentPage) := by
  rw [filter_spaced _ rfl, List.filter_eq_self]
  simp [pageOf]

theorem current_spaced {numbers : List Int} (h : numbers.Pairwise (· < ·)) (hmem : currentPage ∈ numbers)
    : ((spaced (numbers.map (pageOf limit currentPage))).filter PageLink.isCurrent).map PageLink.number
      = [currentPage] := by
  have hnodup : numbers.Nodup := h.imp ne_of_lt
  rw [filter_spaced _ rfl, List.filter_map, List.map_map]
  simp only [Function.comp_def, pageOf, List.map_id']
  rw [List.filter_eq, hnodup.count, if_pos hmem, List.replicate_one]

theorem ellipsesOk_spaced {p : PageLink} {l : List PageLink} (h : ∀ q ∈ p :: l, q.isEllipsis = false)
    (hbefore : ∀ n ∈ before, seen = decide (p.number - n > 1))
    : EllipsesOk before seen (spaced (p :: l)) := by
  induction l generalizing p before seen with
  | nil => simpa [spaced, EllipsesOk, h p] using hbefore
  | cons q l ih =>
    have ⟨hp, hrest⟩ := List.forall_mem_cons.mp h
    rw [spaced]
    split
    . next hgap =>
      have hok := @ih (some p.number) true q hrest (by simpa using hgap)
      simpa [EllipsesOk, hp, ellipsis, hok] using hbefore
    . next hgap =>
      have hok := @ih (some p.number) false q hrest (by simpa using hgap)
      simpa [EllipsesOk, hp, hok] using hbefore

theorem getSmartPaginationInfo_paged (total offset : Nat) (limit : Int)
    : PagedBy total (max 1 limit) offset (getSmartPaginationInfo total limit offset) := by
  unfold getSmartPaginationInfo
  dsimp only
  rw [show (if limit ≤ 0 then 1 else limit) = max 1 limit by omega]
  have hlimit : 1 ≤ max 1 limit := by omega
  generalize max 1 limit = limit at hlimit ⊢
  have htotal : (if ⌈(((total : Int) : ℚ) / limit)⌉ < 1 then 1 else ⌈(((total : Int) : ℚ) / limit)⌉)
      = max 1 ⌈(((total : Int) : ℚ) / limit)⌉ := by omega
  have hpages : 1 ≤ max 1 ⌈(((total : Int) : ℚ) / limit)⌉ := by omega
  rw [htotal]
  generalize hmax : max 1 ⌈(((total : Int) : ℚ) / limit)⌉ = totalPages at hpages ⊢
  rw [Int.tdiv_eq_ediv_of_nonneg (Int.natCast_nonneg offset)]
  have hlow := Int.ediv_mul_le (offset : Int) (show limit ≠ 0 by omega)
  have hhigh := Int.lt_ediv_add_one_mul_self (offset : Int) (show 0 < limit by omega)
  have hnonneg : 0 ≤ (offset : Int) / limit := Int.ediv_nonneg (by omega) (by omega)
  generalize (offset : Int) / limit = quotient at hlow hhigh hnonneg ⊢
  generalize hcurrent : (if (if quotient + 1 > totalPages then totalPages else quotient + 1) < 1 then 1
    else if quotient + 1 > totalPages then totalPages else quotient + 1) = currentPage
  have hpage : 1 ≤ currentPage ∧ currentPage ≤ totalPages ∧ currentPage - 1 ≤ quotient := by omega
  obtain ⟨numbers, hincreasing, hnumbers, hone, hlast, hmem, heq⟩ := @smartPages_eq limit _ _ hpage.1 hpage.2.1
  have hlisted := filter_spaced_pageOf limit currentPage numbers
  simp only [heq]
  refine ⟨hmax.symm, ⟨hpage.1, hpage.2.1, ?_, ?_⟩, ?_, ?_, ?_, ?_, ?_, ?_, ?_⟩
  . apply le_trans (Int.mul_le_mul_of_nonneg_right hpage.2.2 (by omega)) hlow
  . by_cases hlast : currentPage = totalPages
    . exact .inr hlast
    . rw [show quotient + 1 = currentPage by omega] at hhigh
      exact .inl hhigh
  . simpa [PageInfo.listed, hlisted, pageOf, Function.comp_def] using hincreasing
  . simpa [PageInfo.listed, hlisted, pageOf] using ⟨hone, hlast⟩
  . simpa [PageInfo.listed, hlisted, pageOf] using hnumbers
  . apply current_spaced hincreasing hmem
  . obtain ⟨n, numbers, rfl⟩ := List.exists_cons_of_ne_nil (List.ne_nil_of_mem hone)
    apply ellipsesOk_spaced _ (by simp)
    simp [pageOf]
  . dsimp only
    split
    . next h => simp [h]
    . next h => simp [h]
  . dsimp only
    split
    . next h => simp [h]
    . next h => simp [h]

end Smart

section All

/--
The loop of `GetPages`, which appends a link at every turn. There is no result where the memory, with room for so many
more links, is full before the loop has come to its end.
-/
def getPages.loop (total limit : Int) : Nat → Int → Int → Option (List PageLink)
  | 0, start, _ => if start < total then none else some []
  | room + 1, start, number =>
    if start < total then
      (getPages.loop total limit room (wrap64 (start + limit)) (wrap64 (number + 1))).map
        (⟨wrap64 (number + 1), start, false, false⟩ :: ·)
    else
      some []

def getPages (total limit : Int) (room : Nat) : Option (List PageLink) :=
  if total ≤ limit then some [] else getPages.loop total limit room 0 0

-- what the views pass on
def passedLimit (limit : Int64) : Int := if limit.toInt = 0 then 16 else limit.toInt

def pageCount (total limit : Int) : Nat := ((total + limit - 1) / limit).toNat

def PagesEnd (room : Nat) (total limit : Int) : Prop :=
  ∃ pages, getPages total limit room = some pages ∧
    (0 < limit → limit < total →
      pages.map PageLink.offset = (List.range (pageCount total limit)).map (fun k : Nat => k * limit))

theorem loop_eq_some (hstart : wrap64 start = start) (h : getPages.loop total limit room start number = some pages)
    : pages.length ≤ room ∧
      pages.map PageLink.offset = (List.range pages.length).map (fun k : Nat => wrap64 (start + k * limit)) ∧
      (∀ k : Nat, k < pages.length → wrap64 (start + k * limit) < total) ∧
      total ≤ wrap64 (start + pages.length * limit) := by
  induction room generalizing start number pages with
  | zero =>
    rw [getPages.loop] at h
    split at h
    . contradiction
    . next hge =>
      cases h
      simpa [hstart] using hge
  | succ room ih =>
    rw [getPages.loop] at h
    split at h
    . next hlt =>
      obtain ⟨tail, htail, rfl⟩ := Option.map_eq_some_iff.mp h
      obtain ⟨hlength, hoffsets, hbelow, hend⟩ := ih (wrap64_wrap64 _) htail
      have hshift : ∀ k : Nat, wrap64 (wrap64 (start + limit) + k * limit) =
          wrap64 (start + (k + 1 : Nat) * limit) := by
        intro k
        rw [wrap64_add_left, Nat.cast_succ, Int.add_mul]
        congr 1
        omega
      refine ⟨Nat.succ_le_succ hlength, ?_, ?_, ?_⟩
      . simp only [hshift] at hoffsets
        simp [List.range_succ_eq_map, hoffsets, hstart, Function.comp_def]
      . intro k hk
        cases k with
        | zero => simpa [hstart] using hlt
        | succ k =>
          rw [← hshift]
          apply hbelow k (by simpa using hk)
      . rw [List.length_cons, ← hshift]
        apply hend
    . next hge =>
      cases h
      simpa [hstart] using hge

theorem exists_loop {k : Nat} (hstart : wrap64 start = start) (h : total ≤ wrap64 (start + k * limit))
    (hroom : k ≤ room)
    (number : Int)
    : ∃ pages, getPages.loop total limit room start number = some pages := by
  induction room generalizing start number k with
  | zero =>
    rw [Nat.le_zero.mp hroom, Nat.cast_zero, Int.zero_mul, Int.add_zero, hstart] at h
    exact ⟨[], by rw [getPages.loop, if_neg (by omega)]⟩
  | succ room ih =>
    rw [getPages.loop]
    split
    . next hlt =>
      cases k with
      | zero =>
        rw [Nat.cast_zero, Int.zero_mul, Int.add_zero, hstart] at h
        omega
      | succ k =>
        rw [Nat.cast_succ, Int.add_mul, Int.one_mul, Int.add_comm _ limit, ← Int.add_assoc, ← wrap64_add_left] at h
        obtain ⟨pages, hpages⟩ := ih (wrap64_wrap64 _) h (Nat.le_of_succ_le_succ hroom) (wrap64 (number + 1))
        exact ⟨_, by rw [hpages, Option.map_some]⟩
    . exact ⟨[], rfl⟩

theorem ends_of_negative (hneg : limit < 0) (htotal : 0 ≤ total)
    : PagesEnd room total limit ↔ ∃ k : Nat, k ≤ room ∧ total ≤ wrap64 (k * limit) := by
  have hle : ¬total ≤ limit := by omega
  simp only [PagesEnd, getPages, hle, if_false]
  constructor
  . rintro ⟨pages, hpages, _⟩
    obtain ⟨hlength, _, _, hend⟩ := loop_eq_some rfl hpages
    rw [Int.zero_add] at hend
    exact ⟨_, hlength, hend⟩
  . rintro ⟨k, hroom, hk⟩
    rw [← Int.zero_add (k * limit)] at hk
    obtain ⟨pages, hpages⟩ := exists_loop rfl hk hroom 0
    exact ⟨pages, hpages, by omega⟩

theorem ends_of_positive (hpos : 0 < limit) (hlt : limit < total) (htotal : total < 2 ^ 63)
    : PagesEnd room total limit ↔ pageCount total limit ≤ room ∧ pageCount total limit * limit < 2 ^ 63 := by
  have hle : ¬total ≤ limit := by omega
  have hlow := Int.ediv_mul_le (total + limit - 1) (show limit ≠ 0 by omega)
  have hhigh := Int.lt_ediv_add_one_mul_self (total + limit - 1) hpos
  have hnonneg : 0 ≤ (total + limit - 1) / limit := Int.ediv_nonneg (by omega) (by omega)
  simp only [PagesEnd, getPages, hle, if_false, hpos, hlt, true_implies]
  generalize hcount : pageCount total limit = count
  unfold pageCount at hcount
  rw [show (total + limit - 1) / limit = count by omega] at hlow hhigh
  rw [Int.add_mul, Int.one_mul] at hhigh
  constructor
  . rintro ⟨pages, hpages, hoffsets⟩
    obtain ⟨hroom, _, _, hend⟩ := loop_eq_some rfl hpages
    have hlength : pages.length = count := by simpa using congrArg List.length hoffsets
    rw [Int.zero_add, hlength, wrap64, Int.bmod_def] at hend
    omega
  . intro ⟨hroom, hover⟩
    have hbelow : ∀ k : Nat, k < count → k * limit < total := by
      intro k hk
      have := Int.mul_le_mul_of_nonneg_right (show (k + 1 : Int) ≤ count by omega) hpos.le
      rw [Int.add_mul, Int.one_mul] at this
      omega
    have hexact : ∀ k : Nat, k ≤ count → wrap64 (0 + k * limit) = k * limit := by
      intro k hk
      have hup := Int.mul_le_mul_of_nonneg_right (show (k : Int) ≤ count by omega) hpos.le
      have hdown : 0 ≤ k * limit := Int.mul_nonneg (by omega) hpos.le
      rw [Int.zero_add]
      apply wrap64_eq_iff.mpr
      unfold IsInt64
      omega
    obtain ⟨pages, hpages⟩ := @exists_loop 0 total limit room count rfl (by rw [hexact _ le_rfl]; omega) hroom 0
    obtain ⟨_, hoffsets, hbefore, hend⟩ := loop_eq_some rfl hpages
    have hlength : pages.length = count := by
      apply Nat.le_antisymm
      . by_contra hmore
        have := hbefore count (by omega)
        rw [hexact _ le_rfl] at this
        omega
      . by_contra hless
        rw [hexact _ (by omega)] at hend
        have := hbelow pages.length (by omega)
        omega
    refine ⟨pages, hpages, ?_⟩
    rw [hoffsets, hlength]
    apply List.map_congr_left
    intro k hk
    apply hexact k (List.mem_range.mp hk).le

theorem ends_iff (room total : Fin (2 ^ 63)) (limit : Int64)
    : PagesEnd room total (passedLimit limit)
        ↔
      (total : Int) ≤ passedLimit limit ∨
        passedLimit limit < 0 ∧ (∃ k : Nat, k ≤ room.val ∧ total ≤ wrap64 (k * passedLimit limit)) ∨
        0 < passedLimit limit ∧ pageCount total (passedLimit limit) ≤ room ∧
          pageCount total (passedLimit limit) * passedLimit limit < 2 ^ 63 := by
  have hzero : passedLimit limit ≠ 0 := by
    unfold passedLimit
    split <;> omega
  generalize passedLimit limit = limit at *
  by_cases hle : (total : Int) ≤ limit
  . simp only [hle, true_or, iff_true]
    exact ⟨[], by rw [getPages, if_pos hle], by omega⟩
  . rcases lt_or_gt_of_ne hzero with hneg | hpos
    . rw [ends_of_negative hneg (by omega)]
      simp [hle, hneg, hneg.not_gt]
    . rw [ends_of_positive hpos (by omega) (by exact_mod_cast total.isLt)]
      simp [hle, hpos, hpos.not_gt]

theorem pages_without_end : ¬∃ room : Fin (2 ^ 63), PagesEnd room 1 (passedLimit (-1)) := by
  intro ⟨room, h⟩
  obtain ⟨k, hk, hend⟩ := (ends_of_negative (by decide) (by decide)).mp h
  rw [show passedLimit (-1) = -1 by decide, wrap64, Int.bmod_def] at hend
  omega

end All

end Web.Paging
