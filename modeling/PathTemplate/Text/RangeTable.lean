/-!
# Sets of characters as tables of ranges

A property of characters that only a table can give is kept as the ranges of code points that have
it, in ascending order.  `RangeTable.contains` looks a character up by halving, which is right
because of the order: `contains_iff` says that it finds a character exactly if some range holds it.
-/

namespace PathTemplate

/-- Tells whether ranges follow one another without touching, each with its ends in order. -/
def isAscending : List (Nat × Nat) → Bool
  | [] => true
  | [range] => range.1 ≤ range.2
  | range :: next :: rest => range.1 ≤ range.2 && range.2 < next.1 && isAscending (next :: rest)

/-- A set of code points: ascending ranges, each by its first and last member. -/
structure RangeTable where
  ranges : Array (Nat × Nat)
  ascending : isAscending ranges.toList = true := by decide +kernel

namespace RangeTable

/-- Looks for a code point among the ranges from index `low` up to but not including `high`. -/
def containsBetween (table : RangeTable) (point low high : Nat) : Bool :=
  if low < high then
    let middle := (low + high) / 2
    match table.ranges[middle]? with
    | none => false
    | some range =>
      if point < range.1 then table.containsBetween point low middle
      else if range.2 < point then table.containsBetween point (middle + 1) high
      else true
  else
    false
termination_by high - low

/-- Tells whether a character is in the set. -/
def contains (table : RangeTable) (c : Char) : Bool :=
  table.containsBetween c.toNat 0 table.ranges.size

/-! ## The order of the ranges -/

theorem ends_of_isAscending {range : Nat × Nat} {ranges : List (Nat × Nat)}
    (h : isAscending (range :: ranges) = true) : range.1 ≤ range.2 := by
  cases ranges with
  | nil => simpa [isAscending] using h
  | cons next rest =>
    simp only [isAscending, Bool.and_eq_true, decide_eq_true_eq] at h
    exact h.1.1

theorem isAscending_tail {range : Nat × Nat} {ranges : List (Nat × Nat)}
    (h : isAscending (range :: ranges) = true) : isAscending ranges = true := by
  cases ranges with
  | nil => rfl
  | cons next rest =>
    simp only [isAscending, Bool.and_eq_true] at h
    exact h.2

theorem ends_of_mem {ranges : List (Nat × Nat)} (h : isAscending ranges = true) :
    ∀ range ∈ ranges, range.1 ≤ range.2 := by
  induction ranges with
  | nil => simp
  | cons first ranges ih =>
    intro range hrange
    rcases List.mem_cons.1 hrange with rfl | hrange
    · exact ends_of_isAscending h
    · exact ih (isAscending_tail h) range hrange

theorem pairwise_of_isAscending {ranges : List (Nat × Nat)} (h : isAscending ranges = true) :
    ranges.Pairwise fun a b => a.2 < b.1 := by
  induction ranges with
  | nil => exact List.Pairwise.nil
  | cons range ranges ih =>
    cases ranges with
    | nil => exact List.pairwise_singleton _ _
    | cons next rest =>
      simp only [isAscending, Bool.and_eq_true, decide_eq_true_eq] at h
      have hrest := ih h.2
      refine List.pairwise_cons.2 ⟨?_, hrest⟩
      intro later hlater
      rcases List.mem_cons.1 hlater with rfl | hlater
      · exact h.1.2
      · have := (List.pairwise_cons.1 hrest).1 later hlater
        have := ends_of_isAscending h.2
        omega

/-- A range ends before a later one begins. -/
theorem lt_of_lt (table : RangeTable) {i j : Nat} {a b : Nat × Nat} (hij : i < j)
    (ha : table.ranges[i]? = some a) (hb : table.ranges[j]? = some b) : a.2 < b.1 := by
  rw [← Array.getElem?_toList, List.getElem?_eq_some_iff] at ha hb
  obtain ⟨hi, rfl⟩ := ha
  obtain ⟨hj, rfl⟩ := hb
  exact List.pairwise_iff_getElem.1 (pairwise_of_isAscending table.ascending) i j hi hj hij

/-- The ends of a range are in order. -/
theorem ends_of_getElem? (table : RangeTable) {i : Nat} {range : Nat × Nat}
    (h : table.ranges[i]? = some range) : range.1 ≤ range.2 := by
  rw [← Array.getElem?_toList] at h
  exact ends_of_mem table.ascending range (List.mem_of_getElem? h)

/-! ## What the lookup finds -/

theorem containsBetween_iff (table : RangeTable) (point low high : Nat)
    (hhigh : high ≤ table.ranges.size) :
    table.containsBetween point low high = true ↔
      ∃ i range, low ≤ i ∧ i < high ∧ table.ranges[i]? = some range ∧
        range.1 ≤ point ∧ point ≤ range.2 := by
  fun_induction containsBetween table point low high with
  | case1 low high h middle hmiddle =>
    rw [Array.getElem?_eq_none_iff] at hmiddle
    omega
  | case2 low high h middle range hmiddle hpoint ih =>
    rw [ih (by omega)]
    constructor
    · rintro ⟨i, r, h1, h2, h3⟩
      exact ⟨i, r, h1, by omega, h3⟩
    · rintro ⟨i, r, h1, h2, h3, h4, h5⟩
      refine ⟨i, r, h1, ?_, h3, h4, h5⟩
      rcases Nat.lt_trichotomy i middle with hlt | heq | hgt
      · exact hlt
      · rw [heq, hmiddle] at h3
        cases h3
        omega
      · have := table.lt_of_lt hgt hmiddle h3
        have := table.ends_of_getElem? hmiddle
        omega
  | case3 low high h middle range hmiddle hge hpoint ih =>
    rw [ih hhigh]
    constructor
    · rintro ⟨i, r, h1, h2, h3⟩
      exact ⟨i, r, by omega, h2, h3⟩
    · rintro ⟨i, r, h1, h2, h3, h4, h5⟩
      refine ⟨i, r, ?_, h2, h3, h4, h5⟩
      rcases Nat.lt_trichotomy i middle with hlt | heq | hgt
      · have := table.lt_of_lt hlt h3 hmiddle
        have := table.ends_of_getElem? hmiddle
        omega
      · rw [heq, hmiddle] at h3
        cases h3
        omega
      · exact hgt
  | case4 low high h middle range hmiddle hge hle =>
    refine iff_of_true rfl ⟨middle, range, ?_, ?_, hmiddle, ?_, ?_⟩ <;> omega
  | case5 low high h =>
    refine iff_of_false Bool.false_ne_true ?_
    rintro ⟨i, r, h1, h2, -⟩
    omega

/-- A character is found exactly if some range holds it. -/
theorem contains_iff (table : RangeTable) (c : Char) :
    table.contains c = true ↔
      ∃ range ∈ table.ranges, range.1 ≤ c.toNat ∧ c.toNat ≤ range.2 := by
  rw [contains, containsBetween_iff table c.toNat 0 _ (Nat.le_refl _)]
  constructor
  · rintro ⟨i, range, -, -, h, hends⟩
    exact ⟨range, Array.mem_of_getElem? h, hends⟩
  · rintro ⟨range, h, hends⟩
    obtain ⟨i, hi, rfl⟩ := Array.getElem_of_mem h
    exact ⟨i, _, Nat.zero_le i, hi, Array.getElem?_eq_getElem hi, hends⟩

end RangeTable

end PathTemplate
