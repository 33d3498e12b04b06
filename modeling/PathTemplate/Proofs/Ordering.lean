import Mathlib.Data.List.Lex
import PathTemplate.Bindings.Order
import PathTemplate.Proofs.ByteOrder
import PathTemplate.Proofs.OrderedMap

/-!
# Ordering: bindings are ordered by their entries

`Bindings.compare` looks at how entries are kept: at all slots, used or not, and then at the count.
What comes of it can be told from the entries.  An unused slot holds the least entry there is
(`isLE_compare_blank`), so where one list of entries ends, either the blank slot behind it is less
than the entry it is compared with, or the two are the same and the next slots decide; if all slots
are the same, the count does.  In each case the list that ends first comes first, as it does among
lists (`compareLex_padded`).

> `compare_ofList`: few entries come before many, and otherwise bindings are ordered as the lists of
> their entries are, by name and then by value, texts by their bytes.  So the order is total, only
> the same bindings are equal in it, and a new name makes bindings greater.
-/

namespace PathTemplate

open Std (TransCmp LawfulEqCmp OrientedCmp ReflCmp)

/-! ## Entries -/

namespace Binding

instance : TransCmp Binding.compare :=
  inferInstanceAs (TransCmp (compareLex (compareOn Binding.name) (compareOn Binding.value)))

instance : LawfulEqCmp Binding.compare where
  eq_of_compare {first second} h := by
    obtain ⟨hname, hvalue⟩ := Ordering.then_eq_eq.mp h
    exact pair_injective
      (Prod.ext (Std.LawfulEqOrd.eq_of_compare hname) (Std.LawfulEqOrd.eq_of_compare hvalue))

/-- An entry comes before another by its name, or else by its value. -/
def Before (first second : Binding) : Prop :=
  Text.bytes first.name < Text.bytes second.name ∨
    first.name = second.name ∧ Text.bytes first.value < Text.bytes second.value

theorem compare_eq_lt_iff {first second : Binding} :
    first.compare second = .lt ↔ first.Before second := by
  unfold compare Before
  rw [Ordering.then_eq_lt, Text.compare_eq_lt_iff, Text.compare_eq_lt_iff,
    Std.LawfulEqOrd.compare_eq_iff_eq]

/-- No entry comes before the blank one. -/
theorem isLE_compare_blank (entry : Binding) : (blank.compare entry).isLE = true :=
  Ordering.isLE_then_iff_and.mpr
    ⟨Text.isLE_compare_empty entry.name, .inr (Text.isLE_compare_empty entry.value)⟩

end Binding

/-! ## Lists -/

section Lists

variable {α : Type} {cmp : α → α → Ordering} {front back : List α}

/-- A comparison of lists says which one comes first in the order of lists. -/
theorem compareLex_eq_lt_iff [LawfulEqCmp cmp] {r : α → α → Prop}
    (h : ∀ {first second}, cmp first second = .lt ↔ r first second) :
    front.compareLex cmp back = .lt ↔ List.Lex r front back := by
  induction front generalizing back with
  | nil =>
    cases back with
    | nil => simp [List.compareLex_nil_nil]
    | cons second back => simp [List.compareLex_nil_cons]
  | cons first front ih =>
    cases back with
    | nil => simp [List.compareLex_cons_nil]
    | cons second back =>
      rw [List.compareLex_cons_cons, Ordering.then_eq_lt, h, ih, LawfulEqCmp.compare_eq_iff_eq,
        List.cons_lex_cons_iff]

/-- A list with blanks behind it, up to a length. -/
def padded (blank : α) (length : Nat) (list : List α) : List α :=
  list ++ List.replicate (length - list.length) blank

theorem padded_cons (blank : α) (length : Nat) (first : α) (list : List α) :
    padded blank (length + 1) (first :: list) = first :: padded blank length list := by
  simp [padded]

section Padded

variable {blank : α} (hleast : ∀ x, (cmp blank x).isLE = true)
include hleast

/-- Blanks alone do not come behind anything that is padded to the same length. -/
theorem isLE_compareLex_padded_nil [ReflCmp cmp] (length : Nat) (back : List α) :
    ((padded blank length []).compareLex cmp (padded blank length back)).isLE = true := by
  induction length generalizing back with
  | zero => exact List.isLE_compareLex_nil_left
  | succ length ih =>
    cases back with
    | nil =>
      have hself : (padded blank (length + 1) []).compareLex cmp (padded blank (length + 1) []) =
          .eq := ReflCmp.compare_self
      rw [hself]
      rfl
    | cons second back =>
      rw [padded_cons]
      show (List.compareLex cmp (blank :: padded blank length []) _).isLE = true
      rw [List.compareLex_cons_cons]
      exact Ordering.isLE_then_iff_and.mpr ⟨hleast second, .inr (ih back)⟩

/-- A list that ends at once comes before one that does not: it is not greater anywhere, and it is
shorter. -/
theorem compareLex_padded_nil [ReflCmp cmp] (length : Nat) (second : α) (back : List α) :
    ((padded blank length []).compareLex cmp (padded blank length (second :: back))).then
      (compare 0 (second :: back).length) = .lt := by
  rw [Ordering.then_eq_lt]
  have hle := isLE_compareLex_padded_nil hleast length (second :: back)
  rcases Ordering.isLE_iff_eq_lt_or_eq_eq.mp hle with hlt | heq
  · exact .inl hlt
  · exact .inr ⟨heq, Nat.compare_eq_lt.mpr (Nat.succ_pos back.length)⟩

/-- Padded lists, and then the lengths, are compared as the lists are. -/
theorem compareLex_padded [OrientedCmp cmp] {length : Nat} (hfront : front.length ≤ length)
    (hback : back.length ≤ length) :
    ((padded blank length front).compareLex cmp (padded blank length back)).then
      (compare front.length back.length) = front.compareLex cmp back := by
  induction front generalizing back length with
  | nil =>
    cases back with
    | nil => simp [ReflCmp.compare_self]
    | cons second back => exact compareLex_padded_nil hleast length second back
  | cons first front ih =>
    cases back with
    | nil =>
      have hswap := congrArg Ordering.swap (compareLex_padded_nil hleast length first front)
      rw [Ordering.swap_then, ← OrientedCmp.eq_swap, ← OrientedCmp.eq_swap] at hswap
      exact hswap
    | cons second back =>
      cases length with
      | zero => exact absurd hfront (by simp)
      | succ length =>
        have hlengths : compare (first :: front).length (second :: back).length =
            compare front.length back.length := by
          simp [Nat.compare_eq_ite_lt]
        rw [padded_cons, padded_cons, List.compareLex_cons_cons, Ordering.then_assoc, hlengths,
          ih (Nat.le_of_succ_le_succ hfront) (Nat.le_of_succ_le_succ hback),
          List.compareLex_cons_cons]

end Padded

end Lists

/-! ## Bindings -/

namespace Bindings

/-- Few entries come before many; few among each other, and many, are in the order of lists. -/
def EntriesBefore (front back : List Binding) : Prop :=
  (front.length ≤ room ∧ room < back.length) ∨
    ((front.length ≤ room ↔ back.length ≤ room) ∧ List.Lex Binding.Before front back)

/-- Tells whether there are more entries than slots. -/
def areMany (entries : List Binding) : Bool := decide (room < entries.length)

/-- Few before many, and otherwise entry by entry. -/
def compareEntries : List Binding → List Binding → Ordering :=
  compareLex (compareOn areMany) (List.compareLex Binding.compare)

instance : TransCmp compareEntries :=
  inferInstanceAs (TransCmp (compareLex (compareOn areMany) (List.compareLex Binding.compare)))

instance : LawfulEqCmp compareEntries where
  eq_of_compare h := LawfulEqCmp.eq_of_compare (compareLex_eq_eq.mp h).2

theorem compareEntries_eq (front back : List Binding) :
    compareEntries front back =
      (Ord.compare (areMany front) (areMany back)).then
        (front.compareLex Binding.compare back) := rfl

theorem compareEntries_eq_lt_iff {front back : List Binding} :
    compareEntries front back = .lt ↔ EntriesBefore front back := by
  unfold EntriesBefore
  rw [compareEntries_eq, Ordering.then_eq_lt, compareLex_eq_lt_iff Binding.compare_eq_lt_iff]
  have hbools : Ord.compare false true = .lt := rfl
  by_cases hfront : front.length ≤ room
  · by_cases hback : back.length ≤ room
    · simp [areMany, hfront, hback, Nat.not_lt.mpr]
    · simp [areMany, hfront, hback, Nat.not_lt.mpr, Nat.not_le.mp hback, hbools]
  · by_cases hback : back.length ≤ room
    · simp [areMany, hfront, hback, Nat.not_lt.mpr, Nat.not_le.mp hfront]
    · simp [areMany, hfront, hback, Nat.not_le.mp hfront, Nat.not_le.mp hback]

section WellFormed

variable {b c : Bindings}

theorem areMany_inline {slots : Vector Binding room} {count : Nat}
    (h : (inline slots count).WellFormed) : areMany (inline slots count).toList = false := by
  unfold areMany
  rw [length_toList_inline h]
  exact decide_eq_false (Nat.not_lt.mpr h.1)

theorem areMany_spilled {entries : Array Binding} (h : (spilled entries).WellFormed) :
    areMany (spilled entries).toList = true :=
  decide_eq_true h.1

/-- The slots are the entries, padded with blanks. -/
theorem slots_eq_padded {slots : Vector Binding room} {count : Nat}
    (h : (inline slots count).WellFormed) :
    slots.toList = padded Binding.blank room (inline slots count).toList := by
  unfold padded
  rw [length_toList_inline h]
  exact slots_eq h

/-- Well-formed bindings are compared as their entries are. -/
theorem compare_eq_compareEntries (hb : b.WellFormed) (hc : c.WellFormed) :
    b.compare c = compareEntries b.toList c.toList := by
  rw [compareEntries_eq]
  cases b with
  | inline slots count =>
    cases c with
    | inline slots' count' =>
      have hlength := length_toList_inline hb
      have hlength' := length_toList_inline hc
      have hpadded := compareLex_padded Binding.isLE_compare_blank (hlength.trans_le hb.1)
        (hlength'.trans_le hc.1)
      rw [← slots_eq_padded hb, ← slots_eq_padded hc, hlength, hlength'] at hpadded
      rw [areMany_inline hb, areMany_inline hc, ← hpadded]
      rfl
    | spilled entries =>
      rw [areMany_inline hb, areMany_spilled hc]
      rfl
  | spilled entries =>
    cases c with
    | inline slots count =>
      rw [areMany_spilled hb, areMany_inline hc]
      rfl
    | spilled entries' =>
      rw [areMany_spilled hb, areMany_spilled hc]
      rfl

/-- One more entry at the end makes a list of entries come later. -/
theorem entriesBefore_concat (entries : List Binding) (entry : Binding) :
    EntriesBefore entries (entries ++ [entry]) := by
  have hlex : List.Lex Binding.Before entries (entries ++ [entry]) := by
    have hend := List.Lex.append_left Binding.Before (List.Lex.nil (a := entry) (l := [])) entries
    rwa [List.append_nil] at hend
  unfold EntriesBefore
  rw [List.length_append, List.length_singleton]
  by_cases hfew : entries.length ≤ room
  · by_cases hstill : entries.length + 1 ≤ room
    · exact .inr ⟨⟨fun _ => hstill, fun _ => hfew⟩, hlex⟩
    · exact .inl ⟨hfew, Nat.not_le.mp hstill⟩
  · exact .inr ⟨⟨fun h => absurd h hfew, fun h => absurd (Nat.le_of_succ_le h) hfew⟩, hlex⟩

/-- A new name makes well-formed bindings greater. -/
theorem compare_insert (h : b.WellFormed) {name : String}
    (hnew : name ∉ b.toList.map Binding.name) (value : String) :
    b.compare (b.insert name value) = .lt := by
  rw [compare_eq_compareEntries h (wellFormed_insert h name value), toList_insert h,
    put_of_not_mem hnew, compareEntries_eq_lt_iff]
  exact entriesBefore_concat b.toList ⟨name, value⟩

end WellFormed

/-- Whatever pairs have come in: bindings come before others exactly if their entries do, few before
many and otherwise in the order of lists; they are equal in the order exactly if they are the same;
turned round, the comparison is turned round, and it is transitive; and a name that has not come in
yet makes them greater. -/
theorem compare_ofList (pairs others more : List (String × String)) :
    ((ofList pairs).compare (ofList others) = .lt ↔
        EntriesBefore (ofList pairs).iter.all (ofList others).iter.all) ∧
      ((ofList pairs).compare (ofList others) = .eq ↔ (ofList pairs == ofList others) = true) ∧
      (ofList others).compare (ofList pairs) = ((ofList pairs).compare (ofList others)).swap ∧
      (((ofList pairs).compare (ofList others)).isLE = true →
        ((ofList others).compare (ofList more)).isLE = true →
        ((ofList pairs).compare (ofList more)).isLE = true) ∧
      ∀ name value, name ∉ pairs.map Prod.fst →
        (ofList pairs).compare ((ofList pairs).insert name value) = .lt := by
  have hpairs := wellFormed_ofList pairs
  have hothers := wellFormed_ofList others
  have hmore := wellFormed_ofList more
  rw [compare_eq_compareEntries hpairs hothers, compare_eq_compareEntries hothers hpairs,
    compare_eq_compareEntries hothers hmore, compare_eq_compareEntries hpairs hmore,
    Iter.all_eq_rest, Iter.all_eq_rest]
  refine ⟨compareEntries_eq_lt_iff, ?_, OrientedCmp.eq_swap, TransCmp.isLE_trans, ?_⟩
  · rw [LawfulEqCmp.compare_eq_iff_eq, beq_iff_eq]
    refine ⟨eq_of_toList_eq hpairs hothers, ?_⟩
    intro h
    rw [h]
  · intro name value hnew
    apply compare_insert hpairs
    rw [map_name_ofList, List.mem_eraseDups]
    exact hnew

/-- An entry that is the same as a blank slot counts, and four entries come behind any three. -/
theorem compare_ofList_blank :
    (ofList [("", "")]).compare ((ofList [("", "")]).insert "b" "1") = .lt ∧
      ((ofList []).compare (ofList [("", "")])).isLE = true ∧
      ((ofList [("", "")]).compare
        (ofList [("", "1"), ("a", "2"), ("b", "3"), ("c", "4")])).isLE = true ∧
      ((ofList []).compare
        (ofList [("", "1"), ("a", "2"), ("b", "3"), ("c", "4")])).isLE = true := by
  obtain ⟨-, -, -, htrans, -⟩ := compare_ofList [] [("", "")]
    [("", "1"), ("a", "2"), ("b", "3"), ("c", "4")]
  obtain ⟨-, -, -, -, hnew⟩ := compare_ofList [("", "")] [] []
  have hfirst : ((ofList []).compare (ofList [("", "")])).isLE = true := by decide
  have hsecond : ((ofList [("", "")]).compare
      (ofList [("", "1"), ("a", "2"), ("b", "3"), ("c", "4")])).isLE = true := by decide
  exact ⟨hnew "b" "1" (by decide), hfirst, hsecond, htrans hfirst hsecond⟩

end Bindings

end PathTemplate
