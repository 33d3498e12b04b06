import Mathlib.Data.List.Nodup
import PathTemplate.Bindings.Iter
import PathTemplate.Proofs.Entries

/-!
# Bindings as a map that keeps its order

What can be seen of bindings is told by the pairs that came in, in order, and by nothing else.  A
name stands where it first came in and has the value that it last came in with (`LastUnder`); how
the entries are kept does not show.

Two facts about well-formed bindings carry this.  Names are distinct, so what is found under a name
is the only entry of that name (`mem_toList_iff`).  And unused slots are blank, so bindings with the
same entries are the same bindings (`eq_of_toList_eq`), whatever came in on the way.

> `ofList_observed`: the entries one by one, the value under a name, the size and the map without
> order are those of the pairs, for any list of pairs.

The map without order is filled front to back and keeps the last of several values, while `get?`
takes the first entry of a name; that both find the same is again a matter of distinct names
(`getElem?_toMap`).
-/

namespace PathTemplate

/-- Of the pairs that have the name, the last one has the value. -/
def LastUnder (pairs : List (String × String)) (name value : String) : Prop :=
  ∃ front back, pairs = front ++ (name, value) :: back ∧ name ∉ back.map Prod.fst

/-- A search from the back finds the last pair with a name. -/
theorem map_findRev?_eq_some_iff {pairs : List (String × String)} {name value : String} :
    (pairs.findRev? (·.1 = name)).map Prod.snd = some value ↔ LastUnder pairs name value := by
  rw [List.findRev?_eq_find?_reverse, Option.map_eq_some_iff]
  refine ⟨?_, ?_⟩
  · intro ⟨pair, hfind, hvalue⟩
    obtain ⟨hname, behind, before, hsplit, hnone⟩ := List.find?_eq_some_iff_append.mp hfind
    have hpair : pair = (name, value) := Prod.ext (by simpa using hname) hvalue
    refine ⟨before.reverse, behind.reverse, ?_, ?_⟩
    · rw [← List.reverse_reverse pairs, hsplit, hpair]
      simp
    · intro hmem
      obtain ⟨other, hother, hsame⟩ := List.mem_map.mp hmem
      exact absurd hsame (by simpa using hnone other (List.mem_reverse.mp hother))
  · intro ⟨front, back, hsplit, hlast⟩
    refine ⟨(name, value), List.find?_eq_some_iff_append.mpr
      ⟨by simp, back.reverse, front.reverse, by rw [hsplit]; simp, ?_⟩, rfl⟩
    intro other hother
    have hne : other.1 ≠ name := fun hsame =>
      hlast (hsame ▸ List.mem_map_of_mem (List.mem_reverse.mp hother))
    simp [hne]

theorem Binding.pair_injective : Function.Injective Binding.pair := by
  intro first second h
  cases first
  cases second
  cases h
  rfl

namespace Bindings

/-! ## What the entries say -/

section WellFormed

variable {b c : Bindings}

theorem map_fst_pair (b : Bindings) :
    (b.toList.map Binding.pair).map Prod.fst = b.toList.map Binding.name := by
  rw [List.map_map]
  rfl

/-- The entry that is found under a name is the only one of its name. -/
theorem mem_toList_iff (h : b.WellFormed) {entry : Binding} :
    entry ∈ b.toList ↔ b.get? entry.name = some entry.value := by
  unfold get?
  rw [Option.map_eq_some_iff]
  refine ⟨?_, ?_⟩
  · intro hmem
    cases hfind : b.toList.find? (·.name = entry.name) with
    | none => exact absurd (List.find?_eq_none.mp hfind entry hmem) (by simp)
    | some found =>
      have hname : found.name = entry.name := by simpa using List.find?_some hfind
      have hsame : found = entry := List.inj_on_of_nodup_map (nodup_names h)
        (List.mem_of_find?_eq_some hfind) hmem hname
      exact ⟨found, rfl, congrArg Binding.value hsame⟩
  · intro ⟨found, hfind, hvalue⟩
    have hname : found.name = entry.name := by simpa using List.find?_some hfind
    have hsame : found = entry := Binding.pair_injective (Prod.ext hname hvalue)
    exact hsame ▸ List.mem_of_find?_eq_some hfind

/-- The entries are the names, each with the value that is found under it. -/
theorem toList_eq_map (h : b.WellFormed) :
    b.toList = (b.toList.map Binding.name).map fun name => ⟨name, (b.get? name).getD ""⟩ := by
  rw [List.map_map, List.map_congr_left (g := id), List.map_id]
  intro entry hmem
  show (⟨entry.name, (b.get? entry.name).getD ""⟩ : Binding) = entry
  rw [(mem_toList_iff h).mp hmem]
  rfl

theorem length_toList_inline {slots : Vector Binding room} {count : Nat}
    (h : (inline slots count).WellFormed) : (inline slots count).toList.length = count := by
  show (slots.toList.take count).length = count
  rw [List.length_take, Vector.length_toList]
  exact Nat.min_eq_left h.1

/-- The slots are the entries and blanks behind them. -/
theorem slots_eq {slots : Vector Binding room} {count : Nat}
    (h : (inline slots count).WellFormed) :
    slots.toList = (inline slots count).toList ++ List.replicate (room - count) Binding.blank := by
  have hblank : slots.toList.drop count = List.replicate (room - count) Binding.blank := by
    rw [List.eq_replicate_iff]
    exact ⟨by simp, h.2.2⟩
  rw [← hblank]
  exact (List.take_append_drop count slots.toList).symm

/-- Entries in slots are too few for an array of their own. -/
theorem toList_inline_ne_spilled {slots : Vector Binding room} {count : Nat}
    {entries : Array Binding} (hb : (inline slots count).WellFormed)
    (hc : (spilled entries).WellFormed) :
    (inline slots count).toList ≠ (spilled entries).toList := by
  intro h
  have hlen := congrArg List.length h
  rw [length_toList_inline hb] at hlen
  have hfew : count ≤ room := hb.1
  have hmany : room < entries.size := hc.1
  simp only [toList, Array.length_toList] at hlen
  omega

/-- Bindings with the same entries are the same bindings. -/
theorem eq_of_toList_eq (hb : b.WellFormed) (hc : c.WellFormed) (h : b.toList = c.toList) :
    b = c := by
  cases b with
  | inline slots count =>
    cases c with
    | inline slots' count' =>
      have hcount : count = count' := by
        rw [← length_toList_inline hb, h, length_toList_inline hc]
      have hslots : slots.toList = slots'.toList := by
        rw [slots_eq hb, slots_eq hc, h, hcount]
      rw [Vector.toList_inj.mp hslots, hcount]
    | spilled entries => exact absurd h (toList_inline_ne_spilled hb hc)
  | spilled entries =>
    cases c with
    | inline slots count => exact absurd h.symm (toList_inline_ne_spilled hc hb)
    | spilled entries' => rw [Array.toList_inj.mp h]

/-- Bindings with the same names in the same order and the same value under each are the same
bindings. -/
theorem eq_of_get?_eq (hb : b.WellFormed) (hc : c.WellFormed)
    (hnames : b.toList.map Binding.name = c.toList.map Binding.name)
    (hget : ∀ name, b.get? name = c.get? name) : b = c := by
  apply eq_of_toList_eq hb hc
  rw [toList_eq_map hb, toList_eq_map hc, hnames]
  simp only [hget]

end WellFormed

/-! ## Pairs with different names -/

/-- An entry with a new name goes to the end. -/
theorem put_of_not_mem {entry : Binding} {entries : List Binding}
    (h : entry.name ∉ entries.map Binding.name) : put entry entries = entries ++ [entry] := by
  apply put_of_findIdx?_none
  rw [List.findIdx?_eq_none_iff]
  intro other hother
  have hne : other.name ≠ entry.name := fun hname => h (hname ▸ List.mem_map_of_mem hother)
  simpa using hne

/-- Pairs with different names become entries as they are. -/
theorem toList_ofList_of_nodup {pairs : List (String × String)} (h : (pairs.map Prod.fst).Nodup) :
    (ofList pairs).toList.map Binding.pair = pairs := by
  induction pairs using List.reverseRecOn with
  | nil => rfl
  | append_singleton pairs pair ih =>
    rw [List.map_append, List.nodup_append] at h
    have hnew : pair.1 ∉ (ofList pairs).toList.map Binding.name := by
      rw [map_name_ofList, List.mem_eraseDups]
      exact fun hmem => h.2.2 pair.1 hmem pair.1 (by simp) rfl
    rw [toList_ofList_concat, put_of_not_mem hnew, List.map_append, ih h.1]
    rfl

/-- Put in once more, the entries of bindings make the same bindings. -/
theorem ofList_toList {b : Bindings} (h : b.WellFormed) :
    ofList (b.toList.map Binding.pair) = b := by
  have hnodup : ((b.toList.map Binding.pair).map Prod.fst).Nodup := by
    rw [map_fst_pair]
    exact nodup_names h
  exact eq_of_toList_eq (wellFormed_ofList _) h
    (List.map_injective_iff.mpr Binding.pair_injective (toList_ofList_of_nodup hnodup))

/-! ## The map without order -/

/-- A map that is filled with pairs in order has the last value of each name. -/
theorem getElem?_hashMap_ofList (pairs : List (String × String)) (name : String) :
    (Std.HashMap.ofList pairs)[name]? = (pairs.findRev? (·.1 = name)).map Prod.snd := by
  induction pairs using List.reverseRecOn with
  | nil => rw [Std.HashMap.ofList_nil, Std.HashMap.getElem?_empty]; rfl
  | append_singleton pairs pair ih =>
    rw [Std.HashMap.ofList_eq_insertMany_empty, Std.HashMap.insertMany_append,
      Std.HashMap.insertMany_list_singleton, ← Std.HashMap.ofList_eq_insertMany_empty,
      Std.HashMap.getElem?_insert, ih, map_findRev?_concat]
    simp only [beq_iff_eq]

/-- The map without order has the same value under each name. -/
theorem getElem?_toMap {b : Bindings} (h : b.WellFormed) (name : String) :
    b.toMap[name]? = b.get? name := by
  rw [toMap, getElem?_hashMap_ofList, ← get?_ofList, ofList_toList h]

/-- The map without order has the same entries. -/
theorem toList_toMap_perm {b : Bindings} (h : b.WellFormed) :
    b.toMap.toList.Perm (b.toList.map Binding.pair) := by
  have hmap : b.toMap.toList.Nodup := by
    refine (Std.HashMap.distinct_keys_toList (m := b.toMap)).imp ?_
    intro first second hne heq
    rw [heq] at hne
    exact absurd hne (by simp)
  have hlist : (b.toList.map Binding.pair).Nodup :=
    ((nodup_names h).of_map Binding.name).map Binding.pair_injective
  rw [List.perm_ext_iff_of_nodup hmap hlist]
  intro pair
  obtain ⟨entry, rfl⟩ : ∃ entry : Binding, entry.pair = pair := ⟨⟨pair.1, pair.2⟩, rfl⟩
  rw [List.mem_map_of_injective Binding.pair_injective, mem_toList_iff h, ← getElem?_toMap h]
  exact Std.HashMap.mem_toList_iff_getElem?_eq_some

/-! ## What the pairs say -/

theorem get?_ofList_eq_some_iff {pairs : List (String × String)} {name value : String} :
    (ofList pairs).get? name = some value ↔ LastUnder pairs name value := by
  rw [get?_ofList, map_findRev?_eq_some_iff]

theorem get?_ofList_eq_none_iff {pairs : List (String × String)} {name : String} :
    (ofList pairs).get? name = none ↔ name ∉ pairs.map Prod.fst := by
  rw [get?_ofList, Option.map_eq_none_iff, List.findRev?_eq_find?_reverse, List.find?_eq_none]
  refine ⟨?_, ?_⟩
  · intro hnone hmem
    obtain ⟨pair, hpair, hname⟩ := List.mem_map.mp hmem
    exact absurd hname (by simpa using hnone pair (List.mem_reverse.mpr hpair))
  · intro hnew pair hpair
    have hne : pair.1 ≠ name := fun hname =>
      hnew (hname ▸ List.mem_map_of_mem (List.mem_reverse.mp hpair))
    simpa using hne

/-- Whatever pairs come in: going through the entries one by one shows each name once, in the order
in which the names first came in, with its last value; under a name is its last value, if it came in
at all; the size is the number of different names; and the map without order has just these
entries. -/
theorem ofList_observed (pairs : List (String × String)) :
    (ofList pairs).iter.all.map Binding.name = (pairs.map Prod.fst).eraseDups ∧
      (∀ entry, entry ∈ (ofList pairs).iter.all ↔ LastUnder pairs entry.name entry.value) ∧
      (∀ name value, (ofList pairs).get? name = some value ↔ LastUnder pairs name value) ∧
      (∀ name, (ofList pairs).get? name = none ↔ name ∉ pairs.map Prod.fst) ∧
      (ofList pairs).size = (pairs.map Prod.fst).eraseDups.length ∧
      ((ofList pairs).isEmpty = true ↔ pairs = []) ∧
      (ofList pairs).toMap.toList.Perm ((ofList pairs).iter.all.map Binding.pair) ∧
      ∀ name, (ofList pairs).toMap[name]? = (ofList pairs).get? name := by
  have hwell := wellFormed_ofList pairs
  have hall : (ofList pairs).iter.all = (ofList pairs).toList := Iter.all_eq_rest _
  rw [hall]
  refine ⟨map_name_ofList pairs, ?_, fun name value => get?_ofList_eq_some_iff,
    fun name => get?_ofList_eq_none_iff, size_ofList pairs, ?_, toList_toMap_perm hwell,
    getElem?_toMap hwell⟩
  · intro entry
    rw [mem_toList_iff hwell, get?_ofList_eq_some_iff]
  · rw [isEmpty_ofList, List.isEmpty_iff]

/-- The fourth name ends the use of slots; an empty name is a name, and keeps its place. -/
example : (ofList [("", "1"), ("b", "2"), ("c", "3"), ("b", "4"), ("d", "5"), ("", "6")]).toList =
    [⟨"", "6"⟩, ⟨"b", "4"⟩, ⟨"c", "3"⟩, ⟨"d", "5"⟩] := by
  decide

end Bindings

end PathTemplate
