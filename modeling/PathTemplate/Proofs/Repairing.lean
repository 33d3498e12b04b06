import Mathlib.Data.List.Perm.Subperm
import PathTemplate.Proofs.OrderedMap
import PathTemplate.Proofs.Outcomes

/-!
# Repairing: supplying what is missing

A route reports the first placeholder that a source lacks a value for.  Where a value is supplied
for it (`Source.Repairs`), everything that comes before it is still there, and so is it, wherever it
stands again.  What is reported next, if anything, therefore first stands behind it
(`idxOf_lt_of_repairs`).

This goes on round after round (`Reports`).  After each the source lacks what it lacked at first but
for what has been reported (`lacks_iff_of_reports`), so nothing is reported twice, and as only names
of the template are reported, the rounds come to an end.

> `expandWith_repaired`: a reported name is a name of the template, and with a value for it there is
> a path, or a name is reported that first stands behind it; and whatever values are supplied, there
> is a path after at most as many rounds as the template has different names, each of which reported
> another name.
-/

namespace PathTemplate

namespace Source

/-- The next source has a value under the name, one that is not empty, and differs in nothing
else. -/
structure Repairs (source : Source) (name : String) (next : Source) : Prop where
  supplied : ∃ value, next.lookup? name = some value ∧ value ≠ ""
  others : ∀ other, other ≠ name → next.lookup? other = source.lookup? other
  isEmpty_eq : next.isEmpty = source.isEmpty

variable {source next : Source} {name : String}

/-- What is lacking after a repair was lacking before, and is another name. -/
theorem Repairs.lacks_iff (h : source.Repairs name next) {other : String} :
    next.Lacks other ↔ source.Lacks other ∧ other ≠ name := by
  by_cases hother : other = name
  · subst hother
    have hnot := not_lacks_iff.mpr h.supplied
    simp [hnot]
  · unfold Lacks
    rw [h.others other hother]
    simp [hother]

/-- One more pair at the end supplies its value. -/
theorem repairs_ofPairs_concat {pairs : List (String × String)} (hpairs : pairs ≠ [])
    {value : String} (hvalue : value ≠ "") :
    (ofPairs pairs).Repairs name (ofPairs (pairs ++ [(name, value)])) := by
  refine ⟨⟨value, ?_, hvalue⟩, ?_, ?_⟩
  · show ((pairs ++ [(name, value)]).findRev? (·.1 = name)).map Prod.snd = some value
    rw [Bindings.map_findRev?_concat, if_pos rfl]
  · intro other hother
    show ((pairs ++ [(name, value)]).findRev? (·.1 = other)).map Prod.snd =
      (pairs.findRev? (·.1 = other)).map Prod.snd
    rw [Bindings.map_findRev?_concat, if_neg hother.symm]
  · show (pairs ++ [(name, value)]).isEmpty = pairs.isEmpty
    cases pairs with
    | nil => exact absurd rfl hpairs
    | cons pair pairs => rfl

/-- If the first lacking name is no longer lacking, the first one that is stands behind it. -/
theorem idxOf_lt_of_repairs (h : source.Repairs name next) {names : List String} {later : String}
    (hname : names.find? (source.Lacks ·) = some name)
    (hlater : names.find? (next.Lacks ·) = some later) :
    names.idxOf name < names.idxOf later := by
  have hlacks : source.Lacks later ∧ later ≠ name :=
    h.lacks_iff.mp (by simpa using List.find?_some hlater)
  induction names with
  | nil => exact absurd hname (by simp)
  | cons first names ih =>
    by_cases hfirst : source.Lacks first
    · -- the first name was reported, and the next one stands behind it
      rw [List.find?_cons_of_pos (by simpa using hfirst), Option.some.injEq] at hname
      rw [hname, List.idxOf_cons_self, List.idxOf_cons_ne _ hlacks.2.symm]
      exact Nat.succ_pos _
    · have hstill : ¬ next.Lacks first := fun hnext => hfirst (h.lacks_iff.mp hnext).1
      rw [List.find?_cons_of_neg (by simpa using hfirst)] at hname
      rw [List.find?_cons_of_neg (by simpa using hstill)] at hlater
      have hne : first ≠ name := by
        intro hE
        exact hfirst (by simpa [hE] using List.find?_some hname)
      have hne' : first ≠ later := by
        intro hE
        exact hfirst (hE ▸ hlacks.1)
      rw [List.idxOf_cons_ne _ hne, List.idxOf_cons_ne _ hne']
      exact Nat.succ_lt_succ (ih hname hlater)

end Source

namespace Route

/-- Round after round the route reports these names, from one source after the other. -/
def Reports (r : Route) (sources : Nat → Source) (reported : List String) : Prop :=
  ∀ k name, reported[k]? = some name →
    (r.expandWith (sources k)).result = .error (.missing name r.template)

variable {r : Route} {source next : Source} {sources : Nat → Source} {reported : List String}
  {name : String}

/-- The name that a route reports is the first of its names that the source lacks. -/
theorem expandWith_eq_missing_iff_find? (hdynamic : r.isStatic = false)
    (hempty : source.isEmpty = false) :
    (r.expandWith source).result = .error (.missing name r.template) ↔
      r.names.find? (source.Lacks ·) = some name := by
  rw [expandWith_eq_missing_iff hdynamic hempty, Segment.fillAll_eq_error_iff, ← names_eq]

/-- Where values are asked for, there is a path, or the first lacking name is reported. -/
theorem ok_or_missing (hdynamic : r.isStatic = false) (hempty : source.isEmpty = false) :
    (∃ path, (r.expandWith source).result = .ok path) ∨
      ∃ name, (r.expandWith source).result = .error (.missing name r.template) := by
  cases hfind : r.names.find? (source.Lacks ·) with
  | some name =>
    exact .inr ⟨name, (expandWith_eq_missing_iff_find? hdynamic hempty).mpr hfind⟩
  | none =>
    have hall := Source.find?_lacks_eq_none_iff.mp hfind
    rw [names_eq] at hall
    exact .inl ⟨_, (expandWith_eq_ok_iff hdynamic hempty).mpr
      (Segment.fillAll_eq_ok_iff.mpr ⟨hall, rfl⟩)⟩

/-- With a value for the reported name there is a path, or a later name is reported. -/
theorem ok_or_missing_later (hdynamic : r.isStatic = false) (hempty : source.isEmpty = false)
    (hmissing : (r.expandWith source).result = .error (.missing name r.template))
    (hrepairs : source.Repairs name next) :
    (∃ path, (r.expandWith next).result = .ok path) ∨
      ∃ later ∈ r.names, (r.expandWith next).result = .error (.missing later r.template) ∧
        r.names.idxOf name < r.names.idxOf later := by
  have hnext : next.isEmpty = false := hrepairs.isEmpty_eq.trans hempty
  have hname := (expandWith_eq_missing_iff_find? hdynamic hempty).mp hmissing
  rcases ok_or_missing hdynamic hnext with hok | ⟨later, hlater⟩
  · exact .inl hok
  · have hfind := (expandWith_eq_missing_iff_find? hdynamic hnext).mp hlater
    exact .inr ⟨later, List.mem_of_find?_eq_some hfind, hlater,
      Source.idxOf_lt_of_repairs hrepairs hname hfind⟩

/-- Reporting a list of names and one more is reporting the list, and then the one. -/
theorem reports_concat_iff :
    r.Reports sources (reported ++ [name]) ↔ r.Reports sources reported ∧
      (r.expandWith (sources reported.length)).result = .error (.missing name r.template) := by
  refine ⟨?_, ?_⟩
  · intro h
    refine ⟨?_, h _ _ List.getElem?_concat_length⟩
    intro k other hother
    have hlt : k < reported.length := (List.getElem?_eq_some_iff.mp hother).1
    exact h k other (by rw [List.getElem?_append_left hlt, hother])
  · intro ⟨h, hlast⟩ k other hother
    have hsplit : reported[k]? = some other ∨ k = reported.length ∧ name = other := by
      grind
    rcases hsplit with hother | ⟨rfl, rfl⟩
    · exact h k other hother
    · exact hlast

section Rounds

variable (hdynamic : r.isStatic = false) (hempty : (sources 0).isEmpty = false)
  (hrepairs : ∀ k name, (r.expandWith (sources k)).result = .error (.missing name r.template) →
    (sources k).Repairs name (sources (k + 1)))
include hrepairs

/-- The last round repairs what it reports. -/
theorem repairs_of_reports (h : r.Reports sources (reported ++ [name])) :
    (sources reported.length).Repairs name (sources (reported ++ [name]).length) := by
  rw [List.length_append, List.length_singleton]
  exact hrepairs reported.length name (reports_concat_iff.mp h).2

/-- After the rounds, what has been reported is no longer lacking, and all else is as it was. -/
theorem lacks_iff_of_reports (h : r.Reports sources reported) {other : String} :
    (sources reported.length).Lacks other ↔ (sources 0).Lacks other ∧ other ∉ reported := by
  induction reported using List.reverseRecOn with
  | nil => simp
  | append_singleton reported name ih =>
    have hbefore := ih (reports_concat_iff.mp h).1
    rw [(repairs_of_reports hrepairs h).lacks_iff, hbefore]
    simp [and_assoc]

include hempty

/-- After the rounds the source still has something. -/
theorem isEmpty_of_reports (h : r.Reports sources reported) :
    (sources reported.length).isEmpty = false := by
  induction reported using List.reverseRecOn with
  | nil => exact hempty
  | append_singleton reported name ih =>
    have hbefore := ih (reports_concat_iff.mp h).1
    exact (repairs_of_reports hrepairs h).isEmpty_eq.trans hbefore

include hdynamic

/-- What is reported are names of the template, and none of them twice. -/
theorem nodup_of_reports (h : r.Reports sources reported) :
    reported.Nodup ∧ ∀ name ∈ reported, name ∈ r.names := by
  induction reported using List.reverseRecOn with
  | nil => simp
  | append_singleton reported name ih =>
    obtain ⟨hreported, hname⟩ := reports_concat_iff.mp h
    obtain ⟨hnodup, hnames⟩ := ih hreported
    have hfind := (expandWith_eq_missing_iff_find? hdynamic
      (isEmpty_of_reports hempty hrepairs hreported)).mp hname
    -- what is lacking now has not been reported before
    have hlacks : (sources reported.length).Lacks name := by simpa using List.find?_some hfind
    have hnew : name ∉ reported := ((lacks_iff_of_reports hrepairs hreported).mp hlacks).2
    have hne : ∀ other ∈ reported, other ≠ name := fun other hother hE => hnew (hE ▸ hother)
    refine ⟨List.nodup_append.mpr ⟨hnodup, by simp, by simpa using hne⟩, ?_⟩
    intro other hother
    rcases List.mem_append.mp hother with hother | hother
    · exact hnames other hother
    · rw [List.mem_singleton.mp hother]
      exact List.mem_of_find?_eq_some hfind

/-- There are at most as many rounds as the template has different names. -/
theorem length_le_of_reports (h : r.Reports sources reported) :
    reported.length ≤ r.names.eraseDups.length := by
  obtain ⟨hnodup, hnames⟩ := nodup_of_reports hdynamic hempty hrepairs h
  refine hnodup.length_le_of_subset ?_
  intro name hname
  exact List.mem_eraseDups.mpr (hnames name hname)

/-- Rounds go on until there is a path. -/
theorem exists_ok_or_reports (bound : Nat) :
    ∃ reported, r.Reports sources reported ∧
      ((∃ path, (r.expandWith (sources reported.length)).result = .ok path) ∨
        reported.length = bound) := by
  induction bound with
  | zero => exact ⟨[], by simp [Reports], .inr rfl⟩
  | succ bound ih =>
    obtain ⟨reported, hreported, hok | hlength⟩ := ih
    · exact ⟨reported, hreported, .inl hok⟩
    · rcases ok_or_missing hdynamic (isEmpty_of_reports hempty hrepairs hreported) with
        hok | ⟨name, hname⟩
      · exact ⟨reported, hreported, .inl hok⟩
      · refine ⟨reported ++ [name], reports_concat_iff.mpr ⟨hreported, hname⟩, .inr ?_⟩
        rw [List.length_append, List.length_singleton, hlength]

end Rounds

/-- A reported name is one of the template, and with a value for it there is a path, or a name that
first stands behind it is reported.  However the values are supplied, there is a path after at most
as many rounds as the template has different names, and no name is reported twice. -/
theorem expandWith_repaired (r : Route) (hdynamic : r.isStatic = false) (source : Source)
    (hempty : source.isEmpty = false) :
    (∀ name, (r.expandWith source).result = .error (.missing name r.template) →
      name ∈ r.names ∧ ∀ next, source.Repairs name next →
        (∃ path, (r.expandWith next).result = .ok path) ∨
          ∃ later ∈ r.names, (r.expandWith next).result = .error (.missing later r.template) ∧
            r.names.idxOf name < r.names.idxOf later) ∧
    ∀ sources : Nat → Source, sources 0 = source →
      (∀ k name, (r.expandWith (sources k)).result = .error (.missing name r.template) →
        (sources k).Repairs name (sources (k + 1))) →
      ∃ reported, r.Reports sources reported ∧ reported.Nodup ∧
        reported.length ≤ r.names.eraseDups.length ∧
        ∃ path, (r.expandWith (sources reported.length)).result = .ok path := by
  refine ⟨?_, ?_⟩
  · intro name hmissing
    have hfind := (expandWith_eq_missing_iff_find? hdynamic hempty).mp hmissing
    refine ⟨List.mem_of_find?_eq_some hfind, ?_⟩
    intro next hrepairs
    exact ok_or_missing_later hdynamic hempty hmissing hrepairs
  · intro sources hstart hrepairs
    subst hstart
    obtain ⟨reported, hreported, hend⟩ :=
      exists_ok_or_reports hdynamic hempty hrepairs (r.names.eraseDups.length + 1)
    have hlength := length_le_of_reports hdynamic hempty hrepairs hreported
    have hnodup := (nodup_of_reports hdynamic hempty hrepairs hreported).1
    refine ⟨reported, hreported, hnodup, hlength, ?_⟩
    -- more rounds than names cannot have been
    rcases hend with hok | htoo
    · exact hok
    · omega

/-- Something at first, and from round to round a value for one more placeholder. -/
def supplied (k : Nat) : Source :=
  .ofPairs ([("c", "3"), ("a", "1"), ("b", "2")].take (k + 1))

/-- Two placeholders, one of them twice: the first is reported, then the other one, and that is
all. -/
theorem expandWith_repaired_dashed :
    "a" ∈ dashed.names ∧
      (∃ later ∈ dashed.names,
        (dashed.expandWith (supplied 1)).result = .error (.missing later dashed.template) ∧
          dashed.names.idxOf "a" < dashed.names.idxOf later) ∧
      ∃ reported, dashed.Reports supplied reported ∧ reported.Nodup ∧ reported.length ≤ 2 ∧
        ∃ path, (dashed.expandWith (supplied reported.length)).result = .ok path := by
  have hdynamic : dashed.isStatic = false := by decide +kernel
  have hfirst : (dashed.expandWith (supplied 0)).result =
      .error (.missing "a" dashed.template) := by decide +kernel
  have hsecond : (dashed.expandWith (supplied 1)).result =
      .error (.missing "b" dashed.template) := by decide +kernel
  have hrepairs : ∀ k name,
      (dashed.expandWith (supplied k)).result = .error (.missing name dashed.template) →
        (supplied k).Repairs name (supplied (k + 1)) := by
    intro k name hmissing
    match k with
    | 0 =>
      obtain rfl : "a" = name := by simpa using hfirst.symm.trans hmissing
      exact Source.repairs_ofPairs_concat (by simp) (by decide)
    | 1 =>
      obtain rfl : "b" = name := by simpa using hsecond.symm.trans hmissing
      exact Source.repairs_ofPairs_concat (by simp) (by decide)
    | k + 2 =>
      have hthird : (dashed.expandWith (supplied (k + 2))).result = .ok "/1-2/1" := by
        have hall : supplied (k + 2) = supplied 2 := by simp [supplied]
        rw [hall]
        decide +kernel
      exact absurd (hthird.symm.trans hmissing) (by simp)
  obtain ⟨hreported, hrounds⟩ := expandWith_repaired dashed hdynamic (supplied 0) rfl
  obtain ⟨hname, hnext⟩ := hreported "a" hfirst
  refine ⟨hname, ?_, ?_⟩
  · rcases hnext (supplied 1) (hrepairs 0 "a" hfirst) with ⟨path, hpath⟩ | hlater
    · exact absurd (hsecond.symm.trans hpath) (by simp)
    · exact hlater
  · have htwo : dashed.names.eraseDups.length = 2 := by decide +kernel
    obtain ⟨reported, hreports, hnodup, hlength, hpath⟩ := hrounds supplied rfl hrepairs
    exact ⟨reported, hreports, hnodup, htwo ▸ hlength, hpath⟩

end Route

end PathTemplate
