import PathTemplate.Proofs.Numbering
import PathTemplate.Proofs.Reading

/-!
# Places: where the placeholders of a text stand

A placeholder of a text is a matter of its characters alone: braces at both ends and a name between
them (`PlaceholderAt`).  Two of them never overlap, since a name has no brace, so they stand in a
row, and each brace belongs to one of them at most.

The reading of a text finds all of them.  Of the moves of `Segment.readChars` only two are left when
looked at from outside: where a placeholder stands at the head of the text it is read as one
(`readChars_placeholder`), and everywhere else one character is literal
(`readChars_of_not_placeholderAt`), whatever the scan does to find that out.  `readChars_induction`
is induction over these two moves, and what it carries is that no placeholder opens in the
characters in hand.

> `scan_eq_divide`: the placeholders of a reading stand at all the places where the text has one, in
> order and numbered in order, its names are what stands there, and its literals are what is left
> between these places.
-/

namespace PathTemplate

/-! ## Parts of a text -/

section Extract

variable {text : List Char} {i e k : Nat}

theorem getElem?_extract :
    (text.extract i e)[k]? = if i + k < e then text[i + k]? else none := by
  rw [List.extract_eq_take_drop, List.getElem?_take, List.getElem?_drop]
  by_cases h : i + k < e
  · rw [if_pos h, if_pos (by omega)]
  · rw [if_neg h, if_neg (by omega)]

theorem length_extract (h : e ≤ text.length) : (text.extract i e).length = e - i := by
  rw [List.extract_eq_take_drop, List.length_take, List.length_drop]
  omega

theorem extract_append_drop (h : i ≤ e) : text.extract i e ++ text.drop e = text.drop i := by
  have hback : text.drop e = (text.drop i).drop (e - i) := by
    rw [List.drop_drop, Nat.add_sub_cancel' h]
  rw [List.extract_eq_take_drop, hback, List.take_append_drop]

/-- Between the ends of its middle part, a text has its middle part. -/
theorem extract_append (front middle back : List Char) :
    (front ++ middle ++ back).extract front.length (front ++ middle).length = middle := by
  simp

theorem drop_eq_cons_of_getElem? {c : Char} (h : text[i]? = some c) :
    text.drop i = c :: text.drop (i + 1) := by
  obtain ⟨hi, hc⟩ := List.getElem?_eq_some_iff.mp h
  rw [List.drop_eq_getElem_cons hi, hc]

end Extract

/-! ## Placeholders of a text -/

section PlaceholderAt

variable {text : List Char} {i e j f : Nat}

/-- Between the braces of a placeholder stand its characters, as many as the indices say. -/
theorem length_extract_of_placeholderAt (h : PlaceholderAt text i e) :
    (text.extract (i + 1) e).length = e - (i + 1) :=
  length_extract (Nat.le_of_lt (List.getElem?_eq_some_iff.mp h.closing).1)

/-- Between the braces of a placeholder stands no brace. -/
theorem isBrace_of_mem_extract (h : PlaceholderAt text i e) :
    ∀ c ∈ text.extract (i + 1) e, isBrace c = false := by
  intro c hc
  obtain ⟨k, hk⟩ := List.mem_iff_getElem?.mp hc
  rw [getElem?_extract] at hk
  split at hk
  · next hke => exact h.unbroken (i + 1 + k) (by omega) hke c hk
  · exact absurd hk (by simp)

/-- A placeholder splits its text: what stands before it, a name between braces, and the rest. -/
theorem placeholderAt_iff_split :
    PlaceholderAt text i e ↔
      ∃ front name back, text = front ++ '{' :: (name ++ '}' :: back) ∧ name ≠ [] ∧
        (∀ c ∈ name, isBrace c = false) ∧ i = front.length ∧
        e = front.length + 1 + name.length := by
  refine ⟨?_, ?_⟩
  · intro h
    have he : e < text.length := (List.getElem?_eq_some_iff.mp h.closing).1
    have hnamed := h.named
    have hlen := length_extract_of_placeholderAt h
    refine ⟨text.take i, text.extract (i + 1) e, text.drop (e + 1), ?_, ?_,
      isBrace_of_mem_extract h, ?_, ?_⟩
    · rw [← drop_eq_cons_of_getElem? h.closing, extract_append_drop (Nat.le_of_lt hnamed),
        ← drop_eq_cons_of_getElem? h.opening, List.take_append_drop]
    · apply List.ne_nil_of_length_pos
      omega
    · rw [List.length_take]
      omega
    · rw [List.length_take, hlen]
      omega
  · rintro ⟨front, name, back, rfl, hne, hname, rfl, rfl⟩
    have hpos := List.length_pos_iff.mpr hne
    refine ⟨by simp, ?_, by omega, ?_⟩
    · rw [List.getElem?_append_right (by omega)]
      simp [Nat.add_assoc, Nat.add_comm 1]
    · intro k hik hke c hc
      -- the index counts into the name
      have hk : k = front.length + (k - front.length - 1 + 1) := by omega
      rw [hk, List.getElem?_append_right (by omega), Nat.add_sub_cancel_left,
        List.getElem?_cons_succ, List.getElem?_append_left (by omega)] at hc
      exact hname c (List.mem_of_getElem? hc)

/-- A placeholder that opens later opens behind the closing brace. -/
theorem lt_of_placeholderAt (h : PlaceholderAt text i e) (h' : PlaceholderAt text j f)
    (hij : i < j) : e < j := by
  apply Nat.lt_of_not_le
  intro hje
  rcases Nat.lt_or_eq_of_le hje with hlt | heq
  · exact absurd (h.unbroken j hij hlt '{' h'.opening) (by decide)
  · have hclash := h'.opening.symm.trans (heq ▸ h.closing)
    exact absurd hclash (by decide)

/-- A placeholder closes at the first brace behind its opening one. -/
theorem closing_le (h : PlaceholderAt text i e) (h' : PlaceholderAt text i f) : e ≤ f := by
  have hnamed := h'.named
  apply Nat.le_of_not_lt
  intro hlt
  exact absurd (h.unbroken f (by omega) hlt '}' h'.closing) (by decide)

/-- Of two placeholders one stands behind the other, unless they are the same. -/
theorem before_or_same_or_behind (h : PlaceholderAt text i e) (h' : PlaceholderAt text j f) :
    j < i ∨ (j, f) = (i, e) ∨ e < j := by
  rcases Nat.lt_trichotomy j i with hlt | heq | hgt
  · exact .inl hlt
  · subst heq
    exact .inr (.inl (by rw [Nat.le_antisymm (closing_le h' h) (closing_le h h')]))
  · exact .inr (.inr (lt_of_placeholderAt h h' hgt))

/-- A placeholder of a part of a text is one of the text. -/
theorem placeholderAt_of_extract {a b : Nat} (h : PlaceholderAt (text.extract a b) i e) :
    PlaceholderAt text (a + i) (a + e) ∧ a + e < b := by
  have hat : ∀ {k : Nat} {c : Char}, (text.extract a b)[k]? = some c →
      a + k < b ∧ text[a + k]? = some c := by
    intro k c hk
    rw [getElem?_extract] at hk
    split at hk
    · next hlt => exact ⟨hlt, hk⟩
    · exact absurd hk (by simp)
  obtain ⟨hlt, hclosing⟩ := hat h.closing
  have hnamed := h.named
  refine ⟨⟨(hat h.opening).2, hclosing, by omega, ?_⟩, hlt⟩
  intro k hik hke c hc
  refine h.unbroken (k - a) (by omega) (by omega) c ?_
  rw [getElem?_extract, Nat.add_sub_cancel' (by omega), if_pos (by omega)]
  exact hc

/-- A placeholder that closes in the first part of a text is one of that part. -/
theorem placeholderAt_of_append {front back : List Char} (h : PlaceholderAt (front ++ back) i e)
    (he : e < front.length) : PlaceholderAt front i e := by
  have hinside : ∀ k : Nat, k < front.length → (front ++ back)[k]? = front[k]? :=
    fun k hk => List.getElem?_append_left hk
  have hnamed := h.named
  refine ⟨hinside i (by omega) ▸ h.opening, hinside e he ▸ h.closing, hnamed, ?_⟩
  intro k hik hke c hc
  exact h.unbroken k hik hke c ((hinside k (by omega)).trans hc)

/-- What stands before a text does not matter to the placeholders of the text. -/
theorem placeholderAt_append_iff (front : List Char) :
    PlaceholderAt (front ++ text) (front.length + i) (front.length + e) ↔
      PlaceholderAt text i e := by
  have hat : ∀ k : Nat, (front ++ text)[front.length + k]? = text[k]? := by
    intro k
    rw [List.getElem?_append_right (Nat.le_add_right ..), Nat.add_sub_cancel_left]
  refine ⟨?_, ?_⟩
  · intro h
    have hnamed := h.named
    refine ⟨hat i ▸ h.opening, hat e ▸ h.closing, by omega, ?_⟩
    intro k hik hke c hc
    exact h.unbroken (front.length + k) (by omega) (by omega) c (hat k ▸ hc)
  · intro h
    have hnamed := h.named
    refine ⟨(hat i).trans h.opening, (hat e).trans h.closing, by omega, ?_⟩
    intro k hik hke c hc
    have hk := hat (k - front.length)
    rw [Nat.add_sub_cancel' (by omega)] at hk
    exact h.unbroken (k - front.length) (by omega) (by omega) c (hk ▸ hc)

end PlaceholderAt

namespace Segment

/-! ## The reading in two moves -/

section Moves

variable {held name rest after : List Char}

theorem readChars_of_ne {c : Char} (h : c ≠ '{') :
    readChars held (c :: rest) = readChars (c :: held) rest := by
  rw [readChars, if_neg h]

/-- A name that no opening brace stands before is literal. -/
theorem readChars_append (hname : ∀ c ∈ name, isBrace c = false) :
    readChars held (name ++ rest) = readChars (name.reverse ++ held) rest := by
  induction name generalizing held with
  | nil => rfl
  | cons c name ih =>
    have hc : c ≠ '{' := by
      intro he
      exact absurd (hname c (List.mem_cons_self ..)) (by rw [he]; decide)
    rw [List.cons_append, readChars_of_ne hc, ih (fun d hd => hname d (List.mem_cons_of_mem _ hd))]
    simp

theorem takeWhile_name (hname : ∀ c ∈ name, isBrace c = false) :
    (name ++ '}' :: after).takeWhile (!isBrace ·) = name := by
  rw [List.takeWhile_append_of_pos (by simpa using hname)]
  simp [isBrace]

theorem dropWhile_name (hname : ∀ c ∈ name, isBrace c = false) :
    (name ++ '}' :: after).dropWhile (!isBrace ·) = '}' :: after := by
  rw [List.dropWhile_append_of_pos (by simpa using hname)]
  simp [isBrace]

/-- A placeholder at the head of a text is read as one, behind the characters in hand. -/
theorem readChars_placeholder (hne : name ≠ []) (hname : ∀ c ∈ name, isBrace c = false) :
    readChars held ('{' :: (name ++ '}' :: after)) =
      ofLiteral held.reverse ++ placeholder (String.ofList name) :: readChars [] after := by
  rw [readChars, if_pos rfl]
  simp only
  split
  · next hdrop =>
    rw [dropWhile_name hname, List.cons.injEq] at hdrop
    rw [takeWhile_name hname, if_neg hne, hdrop.2]
  · next hdrop =>
    rw [dropWhile_name hname] at hdrop
    exact absurd hdrop (by simp)
  · next hclosing _ => exact absurd (dropWhile_name hname) (hclosing after)

/-- A character at which no placeholder stands is literal. -/
theorem readChars_of_not_placeholderAt {c : Char} (h : ∀ e, ¬ PlaceholderAt (c :: rest) 0 e) :
    readChars held (c :: rest) = readChars (c :: held) rest := by
  by_cases hc : c = '{'
  · subst hc
    rw [readChars, if_pos rfl]
    simp only
    split
    · next after hdrop =>
      by_cases hnil : rest.takeWhile (!isBrace ·) = []
      · rw [if_pos hnil]
      · -- a name and a closing brace: that is a placeholder
        refine absurd (placeholderAt_iff_split.mpr ⟨[], _, after, ?_, hnil,
          isBrace_takeWhile rest, rfl, rfl⟩) (h _)
        rw [← eq_name_append hdrop]
        rfl
    · next after hdrop =>
      -- the leap to the next opening brace goes over literal characters only
      rw [← readChars_append (isBrace_takeWhile rest), ← eq_name_append hdrop]
    · rfl
  · exact readChars_of_ne hc

/-- Induction over a reading: the text is at its end, or a placeholder stands at its head, or its
first character is literal. -/
@[elab_as_elim]
theorem readChars_induction {motive : List Char → List Char → Prop}
    (nil : ∀ held, motive held [])
    (placeholder : ∀ held name after, name ≠ [] → (∀ c ∈ name, isBrace c = false) →
      motive [] after → motive held ('{' :: (name ++ '}' :: after)))
    (literal : ∀ held c rest, (∀ e, ¬ PlaceholderAt (c :: rest) 0 e) →
      motive (c :: held) rest → motive held (c :: rest))
    (held text : List Char) : motive held text := by
  match text with
  | [] => exact nil held
  | c :: rest =>
    by_cases h : ∃ e, PlaceholderAt (c :: rest) 0 e
    · obtain ⟨e, he⟩ := h
      obtain ⟨front, name, after, htext, hne, hname, hfront, -⟩ := placeholderAt_iff_split.mp he
      have hnil : front = [] := List.length_eq_zero_iff.mp hfront.symm
      subst hnil
      have hlen : after.length < (c :: rest).length := by
        rw [htext]
        simp only [List.nil_append, List.length_cons, List.length_append]
        omega
      rw [htext]
      exact placeholder held name after hne hname
        (readChars_induction nil placeholder literal [] after)
    · exact literal held c rest (not_exists.mp h)
        (readChars_induction nil placeholder literal (c :: held) rest)
termination_by text.length
decreasing_by
  · exact hlen
  · exact Nat.lt_succ_self rest.length

end Moves

/-! ## Places -/

/-- All places of the placeholders of a text from index `start` on, in order.  A place is the pair
of the indices of the two braces. -/
structure Places (text : List Char) (start : Nat) (places : List (Nat × Nat)) : Prop where
  ordered : places.Pairwise fun place later => place.2 < later.1
  mem_iff : ∀ i e, (i, e) ∈ places ↔ start ≤ i ∧ PlaceholderAt text i e

/-- The name that stands at a place. -/
def nameAt (text : List Char) (place : Nat × Nat) : String :=
  String.ofList (text.extract (place.1 + 1) place.2)

/-- The segments of a text from index `start` on, cut at the given places: a placeholder at each of
them, and between them literal text where there is any. -/
def divide (text : List Char) (start : Nat) : List (Nat × Nat) → List Segment
  | [] => ofLiteral (text.extract start)
  | place :: places =>
    ofLiteral (text.extract start place.1) ++
      placeholder (nameAt text place) :: divide text (place.2 + 1) places

/-- The places where the placeholders of some segments stand in the text of the segments, if that
text begins at index `start`. -/
def placesFrom (start : Nat) : List Segment → List (Nat × Nat)
  | [] => []
  | literal text :: segments => placesFrom (start + text.length) segments
  | placeholder name :: segments =>
    (start, start + 1 + name.length) :: placesFrom (start + 1 + name.length + 1) segments

/-- The places where the placeholders of some segments stand. -/
def placesOf (segments : List Segment) : List (Nat × Nat) := placesFrom 0 segments

section Places

variable {text : List Char} {start i e : Nat} {places : List (Nat × Nat)}

/-- The first place is the place of the first placeholder, and the others are behind it. -/
theorem places_cons_iff :
    Places text start ((i, e) :: places) ↔
      start ≤ i ∧ PlaceholderAt text i e ∧
        (∀ j f, start ≤ j → j < i → ¬ PlaceholderAt text j f) ∧ Places text (e + 1) places := by
  refine ⟨?_, ?_⟩
  · intro h
    obtain ⟨hstart, hplaceholder⟩ := (h.mem_iff i e).mp (List.mem_cons_self ..)
    obtain ⟨hbehind, hordered⟩ := List.pairwise_cons.mp h.ordered
    have hnamed := hplaceholder.named
    refine ⟨hstart, hplaceholder, ?_, hordered, ?_⟩
    · intro j f hj hji hother
      rcases List.mem_cons.mp ((h.mem_iff j f).mpr ⟨hj, hother⟩) with hE | hT
      · cases hE
        omega
      · have hlt := hbehind (j, f) hT
        dsimp only at hlt
        omega
    · intro j f
      refine ⟨?_, ?_⟩
      · intro hT
        exact ⟨hbehind (j, f) hT, ((h.mem_iff j f).mp (List.mem_cons_of_mem _ hT)).2⟩
      · intro ⟨hj, hother⟩
        rcases List.mem_cons.mp ((h.mem_iff j f).mpr ⟨by omega, hother⟩) with hE | hT
        · cases hE
          omega
        · exact hT
  · intro ⟨hstart, hplaceholder, hbefore, h⟩
    have hnamed := hplaceholder.named
    refine ⟨List.pairwise_cons.mpr ⟨?_, h.ordered⟩, ?_⟩
    · intro later hlater
      exact ((h.mem_iff later.1 later.2).mp hlater).1
    · intro j f
      refine ⟨?_, ?_⟩
      · intro hmem
        rcases List.mem_cons.mp hmem with hE | hT
        · cases hE
          exact ⟨hstart, hplaceholder⟩
        · obtain ⟨hj, hother⟩ := (h.mem_iff j f).mp hT
          exact ⟨by omega, hother⟩
      · intro ⟨hj, hother⟩
        rcases before_or_same_or_behind hplaceholder hother with hbefore' | hsame | hbehind
        · exact absurd hother (hbefore j f hj hbefore')
        · exact hsame ▸ List.mem_cons_self ..
        · exact List.mem_cons_of_mem _ ((h.mem_iff j f).mpr ⟨hbehind, hother⟩)

/-- Behind what stands before a placeholder is its place, and there its name. -/
theorem nameAt_split (front name back : List Char) :
    nameAt (front ++ '{' :: (name ++ '}' :: back)) (front.length, front.length + 1 + name.length) =
      String.ofList name := by
  have hcut := extract_append (front ++ ['{']) name ('}' :: back)
  have htext : front ++ ['{'] ++ name ++ '}' :: back = front ++ '{' :: (name ++ '}' :: back) := by
    simp
  have hopen : (front ++ ['{']).length = front.length + 1 := by simp
  have hclose : (front ++ ['{'] ++ name).length = front.length + 1 + name.length := by
    rw [List.length_append, hopen]
  rw [htext, hopen, hclose] at hcut
  exact congrArg String.ofList hcut

/-- Where the text behind a placeholder begins. -/
theorem length_append_placeholder (front name : List Char) :
    (front ++ '{' :: (name ++ ['}'])).length = front.length + 1 + name.length + 1 := by
  simp only [List.length_append, List.length_cons, List.length_nil]
  omega

/-- The reading of the rest of a text cuts it at its places, if no placeholder opens in the
characters in hand. -/
theorem readChars_eq_divide (held rest : List Char) :
    ∀ done text : List Char, text = done ++ held.reverse ++ rest →
      (∀ i e, done.length ≤ i → i < (done ++ held.reverse).length → ¬ PlaceholderAt text i e) →
      ∃ places, Places text done.length places ∧
        readChars held rest = divide text done.length places := by
  induction held, rest using readChars_induction with
  | nil held =>
    intro done text htext hheld
    rw [List.append_nil] at htext
    refine ⟨[], ⟨.nil, ?_⟩, ?_⟩
    · intro i e
      refine ⟨fun h => absurd h (by simp), ?_⟩
      intro ⟨hi, hplaceholder⟩
      have hlt := (List.getElem?_eq_some_iff.mp hplaceholder.opening).1
      exact absurd hplaceholder (hheld i e hi (htext ▸ hlt))
    · have hextract := extract_append done held.reverse []
      rw [List.append_nil, ← htext] at hextract
      rw [divide, hextract, readChars]
  | placeholder held name after hne hname ih =>
    intro done text htext hheld
    have hplaceholder : PlaceholderAt text (done ++ held.reverse).length
        ((done ++ held.reverse).length + 1 + name.length) :=
      placeholderAt_iff_split.mpr ⟨_, name, after, htext, hne, hname, rfl, rfl⟩
    have hstart : done.length ≤ (done ++ held.reverse).length := by simp
    -- behind the placeholder nothing is in hand
    obtain ⟨places, hplaces, hread⟩ := ih (done ++ held.reverse ++ '{' :: (name ++ ['}'])) text
      (by simp [htext]) (fun i e hi hlt => absurd hlt (by simpa using hi))
    rw [length_append_placeholder] at hplaces hread
    refine ⟨_ :: places, places_cons_iff.mpr ⟨hstart, hplaceholder, hheld, hplaces⟩, ?_⟩
    rw [readChars_placeholder hne hname, hread, divide, htext, extract_append, nameAt_split]
  | literal held c rest hnone ih =>
    intro done text htext hheld
    rw [readChars_of_not_placeholderAt hnone]
    refine ih done text (by simp [htext]) ?_
    intro i e hi hlt hplaceholder
    -- the one index that is new is the index of the character
    by_cases hlast : i < (done ++ held.reverse).length
    · exact hheld i e hi hlast hplaceholder
    · have hnamed := hplaceholder.named
      have hhead : i = (done ++ held.reverse).length := by
        simp only [List.length_append, List.reverse_cons, List.length_cons, List.length_nil] at *
        omega
      have hshift : e = (done ++ held.reverse).length + (e - (done ++ held.reverse).length) := by
        omega
      rw [htext, hhead, hshift] at hplaceholder
      exact hnone _ ((placeholderAt_append_iff _).mp hplaceholder)

/-! ## What a text is cut into -/

/-- The names are those at the places, in the same order. -/
theorem names_divide (text : List Char) (start : Nat) (places : List (Nat × Nat)) :
    names (divide text start places) = places.map (nameAt text) := by
  have hnone : ∀ chars : List Char, names (ofLiteral chars) = [] := by
    intro chars
    unfold ofLiteral
    split <;> rfl
  induction places generalizing start with
  | nil => exact hnone _
  | cons place places ih =>
    rw [divide, names_append, hnone, names_placeholder, ih, List.nil_append, List.map_cons]

theorem placesFrom_ofLiteral_append (start : Nat) (chars : List Char) (segments : List Segment) :
    placesFrom start (ofLiteral chars ++ segments) =
      placesFrom (start + chars.length) segments := by
  unfold ofLiteral
  by_cases h : chars = []
  · rw [if_pos h, h]
    rfl
  · rw [if_neg h, List.singleton_append, placesFrom, String.length_ofList]

/-- Cut at its places, a text has its placeholders at these places. -/
theorem placesFrom_divide (h : Places text start places) :
    placesFrom start (divide text start places) = places := by
  induction places generalizing start with
  | nil =>
    have hend := placesFrom_ofLiteral_append start (text.extract start) []
    rw [List.append_nil] at hend
    rw [divide, hend, placesFrom]
  | cons place places ih =>
    obtain ⟨i, e⟩ := place
    obtain ⟨hstart, hplaceholder, -, hbehind⟩ := places_cons_iff.mp h
    have hnamed := hplaceholder.named
    have he : e < text.length := (List.getElem?_eq_some_iff.mp hplaceholder.closing).1
    have hopen : start + (text.extract start i).length = i := by
      rw [length_extract (by omega)]
      omega
    have hclose : i + 1 + (nameAt text (i, e)).length = e := by
      rw [nameAt, String.length_ofList, length_extract_of_placeholderAt hplaceholder]
      omega
    rw [divide, placesFrom_ofLiteral_append, placesFrom, hopen, hclose, ih hbehind]

/-- What stands at a place is a name. -/
theorem isName_nameAt (h : PlaceholderAt text i e) : IsName (nameAt text (i, e)) := by
  have hlen := length_extract_of_placeholderAt h
  have hnamed := h.named
  refine ⟨?_, ?_⟩
  · intro hempty
    have hnil : text.extract (i + 1) e = [] := String.ofList_eq_empty_iff.mp hempty
    rw [hnil, List.length_nil] at hlen
    omega
  · rw [nameAt, String.toList_ofList]
    exact isBrace_of_mem_extract h

theorem mem_ofLiteral_iff {chars : List Char} {segment : Segment} :
    segment ∈ ofLiteral chars ↔ chars ≠ [] ∧ segment = literal (String.ofList chars) := by
  unfold ofLiteral
  by_cases h : chars = []
  · simp [h]
  · simp [h]

/-- Where no placeholder opens there is no empty literal and none that hides a placeholder. -/
theorem literal_extract {chars : String} {stop : Nat}
    (hmem : literal chars ∈ ofLiteral (text.extract start stop))
    (hnone : ∀ i e, start ≤ i → i < stop → ¬ PlaceholderAt text i e) :
    chars ≠ "" ∧ ∀ i e, ¬ PlaceholderAt chars.toList i e := by
  obtain ⟨hne, hchars⟩ := mem_ofLiteral_iff.mp hmem
  cases hchars
  refine ⟨?_, ?_⟩
  · intro hempty
    exact hne (String.ofList_eq_empty_iff.mp hempty)
  · intro i e hplaceholder
    rw [String.toList_ofList] at hplaceholder
    obtain ⟨hfound, hlt⟩ := placeholderAt_of_extract hplaceholder
    have hnamed := hplaceholder.named
    exact hnone _ _ (Nat.le_add_right ..) (by omega) hfound

/-- Cut at its places, a text has no empty literal and none that hides a placeholder. -/
theorem literals_divide (h : Places text start places) {chars : String}
    (hmem : literal chars ∈ divide text start places) :
    chars ≠ "" ∧ ∀ i e, ¬ PlaceholderAt chars.toList i e := by
  induction places generalizing start with
  | nil =>
    apply literal_extract hmem
    intro i e hi _ hplaceholder
    exact absurd ((h.mem_iff i e).mpr ⟨hi, hplaceholder⟩) (by simp)
  | cons place places ih =>
    obtain ⟨i, e⟩ := place
    obtain ⟨-, -, hbefore, hbehind⟩ := places_cons_iff.mp h
    rw [divide, List.mem_append, List.mem_cons] at hmem
    rcases hmem with hhere | heq | hthere
    · exact literal_extract hhere hbefore
    · exact absurd heq (by simp)
    · exact ih hbehind hthere

/-- A literal behind a placeholder is in what comes behind the placeholder. -/
theorem exists_of_placeholder_cons_eq {name chars : String} {segments front back : List Segment}
    (h : placeholder name :: segments = front ++ literal chars :: back) :
    ∃ front', segments = front' ++ literal chars :: back := by
  cases front with
  | nil => exact absurd (List.cons.inj h).1 (by simp)
  | cons segment front => exact ⟨front, (List.cons.inj h).2⟩

/-- However it is cut, a text has no two literals side by side. -/
theorem apart_divide (text : List Char) (start : Nat) (places : List (Nat × Nat))
    (front : List Segment) (a b : String) (back : List Segment) :
    divide text start places ≠ front ++ literal a :: literal b :: back := by
  induction places generalizing start front with
  | nil =>
    intro h
    have hlen := congrArg List.length h
    rw [divide, ofLiteral] at hlen
    split at hlen
    · simp at hlen
    · simp at hlen
      omega
  | cons place places ih =>
    intro h
    rw [divide, ofLiteral] at h
    split at h
    · obtain ⟨front', hback⟩ := exists_of_placeholder_cons_eq h
      exact ih (place.2 + 1) front' hback
    · -- the one literal before the placeholder has the placeholder behind it
      cases front with
      | nil => exact absurd (List.cons.inj (List.cons.inj h).2).1 (by simp)
      | cons segment front =>
        obtain ⟨front', hback⟩ := exists_of_placeholder_cons_eq (List.cons.inj h).2
        exact ih (place.2 + 1) front' hback

/-- Cut at its places, a text is in the form of a reading. -/
theorem canonical_divide (h : Places text start places) :
    Canonical (divide text start places) := by
  refine ⟨?_, fun chars hmem => literals_divide h hmem, apart_divide text start places⟩
  intro name hname
  rw [names_divide] at hname
  obtain ⟨⟨i, e⟩, hplace, rfl⟩ := List.mem_map.mp hname
  exact isName_nameAt ((h.mem_iff i e).mp hplace).2

end Places

/-! ## The reading of a text -/

/-- A text has its places, and its reading is what they cut it into. -/
theorem exists_places_scan (text : String) :
    ∃ places, Places text.toList 0 places ∧ scan text = divide text.toList 0 places := by
  obtain ⟨places, hplaces, hread⟩ := readChars_eq_divide [] text.toList [] text.toList rfl
    (fun i e _ hi => absurd hi (by simp))
  exact ⟨places, hplaces, by rw [scan_eq_ofChars, ofChars, hread, List.length_nil]⟩

/-- The placeholders of a reading stand at the places of its text. -/
theorem places_scan (text : String) : Places text.toList 0 (placesOf (scan text)) := by
  obtain ⟨places, hplaces, hscan⟩ := exists_places_scan text
  rw [placesOf, hscan, placesFrom_divide hplaces]
  exact hplaces

/-- The reading of a text is the text cut at the places of the placeholders. -/
theorem scan_eq_divide_placesOf (text : String) :
    scan text = divide text.toList 0 (placesOf (scan text)) := by
  obtain ⟨places, hplaces, hscan⟩ := exists_places_scan text
  rw [placesOf, hscan, placesFrom_divide hplaces]

/-- A reading is in the form of a reading. -/
theorem canonical_scan (text : String) : Canonical (scan text) := by
  rw [scan_eq_divide_placesOf]
  exact canonical_divide (places_scan text)

/-- A template has no names exactly if no placeholder stands in it. -/
theorem names_scan_eq_nil_iff (text : String) :
    names (scan text) = [] ↔ ∀ i e, ¬ PlaceholderAt text.toList i e := by
  have hplaces := places_scan text
  rw [scan_eq_divide_placesOf, names_divide, List.map_eq_nil_iff]
  refine ⟨?_, ?_⟩
  · intro hnil i e hplaceholder
    exact absurd ((hplaces.mem_iff i e).mpr ⟨Nat.zero_le i, hplaceholder⟩) (by simp [hnil])
  · intro hnone
    apply List.eq_nil_iff_forall_not_mem.mpr
    intro (i, e) hmem
    exact hnone i e ((hplaces.mem_iff i e).mp hmem).2

/-- The placeholders of a reading stand exactly where the text has a placeholder, in order of
position.  The names are those that stand there; the placeholders are numbered in order, so that
each has the number of its own name.  The literals are the stretches between them that are not
empty.  A route is static if there is no placeholder. -/
theorem scan_eq_divide (text : String) :
    (∀ i e, (i, e) ∈ placesOf (Reading.scan text).named ↔ PlaceholderAt text.toList i e) ∧
      ((placesOf (Reading.scan text).named).Pairwise fun place later => place.2 < later.1) ∧
      (Reading.scan text).names.toList =
        (placesOf (Reading.scan text).named).map (nameAt text.toList) ∧
      names (Reading.scan text).segments.toList = List.range (Reading.scan text).names.size ∧
      (∀ front number back,
        (Reading.scan text).segments.toList = front ++ placeholder number :: back →
        number = (names front).length ∧ number < (Reading.scan text).names.size) ∧
      (Reading.scan text).named = divide text.toList 0 (placesOf (Reading.scan text).named) ∧
      (∀ chars, literal chars ∈ (Reading.scan text).segments → chars ≠ "") ∧
      (∀ front a b back,
        (Reading.scan text).segments.toList ≠ front ++ literal a :: literal b :: back) ∧
      (∀ r : Route, r.template = text →
        (r.isStatic = true ↔ ∀ i e, ¬ PlaceholderAt text.toList i e)) := by
  have hplaces := places_scan text
  have hdivide := scan_eq_divide_placesOf text
  have hcanonical := canonical_scan text
  have hnumbered := Reading.numbered_scan text
  rw [Reading.named_scan]
  refine ⟨?_, hplaces.ordered, ?_, hnumbered, ?_, hdivide, ?_, ?_, ?_⟩
  · intro i e
    rw [hplaces.mem_iff]
    exact and_iff_right (Nat.zero_le i)
  · rw [Reading.toList_names_scan]
    exact (congrArg names hdivide).trans (names_divide _ _ _)
  · intro front number back hsplit
    refine ⟨Reading.eq_length_of_numbered hnumbered hsplit, ?_⟩
    apply Reading.lt_size_of_numbered hnumbered
    rw [hsplit]
    simp
  · intro chars hmem
    have hnamed : literal chars ∈ (Reading.scan text).named :=
      List.mem_map.mpr ⟨literal chars, Array.mem_toList_iff.mpr hmem, rfl⟩
    rw [Reading.named_scan] at hnamed
    exact (hcanonical.literals chars hnamed).1
  · intro front a b back hsplit
    have hnamed := Reading.named_scan text
    rw [Reading.named, hsplit, List.map_append] at hnamed
    exact hcanonical.apart _ a b _ hnamed.symm
  · intro r htemplate
    rw [← htemplate, ← names_scan_eq_nil_iff, ← r.segments_eq, ← r.names_eq]
    exact List.isEmpty_iff

end Segment

/-- A route whose template has braces that are literal, before its placeholder and behind it. -/
def Route.nested : Route := ofTemplate "/{}{{x}}"

namespace Segment

/-- Braces that hold nothing, an opening brace before another one and a closing one that is left
over are literal: there is one placeholder, from index 4 to index 6. -/
theorem scan_eq_divide_nested :
    Reading.scan Route.nested.template =
        ⟨#["x"], #[literal "/\x7b\x7d\x7b", placeholder 0, literal "\x7d"]⟩ ∧
      (∀ i e, PlaceholderAt Route.nested.template.toList i e ↔ i = 4 ∧ e = 6) ∧
      Route.nested.isStatic = false := by
  have hscan : Reading.scan Route.nested.template =
      ⟨#["x"], #[literal "/\x7b\x7d\x7b", placeholder 0, literal "\x7d"]⟩ := by decide +kernel
  obtain ⟨hmem, -, -, -, -, -, -, -, hstatic⟩ := scan_eq_divide Route.nested.template
  have hplaces : ∀ i e, PlaceholderAt Route.nested.template.toList i e ↔ i = 4 ∧ e = 6 := by
    intro i e
    have hone : placesOf (Reading.scan Route.nested.template).named = [(4, 6)] := by
      rw [hscan]
      rfl
    rw [← hmem, hone, List.mem_singleton, Prod.mk.injEq]
  refine ⟨hscan, hplaces, ?_⟩
  rw [Bool.eq_false_iff, ne_eq, hstatic Route.nested rfl]
  intro hnone
  exact hnone 4 6 ((hplaces 4 6).mpr ⟨rfl, rfl⟩)

end Segment

end PathTemplate
