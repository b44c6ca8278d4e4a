import Scaffold.Source.Declaration

/-! The grammar of a class declaration. `declares` accepts exactly the texts that begin with a
header and have no word character behind it; a character that is neither blank nor part of a
word ends the part of the text that matters. -/

namespace Scaffold.Source
open Text

/-- White space, modifiers each followed by white space, and the word. -/
inductive Header : Text → Prop
  | word {blanks : Text} (skipped : ∀ c ∈ blanks, isBlank c) : Header (blanks ++ keyword)
  | modifier {blanks modifier rest : Text} {c : Char} (skipped : ∀ c ∈ blanks, isBlank c)
      (mem : modifier ∈ modifiers) (blank : isBlank c) (header : Header rest) :
      Header (blanks ++ (modifier ++ c :: rest))

theorem skipBlank_append {blanks : Text} (skipped : ∀ c ∈ blanks, isBlank c) (t : Text) :
    skipBlank (blanks ++ t) = skipBlank t :=
  List.dropWhile_append_of_pos skipped

theorem skipBlank_cons {c : Char} (solid : isBlank c = false) (t : Text) :
    skipBlank (c :: t) = c :: t := by
  simp [skipBlank, trimStart, solid]

theorem exists_blanks (t : Text) :
    ∃ blanks, (∀ c ∈ blanks, isBlank c) ∧ t = blanks ++ skipBlank t :=
  ⟨t.takeWhile isBlank, List.all_eq_true.1 List.all_takeWhile,
    List.takeWhile_append_dropWhile.symm⟩

theorem exists_of_afterModifier? {t rest : Text} (h : afterModifier? t = some rest) :
    ∃ modifier ∈ modifiers, ∃ c, isBlank c ∧ t = modifier ++ c :: rest := by
  obtain ⟨modifier, mem, found⟩ := List.exists_of_findSome?_eq_some h
  split at found
  · next c tail step =>
    split at found
    · next blank =>
      simp only [Option.some.injEq] at found
      exact ⟨modifier, mem, c, blank, found ▸ after?_eq_some_iff.1 step⟩
    · simp at found
  · simp at found

theorem afterModifier?_append {modifier : Text} (mem : modifier ∈ modifiers) {c : Char}
    (blank : isBlank c) (rest : Text) :
    afterModifier? (modifier ++ c :: rest) = some rest := by
  simp only [modifiers, List.mem_cons, List.not_mem_nil, or_false] at mem
  rcases mem with rfl | rfl | rfl <;> simp [afterModifier?, modifiers, after?, blank]

theorem afterModifier?_keyword (rest : Text) : afterModifier? (keyword ++ rest) = none := by
  simp [afterModifier?, modifiers, keyword, after?]

theorem opensClass_iff {t : Text} :
    opensClass t ↔ ∃ rest, t = keyword ++ rest ∧ startsWithWord rest = false := by
  unfold opensClass
  cases found : after? keyword t with
  | some rest =>
    have shape := after?_eq_some_iff.1 found
    constructor
    · intro h
      exact ⟨rest, shape, by simpa using h⟩
    · rintro ⟨other, eq, free⟩
      rw [shape, List.append_cancel_left_eq] at eq
      simp [eq, free]
  | none =>
    constructor
    · simp
    · rintro ⟨rest, rfl, -⟩
      simp at found

theorem declares_of_modifier {t rest : Text} (h : afterModifier? (skipBlank t) = some rest) :
    declares t = declares rest := by
  rw [declares]
  split <;> simp_all

theorem declares_of_none {t : Text} (h : afterModifier? (skipBlank t) = none) :
    declares t = opensClass (skipBlank t) := by
  rw [declares]
  split <;> simp_all

theorem declares_cons_blank {c : Char} (blank : isBlank c) (t : Text) :
    declares (c :: t) = declares t := by
  have skipped : skipBlank (c :: t) = skipBlank t := List.dropWhile_cons_of_pos blank
  cases step : afterModifier? (skipBlank t) with
  | some rest => rw [declares_of_modifier step, declares_of_modifier (skipped ▸ step)]
  | none => rw [declares_of_none step, declares_of_none (skipped ▸ step), skipped]

theorem declares_nil : declares [] = false :=
  declares_of_none rfl

theorem declares_cons_of_ne {c : Char} (solid : isBlank c = false)
    (other : c ∉ ['a', 'f', 'r', 'c']) (t : Text) : declares (c :: t) = false := by
  simp only [List.mem_cons, List.not_mem_nil, or_false, not_or] at other
  obtain ⟨abstract, final, readonly, word⟩ := other
  have bare : afterModifier? (c :: t) = none := by
    simp [afterModifier?, modifiers, after?, Ne.symm abstract, Ne.symm final, Ne.symm readonly]
  rw [declares_of_none (by rw [skipBlank_cons solid, bare]), skipBlank_cons solid]
  simp [opensClass, keyword, after?, Ne.symm word]

theorem solid_keyword (rest : Text) : skipBlank (keyword ++ rest) = keyword ++ rest :=
  skipBlank_cons (by decide) _

theorem solid_modifier {modifier : Text} (mem : modifier ∈ modifiers) (rest : Text) :
    skipBlank (modifier ++ rest) = modifier ++ rest := by
  simp only [modifiers, List.mem_cons, List.not_mem_nil, or_false] at mem
  rcases mem with rfl | rfl | rfl <;> exact skipBlank_cons (by decide) _

theorem Header.declares {header : Text} (h : Header header) {rest : Text}
    (free : startsWithWord rest = false) : declares (header ++ rest) := by
  induction h with
  | @word blanks skipped =>
    have reach : skipBlank (blanks ++ keyword ++ rest) = keyword ++ rest := by
      rw [List.append_assoc, skipBlank_append skipped, solid_keyword]
    rw [declares_of_none (by rw [reach, afterModifier?_keyword]), reach]
    exact opensClass_iff.2 ⟨rest, rfl, free⟩
  | @modifier blanks modifier tail c skipped mem blank _ ih =>
    have reach : skipBlank (blanks ++ (modifier ++ c :: tail) ++ rest) =
        modifier ++ c :: (tail ++ rest) := by
      rw [List.append_assoc, skipBlank_append skipped, List.append_assoc, solid_modifier mem,
        List.cons_append]
    rw [declares_of_modifier (by rw [reach, afterModifier?_append mem blank])]
    exact ih

theorem exists_header_of_declares {t : Text} (h : declares t) :
    ∃ header rest, t = header ++ rest ∧ Header header ∧ startsWithWord rest = false := by
  obtain ⟨blanks, skipped, split⟩ := exists_blanks t
  cases step : afterModifier? (skipBlank t) with
  | none =>
    rw [declares_of_none step] at h
    obtain ⟨rest, shape, free⟩ := opensClass_iff.1 h
    exact ⟨blanks ++ keyword, rest, by rw [split, shape, List.append_assoc], .word skipped, free⟩
  | some tail =>
    have shorter := Nat.lt_of_lt_of_le (length_lt_of_afterModifier? step) (length_skipBlank_le t)
    rw [declares_of_modifier step] at h
    obtain ⟨header, rest, rfl, inner, free⟩ := exists_header_of_declares h
    obtain ⟨modifier, mem, c, blank, shape⟩ := exists_of_afterModifier? step
    refine ⟨blanks ++ (modifier ++ c :: header), rest, ?_, .modifier skipped mem blank inner, free⟩
    rw [split, shape]
    simp
termination_by t.length

theorem declares_iff {t : Text} :
    declares t ↔
      ∃ header rest, t = header ++ rest ∧ Header header ∧ startsWithWord rest = false := by
  constructor
  · exact exists_header_of_declares
  · rintro ⟨header, rest, rfl, inner, free⟩
    exact inner.declares free

namespace Header

theorem blank_or_word {header : Text} (h : Header header) : ∀ c ∈ header, isBlank c ∨ isWord c := by
  have whole : ∀ word ∈ keyword :: modifiers, word.all isWord := by decide
  have letters : ∀ word ∈ keyword :: modifiers, ∀ c ∈ word, isWord c :=
    fun word mem => List.all_eq_true.1 (whole word mem)
  induction h with
  | word skipped =>
    intro c mem
    rcases List.mem_append.1 mem with before | inside
    · exact .inl (skipped c before)
    · exact .inr (letters _ List.mem_cons_self c inside)
  | modifier skipped named blank _ ih =>
    intro c mem
    simp only [List.mem_append, List.mem_cons] at mem
    rcases mem with before | inside | rfl | later
    · exact .inl (skipped c before)
    · exact .inr (letters _ (List.mem_cons_of_mem _ named) c inside)
    · exact .inl blank
    · exact ih c later

theorem getLast? {header : Text} (h : Header header) : header.getLast? = some 's' := by
  induction h with
  | word _ => simp [keyword]
  | @modifier _ _ rest _ _ _ _ header ih =>
    cases rest with
    | nil => simp at ih
    | cons d rest => simp [List.getLast?_cons_cons, ih]

end Header

theorem declares_append_cons {c : Char} (solid : isBlank c = false) (other : isWord c = false)
    (front back : Text) : declares (front ++ c :: back) = declares front := by
  rw [Bool.eq_iff_iff, declares_iff, declares_iff]
  constructor
  · rintro ⟨header, rest, eq, inner, free⟩
    rcases List.append_eq_append_iff.1 eq with ⟨tail, rfl, here⟩ | ⟨tail, rfl, rfl⟩
    · cases tail with
      | nil => exact ⟨front, [], by simp, by simpa using inner, rfl⟩
      | cons d tail =>
        simp only [List.cons_append, List.cons.injEq] at here
        have kind := inner.blank_or_word c (by simp [here.1])
        simp [solid, other] at kind
    · refine ⟨header, tail, rfl, inner, ?_⟩
      cases tail with
      | nil => rfl
      | cons d tail => exact free
  · rintro ⟨header, rest, rfl, inner, free⟩
    refine ⟨header, rest ++ c :: back, by simp, inner, ?_⟩
    cases rest with
    | nil => exact other
    | cons d rest => exact free

theorem declares_append {front back : Text} (h : declares front)
    (joint : startsWithWord back = false ∨ ∀ c ∈ front.getLast?, isWord c = false) :
    declares (front ++ back) := by
  obtain ⟨header, rest, rfl, inner, free⟩ := declares_iff.1 h
  refine declares_iff.2 ⟨header, rest ++ back, by simp, inner, ?_⟩
  cases rest with
  | cons c rest => exact free
  | nil =>
    rcases joint with ahead | behind
    · exact ahead
    · have word := behind 's' (by simp [inner.getLast?])
      exact absurd word (by decide)

end Scaffold.Source
