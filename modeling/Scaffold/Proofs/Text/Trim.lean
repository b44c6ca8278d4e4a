import Mathlib.Data.List.TakeWhile
import Scaffold.Text.Blank

/-! Trimmed texts: those that begin and end outside of what is trimmed away. -/

namespace Scaffold.Text

theorem trimEnd_concat (p : Char → Bool) (t : Text) (c : Char) :
    trimEnd p (t ++ [c]) = if p c then trimEnd p t else t ++ [c] := by
  by_cases h : p c <;> simp [trimEnd, h]

theorem trimEnd_eq_self_iff {p : Char → Bool} {t : Text} :
    trimEnd p t = t ↔ ∀ c ∈ t.getLast?, p c = false := by
  rcases List.eq_nil_or_concat t with rfl | ⟨front, last, rfl⟩
  · simp [trimEnd]
  · rw [List.concat_eq_append, trimEnd_concat]
    by_cases h : p last
    · have short := (trimEnd_isPrefix p front).length_le
      have differ : trimEnd p front ≠ front ++ [last] := by
        intro eq
        rw [eq, List.length_append, List.length_singleton] at short
        omega
      simp [h, differ]
    · simp [h]

theorem trimEnd_append {p : Char → Bool} {back : Text} (filled : back ≠ [])
    (h : trimEnd p back = back) (front : Text) : trimEnd p (front ++ back) = front ++ back := by
  rw [trimEnd_eq_self_iff] at h ⊢
  simpa [filled] using h

theorem trimEnd_append_of_ne_nil {p : Char → Bool} {back : Text} (filled : trimEnd p back ≠ [])
    (front : Text) : trimEnd p (front ++ back) = front ++ trimEnd p back := by
  have inner : back.reverse.dropWhile p ≠ [] := fun nil => filled (by simp [trimEnd, nil])
  rw [trimEnd, List.reverse_append, List.dropWhile_append, if_neg (by simpa using inner),
    List.reverse_append, List.reverse_reverse]
  rfl

theorem trimEnd_append_of_eq_nil {p : Char → Bool} {back : Text} (gone : trimEnd p back = [])
    (front : Text) : trimEnd p (front ++ back) = trimEnd p front := by
  have inner : back.reverse.dropWhile p = [] := List.reverse_eq_nil_iff.1 gone
  rw [trimEnd, List.reverse_append, List.dropWhile_append, if_pos (by simp [inner]), trimEnd]

theorem trimEnd_eq_nil_iff {p : Char → Bool} {t : Text} : trimEnd p t = [] ↔ ∀ c ∈ t, p c := by
  rw [trimEnd, List.reverse_eq_nil_iff, List.dropWhile_eq_nil_iff]
  simp

theorem trim_eq_nil_iff {p : Char → Bool} {t : Text} : trim p t = [] ↔ ∀ c ∈ t, p c := by
  rw [trim, trimEnd_eq_nil_iff, ← List.dropWhile_eq_nil_iff, trimStart, dropWhile_dropWhile,
    List.dropWhile_eq_nil_iff]

theorem trim_eq_self {p : Char → Bool} {t : Text} (first : ∀ c ∈ t.head?, p c = false)
    (last : ∀ c ∈ t.getLast?, p c = false) : trim p t = t := by
  rw [trim, trimStart_eq_self first, trimEnd_eq_self_iff.2 last]

theorem trim_outer {p : Char → Bool} {t : Text} {c : Char}
    (h : c ∈ (trim p t).head? ∨ c ∈ (trim p t).getLast?) : p c = false := by
  rcases h with first | last
  · obtain ⟨rest, whole⟩ := trimEnd_isPrefix p (trimStart p t)
    have here : c ∈ (trimStart p t).head? := by
      rw [← whole, List.head?_append]
      simp only [trim, Option.mem_def] at first ⊢
      simp [first]
    have kept := List.head?_dropWhile_not p t
    rw [trimStart] at here
    simpa [Option.mem_def.1 here] using kept
  · exact trimEnd_eq_self_iff.1 (trimEnd_trimEnd p (trimStart p t)) c last

theorem trim_infix (p : Char → Bool) (t : Text) : trim p t <:+: t :=
  (trimEnd_isPrefix p _).isInfix.trans (List.dropWhile_suffix p).isInfix

theorem infix_trimStart {p : Char → Bool} {word t : Text} (filled : word ≠ [])
    (first : ∀ c ∈ word.head?, p c = false) (h : word <:+: t) : word <:+: trimStart p t := by
  induction t with
  | nil => exact h
  | cons c t ih =>
    by_cases gone : p c
    · rw [trimStart, List.dropWhile_cons_of_pos gone]
      rcases List.infix_cons_iff.1 h with here | later
      · obtain ⟨d, word, rfl⟩ := List.exists_cons_of_ne_nil filled
        obtain ⟨rest, eq⟩ := here
        simp only [List.cons_append, List.cons.injEq] at eq
        simp [← eq.1, first d rfl] at gone
      · exact ih later
    · rwa [trimStart, List.dropWhile_cons_of_neg gone]

theorem infix_trimEnd {p : Char → Bool} {word t : Text} (filled : word ≠ [])
    (last : ∀ c ∈ word.getLast?, p c = false) (h : word <:+: t) : word <:+: trimEnd p t := by
  rw [trimEnd, ← List.reverse_infix, List.reverse_reverse]
  exact infix_trimStart (by simpa using filled) (by simpa using last) (List.reverse_infix.2 h)

theorem infix_trim {p : Char → Bool} {word t : Text} (filled : word ≠ [])
    (first : ∀ c ∈ word.head?, p c = false) (last : ∀ c ∈ word.getLast?, p c = false)
    (h : word <:+: t) : word <:+: trim p t :=
  infix_trimEnd filled last (infix_trimStart filled first h)

end Scaffold.Text
