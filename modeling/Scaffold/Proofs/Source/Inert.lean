import Scaffold.Proofs.Source.DocBlock

/-! Texts within which no doc block begins, whatever stands behind them. Two such texts make up
another, so a text is inert as soon as its comments are, each together with what shows that no
class declaration follows it. -/

namespace Scaffold.Source.DocBlock
open Text

variable {s t body behind : Text} {c : Char}

def Inert (t : Text) : Prop :=
  ∀ back, back <:+ t → back ≠ [] → ∀ rest, atFront? (back ++ rest) = none

theorem inert_nil : Inert [] :=
  fun _ part more => absurd (List.suffix_nil.1 part) more

theorem Inert.cons (first : ∀ rest, atFront? (c :: t ++ rest) = none) (h : Inert t) :
    Inert (c :: t) := by
  intro back part more rest
  rcases List.suffix_cons_iff.1 part with rfl | later
  · exact first rest
  · exact h back later more rest

theorem Inert.append (hs : Inert s) (ht : Inert t) : Inert (s ++ t) := by
  induction s with
  | nil => exact ht
  | cons c s ih =>
    refine .cons (fun rest => ?_) (ih fun back part => hs back (part.trans (List.suffix_cons c s)))
    have first := hs (c :: s) (List.suffix_refl _) (by simp) (t ++ rest)
    simpa using first

theorem atFront?_of_ne (other : c ≠ '/') (t : Text) : atFront? (c :: t) = none := by
  simp [atFront?, opener, after?, Ne.symm other]

theorem inert_of_not_mem (free : '/' ∉ t) : Inert t := by
  induction t with
  | nil => exact inert_nil
  | cons c t ih =>
    rw [List.mem_cons, not_or] at free
    exact .cons (fun rest => atFront?_of_ne (Ne.symm free.1) _) (ih free.2)

theorem inert_comment (inner : '/' ∉ body) (outer : '/' ∉ behind)
    (line : behind.head? = some '\n') (undeclared : declares behind = false)
    (solid : isBlank c = false) (other : isWord c = false) (slash : c ≠ '/') :
    Inert (opener ++ body ++ closer ++ (behind ++ [c])) := by
  have clear : Clear closer body := by
    intro found
    have mem : '/' ∈ body ++ closer.dropLast := found.subset (by decide)
    simp [inner, closer] at mem
  have shape : opener ++ body ++ closer ++ (behind ++ [c]) =
      '/' :: (("**".toList ++ body ++ ['*']) ++ '/' :: (behind ++ [c])) := by
    simp [opener, closer]
  obtain ⟨behind, rfl⟩ := List.head?_eq_some_iff.1 line
  rw [shape]
  refine .cons (fun rest => ?_) (.append (inert_of_not_mem ?_) (.cons (fun rest => ?_) ?_))
  · have block := atFront?_closed clear ('\n' :: behind ++ c :: rest)
    rw [declares_append_cons solid other, undeclared] at block
    simpa [opener, closer] using block
  · simp [inner]
  · simp [atFront?, opener, after?]
  · exact inert_of_not_mem (by simpa [Ne.symm slash] using outer)

theorem find?_eq_none_of_inert (h : Inert t) : find? t = none := by
  induction t with
  | nil => rfl
  | cons c t ih =>
    have here := h (c :: t) (List.suffix_refl _) (by simp) []
    rw [List.append_nil] at here
    rw [find?, here, ih fun back part => h back (part.trans (List.suffix_cons c t))]
    rfl

theorem find?_behind_inert {before rest block after : Text} (h : Inert before)
    (here : atFront? rest = some ⟨[], block, after⟩) :
    find? (before ++ rest) = some ⟨before, block, after⟩ :=
  find?_append here fun back part more => h back part more rest

end Scaffold.Source.DocBlock
