import Mathlib.Data.List.Infix
import Mathlib.Tactic.ByContra
import Scaffold.Proofs.Source.Declaration
import Scaffold.Proofs.Text.Line
import Scaffold.Proofs.Text.Trim
import Scaffold.Source.DocBlock

/-! The block of a class, found again after it was written. A block that stands behind a text
whose own openers are all settled is the one that is found. -/

namespace Scaffold.Source.DocBlock
open Text

theorem atFront?_eq_some_iff {t : Text} {cut : DocBlockCut} :
    atFront? t = some cut ↔
      ∃ body rest, t = opener ++ (body ++ closer ++ rest) ∧ Clear closer body ∧ declares rest ∧
        cut = ⟨[], opener ++ body ++ closer, rest⟩ := by
  simp only [atFront?, Option.bind_eq_bind, Option.bind_eq_some_iff]
  constructor
  · rintro ⟨inner, opened, ⟨body, rest⟩, closed, found⟩
    obtain ⟨rfl, clear⟩ := (cut?_eq_some_iff (by decide)).1 closed
    split at found
    · next here =>
      simp only [Option.some.injEq] at found
      exact ⟨body, rest, after?_eq_some_iff.1 opened, clear, here, found.symm⟩
    · simp at found
  · rintro ⟨body, rest, rfl, clear, here, rfl⟩
    exact ⟨_, after?_append _ _, _, cut?_append (by decide) clear rest, by simp [here]⟩

theorem atFront?_closed {body : Text} (clear : Clear closer body) (rest : Text) :
    atFront? (opener ++ body ++ closer ++ rest) =
      if declares rest then some ⟨[], opener ++ body ++ closer, rest⟩ else none := by
  have closed : cut? closer (body ++ closer ++ rest) = some (body, rest) :=
    cut?_append (by decide) clear rest
  have shape : opener ++ body ++ closer ++ rest = opener ++ (body ++ closer ++ rest) := by simp
  rw [shape, atFront?, after?_append]
  simp only [Option.bind_eq_bind, Option.bind_some, closed]

theorem atFront?_block {body rest : Text} (clear : Clear closer body) (here : declares rest) :
    atFront? (opener ++ body ++ closer ++ rest) = some ⟨[], opener ++ body ++ closer, rest⟩ := by
  rw [atFront?_closed clear, if_pos here]

theorem find?_append {before rest block after : Text}
    (here : atFront? rest = some ⟨[], block, after⟩)
    (earlier : ∀ back, back <:+ before → back ≠ [] → atFront? (back ++ rest) = none) :
    find? (before ++ rest) = some ⟨before, block, after⟩ := by
  induction before with
  | nil =>
    cases rest with
    | nil => simp [atFront?, opener, after?] at here
    | cons c rest => simp [find?, here]
  | cons c before ih =>
    have passed : atFront? (c :: (before ++ rest)) = none :=
      earlier (c :: before) (List.suffix_refl _) (by simp)
    have found := ih fun back part => earlier back (part.trans (List.suffix_cons c before))
    rw [List.cons_append, find?, passed, found]
    rfl

theorem leftmost_of_find? {t : Text} {cut : DocBlockCut} (h : find? t = some cut) :
    atFront? (cut.block ++ cut.after) = some ⟨[], cut.block, cut.after⟩ ∧
      ∀ back, back <:+ cut.before → back ≠ [] →
        atFront? (back ++ (cut.block ++ cut.after)) = none := by
  induction t generalizing cut with
  | nil => simp [find?] at h
  | cons c t ih =>
    rw [find?] at h
    split at h
    · next found =>
      simp only [Option.some.injEq] at h
      subst h
      have text := text_of_atFront? found
      obtain ⟨body, rest, -, -, -, rfl⟩ := atFront?_eq_some_iff.1 found
      simp only [DocBlockCut.text, List.nil_append] at text
      refine ⟨text ▸ found, fun back part more => absurd (List.suffix_nil.1 part) more⟩
    · next passed =>
      simp only [Option.map_eq_some_iff] at h
      obtain ⟨inner, found, rfl⟩ := h
      obtain ⟨here, earlier⟩ := ih found
      refine ⟨here, fun back part more => ?_⟩
      -- the whole text was tried first, and the rest is ruled out further in
      rcases List.suffix_cons_iff.1 part with rfl | later
      · have text := text_of_find? found
        simp only [DocBlockCut.text, List.append_assoc] at text
        rw [List.cons_append, text]
        exact passed
      · exact earlier back later more

theorem atFront?_eq_none_of_find? {t back : Text} (h : find? t = none) (part : back <:+ t) :
    atFront? back = none := by
  induction t with
  | nil => rw [List.suffix_nil.1 part]; rfl
  | cons c t ih =>
    rw [find?] at h
    split at h
    · simp at h
    · next passed =>
      rcases List.suffix_cons_iff.1 part with rfl | later
      · exact passed
      · exact ih (by simpa using h) later

/-- No block begins within `before` as long as some opener stands behind it. -/
def Settled (before : Text) : Prop :=
  ∀ back, back <:+ before → back ≠ [] → ∀ rest, atFront? (back ++ (opener ++ rest)) = none

theorem find?_block {before body rest : Text} (settled : Settled before)
    (clear : Clear closer body) (here : declares rest) :
    find? (before ++ (opener ++ body ++ closer) ++ rest) =
      some ⟨before, opener ++ body ++ closer, rest⟩ := by
  rw [List.append_assoc]
  refine find?_append (atFront?_block clear here) fun back part more => ?_
  have passed := settled back part more (body ++ closer ++ rest)
  simpa using passed

theorem exists_inner_of_atFront? {back rest : Text} {cut : DocBlockCut} (more : back ≠ [])
    (h : atFront? (back ++ (opener ++ rest)) = some cut) :
    ∃ inner, back = opener ++ inner ∧ ∃ body after,
      inner ++ (opener ++ rest) = body ++ closer ++ after ∧ Clear closer body ∧ declares after := by
  obtain ⟨body, after, eq, clear, here, -⟩ := atFront?_eq_some_iff.1 h
  match back with
  | [] => exact absurd rfl more
  | [_] => simp [opener] at eq
  | [_, _] => simp [opener] at eq
  | a :: b :: c :: inner =>
    simp only [opener, String.reduceToList, List.cons_append, List.nil_append,
      List.cons.injEq] at eq
    obtain ⟨rfl, rfl, rfl, tail⟩ := eq
    exact ⟨inner, rfl, body, after, by simpa [opener] using tail, clear, here⟩

theorem clear_across_opener {inner body : Text} (open_ : ¬ closer <:+: inner ++ ['/'])
    (clear : Clear closer body) (first : body.head? ≠ some '/') :
    Clear closer (inner ++ opener ++ body) := by
  intro found
  have joint : inner ++ opener ++ body ++ closer.dropLast =
      (inner ++ ['/']) ++ ('*' :: '*' :: (body ++ ['*'])) := by
    simp [opener, closer]
  have pair : closer = ['*', '/'] := rfl
  rw [joint, pair, pair_infix_append_iff] at found
  rcases found with before | within | ⟨last, -⟩
  · exact open_ before
  · rcases List.infix_cons_iff.1 within with here | within
    · simp at here
    · rcases List.infix_cons_iff.1 within with here | within
      · cases body with
        | nil => simp at here
        | cons c body =>
          simp only [List.cons_append, List.cons_prefix_cons] at here
          exact first (congrArg some here.2.1.symm)
      · exact clear within
  · simp at last

theorem declares_of_closed_early {inner body rest found after : Text}
    (split : inner ++ ['/'] = body ++ closer ++ rest) (clear : Clear closer body) {tail : Text}
    (eq : inner ++ (opener ++ tail) = found ++ closer ++ after) (first : Clear closer found)
    (here : declares after) : declares rest := by
  have whole : inner ++ (opener ++ tail) = body ++ closer ++ (rest ++ '*' :: '*' :: tail) := by
    calc inner ++ (opener ++ tail) = (inner ++ ['/']) ++ '*' :: '*' :: tail := by simp [opener]
      _ = body ++ closer ++ (rest ++ '*' :: '*' :: tail) := by rw [split, List.append_assoc]
  have one := cut?_append (by decide) first after
  have other := cut?_append (by decide) clear (rest ++ '*' :: '*' :: tail)
  rw [← eq, whole, other] at one
  simp only [Option.some.injEq, Prod.mk.injEq] at one
  rw [← one.2, declares_append_cons (by decide) (by decide)] at here
  exact here

theorem settled_of_find? {t : Text} {cut : DocBlockCut} (h : find? t = some cut)
    (sound : ¬ "/**/".toList <:+: t) : Settled cut.before := by
  obtain ⟨here, earlier⟩ := leftmost_of_find? h
  have text := text_of_find? h
  obtain ⟨before, block, after⟩ := cut
  obtain ⟨body, rest, -, clear, decl, eq⟩ := atFront?_eq_some_iff.1 here
  simp only [DocBlockCut.mk.injEq, true_and] at eq
  obtain ⟨rfl, rfl⟩ := eq
  have first : body.head? ≠ some '/' := by
    intro slash
    obtain ⟨tail, rfl⟩ := List.head?_eq_some_iff.1 slash
    refine sound ⟨before, tail ++ closer ++ after, ?_⟩
    rw [← text]
    simp [DocBlockCut.text, opener]
  intro back part more rest
  by_contra reached
  obtain ⟨cut, reached⟩ := Option.ne_none_iff_exists'.1 reached
  obtain ⟨inner, rfl, found, behind, eq, clear', decl'⟩ := exists_inner_of_atFront? more reached
  have unreached := earlier _ part more
  -- either the earlier opener is closed in front of this one, or its comment goes on into the block
  by_cases closed : closer <:+: inner ++ ['/']
  · obtain ⟨⟨early, tail⟩, cut⟩ := Option.isSome_iff_exists.1 (occurs_iff.2 closed)
    obtain ⟨split, clear''⟩ := (cut?_eq_some_iff (by decide)).1 cut
    have decl'' : declares (tail ++ '*' :: '*' :: (body ++ closer ++ after)) := by
      rw [declares_append_cons (by decide) (by decide)]
      exact declares_of_closed_early split clear'' eq clear' decl'
    have block := atFront?_block clear'' decl''
    have same : opener ++ early ++ closer ++ (tail ++ '*' :: '*' :: (body ++ closer ++ after)) =
        opener ++ inner ++ (opener ++ body ++ closer ++ after) := by
      calc _ = opener ++ (early ++ closer ++ tail) ++ '*' :: '*' :: (body ++ closer ++ after) := by
            simp
        _ = opener ++ inner ++ (opener ++ body ++ closer ++ after) := by
            rw [← split]
            simp [opener]
    rw [same, unreached] at block
    simp at block
  · have block := atFront?_block (clear_across_opener closed clear first) decl
    have same : opener ++ (inner ++ opener ++ body) ++ closer ++ after =
        opener ++ inner ++ (opener ++ body ++ closer ++ after) := by
      simp
    rw [same, unreached] at block
    simp at block

theorem not_word_of_isBreak {c : Char} (h : IsBreak c) : isWord c = false := by
  rcases h with rfl | rfl <;> decide

/-- Every opener has a closer behind it. -/
def Closed (t : Text) : Prop :=
  ∀ inner, opener ++ inner <:+ t → closer <:+: inner

instance (t : Text) : Decidable (Closed t) :=
  decidable_of_iff (∀ back ∈ t.tails, ∀ inner ∈ (after? opener back).toList, occurs closer inner) <| by
    constructor
    · intro h inner part
      exact occurs_iff.1 (h _ ((List.mem_tails _ _).2 part) inner (by simp))
    · intro h back part inner mem
      have shape := after?_eq_some_iff.1 (Option.mem_toList.1 mem)
      exact occurs_iff.2 (h inner (shape ▸ (List.mem_tails _ _).1 part))

theorem atFront?_eq_none_of_closed {front inner rest : Text}
    (h : find? (front ++ (opener ++ inner) ++ rest) = none)
    (ends : ∀ c ∈ inner.getLast?, IsBreak c) (closed : closer <:+: inner) (tail : Text) :
    atFront? (opener ++ inner ++ (opener ++ tail)) = none := by
  obtain ⟨⟨body, outer⟩, first⟩ := Option.isSome_iff_exists.1 (occurs_iff.2 closed)
  obtain ⟨rfl, clear⟩ := (cut?_eq_some_iff (by decide)).1 first
  have shape : opener ++ (body ++ closer ++ outer) ++ (opener ++ tail) =
      opener ++ body ++ closer ++ (outer ++ '/' :: ("**".toList ++ tail)) := by
    simp [opener]
  rw [shape, atFront?_closed clear, declares_append_cons (by decide) (by decide), if_neg]
  intro decl
  have later : declares (outer ++ rest) := by
    refine declares_append decl (.inr fun c mem => not_word_of_isBreak (ends c ?_))
    simp only [List.getLast?_append, Option.mem_def] at mem ⊢
    simp [mem]
  have unreached := atFront?_eq_none_of_find? h
    (⟨front, by simp⟩ : opener ++ body ++ closer ++ (outer ++ rest) <:+ _)
  rw [atFront?_block clear later] at unreached
  simp at unreached

theorem settled_of_find?_eq_none {before rest : Text} (h : find? (before ++ rest) = none)
    (ends : ∀ c ∈ before.getLast?, IsBreak c) (closed : Closed before) : Settled before := by
  intro back part more tail
  by_contra reached
  obtain ⟨cut, reached⟩ := Option.ne_none_iff_exists'.1 reached
  obtain ⟨inner, rfl, -⟩ := exists_inner_of_atFront? more reached
  have within := closed inner part
  obtain ⟨front, rfl⟩ := part
  have inside : ∀ c ∈ inner.getLast?, IsBreak c := by
    intro c mem
    refine ends c ?_
    simp only [List.getLast?_append, Option.mem_def] at mem ⊢
    simp [mem]
  rw [atFront?_eq_none_of_closed h inside within tail] at reached
  simp at reached

end Scaffold.Source.DocBlock
