import Scaffold.Proofs.Source.Declaration
import Scaffold.Proofs.Text.Joint
import Scaffold.Source.Insertion

/-! Where an insertion takes place: at a whole line of the text that holds the needle. A literal
needle without breaks is found in every text that it occurs in. The inserted blocks come to stand
on lines of their own, and all other lines keep their place and their text. They keep their
endings too, as long as no lone return comes to stand in front of a line feed. -/

namespace Scaffold.Source
open Text Line

/-- The cut line is empty and stands behind a lone return, so that a line feed put below it is
taken for the second half of that return. -/
def Fuses (cut : LineCut) : Prop :=
  cut.line = [] ∧ cut.before.getLast? = some '\r'

instance (cut : LineCut) : Decidable (Fuses cut) :=
  inferInstanceAs (Decidable (_ ∧ _))

namespace Needle

theorem find_eq_ok_iff {needle : Needle} {t : Text} {cut : LineCut} :
    needle.find t = .ok cut ↔ LineCut.first? needle.holds (lines t) = some cut := by
  unfold find
  split <;> simp_all

theorem find_eq_error_iff {needle : Needle} {t : Text} {fault : Fault} :
    needle.find t = .error fault ↔ fault = .anchorNotFound needle.source ∧
      ∀ line ∈ splitLines t, needle.holds line = false := by
  have nowhere : LineCut.first? needle.holds (lines t) = none ↔
      ∀ line ∈ splitLines t, needle.holds line = false := by
    rw [LineCut.first?_eq_none_iff, splitLines, List.forall_mem_map]
  rw [← nowhere, find]
  cases LineCut.first? needle.holds (lines t) with
  | some cut => simp
  | none =>
    simp only [Except.error.injEq, and_true]
    exact eq_comm

theorem at_of_find {needle : Needle} {t : Text} {cut : LineCut} (h : needle.find t = .ok cut) :
    cut.At needle.holds t :=
  LineCut.at_of_first? (find_eq_ok_iff.1 h)

theorem exists_find_literal {word t : Text} (whole : Unbroken word) (h : occurs word t) :
    ∃ cut, (literal word).find t = .ok cut := by
  have inside : word <:+: joined (lines t) := by simpa using occurs_iff.1 h
  obtain ⟨line, mem, found⟩ := (proper_lines t).exists_line_holding whole inside
  cases first : LineCut.first? (literal word).holds (lines t) with
  | some cut => exact ⟨cut, find_eq_ok_iff.2 first⟩
  | none =>
    have missed : occurs word line.body = false := LineCut.first?_eq_none_iff.1 first line mem
    simp [occurs_iff.2 found] at missed

theorem not_fuses_of_find_literal {word t : Text} {cut : LineCut}
    (found : (literal word).find t = .ok cut) : ¬ Fuses cut := by
  obtain ⟨passed, line, rest, -, here, missed, rfl⟩ :=
    LineCut.exists_of_first? (find_eq_ok_iff.1 found)
  rintro ⟨empty, return_⟩
  -- only the empty word occurs in an empty line, and every line in front of it holds that word
  have bare : word = [] := List.infix_nil.1 (occurs_iff.1 (empty ▸ here))
  cases passed with
  | nil => simp at return_
  | cons earlier passed =>
    have held : occurs word earlier.body := occurs_iff.2 (bare ▸ List.nil_infix)
    exact absurd held (by simpa [holds] using missed earlier List.mem_cons_self)

end Needle

theorem insert_of_find {needle : Needle} {t : Text} {cut : LineCut} (h : needle.find t = .ok cut)
    (blocks : List Text) (placement : Placement) :
    insert needle blocks placement t = .ok (insertInto cut blocks placement) := by
  rw [insert, h]
  rfl

theorem insert_eq_error_iff {needle : Needle} {t : Text} {blocks : List Text}
    {placement : Placement} {fault : Fault} :
    insert needle blocks placement t = .error fault ↔ needle.find t = .error fault := by
  rw [insert]
  cases needle.find t <;> simp [bind, Except.bind, pure, Except.pure]

section Lines

variable {t : Text} {passed rest : List Line} {line : Line} {blocks : List Text}

/-- The cut of a text at one of its lines. -/
def cutAt (passed : List Line) (line : Line) (rest : List Line) : LineCut :=
  ⟨joined passed, line.body, line.ending.text ++ joined rest⟩

theorem lines_insertInto_above (proper : Proper (passed ++ line :: rest))
    (apart : (joined passed).getLast? = some '\r' →
      joinLines blocks ≠ [] ∧ (joinLines blocks).head? ≠ some '\n') :
    lines (insertInto (cutAt passed line rest) blocks .before) =
      passed ++ lines (joinLines blocks ++ '\n' :: joined (line :: rest)) := by
  have shape : insertInto (cutAt passed line rest) blocks .before =
      joined passed ++ (joinLines blocks ++ '\n' :: joined (line :: rest)) := by
    simp [insertInto, cutAt, Placement.around, Line.text]
  rw [shape, proper.lines_joined_append]
  intro return_
  obtain ⟨filled, first⟩ := apart return_
  obtain ⟨c, block, text⟩ := List.exists_cons_of_ne_nil filled
  simpa [text] using first

theorem lines_insertInto_before (proper : Proper (passed ++ line :: rest))
    (filled : joinLines blocks ≠ []) (first : (joinLines blocks).head? ≠ some '\n')
    (last : (joinLines blocks).getLast? ≠ some '\r') :
    lines (insertInto (cutAt passed line rest) blocks .before) =
      passed ++ (endedBy .lf (lines (joinLines blocks)) ++ line :: rest) := by
  have above : Proper (⟨[], .lf⟩ :: line :: rest) :=
    .cons unbroken_nil (by decide) (by simp) proper.of_append
  rw [lines_insertInto_above proper fun _ => ⟨filled, first⟩]
  simpa [Ending.text] using lines_append_of_proper above fun return_ => absurd return_ last

theorem lines_below (proper : Proper (passed ++ line :: rest))
    (firm : ¬ Fuses (cutAt passed line rest)) (behind : Text) :
    lines (joined passed ++ (line.body ++ '\n' :: behind)) =
      passed ++ ⟨line.body, .lf⟩ :: lines behind := by
  have whole : Unbroken line.body := proper.unbroken (by simp)
  have cut : lines (line.body ++ (Ending.lf.text ++ behind)) = ⟨line.body, .lf⟩ :: lines behind :=
    lines_append whole (by decide) (by simp)
  rw [Ending.text, List.singleton_append] at cut
  rw [proper.lines_joined_append, cut]
  intro return_
  have filled : line.body ≠ [] := fun empty => firm ⟨empty, return_⟩
  obtain ⟨c, body, filled⟩ := List.exists_cons_of_ne_nil filled
  rw [filled] at whole ⊢
  simpa using fun feed => (unbroken_cons.1 whole).1 (.inl feed)

theorem lines_below_of_fuses (proper : Proper (passed ++ line :: rest))
    (fuses : Fuses (cutAt passed line rest)) :
    ∃ front body, passed = front ++ [⟨body, .cr⟩] ∧ line.body = [] ∧
      ∀ behind, lines (joined passed ++ (line.body ++ '\n' :: behind)) =
        front ++ ⟨body, .crlf⟩ :: lines behind := by
  obtain ⟨front, body, rfl⟩ := proper.exists_return fuses.2
  have empty : line.body = [] := fuses.1
  have proper' : Proper (front ++ ⟨body, .cr⟩ :: line :: rest) := by simpa using proper
  exact ⟨front, body, rfl, empty, fun behind => by
    rw [empty, List.nil_append, proper'.lines_joined_return]⟩

theorem lines_put_below (proper : Proper (passed ++ line :: rest))
    (apart : (joinLines blocks).getLast? = some '\r' → line.ending ≠ .lf) :
    lines ('\n' :: (joinLines blocks ++ (line.ending.text ++ joined rest))) =
      ⟨[], .lf⟩ :: (endedBy line.ending (lines (joinLines blocks)) ++ rest) := by
  rw [← lines_append_of_proper proper.of_append apart]
  simp [lines]

theorem insertInto_after_eq (passed : List Line) (line : Line) (rest : List Line)
    (blocks : List Text) :
    insertInto (cutAt passed line rest) blocks .after = joined passed ++ (line.body ++ '\n' ::
      ('\n' :: (joinLines blocks ++ (line.ending.text ++ joined rest)))) := by
  simp [insertInto, cutAt, Placement.around]

theorem endings_put_below_of_return (proper : Proper (passed ++ line :: rest))
    (return_ : (joinLines blocks).getLast? = some '\r') (feed : line.ending = .lf) :
    ∃ others, endings ('\n' :: (joinLines blocks ++ (line.ending.text ++ joined rest))) =
      others ++ .crlf :: rest.map ending := by
  obtain ⟨front, block⟩ := List.getLast?_eq_some_iff.1 return_
  have others : Proper rest := by
    cases proper.of_append with
    | last _ => simp at feed
    | cons _ _ _ others => exact others
  have split : lines ('\n' :: (front ++ '\r' :: '\n' :: joined rest)) =
      ⟨[], .lf⟩ :: (endedBy .crlf (lines front) ++ rest) := by
    rw [← others.lines_joined, ← lines_append_return_feed, others.lines_joined]
    simp [lines]
  refine ⟨.lf :: (endings front).dropLast, ?_⟩
  rw [block, feed, Ending.text, List.append_assoc, List.singleton_append, List.singleton_append,
    endings, split]
  simp [endings, endedBy_endings (proper_lines front).ne_nil]

/-- The line endings of a text stay as they were, with others put in front of that of line
`i`. -/
def Kept (i : Nat) (t later : Text) : Prop :=
  ∃ added, endings later = (endings t).take i ++ added ++ (endings t).drop i

theorem kept_iff (split : lines t = passed ++ rest) {later : Text} :
    Kept passed.length t later ↔
      ∃ added, endings later = passed.map ending ++ added ++ rest.map ending := by
  have count : (passed.map ending).length = passed.length := List.length_map ..
  have whole : endings t = passed.map ending ++ rest.map ending := by simp [endings, split]
  rw [Kept, whole, List.take_left' count, List.drop_left' count]

theorem not_kept_of_return (split : lines t = passed ++ line :: rest)
    (return_ : (joined passed).getLast? = some '\r') (behind : Text) :
    ¬ Kept passed.length t (joined passed ++ '\n' :: behind) := by
  have proper : Proper (passed ++ line :: rest) := split ▸ proper_lines t
  obtain ⟨front, body, rfl⟩ := proper.exists_return return_
  have proper' : Proper (front ++ ⟨body, .cr⟩ :: line :: rest) := by simpa using proper
  rw [kept_iff split, endings, proper'.lines_joined_return]
  simp

theorem kept_above_iff (split : lines t = passed ++ line :: rest) (blocks : List Text) :
    Kept passed.length t (insertInto (cutAt passed line rest) blocks .before) ↔
      ((joined passed).getLast? = some '\r' →
        joinLines blocks ≠ [] ∧ (joinLines blocks).head? ≠ some '\n') := by
  have proper : Proper (passed ++ line :: rest) := split ▸ proper_lines t
  constructor
  · intro kept return_
    -- otherwise the inserted text begins with a line feed, which the return is paired with
    refine Classical.byContradiction fun opens => ?_
    obtain ⟨behind, text⟩ : ∃ behind, joinLines blocks ++ ['\n'] = '\n' :: behind := by
      cases block : joinLines blocks with
      | nil => exact ⟨_, rfl⟩
      | cons c block' => exact ⟨block' ++ ['\n'], by simp_all⟩
    have shape : insertInto (cutAt passed line rest) blocks .before =
        joined passed ++ '\n' :: (behind ++ joined (line :: rest)) := by
      rw [← List.cons_append, ← text]
      simp [insertInto, cutAt, Placement.around, Line.text]
    exact not_kept_of_return split return_ _ (shape ▸ kept)
  · intro apart
    obtain ⟨added, feed⟩ := exists_lines_append_feed (joinLines blocks)
    refine (kept_iff split).2 ⟨added.map ending, ?_⟩
    rw [endings, lines_insertInto_above proper apart, feed, proper.of_append.lines_joined]
    simp

theorem kept_below_iff (split : lines t = passed ++ line :: rest) (blocks : List Text) :
    Kept passed.length t (insertInto (cutAt passed line rest) blocks .after) ↔
      ¬ Fuses (cutAt passed line rest) ∧ ((joinLines blocks).getLast? = some '\r' →
        (cutAt passed line rest).after.head? ≠ some '\n') := by
  have proper : Proper (passed ++ line :: rest) := split ▸ proper_lines t
  by_cases fuses : Fuses (cutAt passed line rest)
  · refine iff_of_false (fun kept => ?_) fun both => both.1 fuses
    rw [insertInto_after_eq, show line.body = [] from fuses.1] at kept
    exact not_kept_of_return split fuses.2 _ kept
  rw [and_iff_right fuses, kept_iff split, endings, insertInto_after_eq, lines_below proper fuses]
  simp only [cutAt, ne_eq, proper.of_append.head?_ending_iff]
  by_cases apart : (joinLines blocks).getLast? = some '\r' → line.ending ≠ .lf
  · refine iff_of_true ⟨.lf :: .lf :: (endings (joinLines blocks)).dropLast, ?_⟩ apart
    rw [lines_put_below proper apart]
    simp [endings, endedBy_endings (proper_lines (joinLines blocks)).ne_nil]
  · refine iff_of_false (fun ⟨added, kept⟩ => ?_) apart
    obtain ⟨return_, feed⟩ : (joinLines blocks).getLast? = some '\r' ∧ line.ending = .lf := by
      simpa using apart
    obtain ⟨others, fused⟩ := endings_put_below_of_return proper return_ feed
    have ends : (passed.map ending ++ .lf :: others) ++ .crlf :: rest.map ending =
        (passed.map ending ++ added) ++ .lf :: rest.map ending := by
      rw [endings] at fused
      rw [List.map_append, List.map_cons, fused, List.map_cons, feed] at kept
      simpa using kept
    simpa using (List.append_inj' ends (by simp)).2

/-- The lines of a text with a block put above its line `i`, where it was cut. -/
structure PutAbove (i : Nat) (t block : Text) (cut : LineCut) (above : Text) : Prop where
  lines_eq : block ≠ [] → block.head? ≠ some '\n' → block.getLast? ≠ some '\r' →
    splitLines above = (splitLines t).take i ++ splitLines block ++ (splitLines t).drop i
  endings_eq : block ≠ [] → block.head? ≠ some '\n' → block.getLast? ≠ some '\r' →
    endings above = (endings t).take i ++ (endings block).dropLast ++ .lf :: (endings t).drop i
  kept_iff : Kept i t above ↔
    (cut.before.getLast? = some '\r' → block ≠ [] ∧ block.head? ≠ some '\n')

/-- The lines of a text with a block put below its line `i`, where it was cut. -/
structure PutBelow (i : Nat) (t block : Text) (cut : LineCut) (below : Text) : Prop where
  lines_eq : block.getLast? ≠ some '\r' → splitLines below = (splitLines t).take (i + 1) ++
    (if Fuses cut then [] else [[]]) ++ splitLines block ++ (splitLines t).drop (i + 1)
  endings_eq : block.getLast? ≠ some '\r' → endings below =
    (if Fuses cut then (endings t).take (i - 1) ++ [.crlf] else (endings t).take i ++ [.lf]) ++
      .lf :: (endings block).dropLast ++ (endings t).drop i
  kept_iff : Kept i t below ↔
    ¬ Fuses cut ∧ (block.getLast? = some '\r' → cut.after.head? ≠ some '\n')

theorem putAbove_insertInto (split : lines t = passed ++ line :: rest) (blocks : List Text) :
    PutAbove passed.length t (joinLines blocks) (cutAt passed line rest)
      (insertInto (cutAt passed line rest) blocks .before) := by
  have proper : Proper (passed ++ line :: rest) := split ▸ proper_lines t
  refine ⟨fun filled first last => ?_, fun filled first last => ?_, kept_above_iff split blocks⟩
  · simp [splitLines, lines_insertInto_before proper filled first last, split, endedBy_bodies]
  · simp [endings, lines_insertInto_before proper filled first last, split,
      endedBy_endings (proper_lines (joinLines blocks)).ne_nil]

theorem putBelow_insertInto (split : lines t = passed ++ line :: rest) (blocks : List Text) :
    PutBelow passed.length t (joinLines blocks) (cutAt passed line rest)
      (insertInto (cutAt passed line rest) blocks .after) := by
  have proper : Proper (passed ++ line :: rest) := split ▸ proper_lines t
  have some_line := (proper_lines (joinLines blocks)).ne_nil
  have under (last : (joinLines blocks).getLast? ≠ some '\r') :=
    lines_put_below proper fun return_ => absurd return_ last
  by_cases fuses : Fuses (cutAt passed line rest)
  -- where a return is fused, the anchor and the blank line put below it are one line
  · obtain ⟨front, body, rfl, empty, fused⟩ := lines_below_of_fuses proper fuses
    have bodies : splitLines t = (front.map Line.body ++ [body, []]) ++ rest.map Line.body := by
      simp [splitLines, split, empty]
    have ends : endings t = (front.map ending ++ [.cr]) ++ line.ending :: rest.map ending := by
      simp [endings, split]
    refine ⟨fun last => ?_, fun last => ?_, kept_below_iff split blocks⟩
    · rw [if_pos fuses, splitLines, insertInto_after_eq, fused, under last, bodies,
        List.take_left' (by simp), List.drop_left' (by simp)]
      simp [splitLines, endedBy_bodies]
    · have upto : (endings t).take ((front ++ [Line.mk body .cr]).length - 1) =
          front.map ending := by
        rw [ends, List.append_assoc, List.take_left' (by simp)]
      have beyond : (endings t).drop (front ++ [Line.mk body .cr]).length =
          line.ending :: rest.map ending := by
        rw [ends, List.drop_left' (by simp)]
      rw [if_pos fuses, upto, beyond, endings, insertInto_after_eq, fused, under last]
      simp [endings, endedBy_endings some_line]
  · refine ⟨fun last => ?_, fun last => ?_, kept_below_iff split blocks⟩
    · have bodies : splitLines t = (passed.map Line.body ++ [line.body]) ++ rest.map Line.body := by
        simp [splitLines, split]
      rw [if_neg fuses, splitLines, insertInto_after_eq, lines_below proper fuses, under last,
        bodies, List.take_left' (by simp), List.drop_left' (by simp)]
      simp [splitLines, endedBy_bodies]
    · rw [if_neg fuses, endings, insertInto_after_eq, lines_below proper fuses, under last]
      simp [endings, split, endedBy_endings some_line]

theorem first?_insertInto_after {p : Text → Bool} (proper : Proper (passed ++ line :: rest))
    (missed : ∀ earlier ∈ passed, p earlier.body = false) (here : p line.body)
    (blocks : List Text) :
    ∃ again, LineCut.first? p (lines (insertInto (cutAt passed line rest) blocks .after)) =
        some again ∧
      again.span = if Fuses (cutAt passed line rest) then
        ((cutAt passed line rest).span.1 + 1, (cutAt passed line rest).span.2 + 1)
      else (cutAt passed line rest).span := by
  rw [insertInto_after_eq]
  by_cases fuses : Fuses (cutAt passed line rest)
  · obtain ⟨front, body, rfl, empty, fused⟩ := lines_below_of_fuses proper fuses
    have missed' : ∀ earlier ∈ front ++ [⟨body, .crlf⟩], p earlier.body = false := by
      simpa [or_imp, forall_and] using missed
    have here' : p (Line.mk [] .lf).body := empty ▸ here
    have below := LineCut.first?_append missed' here'
    rw [if_pos fuses, fused]
    refine ⟨_, by simpa [lines] using below _, ?_⟩
    simp [LineCut.span, cutAt, joined_append, Line.text, Ending.text, empty]
    omega
  · have still : p (Line.mk line.body .lf).body := here
    rw [if_neg fuses, lines_below proper fuses]
    exact ⟨_, LineCut.first?_append missed still _, rfl⟩

end Lines

/-- A needle is sought in the lines of the text, and the blocks come to stand on lines of their
own above or below the first that holds it, the ending of that line going behind a block below
it. Below an empty line behind a lone return, which is never the anchor of a literal needle, that
return and the first new line feed are one ending, and the anchor is found again one character
on. Below any other line nothing is fused in front of the blocks, and the anchor stays where it
was. -/
theorem insert_by_lines (needle : Needle) (blocks : List Text) (t : Text) :
    (∀ placement, insert needle blocks placement t = .error (.anchorNotFound needle.source) ↔
      ∀ line ∈ splitLines t, needle.holds line = false) ∧
    ∀ i, (splitLines t).findIdx? needle.holds = some i →
      ∃ cut above below, needle.find t = .ok cut ∧ cut.At needle.holds t ∧
        insert needle blocks .before t = .ok above ∧
        above = cut.before ++ (joinLines blocks ++ '\n' :: cut.line) ++ cut.after ∧
        insert needle blocks .after t = .ok below ∧
        below = cut.before ++ (cut.line ++ '\n' :: '\n' :: joinLines blocks) ++ cut.after ∧
        PutAbove i t (joinLines blocks) cut above ∧ PutBelow i t (joinLines blocks) cut below ∧
        (∀ word, needle = .literal word → ¬ Fuses cut) ∧
        ∃ again, needle.find below = .ok again ∧ again.span =
          if Fuses cut then (cut.span.1 + 1, cut.span.2 + 1) else cut.span := by
  refine ⟨fun placement => ?_, fun i first => ?_⟩
  · rw [insert_eq_error_iff, Needle.find_eq_error_iff]
    exact ⟨And.right, fun nowhere => ⟨rfl, nowhere⟩⟩
  obtain ⟨passed, line, rest, split, rfl, here, missed⟩ := LineCut.exists_of_findIdx? first
  have found : needle.find t = .ok (cutAt passed line rest) :=
    Needle.find_eq_ok_iff.2 (split ▸ LineCut.first?_append missed here rest)
  obtain ⟨again, refound, span⟩ :=
    first?_insertInto_after (split ▸ proper_lines t) missed here blocks
  refine ⟨_, _, _, found, Needle.at_of_find found, insert_of_find found blocks .before, rfl,
    insert_of_find found blocks .after, rfl, putAbove_insertInto split blocks,
    putBelow_insertInto split blocks, ?_, again, Needle.find_eq_ok_iff.2 refound, span⟩
  rintro word rfl
  exact Needle.not_fuses_of_find_literal found

theorem insert_by_lines_mixed_endings :
    let t := "a\r\n\rnamespace X;\rb".toList
    let needle := Needle.literal "namespace".toList
    (splitLines t).findIdx? needle.holds = some 2 ∧
    ∃ above below, insert needle ["use Y;".toList, "\rZ".toList] .before t = .ok above ∧
      splitLines above = ["a".toList, [], "use Y;".toList, [], "Z".toList, "namespace X;".toList,
        "b".toList] ∧ endings above = [.crlf, .cr, .lf, .cr, .lf, .cr, .last] ∧
      insert needle ["use Y;".toList, "\rZ".toList] .after t = .ok below ∧
      splitLines below = ["a".toList, [], "namespace X;".toList, [], "use Y;".toList, [],
        "Z".toList, "b".toList] ∧ endings below = [.crlf, .cr, .lf, .lf, .lf, .cr, .cr, .last] := by
  intro t needle
  have first : (splitLines t).findIdx? needle.holds = some 2 := by decide
  obtain ⟨cut, above, below, found, -, before, -, after, -, put, put', firm, -⟩ :=
    (insert_by_lines needle ["use Y;".toList, "\rZ".toList] t).2 2 first
  have apart : ¬ Fuses cut := firm _ rfl
  refine ⟨first, above, below, before, put.lines_eq (by decide) (by decide) (by decide),
    put.endings_eq (by decide) (by decide) (by decide), after, ?_, ?_⟩
  · rw [put'.lines_eq (by decide), if_neg apart]
    decide
  · rw [put'.endings_eq (by decide), if_neg apart]
    decide

/-- An empty line can be the anchor of a pattern. Behind a lone return the line feed put below it
fuses with that return, the blank line is missing and the anchor is found one character on. A
block that begins with a line feed fuses in the same way when it is put above a line. -/
theorem insert_fuses_return :
    let bare := Needle.pattern ⟨"^$".toList, fun line => line == []⟩
    let t := "a\r\rb".toList
    (splitLines t).findIdx? bare.holds = some 1 ∧
    insert bare ["X".toList] .after t = .ok "a\r\n\nX\rb".toList ∧
    splitLines "a\r\n\nX\rb".toList = ["a".toList, [], "X".toList, "b".toList] ∧
    splitLines "a\r\n\nX\rb".toList ≠
      (splitLines t).take 2 ++ [] :: splitLines "X".toList ++ (splitLines t).drop 2 ∧
    (bare.find t).map LineCut.span = .ok (2, 2) ∧
    (bare.find "a\r\n\nX\rb".toList).map LineCut.span = .ok (3, 3) ∧
    insert (.literal "b".toList) [[]] .before "a\rb".toList = .ok "a\r\nb".toList ∧
    endings "a\rb".toList = [.cr, .last] ∧ endings "a\r\nb".toList = [.crlf, .last] :=
  ⟨by decide, rfl, by decide, by decide, rfl, rfl, rfl, by decide, by decide⟩

end Scaffold.Source
