import Scaffold.Proofs.Source.Annotate
import Scaffold.Proofs.Source.Body
import Scaffold.Proofs.Source.Import

/-! Words that no edit of a source tears apart. Lines are added at the ends of lines, the last
brace is moved, and the doc block is written anew from its entries; a word on one line, without
the brace and the comment marks and with no blank at either end, comes through all of it. -/

namespace Scaffold.Source
open Text DocBlock

structure Lasting (word : Text) : Prop where
  filled : word ≠ []
  whole : Unbroken word
  free : ∀ c ∈ "\x7d/*".toList, c ∉ word
  first : ∀ c ∈ word.head?, isBlank c = false
  last : ∀ c ∈ word.getLast?, isBlank c = false

-- Decided over the few characters there are, not over all characters.
instance : DecidablePred Lasting := fun word =>
  have : Decidable (∀ c ∈ "\x7d/*".toList, c ∉ word) := List.decidableBAll _ _
  have : Decidable (∀ c ∈ word.head?, isBlank c = false) := Option.decidableForallMem _
  have : Decidable (∀ c ∈ word.getLast?, isBlank c = false) := Option.decidableForallMem _
  decidable_of_iff
    (word ≠ [] ∧ Unbroken word ∧ (∀ c ∈ "\x7d/*".toList, c ∉ word) ∧
      (∀ c ∈ word.head?, isBlank c = false) ∧ ∀ c ∈ word.getLast?, isBlank c = false)
    ⟨fun ⟨filled, whole, free, first, last⟩ => ⟨filled, whole, free, first, last⟩,
      fun h => ⟨h.filled, h.whole, h.free, h.first, h.last⟩⟩

theorem insertBeforeClass_eq_ok {blocks : List Text} {t later : Text}
    (h : insertBeforeClass blocks t = .ok later) :
    ∃ needle : Needle, ∃ cut, needle.find t = .ok cut ∧ later = insertInto cut blocks .before := by
  have found : ∀ {needle : Needle}, insert needle blocks .before t = .ok later →
      ∃ cut, needle.find t = .ok cut ∧ later = insertInto cut blocks .before := by
    intro needle ok
    cases step : needle.find t with
    | error fault => simp [insert, step, bind, Except.bind] at ok
    | ok cut =>
      rw [insert_of_find step, Except.ok.injEq] at ok
      exact ⟨cut, rfl, ok.symm⟩
  unfold insertBeforeClass at h
  split at h
  · next edited placed =>
    rw [Except.ok.injEq] at h
    exact ⟨_, found (h ▸ placed)⟩
  · exact ⟨_, found h⟩

theorem infix_joinLines {block : Text} {blocks : List Text} (mem : block ∈ blocks) :
    block <:+: joinLines blocks := by
  induction blocks with
  | nil => simp at mem
  | cons first blocks ih =>
    by_cases more : blocks = []
    · subst more
      simp [joinLines, List.mem_singleton.1 mem]
    · rw [joinLines_cons _ more]
      rcases List.mem_cons.1 mem with rfl | later
      · exact List.infix_append_left
      · exact (ih later).trans (List.infix_append_of_infix_right (List.suffix_cons _ _).isInfix)

theorem infix_render {entry : Text} {entries : List Text} (mem : entry ∈ entries) :
    entry <:+: render entries := by
  have line : entry <:+: entryLine entry := by
    unfold entryLine
    split
    · next empty => simp [empty]
    · exact List.infix_append_right
  exact line.trans (infix_joinLines (by simp [List.mem_map_of_mem mem]))

namespace Lasting

variable {word t later : Text}

theorem addImports (h : Lasting word) {names : List Text} (inside : word <:+: t)
    (ok : addImports names t = .ok later) : word <:+: later := by
  by_cases spaced : occurs namespaceWord t
  · obtain ⟨cut, found⟩ := Needle.exists_find_literal (by decide) spaced
    have at_ := Needle.at_of_find found
    rw [addImports_eq found, Except.ok.injEq] at ok
    rw [← at_.text, LineCut.text] at inside
    rw [← ok]
    have apart : ∀ c ∈ cut.after.head?, c ∉ word := fun c mem there =>
      h.whole c there (at_.closes c mem)
    rcases infix_append_of_head apart inside with front | back
    · rw [List.append_assoc]
      exact front.trans List.infix_append_left
    · exact List.infix_append_of_infix_right back
  · simp [Source.addImports, spaced] at ok

theorem appendToBody (h : Lasting word) {block : Text} (inside : word <:+: t)
    (ok : appendToBody block t = .ok later) : word <:+: later := by
  obtain ⟨front, back, rfl, -, rfl⟩ := appendToBody_eq_ok ok
  rcases infix_append_cons (h.free _ (by decide)) inside with before | behind
  · simp only [List.append_assoc]
    exact before.trans List.infix_append_left
  · rw [List.append_assoc]
    exact List.infix_append_of_infix_right (behind.trans List.infix_append_left)

theorem insertBeforeClass (h : Lasting word) {blocks : List Text} (inside : word <:+: t)
    (ok : insertBeforeClass blocks t = .ok later) : word <:+: later := by
  obtain ⟨needle, cut, found, rfl⟩ := insertBeforeClass_eq_ok ok
  have at_ := Needle.at_of_find found
  rw [← at_.text, LineCut.text, List.append_assoc] at inside
  have apart : ∀ c ∈ cut.before.getLast?, c ∉ word := fun c mem there =>
    h.whole c there (at_.opens c mem)
  have shape : insertInto cut blocks .before =
      cut.before ++ (joinLines blocks ++ '\n' :: (cut.line ++ cut.after)) := by
    simp [insertInto, Placement.around]
  rw [shape]
  rcases infix_append_of_last apart inside with before | behind
  · exact before.trans List.infix_append_left
  · refine List.infix_append_of_infix_right (List.infix_append_of_infix_right ?_)
    exact behind.trans (List.suffix_cons _ _).isInfix

theorem of_cons (h : Lasting word) {c : Char} (other : c ∈ "\x7d/*".toList ∨ isBlank c)
    (inside : word <:+: c :: t) : word <:+: t := by
  rcases List.infix_cons_iff.1 inside with here | later
  · obtain ⟨d, rest, rfl⟩ := List.exists_cons_of_ne_nil h.filled
    obtain rfl : d = c := (List.cons_prefix_cons.1 here).1
    rcases other with mark | blank
    · exact absurd List.mem_cons_self (h.free d mark)
    · simp [h.first d rfl] at blank
  · exact later

theorem entry? (h : Lasting word) {line : Text} (inside : word <:+: line) :
    ∃ entry, entry? line = some entry ∧ word <:+: entry := by
  have inside : word <:+: strip line := infix_trim h.filled h.first h.last inside
  have ended : ∀ {rest : Text}, word <:+: rest → word <:+: stripEnd rest :=
    fun there => infix_trimEnd h.filled h.last there
  unfold DocBlock.entry?
  split
  · next empty => exact absurd (List.infix_nil.1 (empty ▸ inside)) h.filled
  · next rest eq =>
    rw [eq] at inside
    exact ⟨_, rfl, ended (h.of_cons (.inr rfl) (h.of_cons (.inl (by decide)) inside))⟩
  · next rest _ eq =>
    rw [eq] at inside
    exact ⟨_, rfl, ended (h.of_cons (.inl (by decide)) inside)⟩
  · exact ⟨_, rfl, ended inside⟩

theorem merged (h : Lasting word) {body : Text} (inside : word <:+: body) (entries : List Text) :
    word <:+: render (mergedEntries (opener ++ body ++ closer) entries) := by
  have whole : word <:+: joined (lines body) := by simpa using inside
  obtain ⟨line, mem, within⟩ := (proper_lines body).exists_line_holding h.whole whole
  obtain ⟨entry, read, there⟩ := h.entry? within
  have listed : entry ∈ DocBlock.entries (opener ++ body ++ closer) := by
    rw [entries_block]
    exact List.mem_filterMap.2 ⟨line.body, List.mem_map_of_mem mem, read⟩
  refine there.trans (infix_render ?_)
  exact List.mem_eraseDups.2 (List.mem_append_left _ listed)

theorem annotate (h : Lasting word) {entries : List Text} (inside : word <:+: t)
    (ok : annotate entries t = .ok later) : word <:+: later := by
  cases found : find? t with
  | none =>
    rw [Source.annotate, found] at ok
    exact h.insertBeforeClass inside ok
  | some cut =>
    rw [annotate_of_find? found, Except.ok.injEq] at ok
    rw [← ok]
    obtain ⟨here, -⟩ := leftmost_of_find? found
    obtain ⟨body, rest, -, -, -, eq⟩ := atFront?_eq_some_iff.1 here
    obtain ⟨before, block, after⟩ := cut
    simp only [DocBlockCut.mk.injEq, true_and] at eq
    obtain ⟨rfl, rfl⟩ := eq
    have shape : t = before ++ '/' :: '*' :: '*' :: (body ++ '*' :: '/' :: after) := by
      rw [← text_of_find? found]
      simp [DocBlockCut.text, opener, closer]
    rw [shape] at inside
    rw [List.append_assoc]
    -- without the characters of the marks, the word is in front of the block, in it or behind it
    rcases infix_append_cons (h.free _ (by decide)) inside with front | inner
    · exact front.trans List.infix_append_left
    · have inner := h.of_cons (.inl (by decide)) (h.of_cons (.inl (by decide)) inner)
      refine List.infix_append_of_infix_right ?_
      rcases infix_append_cons (h.free _ (by decide)) inner with block | back
      · exact (h.merged block entries).trans List.infix_append_left
      · exact List.infix_append_of_infix_right (h.of_cons (.inl (by decide)) back)

end Lasting
end Scaffold.Source
