import Scaffold.Proofs.Text.Search
import Scaffold.Text.Line

/-! What makes a list of lines the lines of its joined text: no break inside a body, an ending
after each line but the last, and no lone carriage return in front of a line feed. -/

namespace Scaffold

namespace Text

def IsBreak (c : Char) : Prop :=
  c = '\n' ∨ c = '\r'

instance (c : Char) : Decidable (IsBreak c) :=
  inferInstanceAs (Decidable (c = '\n' ∨ c = '\r'))

def Unbroken (t : Text) : Prop :=
  ∀ c ∈ t, ¬ IsBreak c

instance (t : Text) : Decidable (Unbroken t) :=
  List.decidableBAll _ t

@[simp] theorem unbroken_nil : Unbroken [] := by
  simp [Unbroken]

@[simp] theorem unbroken_cons {c : Char} {t : Text} :
    Unbroken (c :: t) ↔ ¬ IsBreak c ∧ Unbroken t :=
  List.forall_mem_cons

@[simp] theorem unbroken_append {s t : Text} : Unbroken (s ++ t) ↔ Unbroken s ∧ Unbroken t :=
  List.forall_mem_append

theorem Unbroken.of_part {s t : Text} (h : Unbroken t) (sub : s <:+: t) : Unbroken s :=
  fun c mem => h c (sub.subset mem)

theorem Unbroken.not_mem_lf {t : Text} (h : Unbroken t) : '\n' ∉ t :=
  fun mem => h _ mem (.inl rfl)

theorem Unbroken.not_mem_cr {t : Text} (h : Unbroken t) : '\r' ∉ t :=
  fun mem => h _ mem (.inr rfl)

theorem infix_append_break {needle front back : Text} {b : Char} (whole : Unbroken needle)
    (broken : IsBreak b) (h : needle <:+: front ++ b :: back) :
    needle <:+: front ∨ needle <:+: back :=
  infix_append_cons (fun mem => whole b mem broken) h

theorem lines_cons {c : Char} (h : ¬ IsBreak c) (t : Text) :
    lines (c :: t) = Line.grow c (lines t) := by
  simp only [IsBreak, not_or] at h
  rw [lines, if_neg h.2, if_neg h.1]
  exact fun _ eq _ => h.2 eq

theorem lines_ending {ending : Ending} (inner : ending ≠ .last) {t : Text}
    (lone : ending = .cr → t.head? ≠ some '\n') :
    lines (ending.text ++ t) = ⟨[], ending⟩ :: lines t := by
  cases ending with
  | lf => simp [Ending.text, lines]
  | crlf => simp [Ending.text, lines]
  | last => exact absurd rfl inner
  | cr =>
    cases t with
    | nil => simp [Ending.text, lines]
    | cons c t =>
      have other : c ≠ '\n' := by simpa using lone rfl
      rw [Ending.text, List.singleton_append, lines, if_pos rfl]
      intro back _ eq
      exact other (List.cons.inj eq).1

theorem lines_append {body : Text} (whole : Unbroken body) {ending : Ending}
    (inner : ending ≠ .last) {t : Text} (lone : ending = .cr → t.head? ≠ some '\n') :
    lines (body ++ (ending.text ++ t)) = ⟨body, ending⟩ :: lines t := by
  induction body with
  | nil => exact lines_ending inner lone
  | cons c body ih =>
    rw [unbroken_cons] at whole
    rw [List.cons_append, lines_cons whole.1, ih whole.2, Line.grow]

theorem lines_of_unbroken {body : Text} (whole : Unbroken body) :
    lines body = [⟨body, .last⟩] := by
  induction body with
  | nil => rfl
  | cons c body ih =>
    rw [unbroken_cons] at whole
    rw [lines_cons whole.1, ih whole.2, Line.grow]

theorem splitLines_append_lf {body : Text} (whole : Unbroken body) (t : Text) :
    splitLines (body ++ '\n' :: t) = body :: splitLines t := by
  have cut : lines (body ++ (Ending.lf.text ++ t)) = ⟨body, .lf⟩ :: lines t :=
    lines_append whole (by decide) (by simp)
  simp only [Ending.text, List.singleton_append] at cut
  rw [splitLines, cut, List.map_cons, splitLines]

theorem joinLines_cons (block : Text) {blocks : List Text} (more : blocks ≠ []) :
    joinLines (block :: blocks) = block ++ '\n' :: joinLines blocks := by
  obtain ⟨next, rest, rfl⟩ := List.exists_cons_of_ne_nil more
  simp [joinLines, List.intercalate]

end Text

open Text

theorem Ending.isBreak_of_mem {ending : Ending} {c : Char} (mem : c ∈ ending.text) :
    IsBreak c := by
  cases ending <;> simp_all [Ending.text, IsBreak, or_comm]

theorem Ending.text_ne_nil {ending : Ending} (inner : ending ≠ .last) : ending.text ≠ [] := by
  cases ending <;> simp_all [Ending.text]

/-- Lines that are the lines of their joined text. -/
inductive Proper : List Line → Prop
  | last {body : Text} (whole : Unbroken body) : Proper [⟨body, .last⟩]
  | cons {body : Text} {ending : Ending} {rest : List Line} (whole : Unbroken body)
      (inner : ending ≠ .last) (lone : ending = .cr → (joined rest).head? ≠ some '\n')
      (others : Proper rest) : Proper (⟨body, ending⟩ :: rest)

namespace Proper

theorem grow {c : Char} (h : ¬ IsBreak c) {ls : List Line} (proper : Proper ls) :
    Proper (Line.grow c ls) := by
  cases proper with
  | last whole => exact .last (unbroken_cons.2 ⟨h, whole⟩)
  | cons whole inner lone others => exact .cons (unbroken_cons.2 ⟨h, whole⟩) inner lone others

theorem lines_joined {ls : List Line} (proper : Proper ls) : lines (joined ls) = ls := by
  induction proper with
  | last whole => simpa [Line.text, Ending.text] using lines_of_unbroken whole
  | cons whole inner lone _ ih =>
    rw [joined_cons, Line.text, List.append_assoc, lines_append whole inner lone, ih]

theorem unbroken {ls : List Line} (proper : Proper ls) {line : Line} (mem : line ∈ ls) :
    Unbroken line.body := by
  induction proper with
  | last whole => exact List.mem_singleton.1 mem ▸ whole
  | cons whole _ _ _ ih =>
    rcases List.mem_cons.1 mem with rfl | later
    · exact whole
    · exact ih later

theorem inner_and_tail {first : Line} {rest : List Line} (proper : Proper (first :: rest))
    (more : rest ≠ []) : first.ending ≠ .last ∧ Proper rest := by
  cases proper with
  | last _ => exact absurd rfl more
  | cons _ inner _ others => exact ⟨inner, others⟩

theorem of_append {passed : List Line} {line : Line} {rest : List Line}
    (proper : Proper (passed ++ line :: rest)) : Proper (line :: rest) := by
  induction passed with
  | nil => exact proper
  | cons first passed ih => exact ih (proper.inner_and_tail (by simp)).2

theorem inner_of_append {passed : List Line} {line : Line} {rest : List Line}
    (proper : Proper (passed ++ line :: rest)) {earlier : Line} (mem : earlier ∈ passed) :
    earlier.ending ≠ .last := by
  induction passed with
  | nil => simp at mem
  | cons first passed ih =>
    obtain ⟨inner, others⟩ := proper.inner_and_tail (by simp)
    rcases List.mem_cons.1 mem with rfl | later
    · exact inner
    · exact ih others later

theorem exists_line_holding {ls : List Line} (proper : Proper ls) {needle : Text}
    (whole : Unbroken needle) (h : needle <:+: joined ls) :
    ∃ line ∈ ls, needle <:+: line.body := by
  induction proper with
  | @last body _ => exact ⟨_, List.mem_singleton_self _, by simpa [Line.text, Ending.text] using h⟩
  | @cons body ending rest _ inner _ _ ih =>
    have sides : needle <:+: body ∨ needle <:+: joined rest := by
      rw [joined_cons, Line.text, List.append_assoc] at h
      cases ending with
      | lf => exact infix_append_break whole (.inl rfl) h
      | cr => exact infix_append_break whole (.inr rfl) h
      | last => exact absurd rfl inner
      | crlf =>
        rcases infix_append_break whole (.inr rfl) h with here | later
        · exact .inl here
        · have later : needle <:+: [] ++ '\n' :: joined rest := later
          rcases infix_append_break whole (.inl rfl) later with nothing | later
          · exact .inl (nothing.trans List.nil_infix)
          · exact .inr later
    rcases sides with here | later
    · exact ⟨_, List.mem_cons_self, here⟩
    · obtain ⟨line, mem, found⟩ := ih later
      exact ⟨line, List.mem_cons_of_mem _ mem, found⟩

end Proper

theorem Text.proper_lines (t : Text) : Proper (lines t) := by
  fun_induction lines t with
  | case1 => exact .last unbroken_nil
  | case2 t ih => exact .cons unbroken_nil (by decide) (by simp) ih
  | case3 t alone ih =>
    refine .cons unbroken_nil (by decide) (fun _ head => ?_) ih
    rw [joined_lines] at head
    obtain ⟨back, rfl⟩ := List.head?_eq_some_iff.1 head
    exact alone back rfl rfl
  | case4 t _ _ ih => exact .cons unbroken_nil (by decide) (by simp) ih
  | case5 c t _ notReturn notFeed ih => exact ih.grow (by simp [IsBreak, notReturn, notFeed])

theorem Text.unbroken_of_mem_splitLines {t line : Text} (mem : line ∈ splitLines t) :
    Unbroken line := by
  obtain ⟨whole, found, rfl⟩ := List.mem_map.1 mem
  exact (proper_lines t).unbroken found

theorem Text.infix_of_mem_splitLines {t line : Text} (mem : line ∈ splitLines t) :
    line <:+: t := by
  obtain ⟨whole, found, rfl⟩ := List.mem_map.1 mem
  obtain ⟨passed, rest, split⟩ := List.append_of_mem found
  refine ⟨joined passed, whole.ending.text ++ joined rest, ?_⟩
  rw [← joined_lines t, split]
  simp [joined, Line.text]

namespace LineCut

theorem exists_of_first? {p : Text → Bool} {ls : List Line} {cut : LineCut}
    (h : first? p ls = some cut) :
    ∃ passed line rest, ls = passed ++ line :: rest ∧ p line.body ∧
      (∀ earlier ∈ passed, p earlier.body = false) ∧
      cut = ⟨joined passed, line.body, line.ending.text ++ joined rest⟩ := by
  induction ls generalizing cut with
  | nil => simp [first?] at h
  | cons first ls ih =>
    rw [first?] at h
    split at h
    · next here =>
      simp only [Option.some.injEq] at h
      exact ⟨[], first, ls, rfl, here, by simp, h.symm⟩
    · next other =>
      simp only [Option.map_eq_some_iff] at h
      obtain ⟨cut, found, rfl⟩ := h
      obtain ⟨passed, line, rest, rfl, here, others, rfl⟩ := ih found
      exact ⟨first :: passed, line, rest, rfl, here, by simpa [other] using others, rfl⟩

/-- The cut of a text at a whole line of the given kind. -/
structure At (p : Text → Bool) (t : Text) (cut : LineCut) : Prop where
  text : cut.text = t
  holds : p cut.line
  whole : Unbroken cut.line
  opens : ∀ c ∈ cut.before.getLast?, IsBreak c
  closes : ∀ c ∈ cut.after.head?, IsBreak c

theorem at_of_first? {p : Text → Bool} {t : Text} {cut : LineCut}
    (h : first? p (lines t) = some cut) : At p t cut := by
  have text := text_of_first? h
  obtain ⟨passed, line, rest, split, here, -, rfl⟩ := exists_of_first? h
  have proper := split ▸ proper_lines t
  refine ⟨by simpa using text, here, (proper_lines t).unbroken (by simp [split]), ?_, ?_⟩
  · intro c mem
    rcases List.eq_nil_or_concat passed with rfl | ⟨earlier, before, rfl⟩
    · simp at mem
    · have among : before ∈ earlier.concat before := by simp
      have ended := Ending.text_ne_nil (proper.inner_of_append among)
      have last : before.ending.text.getLast? = some c := by
        simpa [joined, Line.text, ended] using mem
      exact Ending.isBreak_of_mem (List.mem_of_getLast? last)
  · intro c mem
    cases proper.of_append with
    | last _ => simp [Ending.text] at mem
    | @cons body ending rest _ inner _ _ =>
      have first : ending.text.head? = some c := by
        simpa [Ending.text_ne_nil inner] using mem
      exact Ending.isBreak_of_mem (List.mem_of_head? first)

end LineCut
end Scaffold
