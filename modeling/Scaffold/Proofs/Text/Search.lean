import Scaffold.Text.Basic

/-! Where an occurrence stands. `cut?` reports the first occurrence of a needle and `cutLast?`
the last mark; both are determined by that, so a search in a text that was put together can be
read off its pieces. -/

namespace Scaffold.Text

/-- No occurrence of the needle begins in `front` when the needle itself follows. -/
def Clear (needle front : Text) : Prop :=
  ¬ needle <:+: front ++ needle.dropLast

theorem clear_nil {needle : Text} (ne : needle ≠ []) : Clear needle [] := by
  intro found
  have short := found.length_le
  have long := List.length_pos_iff.2 ne
  simp only [List.nil_append, List.length_dropLast] at short
  omega

theorem Clear.of_suffix {needle front part : Text} (h : Clear needle front) (tail : part <:+ front) :
    Clear needle part := by
  obtain ⟨ahead, rfl⟩ := tail
  intro found
  refine h (found.trans ⟨ahead, [], ?_⟩)
  simp

theorem Clear.of_cons {needle front : Text} {c : Char} (h : Clear needle (c :: front)) :
    Clear needle front :=
  h.of_suffix (List.suffix_cons c front)

theorem after?_eq_none_of_clear {needle front back : Text} {c : Char}
    (h : Clear needle (c :: front)) :
    after? needle (c :: front ++ needle ++ back) = none := by
  rw [Option.eq_none_iff_forall_ne_some]
  intro rest found
  have whole : needle <+: c :: front ++ needle ++ back :=
    ⟨rest, (after?_eq_some_iff.1 found).symm⟩
  have part : c :: front ++ needle.dropLast <+: c :: front ++ needle ++ back := by
    rw [List.append_assoc, List.prefix_append_right_inj]
    exact (List.dropLast_prefix needle).trans (List.prefix_append _ _)
  have bound : needle.length ≤ (c :: front ++ needle.dropLast).length := by
    simp only [List.length_append, List.length_cons, List.length_dropLast]
    omega
  exact h (List.prefix_of_prefix_length_le whole part bound).isInfix

theorem cut?_append {needle front : Text} (ne : needle ≠ []) (h : Clear needle front)
    (back : Text) : cut? needle (front ++ needle ++ back) = some (front, back) := by
  induction front with
  | nil =>
    obtain ⟨a, needle, rfl⟩ := List.exists_cons_of_ne_nil ne
    have found : after? (a :: needle) (a :: (needle ++ back)) = some back :=
      after?_append (a :: needle) back
    simp [cut?, found]
  | cons c front ih =>
    have passed : after? needle (c :: (front ++ needle ++ back)) = none :=
      after?_eq_none_of_clear h
    rw [List.cons_append, List.cons_append, cut?, passed, ih h.of_cons]
    rfl

theorem suffix_of_clear {needle front back other rest : Text} (h : Clear needle front)
    (eq : other ++ needle ++ rest = front ++ needle ++ back) : rest <:+ back := by
  rw [List.append_assoc, List.append_assoc] at eq
  rcases List.append_eq_append_iff.1 eq with ⟨between, rfl, shifted⟩ | ⟨between, rfl, shifted⟩
  · cases between with
    | nil =>
      have same : rest = back := List.append_cancel_left shifted
      exact same ▸ List.suffix_refl _
    | cons c between =>
      -- the occurrence would begin inside of `front`
      have passed : after? needle (c :: between ++ needle ++ back) = none :=
        after?_eq_none_of_clear (h.of_suffix (List.suffix_append other _))
      rw [List.append_assoc, ← shifted, after?_append] at passed
      simp at passed
  · have whole : rest <:+ needle ++ back := ⟨between ++ needle, by simp [shifted]⟩
    have lengths := congrArg List.length shifted
    simp only [List.length_append] at lengths
    exact List.suffix_of_suffix_length_le whole (List.suffix_append needle back) (by omega)

theorem clear_of_cut? {needle t front back : Text} (ne : needle ≠ [])
    (h : cut? needle t = some (front, back)) : Clear needle front := by
  induction t generalizing front with
  | nil => simp [cut?, ne] at h
  | cons c t ih =>
    rw [cut?] at h
    split at h
    · simp only [Option.some.injEq, Prod.mk.injEq] at h
      exact h.1 ▸ clear_nil ne
    · next passed =>
      simp only [Option.map_eq_some_iff, Prod.exists, Prod.mk.injEq] at h
      obtain ⟨front, _, found, rfl, rfl⟩ := h
      intro early
      have early : needle <:+: c :: (front ++ needle.dropLast) := early
      rcases List.infix_cons_iff.1 early with here | later
      · have whole : needle <+: c :: t := by
          refine here.trans ?_
          rw [eq_of_cut? found, List.prefix_cons_inj, List.append_assoc,
            List.prefix_append_right_inj]
          exact (List.dropLast_prefix needle).trans (List.prefix_append _ _)
        obtain ⟨rest, eq⟩ := whole
        rw [after?_eq_some_iff.2 eq.symm] at passed
        simp at passed
      · exact ih found later

theorem cut?_eq_some_iff {needle t front back : Text} (ne : needle ≠ []) :
    cut? needle t = some (front, back) ↔ t = front ++ needle ++ back ∧ Clear needle front := by
  constructor
  · intro h
    exact ⟨eq_of_cut? h, clear_of_cut? ne h⟩
  · rintro ⟨rfl, clear⟩
    exact cut?_append ne clear back

theorem cut?_eq_none_iff {needle t : Text} : cut? needle t = none ↔ ¬ needle <:+: t := by
  rw [← occurs_iff, occurs, Bool.not_eq_true, Option.isSome_eq_false_iff, Option.isNone_iff_eq_none]

theorem cutLast?_eq_none_iff {mark : Char} {t : Text} : cutLast? mark t = none ↔ mark ∉ t := by
  induction t with
  | nil => simp
  | cons c t ih =>
    rw [cutLast?]
    cases found : cutLast? mark t with
    | some pieces => simpa [found] using fun _ => ih
    | none =>
      have absent := ih.1 found
      by_cases hc : c = mark
      · simp [hc]
      · simp [hc, absent, Ne.symm hc]

theorem cutLast?_append {mark : Char} {back : Text} (h : mark ∉ back) (front : Text) :
    cutLast? mark (front ++ mark :: back) = some (front, back) := by
  induction front with
  | nil => simp [cutLast?, cutLast?_eq_none_iff.2 h]
  | cons c front ih => rw [List.cons_append, cutLast?, ih]

theorem not_mem_of_cutLast? {mark : Char} {t front back : Text}
    (h : cutLast? mark t = some (front, back)) : mark ∉ back := by
  induction t generalizing front with
  | nil => simp at h
  | cons c t ih =>
    rw [cutLast?] at h
    cases found : cutLast? mark t with
    | some pieces =>
      rw [found] at h
      simp only [Option.some.injEq, Prod.mk.injEq] at h
      obtain ⟨-, rfl⟩ := h
      exact ih found
    | none =>
      rw [found] at h
      have absent := cutLast?_eq_none_iff.1 found
      by_cases hc : c = mark
      · simp only [hc, if_true, Option.some.injEq, Prod.mk.injEq] at h
        exact h.2 ▸ absent
      · simp [hc] at h

theorem cutLast?_eq_some_iff {mark : Char} {t front back : Text} :
    cutLast? mark t = some (front, back) ↔ t = front ++ mark :: back ∧ mark ∉ back := by
  constructor
  · intro h
    exact ⟨eq_of_cutLast? h, not_mem_of_cutLast? h⟩
  · rintro ⟨rfl, absent⟩
    exact cutLast?_append absent front

theorem exists_last_of_mem {mark : Char} {t : Text} (mem : mark ∈ t) :
    ∃ front back, t = front ++ mark :: back ∧ mark ∉ back := by
  cases found : cutLast? mark t with
  | some pieces => exact ⟨pieces.1, pieces.2, cutLast?_eq_some_iff.1 found⟩
  | none => exact absurd mem (cutLast?_eq_none_iff.1 found)

theorem prefix_of_not_mem {mark : Char} {front back other rest : Text} (last : mark ∉ back)
    (eq : other ++ mark :: rest = front ++ mark :: back) : other <+: front := by
  rcases List.append_eq_append_iff.1 eq with ⟨between, rfl, -⟩ | ⟨between, rfl, shifted⟩
  · exact List.prefix_append other between
  · cases between with
    | nil => simp
    | cons c between =>
      rw [List.cons_append, List.cons.injEq] at shifted
      simp [shifted.2] at last

theorem infix_append_cons {needle front back : Text} {c : Char} (absent : c ∉ needle)
    (h : needle <:+: front ++ c :: back) : needle <:+: front ∨ needle <:+: back := by
  have behind : ∀ part : Text, c ∉ part → part <+: c :: back → part = [] := by
    rintro (_ | ⟨d, part⟩) free ⟨rest, eq⟩
    · rfl
    · simp only [List.cons_append, List.cons.injEq] at eq
      exact absurd (eq.1 ▸ List.mem_cons_self) free
  rcases List.infix_append_iff.1 h with left | right | ⟨l₁, l₂, rfl, left, right⟩
  · exact .inl left
  · rcases List.infix_cons_iff.1 right with here | later
    · exact .inl (behind _ absent here ▸ List.nil_infix)
    · exact .inr later
  · have nothing := behind l₂ (fun mem => absent (List.mem_append_right _ mem)) right
    subst nothing
    exact .inl (by simpa using left.isInfix)

theorem prefix_append_cons_iff {needle front back : Text} {c : Char} (absent : c ∉ needle) :
    needle <+: front ++ c :: back ↔ needle <+: front := by
  constructor
  · rintro ⟨rest, eq⟩
    rcases List.append_eq_append_iff.1 eq with ⟨more, rfl, -⟩ | ⟨more, rfl, behind⟩
    · exact List.prefix_append _ _
    · cases more with
      | nil => simp
      | cons d more =>
        obtain rfl : c = d := by simpa using congrArg List.head? behind
        simp at absent
  · exact fun h => h.trans (List.prefix_append _ _)

theorem infix_around {u v front back : Text} {c : Char} (single : c ∉ v) (last : c ∉ back)
    (h : u ++ c :: v <:+: front ++ c :: back) :
    (u <:+ front ∧ v <+: back) ∨ u ++ c :: v <:+: front := by
  obtain ⟨ahead, behind, eq⟩ := h
  have eq : (ahead ++ u) ++ c :: (v ++ behind) = front ++ c :: back := by simpa using eq
  rcases List.append_eq_append_iff.1 eq with ⟨between, split, rest⟩ | ⟨between, split, rest⟩
  · cases between with
    | nil =>
      rw [List.nil_append, List.cons.injEq] at rest
      exact .inl ⟨⟨ahead, by simp [split]⟩, ⟨behind, rest.2⟩⟩
    | cons d between =>
      rw [List.cons_append, List.cons.injEq] at rest
      obtain ⟨rfl, rest⟩ := rest
      obtain ⟨more, rfl⟩ := (prefix_append_cons_iff single).1 ⟨behind, rest⟩
      exact .inr ⟨ahead, more, by simp [split]⟩
  · cases between with
    | nil =>
      rw [List.nil_append, List.cons.injEq] at rest
      exact .inl ⟨⟨ahead, by simpa using split⟩, ⟨behind, rest.2.symm⟩⟩
    | cons d between =>
      rw [List.cons_append, List.cons.injEq] at rest
      simp [rest.2] at last

theorem infix_append_of_head {needle front back : Text} (apart : ∀ c ∈ back.head?, c ∉ needle)
    (h : needle <:+: front ++ back) : needle <:+: front ∨ needle <:+: back := by
  cases back with
  | nil => exact .inl (by simpa using h)
  | cons c rest =>
    rcases infix_append_cons (apart c rfl) h with here | later
    · exact .inl here
    · exact .inr (later.trans (List.suffix_cons c rest).isInfix)

theorem infix_append_of_last {needle front back : Text} (apart : ∀ c ∈ front.getLast?, c ∉ needle)
    (h : needle <:+: front ++ back) : needle <:+: front ∨ needle <:+: back := by
  rcases List.eq_nil_or_concat front with rfl | ⟨rest, c, rfl⟩
  · exact .inr h
  · rw [List.concat_eq_append] at h apart ⊢
    have free : c ∉ needle := apart c (by simp)
    rw [List.append_assoc, List.singleton_append] at h
    rcases infix_append_cons free h with here | later
    · exact .inl (here.trans List.infix_append_left)
    · exact .inr later

theorem pair_infix_append_iff {a b : Char} {front back : Text} :
    [a, b] <:+: front ++ back ↔
      [a, b] <:+: front ∨ [a, b] <:+: back ∨ (front.getLast? = some a ∧ back.head? = some b) := by
  rw [List.infix_append_iff_ne_nil]
  have across :
      (∃ l₁ l₂ : Text, l₁ ≠ [] ∧ l₂ ≠ [] ∧ [a, b] = l₁ ++ l₂ ∧ l₁ <:+ front ∧ l₂ <+: back) ↔
      (front.getLast? = some a ∧ back.head? = some b) := by
    constructor
    · rintro ⟨l₁, l₂, ne₁, ne₂, eq, ⟨rest, rfl⟩, ⟨tail, rfl⟩⟩
      obtain ⟨c, l₁, rfl⟩ := List.exists_cons_of_ne_nil ne₁
      obtain ⟨d, l₂, rfl⟩ := List.exists_cons_of_ne_nil ne₂
      cases l₁ with
      | nil =>
        simp only [List.cons_append, List.nil_append, List.cons.injEq] at eq
        simp [eq.1, eq.2.1]
      | cons e l₁ => simp at eq
    · rintro ⟨last, head⟩
      obtain ⟨rest, rfl⟩ := List.getLast?_eq_some_iff.1 last
      obtain ⟨tail, rfl⟩ := List.head?_eq_some_iff.1 head
      exact ⟨[a], [b], by simp, by simp, rfl, List.suffix_append _ _, ⟨tail, rfl⟩⟩
  rw [across]

end Scaffold.Text
