import Mathlib.Algebra.GroupWithZero.Nat
import Mathlib.Data.List.Infix
import Scaffold.Proofs.Text.Line
import Scaffold.Proofs.Text.Replace

/-! Texts made of rows, each with a line feed behind it. A needle without line feeds lies within
one row; so the first line of a kind, the number of occurrences and a replacement are all read
off the rows. -/

namespace Scaffold.Text

variable {needle value row front back : Text} {rows : List Text} {c : Char}

def ofRows (rows : List Text) : Text :=
  rows.flatMap fun row => row ++ ['\n']

@[simp] theorem ofRows_nil : ofRows [] = [] := rfl

@[simp] theorem ofRows_cons (row : Text) (rows : List Text) :
    ofRows (row :: rows) = row ++ '\n' :: ofRows rows := by
  simp [ofRows]

@[simp] theorem ofRows_append (front back : List Text) :
    ofRows (front ++ back) = ofRows front ++ ofRows back :=
  List.flatMap_append

theorem infix_ofRows (mem : row ∈ rows) : row <:+: ofRows rows := by
  obtain ⟨before, behind, rfl⟩ := List.append_of_mem mem
  exact ⟨ofRows before, '\n' :: ofRows behind, by simp⟩

theorem not_mem_ofRows (other : c ≠ '\n') (absent : ∀ r ∈ rows, c ∉ r) : c ∉ ofRows rows := by
  simp only [ofRows, List.mem_flatMap, List.mem_append, List.mem_singleton]
  rintro ⟨r, mem, inside | rfl⟩
  · exact absent r mem inside
  · exact other rfl

theorem joinLines_append_lf (filled : rows ≠ []) (t : Text) :
    joinLines rows ++ '\n' :: t = ofRows rows ++ t := by
  induction rows with
  | nil => exact absurd rfl filled
  | cons row rows ih =>
    by_cases more : rows = []
    · simp [more, joinLines]
    · rw [joinLines_cons _ more, List.append_assoc, List.cons_append, ih more]
      simp

theorem first?_ofRows {p : Text → Bool} (whole : ∀ r ∈ rows, Unbroken r)
    (missed : ∀ r ∈ rows, p r = false) (unbroken : Unbroken row) (here : p row) (back : Text) :
    LineCut.first? p (lines (ofRows rows ++ (row ++ '\n' :: back))) =
      some ⟨ofRows rows, row, '\n' :: back⟩ := by
  have line : ∀ {r : Text}, Unbroken r → ∀ t, lines (r ++ '\n' :: t) = ⟨r, .lf⟩ :: lines t := by
    intro r whole t
    have ended : Ending.lf ≠ .last := by decide
    exact lines_append whole ended (by simp)
  induction rows with
  | nil => simp [line unbroken, LineCut.first?, here, Ending.text]
  | cons first rows ih =>
    have rest := ih (fun r mem => whole r (List.mem_cons_of_mem _ mem))
      fun r mem => missed r (List.mem_cons_of_mem _ mem)
    rw [ofRows_cons, List.append_assoc, List.cons_append, line (whole first List.mem_cons_self),
      LineCut.first?, if_neg (by simp [missed first List.mem_cons_self]), rest]
    simp [Line.text, Ending.text]

theorem isSome_after?_iff {t : Text} : (after? needle t).isSome ↔ needle <+: t := by
  simp only [Option.isSome_iff_exists, after?_eq_some_iff]
  exact ⟨fun ⟨rest, eq⟩ => ⟨rest, eq.symm⟩, fun ⟨rest, eq⟩ => ⟨rest, eq.symm⟩⟩

/-- How often a needle begins in a text. -/
def occurrences (needle t : Text) : Nat :=
  t.tails.countP fun back => (after? needle back).isSome

theorem occurrences_cons (needle : Text) (c : Char) (t : Text) :
    occurrences needle (c :: t) =
      occurrences needle t + if (after? needle (c :: t)).isSome then 1 else 0 := by
  rw [occurrences, List.tails_cons, List.countP_cons, occurrences]

theorem occurrences_eq_zero_iff {t : Text} : occurrences needle t = 0 ↔ ¬ needle <:+: t := by
  simp only [occurrences, List.countP_eq_zero, List.mem_tails, isSome_after?_iff,
    List.infix_iff_prefix_suffix]
  exact ⟨fun h ⟨back, here, part⟩ => h back part here, fun h back part here => h ⟨back, here, part⟩⟩

theorem occurrences_nil (filled : needle ≠ []) : occurrences needle [] = 0 :=
  occurrences_eq_zero_iff.2 (by simpa using filled)

theorem occurrences_append_cons (filled : needle ≠ []) (absent : c ∉ needle)
    (front back : Text) :
    occurrences needle (front ++ c :: back) =
      occurrences needle front + occurrences needle back := by
  induction front with
  | nil =>
    have none_ : ¬ (after? needle (c :: back)).isSome := by
      have nothing : needle <+: [] ++ c :: back ↔ needle <+: [] := prefix_append_cons_iff absent
      rw [isSome_after?_iff]
      exact fun here => filled (List.prefix_nil.1 (nothing.1 here))
    rw [List.nil_append, occurrences_cons, if_neg none_, occurrences_nil filled]
    omega
  | cons d front ih =>
    have same : (after? needle (d :: (front ++ c :: back))).isSome =
        (after? needle (d :: front)).isSome := by
      rw [Bool.eq_iff_iff, isSome_after?_iff, isSome_after?_iff, ← List.cons_append]
      exact prefix_append_cons_iff absent
    rw [List.cons_append, occurrences_cons, ih, same, occurrences_cons]
    omega

theorem occurrences_ofRows (filled : needle ≠ []) (whole : '\n' ∉ needle) (rows : List Text) :
    occurrences needle (ofRows rows) = (rows.map (occurrences needle)).sum := by
  induction rows with
  | nil => exact occurrences_nil filled
  | cons row rows ih =>
    rw [ofRows_cons, occurrences_append_cons filled whole, ih, List.map_cons, List.sum_cons]

theorem sum_occurrences_eq_zero (bare : ∀ r ∈ rows, ¬ needle <:+: r) :
    (rows.map (occurrences needle)).sum = 0 := by
  induction rows with
  | nil => rfl
  | cons row rows ih =>
    have here := occurrences_eq_zero_iff.2 (bare row List.mem_cons_self)
    rw [List.map_cons, List.sum_cons, here, ih fun r mem => bare r (List.mem_cons_of_mem _ mem)]

/-- An occurrence of the needle that begins before the text does not reach into it. -/
def StopsAt (needle back : Text) : Prop :=
  ∀ part ∈ needle.tail.tails, part ≠ [] → ¬ part <+: back

instance (needle back : Text) : Decidable (StopsAt needle back) :=
  inferInstanceAs (Decidable (∀ part ∈ needle.tail.tails, part ≠ [] → ¬ part <+: back))

theorem stopsAt_cons (absent : c ∉ needle) (back : Text) : StopsAt needle (c :: back) := by
  intro part inside more begins
  obtain ⟨d, part, rfl⟩ := List.exists_cons_of_ne_nil more
  obtain ⟨rfl, -⟩ := List.cons_prefix_cons.1 begins
  have within := ((List.mem_tails _ _).1 inside).trans (List.tail_suffix needle)
  exact absent (within.subset List.mem_cons_self)

theorem replaceAll_append_of_stopsAt (filled : needle ≠ []) (stops : StopsAt needle back)
    (front : Text) :
    replaceAll needle value (front ++ back) =
      replaceAll needle value front ++ replaceAll needle value back := by
  cases found : cut? needle front with
  | none =>
    have free := cut?_eq_none_iff.1 found
    rw [replaceAll_eq_self free, replaceAll_append]
    intro part inside more
    rw [← Option.not_isSome_iff_eq_none, isSome_after?_iff]
    intro here
    -- an occurrence across the joint would have `back` begin with a tail of the needle
    rcases List.prefix_or_prefix_of_prefix here (List.prefix_append part back) with within | beyond
    · exact free (within.isInfix.trans inside.isInfix)
    · obtain ⟨rest, rfl⟩ := beyond
      rw [List.prefix_append_right_inj] at here
      by_cases whole : rest = []
      · exact free (by simpa [whole] using inside.isInfix)
      · obtain ⟨d, part, rfl⟩ := List.exists_cons_of_ne_nil more
        exact stops rest ((List.mem_tails _ _).2 (List.suffix_append part rest)) whole here
  | some pieces =>
    obtain ⟨eq, clear⟩ := (cut?_eq_some_iff filled).1 found
    have shorter : pieces.2.length < front.length := by
      have long := List.length_pos_iff.2 filled
      rw [eq, List.length_append, List.length_append]
      omega
    have rest := replaceAll_append_of_stopsAt filled stops pieces.2
    rw [eq, List.append_assoc, List.append_assoc, List.append_assoc,
      replaceAll_of_clear filled clear, rest, replaceAll_of_clear filled clear]
    simp
termination_by front.length

theorem replaceAll_append_cons (filled : needle ≠ []) (absent : c ∉ needle) (front back : Text) :
    replaceAll needle value (front ++ c :: back) =
      replaceAll needle value front ++ c :: replaceAll needle value back := by
  have passed : replaceAll needle value ([c] ++ back) = [c] ++ replaceAll needle value back := by
    refine replaceAll_append_of_not_mem (List.head?_eq_some_head filled) ?_ back
    rw [List.mem_singleton]
    exact ne_of_mem_of_not_mem (List.head_mem filled) absent
  rw [replaceAll_append_of_stopsAt filled (stopsAt_cons absent back)]
  exact congrArg (_ ++ ·) passed

theorem replaceAll_ofRows (filled : needle ≠ []) (whole : '\n' ∉ needle) (rows : List Text) :
    replaceAll needle value (ofRows rows) = ofRows (rows.map (replaceAll needle value)) := by
  induction rows with
  | nil => rfl
  | cons row rows ih =>
    rw [ofRows_cons, replaceAll_append_cons filled whole, ih, List.map_cons, ofRows_cons]

end Scaffold.Text
