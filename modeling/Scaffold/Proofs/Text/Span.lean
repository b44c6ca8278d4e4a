import Mathlib.Data.List.Chain
import Scaffold.Proofs.Text.Line

/-! Lines by their offsets. A division of a text has no break within a span and one whole ending in
each gap, where a return and the feed behind it are one. Any division falls in with the lines of
the text from its first offset on, line by line, so there is just one. -/

namespace Scaffold

namespace Text

variable {t back : Text} {start stop : Nat} {span next : Nat × Nat}
  {others : List (Nat × Nat)}

/-- The text from one offset up to another. -/
def slice (t : Text) (start stop : Nat) : Text :=
  (t.take stop).drop start

theorem length_slice (start : Nat) (inside : stop ≤ t.length) :
    (slice t start stop).length = stop - start := by
  rw [slice, List.length_drop, List.length_take_of_le inside]

theorem slice_append_drop (ascends : start ≤ stop) (t : Text) :
    slice t start stop ++ t.drop stop = t.drop start := by
  obtain ⟨more, rfl⟩ := Nat.exists_eq_add_of_le ascends
  rw [slice, List.drop_take, Nat.add_sub_cancel_left, ← List.drop_drop, List.take_append_drop]

theorem slice_middle (front part back : Text) :
    slice (front ++ (part ++ back)) front.length (front.length + part.length) = part := by
  rw [slice, List.drop_take, List.drop_left, Nat.add_sub_cancel_left, List.take_left]

/-- Between the end of a line and the start of the next one there is one ending, all of it. -/
structure Gap (t : Text) (stop start : Nat) : Prop where
  ascends : stop < start
  ending : slice t stop start ∈ [['\r', '\n'], ['\r'], ['\n']]
  lone : slice t stop start = ['\r'] → t[start]? ≠ some '\n'

/-- The spans are lines that make up the text from an offset on. -/
structure Divides (t : Text) (start : Nat) (others : List (Nat × Nat)) : Prop where
  first : others.head?.map Prod.fst = some start
  last : others.getLast?.map Prod.snd = some t.length
  ordered : ∀ span ∈ others, span.1 ≤ span.2
  whole : ∀ span ∈ others, Unbroken (slice t span.1 span.2)
  gaps : others.IsChain fun span next => Gap t span.2 next.1

namespace Divides

theorem single (ascends : start ≤ t.length) (whole : Unbroken (slice t start t.length)) :
    Divides t start [(start, t.length)] :=
  ⟨rfl, rfl, by simpa using ascends, by simpa using whole, .singleton _⟩

theorem cons {later : Nat} (h : Divides t later others) (ordered : start ≤ stop)
    (whole : Unbroken (slice t start stop)) (gap : Gap t stop later) :
    Divides t start ((start, stop) :: others) := by
  cases others with
  | nil => simpa using h.first
  | cons next others =>
    have first : next.1 = later := by simpa using h.first
    refine ⟨rfl, ?_, ?_, ?_, .cons_cons (first ▸ gap) h.gaps⟩
    · rw [List.getLast?_cons_cons]
      exact h.last
    · exact List.forall_mem_cons.2 ⟨ordered, h.ordered⟩
    · exact List.forall_mem_cons.2 ⟨whole, h.whole⟩

theorem tail (h : Divides t start (span :: next :: others)) :
    Divides t next.1 (next :: others) ∧ Gap t span.2 next.1 := by
  have last := h.last
  rw [List.getLast?_cons_cons] at last
  obtain ⟨gap, gaps⟩ := List.isChain_cons_cons.1 h.gaps
  exact ⟨⟨rfl, last, (List.forall_mem_cons.1 h.ordered).2, (List.forall_mem_cons.1 h.whole).2,
    gaps⟩, gap⟩

theorem first_eq (h : Divides t start (span :: others)) : span.1 = start := by
  simpa using h.first

theorem start_le (h : Divides t start others) : start ≤ t.length := by
  induction others generalizing start with
  | nil => simpa using h.first
  | cons span others ih =>
    have ordered : start ≤ span.2 := h.first_eq ▸ h.ordered span List.mem_cons_self
    cases others with
    | nil =>
      have stop : span.2 = t.length := by simpa using h.last
      exact stop ▸ ordered
    | cons next rest =>
      obtain ⟨later, gap⟩ := h.tail
      exact (ordered.trans gap.ascends.le).trans (ih later)

end Divides

theorem gap_of_ending {ending : Ending} (inner : ending ≠ .last) (front : Text)
    (lone : ending = .cr → back.head? ≠ some '\n') :
    Gap (front ++ (ending.text ++ back)) front.length (front.length + ending.text.length) := by
  have between := slice_middle front ending.text back
  refine ⟨?_, ?_, fun cr => ?_⟩
  · have filled := List.length_pos_iff.2 (Ending.text_ne_nil inner)
    omega
  · rw [between]
    cases ending <;> simp_all [Ending.text]
  · rw [between] at cr
    have same : ending = .cr := by cases ending <;> simp_all [Ending.text]
    rw [← List.append_assoc, ← List.length_append, List.getElem?_append_right le_rfl, Nat.sub_self,
      ← List.head?_eq_getElem?]
    exact lone same

theorem Gap.exists_ending (gap : Gap t stop start) : ∃ ending : Ending,
    ending ≠ .last ∧ slice t stop start = ending.text ∧
      (ending = .cr → (t.drop start).head? ≠ some '\n') := by
  rw [List.head?_drop]
  have ending := gap.ending
  simp only [List.mem_cons, List.not_mem_nil, or_false] at ending
  rcases ending with crlf | cr | lf
  · exact ⟨.crlf, by decide, crlf, by simp⟩
  · exact ⟨.cr, by decide, cr, fun _ => gap.lone cr⟩
  · exact ⟨.lf, by decide, lf, by simp⟩

/-- The slices of the spans with what stands in the gaps between them. -/
def interleaved (t : Text) : List (Nat × Nat) → Text
  | [] => []
  | [span] => slice t span.1 span.2
  | span :: next :: rest =>
    slice t span.1 span.2 ++ (slice t span.2 next.1 ++ interleaved t (next :: rest))

theorem Divides.interleaved_eq (h : Divides t start others) :
    interleaved t others = t.drop start := by
  induction others generalizing start with
  | nil => simpa using h.first
  | cons span others ih =>
    have ordered := h.ordered span List.mem_cons_self
    obtain rfl := h.first_eq
    cases others with
    | nil =>
      have stop : span.2 = t.length := by simpa using h.last
      rw [interleaved, ← slice_append_drop ordered, stop, List.drop_length, List.append_nil]
    | cons next rest =>
      obtain ⟨later, gap⟩ := h.tail
      rw [interleaved, ih later, slice_append_drop gap.ascends.le, slice_append_drop ordered]

theorem Divides.eq_spansFrom (h : Divides t start others) :
    others = spansFrom start (lines (t.drop start)) := by
  -- one span at a time: what is behind its gap is divided in the same way from there on
  induction others generalizing start with
  | nil => simpa using h.first
  | cons span others ih =>
    have ordered := h.ordered span List.mem_cons_self
    have whole := h.whole span List.mem_cons_self
    obtain rfl := h.first_eq
    have split := slice_append_drop ordered t
    cases others with
    | nil =>
      have stop : span.2 = t.length := by simpa using h.last
      rw [stop, List.drop_length, List.append_nil] at split
      have length : span.1 + (t.drop span.1).length = span.2 := by
        rw [List.length_drop, ← stop]
        omega
      rw [← split, ← stop, lines_of_unbroken whole, spansFrom, spansFrom, stop, split, length]
    | cons next rest =>
      obtain ⟨later, gap⟩ := h.tail
      obtain ⟨ending, inner, between, lone⟩ := gap.exists_ending
      have bound := later.start_le
      have body := length_slice span.1 (gap.ascends.le.trans bound)
      have broken := length_slice span.2 bound
      have cut := lines_append whole inner lone
      rw [← between, slice_append_drop gap.ascends.le, split] at cut
      have stop : span.1 + (span.2 - span.1) = span.2 := Nat.add_sub_cancel' ordered
      have start : span.1 + (span.2 - span.1 + (next.1 - span.2)) = next.1 := by
        have ascends := gap.ascends
        omega
      rw [cut, spansFrom, ih later, Line.text, List.length_append, ← between, body, broken, stop,
        start]

end Text

open Text

theorem Proper.divides {ls : List Line} (proper : Proper ls) (front : Text) :
    Divides (front ++ joined ls) front.length (spansFrom front.length ls) := by
  induction proper generalizing front with
  | @last body whole =>
    have here := slice_middle front body []
    rw [List.append_nil, ← List.length_append] at here
    have single : Divides (front ++ body) front.length [(front.length, (front ++ body).length)] :=
      .single (by simp) (by rwa [here])
    simpa [spansFrom, Line.text, Ending.text] using single
  | @cons body ending rest whole inner lone _ ih =>
    have later := ih (front ++ (body ++ ending.text))
    have gap := gap_of_ending inner (front ++ body) lone
    have here := slice_middle front body (ending.text ++ joined rest)
    have text : front ++ joined (⟨body, ending⟩ :: rest) =
        front ++ (body ++ ending.text) ++ joined rest := by simp [Line.text]
    have start : front.length + (Line.mk body ending).text.length =
        (front ++ (body ++ ending.text)).length := by simp [Line.text]
    rw [spansFrom, start, text]
    refine later.cons ?_ ?_ ?_
    · exact Nat.le_add_right _ _
    · simpa using here.symm ▸ whole
    · simpa [Nat.add_assoc] using gap

namespace Text

theorem map_slice_spansFrom (ls : List Line) (front : Text) :
    (spansFrom front.length ls).map (fun span => slice (front ++ joined ls) span.1 span.2) =
      ls.map Line.body := by
  induction ls generalizing front with
  | nil => rfl
  | cons line rest ih =>
    have later := ih (front ++ line.text)
    have here := slice_middle front line.body (line.ending.text ++ joined rest)
    rw [List.length_append, List.append_assoc] at later
    rw [spansFrom, List.map_cons, List.map_cons, joined_cons, later, Line.text, List.append_assoc,
      here]

/-- The lines of a text by their offsets. They ascend from its start to its end, with one ending
between each and the next, and no other spans do; with the endings between them they give back the
text, which falls into proper lines in this way only. -/
theorem spans_divide (t : Text) :
    (∀ others, Divides t 0 others ↔ others = spans t) ∧
      (spans t).map (fun span => slice t span.1 span.2) = splitLines t ∧
      interleaved t (spans t) = t ∧ ∀ ls, (Proper ls ∧ joined ls = t) ↔ ls = lines t := by
  have divides := (proper_lines t).divides []
  have slices := map_slice_spansFrom (lines t) []
  rw [List.nil_append, joined_lines] at divides slices
  refine ⟨fun others => ⟨fun h => h.eq_spansFrom, fun same => same ▸ divides⟩, slices,
    divides.interleaved_eq, fun ls => ⟨fun ⟨proper, whole⟩ => ?_, fun same => ?_⟩⟩
  · rw [← whole, proper.lines_joined]
  · exact same ▸ ⟨proper_lines t, joined_lines t⟩

/-- Endings at both ends of a text, with a return and the feed behind it taken for one. -/
example : spans "\r\r\n\n".toList = [(0, 0), (1, 1), (3, 3), (4, 4)] := by decide

end Text
end Scaffold
