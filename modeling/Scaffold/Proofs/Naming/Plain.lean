import Scaffold.Proofs.Naming.Segment

/-! Plain names: non-empty segments of letters, digits and underscores of the basic repertoire,
set apart by separators. Reading such a name changes nothing but the slashes in it, and
qualifying it puts it below the root namespace with its last segment kept. -/

namespace Scaffold.Naming
open Text

def isPlainChar (c : Char) : Bool :=
  c.isAlphanum || c == '_'

theorem toNat_lt_of_isPlainChar {c : Char} (h : isPlainChar c) : c.toNat < 128 := by
  have bounded (last : UInt32) (ascii : last.toNat < 128) (h : c.val ≤ last) : c.toNat < 128 :=
    Nat.lt_of_le_of_lt (UInt32.le_iff_toNat_le.1 h) ascii
  rcases Bool.or_eq_true_iff.1 h with alphanum | underscore
  · rcases Bool.or_eq_true_iff.1 alphanum with alpha | digit
    · rcases Bool.or_eq_true_iff.1 alpha with upper | lower
      · exact bounded 'Z'.val (by decide) (of_decide_eq_true upper).2
      · exact bounded 'z'.val (by decide) (of_decide_eq_true (Bool.and_eq_true_iff.1 lower).2)
    · exact bounded '9'.val (by decide) (of_decide_eq_true (Bool.and_eq_true_iff.1 digit).2)
  · rw [beq_iff_eq.1 underscore]
    decide

theorem forall_ascii {P : Char → Prop} (h : ∀ n : Fin 128, P (Char.ofNat n)) {c : Char}
    (ascii : c.toNat < 128) : P c := by
  have at_ := h ⟨c.toNat, ascii⟩
  rwa [Char.ofNat_toNat] at at_

theorem apart_of_isPlainChar {c : Char} (h : isPlainChar c) :
    c ≠ '\\' ∧ c ≠ '/' ∧ c ≠ '.' ∧ isBlank c = false := by
  refine forall_ascii (P := fun c => isPlainChar c →
    c ≠ '\\' ∧ c ≠ '/' ∧ c ≠ '.' ∧ isBlank c = false) ?_ (toNat_lt_of_isPlainChar h) h
  decide +kernel

theorem isAlphanum_of_not_wordBreak {c : Char} (h : isPlainChar c) :
    (isWordBreak c = false → c.isAlphanum) ∧ (c ≠ '_' → isWordBreak c = false) := by
  refine forall_ascii (P := fun c => isPlainChar c →
    (isWordBreak c = false → c.isAlphanum) ∧ (c ≠ '_' → isWordBreak c = false)) ?_
    (toNat_lt_of_isPlainChar h) h
  decide +kernel

theorem isAlphanum_toUpper {c : Char} (h : c.isAlphanum) :
    upperChar c = [c.toUpper] ∧ c.toUpper.isAlphanum := by
  have plain : isPlainChar c := by simp [isPlainChar, h]
  have ascii := toNat_lt_of_isPlainChar plain
  refine ⟨by rw [upperChar, if_pos ascii], ?_⟩
  refine forall_ascii (P := fun c => c.isAlphanum → c.toUpper.isAlphanum) ?_ ascii h
  decide +kernel

structure PlainSegment (t : Text) : Prop where
  ne_nil : t ≠ []
  plain : ∀ c ∈ t, isPlainChar c

instance : DecidablePred PlainSegment := fun t =>
  decidable_of_iff (t ≠ [] ∧ t.all isPlainChar)
    ⟨fun h => ⟨h.1, List.all_eq_true.1 h.2⟩, fun h => ⟨h.1, List.all_eq_true.2 h.2⟩⟩

/-- Non-empty plain segments set apart by backslashes. -/
def Plain (name : Text) : Prop :=
  ∀ segment ∈ name.splitOn '\\', PlainSegment segment

instance : DecidablePred Plain := fun name =>
  inferInstanceAs (Decidable (∀ segment ∈ name.splitOn '\\', PlainSegment segment))

/-- Made of plain characters and separators. -/
def Spelled (t : Text) : Prop :=
  ∀ c ∈ t, c = '\\' ∨ isPlainChar c

instance : DecidablePred Spelled := fun t =>
  List.decidableBAll (fun c => c = '\\' ∨ isPlainChar c) t

theorem Spelled.not_mem {t : Text} (h : Spelled t) {c : Char}
    (other : c ≠ '\\' ∧ isPlainChar c = false) : c ∉ t := by
  intro mem
  rcases h c mem with rfl | plain
  · exact other.1 rfl
  · simp [other.2] at plain

namespace PlainSegment

variable {t : Text}

theorem not_mem_separator (h : PlainSegment t) : '\\' ∉ t := by
  intro mem
  exact (apart_of_isPlainChar (h.plain _ mem)).1 rfl

theorem not_mem_slash (h : PlainSegment t) : '/' ∉ t := by
  intro mem
  exact (apart_of_isPlainChar (h.plain _ mem)).2.1 rfl

theorem spelled (h : PlainSegment t) : Spelled t :=
  fun c mem => .inr (h.plain c mem)

theorem toPlain (h : PlainSegment t) : Plain t :=
  EachSegment.single h h.not_mem_separator

theorem solid (h : PlainSegment t) : SolidSegment t := by
  refine ⟨?_, ⟨h.not_mem_separator, h.not_mem_slash⟩, fun c mem => ?_, fun c mem => ?_⟩
  · have dot : t ≠ ['.'] := by
      rintro rfl
      exact absurd (h.plain '.' (by simp)) (by decide)
    simp [Path.isPart, h.ne_nil, dot]
  · exact (apart_of_isPlainChar (h.plain c (List.mem_of_mem_head? mem))).2.2.2
  · exact (apart_of_isPlainChar (h.plain c (List.mem_of_mem_getLast? mem))).2.2.2

end PlainSegment

theorem plainSegment_append {base suffix : Text} (h : ∀ c ∈ base, c.isAlphanum)
    (filled : suffix ≠ []) (letters : suffix.all Char.isAlphanum) :
    PlainSegment (base ++ suffix) := by
  refine ⟨by simp [filled], fun c mem => ?_⟩
  rcases List.mem_append.1 mem with mem | mem
  · simp [isPlainChar, h c mem]
  · simp [isPlainChar, List.all_eq_true.1 letters c mem]

theorem plain_append_iff {front back : Text} :
    Plain (front ++ '\\' :: back) ↔ Plain front ∧ Plain back :=
  EachSegment.append_iff

namespace Plain

variable {name : Text}

theorem lastSegment (h : Plain name) : PlainSegment (lastSegment name) :=
  EachSegment.lastSegment h

theorem spelled (h : Plain name) : Spelled name := by
  refine EachSegment.induct (P := PlainSegment) (Q := Spelled) ?_ ?_ h
  · intro t segment c mem
    exact .inr (segment.plain c mem)
  · intro front t _ segment ih c mem
    rw [List.mem_append, List.mem_cons] at mem
    rcases mem with mem | same | mem
    · exact ih c mem
    · exact .inl same
    · exact .inr (segment.plain c mem)

theorem filled (h : Plain name) : name ≠ [] :=
  (EachSegment.head (Q := fun _ => True) (fun _ => PlainSegment.ne_nil) (by simp) h).1

theorem not_mem_slash (h : Plain name) : '/' ∉ name :=
  h.spelled.not_mem (by decide)

theorem backslashed_eq (h : Plain name) : backslashed name = name :=
  backslashed_eq_self h.not_mem_slash

end Plain

/-- A name as it may be given: plain once its slashes are read as backslashes. -/
def PlainGiven (name : Text) : Prop :=
  Plain (backslashed name)

instance : DecidablePred PlainGiven := fun name =>
  inferInstanceAs (Decidable (Plain (backslashed name)))

theorem Plain.given {name : Text} (h : Plain name) : PlainGiven name := by
  rw [PlainGiven, h.backslashed_eq]
  exact h

namespace PlainGiven

variable {name : Text}

theorem solid (h : PlainGiven name) : SolidGiven name :=
  fun segment mem => (h segment mem).solid

theorem basename_eq (h : PlainGiven name) : basename name = lastSegment (backslashed name) :=
  h.solid.basename_eq

theorem basename (h : PlainGiven name) : PlainSegment (basename name) := by
  rw [h.basename_eq]
  exact Plain.lastSegment h

end PlainGiven

theorem PlainSegment.basename_eq {t : Text} (h : PlainSegment t) : basename t = t := by
  rw [h.toPlain.given.basename_eq, h.toPlain.backslashed_eq,
    lastSegment_of_not_mem h.not_mem_separator]

namespace PlainSegment

variable {t : Text}

theorem capitalised (h : ∀ c ∈ t, c.isAlphanum) :
    (capitalised t).length = t.length ∧ ∀ c ∈ capitalised t, c.isAlphanum := by
  cases t with
  | nil => simp [Naming.capitalised]
  | cons c t =>
    obtain ⟨single, alphanum⟩ := isAlphanum_toUpper (h c (by simp))
    rw [Naming.capitalised, single]
    refine ⟨rfl, fun d mem => ?_⟩
    rcases List.mem_cons.1 mem with rfl | mem
    · exact alphanum
    · exact h d (List.mem_cons_of_mem _ mem)

theorem studly_alphanum (h : PlainSegment t) : ∀ c ∈ studly t, c.isAlphanum := by
  rw [studly, h.solid.strip_eq]
  intro c mem
  obtain ⟨word, split, inside⟩ := List.mem_flatMap.1 mem
  have letters : ∀ d ∈ word, d.isAlphanum := fun d there =>
    have ⟨within, whole⟩ := mem_of_mem_splitOnP split d there
    (isAlphanum_of_not_wordBreak (h.plain d within)).1 whole
  exact (capitalised letters).2 c inside

end PlainSegment
end Scaffold.Naming
