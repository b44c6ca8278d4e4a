import Scaffold.Naming.Qualifier
import Scaffold.Path
import Scaffold.Proofs.Text.Search
import Scaffold.Proofs.Text.Trim

/-! The segments of a name. A name is cut at its separators once and for all: what holds of every
segment is proved along them, and where no segment has white space at its ends or is dropped by a
path, reading the name changes nothing but the slashes in it. -/

namespace Scaffold.Naming
open Text

theorem lastSegment_of_not_mem {t : Text} (h : '\\' ∉ t) : lastSegment t = t := by
  rw [lastSegment, cutLast?_eq_none_iff.2 h]

theorem lastSegment_append (front back : Text) :
    lastSegment (front ++ '\\' :: back) = lastSegment back := by
  cases cut : cutLast? '\\' back with
  | none =>
    rw [lastSegment_of_not_mem (cutLast?_eq_none_iff.1 cut), lastSegment,
      cutLast?_append (cutLast?_eq_none_iff.1 cut)]
  | some pieces =>
    obtain ⟨rfl, absent⟩ := cutLast?_eq_some_iff.1 cut
    have whole : front ++ '\\' :: (pieces.1 ++ '\\' :: pieces.2) =
        (front ++ '\\' :: pieces.1) ++ '\\' :: pieces.2 := by simp
    rw [whole, lastSegment, lastSegment, cutLast?_append absent, cutLast?_append absent]

theorem namespaceOf_append {space base : Text} (single : '\\' ∉ base) :
    namespaceOf (space ++ '\\' :: base) = space := by
  rw [namespaceOf, cutLast?_append single]

theorem namespaceOf_begins {name : Text} : namespaceOf name <+: name := by
  unfold namespaceOf
  split
  · next space base cut =>
    rw [eq_of_cutLast? cut]
    exact List.prefix_append _ _
  · exact List.nil_prefix

theorem namespaceOf_lastSegment (front back : Text) :
    namespaceOf (front ++ '\\' :: back) ++ '\\' :: lastSegment (front ++ '\\' :: back) =
      front ++ '\\' :: back := by
  cases cut : cutLast? '\\' (front ++ '\\' :: back) with
  | none => exact absurd (cutLast?_eq_none_iff.1 cut) (by simp)
  | some pieces =>
    rw [namespaceOf, lastSegment, cut]
    exact (eq_of_cutLast? cut).symm

theorem splitOn_eq_concat (t : Text) :
    t.splitOn '\\' = (t.splitOn '\\').dropLast ++ [lastSegment t] := by
  cases cut : cutLast? '\\' t with
  | none =>
    have absent := cutLast?_eq_none_iff.1 cut
    rw [lastSegment_of_not_mem absent, List.splitOn_eq_singleton absent]
    rfl
  | some pieces =>
    obtain ⟨rfl, absent⟩ := cutLast?_eq_some_iff.1 cut
    rw [lastSegment_append, lastSegment_of_not_mem absent, List.splitOn_append_cons_self,
      List.splitOn_eq_singleton absent, List.dropLast_concat]

theorem mem_of_mem_splitOnP {p : Char → Bool} {t word : Text} (h : word ∈ t.splitOnP p) :
    ∀ c ∈ word, c ∈ t ∧ p c = false := by
  induction t generalizing word with
  | nil =>
    rw [List.splitOnP_nil, List.mem_singleton] at h
    simp [h]
  | cons a t ih =>
    rw [List.splitOnP_cons_eq_if_modifyHead] at h
    split at h
    · rcases List.mem_cons.1 h with rfl | h
      · simp
      · exact fun c mem => ⟨List.mem_cons_of_mem _ (ih h c mem).1, (ih h c mem).2⟩
    · next divides =>
      cases words : t.splitOnP p with
      | nil => exact absurd words (List.splitOnP_ne_nil p t)
      | cons first others =>
        rw [words, List.modifyHead_cons] at h
        intro c mem
        rcases List.mem_cons.1 h with rfl | h
        · rcases List.mem_cons.1 mem with rfl | mem
          · exact ⟨by simp, by simpa using divides⟩
          · have inner := ih (words ▸ List.mem_cons_self) c mem
            exact ⟨List.mem_cons_of_mem _ inner.1, inner.2⟩
        · have inner := ih (words ▸ List.mem_cons_of_mem _ h) c mem
          exact ⟨List.mem_cons_of_mem _ inner.1, inner.2⟩

/-- What every segment of a name is. -/
def EachSegment (P : Text → Prop) (name : Text) : Prop :=
  ∀ segment ∈ name.splitOn '\\', P segment

instance {P : Text → Prop} [DecidablePred P] : DecidablePred (EachSegment P) := fun name =>
  inferInstanceAs (Decidable (∀ segment ∈ name.splitOn '\\', P segment))

namespace EachSegment

variable {P : Text → Prop} {name front back : Text}

theorem append_iff : EachSegment P (front ++ '\\' :: back) ↔
    EachSegment P front ∧ EachSegment P back := by
  rw [EachSegment, List.splitOn_append_cons_self, List.forall_mem_append]
  rfl

theorem single (h : P name) (whole : '\\' ∉ name) : EachSegment P name := by
  rw [EachSegment, List.splitOn_eq_singleton whole]
  simpa using h

theorem lastSegment (h : EachSegment P name) : P (lastSegment name) := by
  apply h
  rw [splitOn_eq_concat]
  simp

theorem induct {Q : Text → Prop} (segment : ∀ t, P t → Q t)
    (nested : ∀ front t, EachSegment P front → P t → Q front → Q (front ++ '\\' :: t))
    {name : Text} (h : EachSegment P name) : Q name := by
  cases cut : cutLast? '\\' name with
  | none =>
    have absent := cutLast?_eq_none_iff.1 cut
    have last := h.lastSegment
    rw [lastSegment_of_not_mem absent] at last
    exact segment name last
  | some pieces =>
    obtain ⟨eq, absent⟩ := cutLast?_eq_some_iff.1 cut
    rw [eq] at h ⊢
    obtain ⟨others, -⟩ := append_iff.1 h
    have last := h.lastSegment
    rw [lastSegment_append, lastSegment_of_not_mem absent] at last
    exact nested _ _ others last (induct segment nested others)
termination_by name.length
decreasing_by rw [eq, List.length_append, List.length_cons]; omega

theorem head {Q : Char → Prop} (filled : ∀ t, P t → t ≠ [])
    (first : ∀ t, P t → ∀ c ∈ t.head?, Q c) (h : EachSegment P name) :
    name ≠ [] ∧ ∀ c ∈ name.head?, Q c := by
  refine h.induct (Q := fun name => name ≠ [] ∧ ∀ c ∈ name.head?, Q c) ?_ ?_
  · exact fun t segment => ⟨filled t segment, first t segment⟩
  · intro front t _ _ ih
    cases front with
    | nil => exact absurd rfl ih.1
    | cons c front => exact ⟨by simp, ih.2⟩

theorem last {Q : Char → Prop} (filled : ∀ t, P t → t ≠ [])
    (ends : ∀ t, P t → ∀ c ∈ t.getLast?, Q c) (h : EachSegment P name) :
    ∀ c ∈ name.getLast?, Q c := by
  refine h.induct (Q := fun name => ∀ c ∈ name.getLast?, Q c) ends ?_
  intro front t _ segment _ c mem
  refine ends t segment c ?_
  cases t with
  | nil => exact absurd rfl (filled [] segment)
  | cons d t => simpa using mem

theorem not_mem {c : Char} (other : c ≠ '\\') (free : ∀ t, P t → c ∉ t)
    (h : EachSegment P name) : c ∉ name := by
  refine h.induct (Q := fun name => c ∉ name) free ?_
  intro front t _ segment ih
  simp [ih, other, free t segment]

end EachSegment

/-- A segment from which neither trimming nor a path takes anything. -/
structure SolidSegment (t : Text) : Prop where
  part : Path.isPart t
  single : '\\' ∉ t ∧ '/' ∉ t
  opens : ∀ c ∈ t.head?, isBlank c = false
  ends : ∀ c ∈ t.getLast?, isBlank c = false

instance : DecidablePred SolidSegment := fun t =>
  decidable_of_iff (Path.isPart t ∧ ('\\' ∉ t ∧ '/' ∉ t) ∧
      t.head?.all (!isBlank ·) ∧ t.getLast?.all (!isBlank ·))
    ⟨fun ⟨part, single, opens, ends⟩ =>
        ⟨part, single, by simpa [Option.all_eq_true] using opens,
          by simpa [Option.all_eq_true] using ends⟩,
      fun h => ⟨h.part, h.single, by simpa [Option.all_eq_true] using h.opens,
        by simpa [Option.all_eq_true] using h.ends⟩⟩

namespace SolidSegment

variable {t : Text}

theorem ne_nil (h : SolidSegment t) : t ≠ [] := by
  rintro rfl
  simpa [Path.isPart] using h.part

theorem strip_eq (h : SolidSegment t) : strip t = t :=
  trim_eq_self h.opens h.ends

theorem apart (h : SolidSegment t) {c : Char} (mem : c ∈ t) : c ≠ '\\' ∧ c ≠ '/' := by
  constructor <;> rintro rfl
  · exact h.single.1 mem
  · exact h.single.2 mem

theorem outer (h : SolidSegment t) {c : Char} (mem : c ∈ t.head? ∨ c ∈ t.getLast?) :
    isBlank c = false ∧ c ≠ '\\' ∧ c ≠ '/' := by
  rcases mem with mem | mem
  · exact ⟨h.opens c mem, h.apart (List.mem_of_mem_head? mem)⟩
  · exact ⟨h.ends c mem, h.apart (List.mem_of_mem_getLast? mem)⟩

end SolidSegment

theorem EachSegment.not_mem_slash {name : Text} (h : EachSegment SolidSegment name) : '/' ∉ name :=
  h.not_mem (by decide) fun _ segment => segment.single.2

theorem EachSegment.filled {name : Text} (h : EachSegment SolidSegment name) : name ≠ [] :=
  (h.head (Q := fun _ => True) (fun _ => SolidSegment.ne_nil) (by simp)).1

theorem EachSegment.trimEnd_eq {name : Text} (h : EachSegment SolidSegment name) :
    trimEnd isSeparator name = name := by
  refine trimEnd_eq_self_iff.2 (h.last (fun _ => SolidSegment.ne_nil) ?_)
  intro t segment c mem
  simpa [isSeparator] using (segment.outer (.inr mem)).2.1

theorem backslashed_append (s t : Text) : backslashed (s ++ t) = backslashed s ++ backslashed t :=
  List.map_append

theorem not_mem_slash_backslashed (name : Text) : '/' ∉ backslashed name := by
  intro mem
  obtain ⟨c, -, eq⟩ := List.mem_map.1 mem
  split at eq
  · simp at eq
  · next other => exact other eq

theorem backslashed_eq_self {name : Text} (h : '/' ∉ name) : backslashed name = name := by
  have same : ∀ c ∈ name, (if c = '/' then '\\' else c) = c := by
    intro c mem
    have ne : c ≠ '/' := fun eq => h (eq ▸ mem)
    rw [if_neg ne]
  rw [backslashed, List.map_congr_left same, List.map_id']

/-- A name as it may be given, with slashes or backslashes between its segments. -/
def SolidGiven (name : Text) : Prop :=
  EachSegment SolidSegment (backslashed name)

instance : DecidablePred SolidGiven := fun name =>
  inferInstanceAs (Decidable (EachSegment SolidSegment (backslashed name)))

namespace SolidGiven

variable {name : Text}

theorem head (h : SolidGiven name) :
    ∀ c ∈ name.head?, isBlank c = false ∧ c ≠ '\\' ∧ c ≠ '/' := by
  intro c mem
  have outer := (EachSegment.head (fun _ => SolidSegment.ne_nil)
    (fun _ segment _ first => segment.outer (.inl first)) h).2 (if c = '/' then '\\' else c) (by
      rw [backslashed, List.head?_map, mem]
      rfl)
  split at outer
  · simp at outer
  · exact outer

theorem last (h : SolidGiven name) :
    ∀ c ∈ name.getLast?, isBlank c = false ∧ c ≠ '\\' ∧ c ≠ '/' := by
  intro c mem
  have outer := EachSegment.last (fun _ => SolidSegment.ne_nil)
    (fun _ segment _ ends => segment.outer (.inr ends)) h (if c = '/' then '\\' else c) (by
      rw [backslashed, List.getLast?_map, mem]
      rfl)
  split at outer
  · simp at outer
  · exact outer

theorem normalised_eq (h : SolidGiven name) :
    Qualifier.normalised name = backslashed name := by
  have blanks : strip name = name :=
    trim_eq_self (fun c mem => (h.head c mem).1) fun c mem => (h.last c mem).1
  have separators : trim (fun c => c == '\\' || c == '/') name = name := by
    refine trim_eq_self (fun c mem => ?_) fun c mem => ?_
    · simp [h.head c mem]
    · simp [h.last c mem]
  rw [Qualifier.normalised, blanks, separators]

theorem basename_eq (h : SolidGiven name) : basename name = lastSegment (backslashed name) := by
  rw [basename, EachSegment.trimEnd_eq h]

theorem basename (h : SolidGiven name) : SolidSegment (basename name) := by
  rw [h.basename_eq]
  exact EachSegment.lastSegment h

end SolidGiven
end Scaffold.Naming
