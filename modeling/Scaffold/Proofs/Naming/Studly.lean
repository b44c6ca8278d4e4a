import Scaffold.Proofs.Naming.Plain

/-! The studly spelling of an arbitrary phrase. No capital divides words or names, so the
spelling has no word breaks, and no character but a word break is lost on the way; hence a
suffix on the spelling never gives the phrase back. -/

namespace Scaffold.Naming
open Text

variable {c d : Char} {t suffix : Text}

/-- What divides words, and what divides names. -/
def dividers : List (Nat × Nat) :=
  ['-', '_', '/', '\\'].map (fun c => (c.toNat, c.toNat)) ++ blankRanges

theorem within_dividers :
    within dividers c = false ↔ isWordBreak c = false ∧ c ≠ '/' ∧ c ≠ '\\' := by
  have single (d : Char) : (decide (d.toNat ≤ c.toNat) && decide (c.toNat ≤ d.toNat)) = (c == d) := by
    rw [Bool.eq_iff_iff, Bool.and_eq_true, decide_eq_true_eq, decide_eq_true_eq, beq_iff_eq,
      ← Char.toNat_inj]
    omega
  have split : within dividers c = (c == '-' || (c == '_' || (c == '/' || c == '\\'))
      || isBlank c) := by
    simp only [within, dividers, List.any_append, List.any_map, List.any_cons, List.any_nil,
      Function.comp_apply, single, Bool.or_false, isBlank]
  rw [split, isWordBreak]
  cases c == '-' <;> cases c == '_' <;> simp [and_comm]

theorem within_dividers_of_all (clear : t.all (!within dividers ·)) (mem : c ∈ t) :
    isWordBreak c = false ∧ c ≠ '/' ∧ c ≠ '\\' :=
  within_dividers.1 (by simpa using List.all_eq_true.1 clear c mem)

/-- The capitals of a run are clear of the dividers. -/
def clears (run : CaseRun) : Bool :=
  dividers.all fun (first, last) =>
    decide (run.last + run.offset < first) || decide (last < run.first + run.offset)

theorem within_dividers_of_clears {run : CaseRun} (clear : clears run) {n : Nat}
    (covered : run.covers n) : within dividers (Char.ofNat (n + run.offset).toNat) = false := by
  obtain ⟨inside, -⟩ := Bool.and_eq_true_iff.1 covered
  obtain ⟨low, high⟩ := Bool.and_eq_true_iff.1 inside
  rw [decide_eq_true_eq] at low high
  have positive : ∀ range ∈ dividers, 0 < range.1 := by decide +kernel
  -- a number that is no character's stands for the null character
  have code (m : Nat) : (Char.ofNat m).toNat = m ∨ (Char.ofNat m).toNat = 0 := by
    rw [Char.ofNat]
    by_cases valid : m.isValidChar
    · rw [dif_pos valid]
      exact .inl rfl
    · rw [dif_neg valid]
      exact .inr rfl
  rw [within, List.any_eq_false]
  rintro ⟨first, last⟩ mem
  have above := positive _ mem
  have apart := List.all_eq_true.1 clear _ mem
  simp only [Bool.or_eq_true, decide_eq_true_eq] at apart
  rw [Bool.and_eq_true, decide_eq_true_eq, decide_eq_true_eq]
  have value := code (n + run.offset).toNat
  omega

theorem within_dividers_of_mem_upperChar (h : d ∈ upperChar c) :
    d = c ∨ within dividers d = false := by
  unfold upperChar at h
  split at h
  · next ascii =>
    obtain rfl := List.mem_singleton.1 h
    refine forall_ascii (P := fun c => c.toUpper = c ∨ within dividers c.toUpper = false) ?_ ascii
    decide +kernel
  · split at h
    · next codes found =>
      obtain ⟨front, back, split, -⟩ := List.lookup_eq_some_iff.1 found
      have listed : (c.toNat, codes) ∈ caseExpansions := by simp [split]
      have expansions : ∀ entry ∈ caseExpansions, ∀ code ∈ entry.2,
          within dividers (Char.ofNat code) = false := by
        decide +kernel
      obtain ⟨code, mem, rfl⟩ := List.mem_map.1 h
      exact .inr (expansions _ listed code mem)
    · split at h
      · next run found =>
        obtain rfl := List.mem_singleton.1 h
        have runs : ∀ run ∈ caseRuns, clears run := by decide +kernel
        have covered : run.covers c.toNat := by simpa using List.find?_some found
        exact .inr (within_dividers_of_clears (runs run (List.mem_of_find?_eq_some found)) covered)
      · exact .inl (List.mem_singleton.1 h)

theorem upperChar_ne_nil (c : Char) : upperChar c ≠ [] := by
  unfold upperChar
  split
  · simp
  · split
    · next codes found =>
      obtain ⟨front, back, split, -⟩ := List.lookup_eq_some_iff.1 found
      have listed : (c.toNat, codes) ∈ caseExpansions := by simp [split]
      have filled : ∀ entry ∈ caseExpansions, entry.2 ≠ [] := by decide +kernel
      simpa using filled _ listed
    · split <;> simp

theorem mem_capitalised (h : c ∈ capitalised t) : c ∈ t ∨ within dividers c = false := by
  cases t with
  | nil => simp [capitalised] at h
  | cons first rest =>
    rcases List.mem_append.1 h with upper | mem
    · rcases within_dividers_of_mem_upperChar upper with rfl | clear
      · exact .inl (by simp)
      · exact .inr clear
    · exact .inl (List.mem_cons_of_mem _ mem)

theorem length_le_capitalised (t : Text) : t.length ≤ (capitalised t).length := by
  cases t with
  | nil => simp
  | cons first rest =>
    have longer := List.length_pos_iff.2 (upperChar_ne_nil first)
    simp only [capitalised, List.length_append, List.length_cons]
    omega

theorem mem_studly (h : c ∈ studly t) :
    isWordBreak c = false ∧ (c ∈ t ∨ c ≠ '/' ∧ c ≠ '\\') := by
  obtain ⟨word, split, inside⟩ := List.mem_flatMap.1 h
  rcases mem_capitalised inside with mem | clear
  · obtain ⟨within, whole⟩ := mem_of_mem_splitOnP split c mem
    have part : strip t <:+: t := trim_infix isBlank t
    exact ⟨whole, .inl (part.subset within)⟩
  · obtain ⟨whole, apart⟩ := within_dividers.1 clear
    exact ⟨whole, .inr apart⟩

theorem ne_studly_append (filled : suffix ≠ []) (clear : suffix.all (!within dividers ·)) :
    t ≠ studly t ++ suffix := by
  intro eq
  have words : ∀ c ∈ t, isWordBreak c = false := by
    intro c mem
    rw [eq] at mem
    rcases List.mem_append.1 mem with mem | mem
    · exact (mem_studly mem).1
    · exact (within_dividers_of_all clear mem).1
  have blanks : ∀ c ∈ t, isBlank c = false := fun c mem =>
    (Bool.or_eq_false_iff.1 (words c mem)).2
  have same : studly t = capitalised t := by
    rw [studly, strip, trim_eq_self (fun c mem => blanks c (List.mem_of_mem_head? mem))
      (fun c mem => blanks c (List.mem_of_mem_getLast? mem)), List.splitOnP_eq_singleton words]
    simp
  have length := congrArg List.length eq
  rw [List.length_append, same] at length
  have longer := length_le_capitalised t
  have more := List.length_pos_iff.2 filled
  omega

theorem not_mem_basename (name : Text) : '\\' ∉ basename name ∧ '/' ∉ basename name := by
  have each : EachSegment (fun segment => ∀ c ∈ segment, c ≠ '\\' ∧ c ≠ '/')
      (trimEnd isSeparator (backslashed name)) := by
    intro segment mem c inside
    obtain ⟨within, apart⟩ := mem_of_mem_splitOnP mem c inside
    refine ⟨by simpa using apart, ?_⟩
    rintro rfl
    exact not_mem_slash_backslashed name ((trimEnd_isPrefix _ _).subset within)
  have last := each.lastSegment
  exact ⟨fun mem => (last _ mem).1 rfl, fun mem => (last _ mem).2 rfl⟩

theorem solidSegment_studly_append (name : Text) (long : 1 < suffix.length)
    (clear : suffix.all (!within dividers ·)) :
    SolidSegment (studly (basename name) ++ suffix) := by
  have each : ∀ c ∈ studly (basename name) ++ suffix,
      isBlank c = false ∧ c ≠ '/' ∧ c ≠ '\\' := by
    intro c mem
    have apart : isWordBreak c = false ∧ c ≠ '/' ∧ c ≠ '\\' := by
      rcases List.mem_append.1 mem with base | back
      · obtain ⟨word, inside | apart⟩ := mem_studly base
        · obtain ⟨whole, free⟩ := not_mem_basename name
          exact ⟨word, fun same => free (same ▸ inside), fun same => whole (same ▸ inside)⟩
        · exact ⟨word, apart⟩
      · exact within_dividers_of_all clear back
    exact ⟨(Bool.or_eq_false_iff.1 apart.1).2, apart.2⟩
  have longer : 1 < (studly (basename name) ++ suffix).length := by
    rw [List.length_append]
    omega
  refine ⟨?_, ⟨fun mem => (each _ mem).2.2 rfl, fun mem => (each _ mem).2.1 rfl⟩,
    fun c mem => (each c (List.mem_of_mem_head? mem)).1,
    fun c mem => (each c (List.mem_of_mem_getLast? mem)).1⟩
  -- two characters at the least are neither an empty part nor a dot
  unfold Path.isPart
  cases short : studly (basename name) ++ suffix with
  | nil => simp [short] at longer
  | cons c rest =>
    cases rest with
    | nil => simp [short] at longer
    | cons d rest => simp

end Scaffold.Naming
