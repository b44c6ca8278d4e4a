import Mathlib.Algebra.BigOperators.Group.List.Basic
import Mathlib.Algebra.Order.Ring.Int
import Scaffold.Proofs.Text.Search

/-! Nesting of braces. The depth of a text is what it opens less what it closes, and a text is
well nested if no part in front of it closes more than it opened and nothing is left open. The
last closing brace of such a text ends a body of the outermost level. -/

namespace Scaffold.Text

variable {s t front back : Text} {level : Int}

/-- One level for an opening brace, one level back for a closing one. -/
def braceStep (c : Char) : Int :=
  if c = '\x7b' then 1 else if c = '\x7d' then -1 else 0

def depth (t : Text) : Int :=
  (t.map braceStep).sum

@[simp] theorem depth_nil : depth [] = 0 := rfl

@[simp] theorem depth_cons (c : Char) (t : Text) : depth (c :: t) = braceStep c + depth t := by
  simp [depth]

@[simp] theorem depth_append (s t : Text) : depth (s ++ t) = depth s + depth t := by
  simp [depth]

/-- Read from the level given, no part at the front goes below the ground. -/
def StaysUp (level : Int) (t : Text) : Prop :=
  ∀ front, front <+: t → 0 ≤ level + depth front

theorem staysUp_nil : StaysUp level [] ↔ 0 ≤ level := by
  simp [StaysUp]

theorem staysUp_cons {c : Char} :
    StaysUp level (c :: t) ↔ 0 ≤ level ∧ StaysUp (level + braceStep c) t := by
  constructor
  · intro h
    refine ⟨by simpa using h [] List.nil_prefix, fun front part => ?_⟩
    have longer := h (c :: front) ((List.prefix_cons_inj c).2 part)
    rw [depth_cons] at longer
    omega
  · rintro ⟨ground, rest⟩ front part
    cases front with
    | nil => simpa using ground
    | cons d front =>
      obtain ⟨rfl, inner⟩ := List.cons_prefix_cons.1 part
      have later := rest front inner
      rw [depth_cons]
      omega

theorem staysUp_append :
    StaysUp level (s ++ t) ↔ StaysUp level s ∧ StaysUp (level + depth s) t := by
  induction s generalizing level with
  | nil =>
    have ground : StaysUp level t → 0 ≤ level := fun h => by simpa using h [] List.nil_prefix
    simpa [staysUp_nil] using ground
  | cons c s ih =>
    rw [List.cons_append, staysUp_cons, ih, staysUp_cons, depth_cons, add_assoc, and_assoc]

instance decidableStaysUp : (level : Int) → (t : Text) → Decidable (StaysUp level t)
  | _, [] => decidable_of_iff _ staysUp_nil.symm
  | level, c :: t =>
    have := decidableStaysUp (level + braceStep c) t
    decidable_of_iff _ staysUp_cons.symm

/-- Every closing brace closes one that was opened before, and none is left open. -/
structure WellNested (t : Text) : Prop where
  staysUp : StaysUp 0 t
  closed : depth t = 0

instance (t : Text) : Decidable (WellNested t) :=
  decidable_of_iff (StaysUp 0 t ∧ depth t = 0) ⟨fun h => ⟨h.1, h.2⟩, fun h => ⟨h.1, h.2⟩⟩

structure BraceFree (t : Text) : Prop where
  opens : '\x7b' ∉ t
  closes : '\x7d' ∉ t

theorem BraceFree.of_cons {c : Char} (h : BraceFree (c :: t)) : braceStep c = 0 ∧ BraceFree t := by
  obtain ⟨opens, closes⟩ := h
  simp only [List.mem_cons, not_or] at opens closes
  exact ⟨by rw [braceStep, if_neg (Ne.symm opens.1), if_neg (Ne.symm closes.1)], opens.2, closes.2⟩

theorem BraceFree.depth_eq (h : BraceFree t) : depth t = 0 := by
  induction t with
  | nil => rfl
  | cons c t ih => rw [depth_cons, h.of_cons.1, ih h.of_cons.2, add_zero]

theorem BraceFree.staysUp_iff (h : BraceFree t) : StaysUp level t ↔ 0 ≤ level := by
  induction t with
  | nil => exact staysUp_nil
  | cons c t ih => rw [staysUp_cons, h.of_cons.1, add_zero, ih h.of_cons.2, and_self]

namespace WellNested

theorem nil : WellNested [] := ⟨staysUp_nil.2 le_rfl, rfl⟩

theorem staysUp_iff (h : WellNested t) : StaysUp level t ↔ 0 ≤ level := by
  refine ⟨fun up => by simpa using up [] List.nil_prefix, fun ground front part => ?_⟩
  have above := h.staysUp front part
  omega

theorem append (hs : WellNested s) (ht : WellNested t) : WellNested (s ++ t) := by
  refine ⟨staysUp_append.2 ⟨hs.staysUp, ?_⟩, by rw [depth_append, hs.closed, ht.closed, add_zero]⟩
  rw [hs.closed, add_zero]
  exact ht.staysUp

theorem of_braceFree (h : BraceFree t) : WellNested t :=
  ⟨h.staysUp_iff.2 le_rfl, h.depth_eq⟩

theorem enclosed (h : WellNested t) : WellNested ('\x7b' :: t ++ ['\x7d']) := by
  refine ⟨?_, by simp [h.closed, braceStep]⟩
  rw [List.cons_append, staysUp_cons, staysUp_append, h.staysUp_iff, h.closed]
  decide

theorem insert (h : WellNested (front ++ back)) {part : Text} (free : BraceFree part) :
    WellNested (front ++ part ++ back) := by
  obtain ⟨up, closed⟩ := h
  rw [staysUp_append] at up
  have ground : 0 ≤ 0 + depth front := by simpa using up.2 [] List.nil_prefix
  refine ⟨?_, by simpa [free.depth_eq] using closed⟩
  rw [staysUp_append, staysUp_append, free.staysUp_iff, depth_append, free.depth_eq, add_zero]
  exact ⟨⟨up.1, ground⟩, up.2⟩

end WellNested

theorem exists_opening {t : Text} {level : Nat} (h : depth t = level + 1) :
    ∃ outer body, t = outer ++ '\x7b' :: body ∧ depth outer = level ∧ WellNested body := by
  rcases List.eq_nil_or_concat t with rfl | ⟨s, c, rfl⟩
  · simp only [depth_nil] at h
    omega
  rw [List.concat_eq_append] at h ⊢
  simp only [depth_append, depth_cons, depth_nil, add_zero] at h
  by_cases opens : c = '\x7b'
  · subst opens
    exact ⟨s, [], rfl, by simp [braceStep] at h; omega, .nil⟩
  by_cases closes : c = '\x7d'
  · -- the brace that this one closes comes off first, with all in between
    subst closes
    have higher : depth s = (level + 1 : Nat) + 1 := by
      simp [braceStep] at h
      omega
    obtain ⟨inner, body, rfl, lower, nested⟩ := exists_opening higher
    have same : depth inner = level + 1 := by simpa using lower
    obtain ⟨outer, before, rfl, ground, nested'⟩ := exists_opening same
    refine ⟨outer, before ++ ('\x7b' :: body ++ ['\x7d']), by simp, ground, ?_⟩
    exact nested'.append nested.enclosed
  · have step : braceStep c = 0 := by rw [braceStep, if_neg opens, if_neg closes]
    have same : depth s = level + 1 := by omega
    obtain ⟨outer, body, rfl, ground, nested⟩ := exists_opening same
    refine ⟨outer, body ++ [c], by simp, ground, nested.append (.of_braceFree ⟨?_, ?_⟩)⟩
    · simpa using Ne.symm opens
    · simpa using Ne.symm closes
termination_by t.length
decreasing_by all_goals simp_all

theorem depth_eq_count (unclosed : '\x7d' ∉ t) : depth t = t.count '\x7b' := by
  induction t with
  | nil => rfl
  | cons c t ih =>
    simp only [List.mem_cons, not_or] at unclosed
    rw [depth_cons, ih unclosed.2, List.count_cons, braceStep, if_neg (Ne.symm unclosed.1)]
    by_cases opens : c = '\x7b' <;> simp [opens]
    omega

theorem WellNested.exists_last_body (h : WellNested t) (closes : '\x7d' ∈ t) :
    ∃ outer body tail, t = outer ++ '\x7b' :: body ++ '\x7d' :: tail ∧
      WellNested outer ∧ WellNested body ∧ BraceFree tail := by
  obtain ⟨front, tail, rfl, last⟩ := exists_last_of_mem closes
  have opened := depth_eq_count last
  have up := staysUp_append.1 h.staysUp
  have above : 0 ≤ depth front - 1 := by
    have part : ['\x7d'] <+: '\x7d' :: tail := ⟨tail, rfl⟩
    have lower := up.2 _ part
    simpa [braceStep, sub_eq_add_neg] using lower
  have whole : depth front - 1 + depth tail = 0 := by
    simpa [braceStep, sub_eq_add_neg, add_assoc] using h.closed
  -- nothing closes behind the brace and the text ends on the ground, so it leads there
  have one : depth front = (0 : Nat) + 1 := by omega
  have none : tail.count '\x7b' = 0 := by omega
  obtain ⟨outer, body, rfl, ground, nested⟩ := exists_opening one
  refine ⟨outer, body, tail, rfl, ⟨(staysUp_append.1 up.1).1, by simpa using ground⟩, nested, ?_⟩
  exact ⟨List.count_eq_zero.1 none, last⟩

end Scaffold.Text
