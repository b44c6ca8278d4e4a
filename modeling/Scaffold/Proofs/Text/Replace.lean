import Scaffold.Proofs.Text.Search

/-! Replacement from the left: what holds no beginning of the needle stays as it is, and an
occurrence gives way to the value before the search goes on behind it. -/

namespace Scaffold.Text

variable {needle value t front back : Text}

theorem replaceFrom_eq_drop (passed : Nat) (t : Text) :
    replaceFrom needle value passed t = replaceFrom needle value 0 (t.drop passed) := by
  induction t generalizing passed with
  | nil => cases passed <;> rfl
  | cons c t ih =>
    cases passed with
    | zero => rfl
    | succ passed => rw [replaceFrom, ih, List.drop_succ_cons]

@[simp] theorem replaceAll_nil (needle value : Text) : replaceAll needle value [] = [] := rfl

theorem replaceAll_needle (filled : needle ≠ []) (back : Text) :
    replaceAll needle value (needle ++ back) = value ++ replaceAll needle value back := by
  cases needle with
  | nil => exact absurd rfl filled
  | cons a needle =>
    have found : after? (a :: needle) (a :: (needle ++ back)) = some back :=
      after?_append (a :: needle) back
    rw [replaceAll, List.cons_append, replaceFrom, if_pos (by simp [found]), replaceFrom_eq_drop]
    simp [replaceAll]

theorem replaceAll_self (filled : needle ≠ []) : replaceAll needle value needle = value := by
  have whole : replaceAll needle value (needle ++ []) = value ++ replaceAll needle value [] :=
    replaceAll_needle filled []
  simpa using whole

theorem replaceAll_append
    (none_ : ∀ part, part <:+ front → part ≠ [] → after? needle (part ++ back) = none) :
    replaceAll needle value (front ++ back) = front ++ replaceAll needle value back := by
  induction front with
  | nil => rfl
  | cons c front ih =>
    have here := none_ (c :: front) (List.suffix_refl _) (by simp)
    have rest := ih fun part inside => none_ part (inside.trans (List.suffix_cons c front))
    rw [List.cons_append] at here ⊢
    rw [replaceAll, replaceFrom, if_neg (by simp [here])]
    exact congrArg (c :: ·) rest

theorem replaceAll_append_of_not_mem {a : Char} (first : needle.head? = some a)
    (absent : a ∉ front) (back : Text) :
    replaceAll needle value (front ++ back) = front ++ replaceAll needle value back := by
  refine replaceAll_append fun part inside more => ?_
  obtain ⟨c, part, rfl⟩ := List.exists_cons_of_ne_nil more
  obtain ⟨needle, rfl⟩ := List.head?_eq_some_iff.1 first
  have other : a ≠ c := by
    rintro rfl
    exact absent (inside.subset List.mem_cons_self)
  simp [after?, other]

theorem replaceAll_of_clear (filled : needle ≠ []) (clear : Clear needle front) (back : Text) :
    replaceAll needle value (front ++ (needle ++ back)) =
      front ++ (value ++ replaceAll needle value back) := by
  rw [replaceAll_append, replaceAll_needle filled]
  intro part inside more
  obtain ⟨c, part, rfl⟩ := List.exists_cons_of_ne_nil more
  obtain ⟨ahead, rfl⟩ := inside
  have later : Clear needle (c :: part) := fun found =>
    clear (by
      rw [List.append_assoc]
      exact List.infix_append_of_infix_right found)
  rw [← List.append_assoc]
  exact after?_eq_none_of_clear later

theorem replaceAll_eq_self (absent : ¬ needle <:+: t) : replaceAll needle value t = t := by
  have none_ : ∀ part, part <:+ t → part ≠ [] → after? needle (part ++ []) = none := by
    intro part inside _
    rw [List.append_nil, Option.eq_none_iff_forall_ne_some]
    intro rest found
    refine absent (List.IsInfix.trans ?_ inside.isInfix)
    exact ⟨[], rest, (after?_eq_some_iff.1 found).symm⟩
  have whole : replaceAll needle value (t ++ []) = t ++ [] := replaceAll_append none_
  simpa using whole

end Scaffold.Text
