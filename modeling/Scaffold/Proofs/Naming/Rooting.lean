import Scaffold.Naming.Qualifier
import Scaffold.Proofs.Text.Trim

/-! How a name comes below the root namespace: while it does not begin with the root, the selected
namespace is put in front of it. What the selector answers is held against the root before it is
used, so the first pass is also the last, whatever the root and the selector are. -/

namespace Scaffold.Qualifier
open Text Naming

variable {q : Qualifier} {select : Text → Text} {name r : Text} {fault : Fault} {passes : Nat}
  {result : Except Fault Text}

theorem rooted_iff_root_opens : q.rooted name ↔ q.root <+: name :=
  rooted_iff.trans (exists_congr fun _ => eq_comm)

/-- The passes over a name, counted, until it begins with the root or a pass is refused. -/
inductive Rooting (q : Qualifier) (select : Text → Text) :
    Text → Nat → Except Fault Text → Prop where
  | done {name : Text} (below : q.root <+: name) : Rooting q select name 0 (.ok name)
  | refused {name : Text} {fault : Fault} (outside : ¬ q.root <+: name)
      (pass : q.prefixed select name = .error fault) : Rooting q select name 1 (.error fault)
  | again {name next : Text} {passes : Nat} {result : Except Fault Text}
      (outside : ¬ q.root <+: name) (pass : q.prefixed select name = .ok next)
      (others : Rooting q select next passes result) :
      Rooting q select name (passes + 1) result

namespace Rooting

theorem of_below (h : q.Rooting select name passes result) (below : q.root <+: name) :
    passes = 0 ∧ result = .ok name := by
  cases h with
  | done _ => exact ⟨rfl, rfl⟩
  | refused outside _ => exact absurd below outside
  | again outside _ _ => exact absurd below outside

theorem of_outside (h : q.Rooting select name passes result) (outside : ¬ q.root <+: name) :
    passes = 1 ∧ result = q.prefixed select name := by
  cases h with
  | done below => exact absurd below outside
  | refused _ pass => exact ⟨rfl, pass.symm⟩
  | again _ pass others =>
    -- the guard of the first pass has put the name below the root
    obtain ⟨rfl, rfl⟩ := others.of_below (rooted_iff_root_opens.1 (rooted_of_prefixed pass))
    exact ⟨rfl, pass.symm⟩

theorem of_prefixed (outside : ¬ q.root <+: name) :
    q.Rooting select name 1 (q.prefixed select name) := by
  cases pass : q.prefixed select name with
  | error fault => exact .refused outside pass
  | ok next => exact .again outside pass (.done (rooted_iff_root_opens.1 (rooted_of_prefixed pass)))

end Rooting

theorem rooting_iff : q.Rooting select name passes result ↔
    (q.root <+: name ∧ passes = 0 ∧ result = .ok name) ∨
      (¬ q.root <+: name ∧ passes = 1 ∧ result = q.prefixed select name) := by
  constructor
  · intro h
    by_cases below : q.root <+: name
    · exact .inl ⟨below, h.of_below below⟩
    · exact .inr ⟨below, h.of_outside below⟩
  · rintro (⟨below, rfl, rfl⟩ | ⟨outside, rfl, rfl⟩)
    · exact .done below
    · exact .of_prefixed outside

theorem prefixed_eq (q : Qualifier) (select : Text → Text) (name : Text) :
    q.prefixed select name =
      if q.root <+: select q.space ++ ['\\'] then .ok (select q.space ++ '\\' :: name)
      else .error (.outsideRoot (select q.space) q.root) := by
  simp only [prefixed, rooted_iff_root_opens]

theorem qualifyBy_eq (q : Qualifier) (select : Text → Text) (given : Text) :
    q.qualifyBy select given =
      if strip (basename (normalised given)) = [] then .error (.invalidName given)
      else if q.root <+: normalised given then .ok (normalised given)
      else q.prefixed select (normalised given) := by
  simp only [qualifyBy, rooted_iff_root_opens]

theorem qualifyBy_eq_error_iff {given : Text} : q.qualifyBy select given = .error fault ↔
    (strip (basename (normalised given)) = [] ∧ fault = .invalidName given) ∨
      (strip (basename (normalised given)) ≠ [] ∧ ¬ q.root <+: normalised given ∧
        ¬ q.root <+: select q.space ++ ['\\'] ∧ fault = .outsideRoot (select q.space) q.root) := by
  rw [qualifyBy_eq, prefixed_eq]
  split_ifs with blank below guarded
  · simp [blank, eq_comm]
  · simp [blank, below]
  · simp [guarded, blank]
  · simp [blank, below, guarded, eq_comm]

theorem qualifyBy_eq_ok {given : Text} (h : q.qualifyBy select given = .ok r) :
    q.root <+: r ∧
      r = if q.root <+: normalised given then normalised given
        else select q.space ++ '\\' :: normalised given := by
  have filled : strip (basename (normalised given)) ≠ [] := by
    intro blank
    rw [qualifyBy_eq, if_pos blank] at h
    simp at h
  rw [qualifyBy_eq, if_neg filled] at h
  by_cases below : q.root <+: normalised given
  · rw [if_pos below] at h ⊢
    obtain rfl : normalised given = r := Except.ok.inj h
    exact ⟨below, rfl⟩
  · rw [if_neg below] at h ⊢
    refine ⟨rooted_iff_root_opens.1 (rooted_of_prefixed h), ?_⟩
    rw [prefixed_eq] at h
    split_ifs at h with guarded
    exact (Except.ok.inj h).symm

theorem trimEnd_root (root : Text) (occupied : Text → Bool) :
    trimEnd isSeparator (under root occupied).root = (under root occupied).space := by
  rw [Qualifier.root, trimEnd_concat, if_pos (by decide)]
  exact trimEnd_trimEnd isSeparator (trimStart isSeparator root)

/-- Qualification comes to an end after at most one pass, whatever the root, the selector and the
name. It refuses a name with a blank base name, and a name outside of the root for which the
selector answers with a namespace that is not below the root; every other name ends up below the
root, as it was read or with the selected namespace in front. -/
theorem qualifyBy_ends_below_root (root : Text) (occupied : Text → Bool)
    (selector : Option (Text → Text)) (given : Text) :
    let q := under root occupied
    let select := selector.getD id
    let n := normalised given
    let space := select (trimEnd isSeparator q.root)
    q.root = trim isSeparator root ++ ['\\'] ∧
    (∃ passes ≤ 1, ∃ result,
      (∀ count other, q.Rooting select n count other ↔ count = passes ∧ other = result) ∧
      q.qualifyBy select given =
        if strip (basename n) = [] then .error (.invalidName given) else result) ∧
    (∀ fault, q.qualifyBy select given = .error fault ↔
      (strip (basename n) = [] ∧ fault = .invalidName given) ∨
      (strip (basename n) ≠ [] ∧ ¬ q.root <+: n ∧ ¬ q.root <+: space ++ ['\\'] ∧
        fault = .outsideRoot space q.root)) ∧
    (∀ r, q.qualifyBy select given = .ok r →
      q.root <+: r ∧ r = if q.root <+: n then n else space ++ '\\' :: n) := by
  intro q select n space
  have answer : space = select q.space := congrArg select (trimEnd_root root occupied)
  rw [answer]
  refine ⟨rfl, ?_, fun fault => qualifyBy_eq_error_iff, fun r => qualifyBy_eq_ok⟩
  by_cases below : q.root <+: n
  · refine ⟨0, Nat.zero_le 1, .ok n, by simp [rooting_iff, below], ?_⟩
    rw [qualifyBy_eq, if_pos below]
  · refine ⟨1, Nat.le_refl 1, q.prefixed select n, by simp [rooting_iff, below], ?_⟩
    rw [qualifyBy_eq, if_neg below]

/-- A look-alike of the root is none, and a name that begins with one is given the root. -/
example : (under "App".toList fun _ => false).qualifyBy (fun _ => "Application".toList)
    "User".toList = .error (.outsideRoot "Application".toList "App\\".toList) ∧
    (under "App".toList fun _ => false).qualifyBy id "Application/User".toList =
      .ok "App\\Application\\User".toList := by decide

end Scaffold.Qualifier
