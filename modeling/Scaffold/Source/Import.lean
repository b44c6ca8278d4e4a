import Scaffold.Text.Basic

/-! Import statements. Within the text up to a line feed, the name imported is what stands
between the first `use` and the last semicolon. -/

namespace Scaffold.Source
open Text

namespace Import

def opener : Text := "use ".toList

def statement (name : Text) : Text :=
  opener ++ name ++ [';']

def name? (line : Text) : Option Text := do
  let (_, rest) ← cut? opener line
  let (name, _) ← cutLast? ';' rest
  some name

end Import

def imports (t : Text) : List Text :=
  (t.splitOn '\n').filterMap Import.name?

/-- The names not imported yet, in the order given and each once. -/
def missingImports (t : Text) (names : List Text) : List Text :=
  (names.filter (· ∉ imports t)).eraseDups

theorem mem_missingImports {t name : Text} {names : List Text} :
    name ∈ missingImports t names ↔ name ∈ names ∧ name ∉ imports t := by
  simp [missingImports, List.mem_eraseDups]

theorem pairwise_idxOf_eraseDups (p : Text → Bool) (names : List Text) :
    (names.filter p).eraseDups.Pairwise fun a b => names.idxOf a < names.idxOf b := by
  induction names generalizing p with
  | nil => exact .nil
  | cons name names ih =>
    have behind : ∀ {c}, name ≠ c → (name :: names).idxOf c = names.idxOf c + 1 := by
      intro c apart
      rw [List.idxOf_cons, beq_false_of_ne apart, cond_false]
    -- where the first name is sorted out, the others only move on by one place
    have others : ∀ q : Text → Bool, q name = false → (names.filter q).eraseDups.Pairwise
        fun a b => (name :: names).idxOf a < (name :: names).idxOf b := by
      intro q out
      refine (ih q).imp_of_mem fun {a b} memA memB first => ?_
      have apart : ∀ {c}, c ∈ (names.filter q).eraseDups → name ≠ c := by
        rintro c mem rfl
        simp [List.mem_eraseDups, out] at mem
      rw [behind (apart memA), behind (apart memB)]
      exact Nat.succ_lt_succ first
    cases kept : p name with
    | false => simpa [kept] using others p kept
    | true =>
      rw [List.filter_cons_of_pos kept, List.eraseDups_cons, List.filter_filter]
      refine List.pairwise_cons.2 ⟨fun other mem => ?_, others _ (by simp)⟩
      have apart : name ≠ other := by
        rintro rfl
        simp [List.mem_eraseDups] at mem
      rw [behind apart, List.idxOf_cons_self]
      exact Nat.succ_pos _

theorem pairwise_missingImports (t : Text) (names : List Text) :
    (missingImports t names).Pairwise fun a b => names.idxOf a < names.idxOf b :=
  pairwise_idxOf_eraseDups _ names

end Scaffold.Source
