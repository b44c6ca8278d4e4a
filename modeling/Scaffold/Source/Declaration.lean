import Scaffold.Text.Blank
import Scaffold.Text.Word

/-! Recognising a class declaration: white space, modifiers each followed by white space, and
the word `class`. -/

namespace Scaffold.Source
open Text

def modifiers : List Text :=
  ["abstract".toList, "final".toList, "readonly".toList]

def keyword : Text :=
  "class".toList

def startsWithWord : Text → Bool
  | [] => false
  | c :: _ => isWord c

/-- What follows a modifier and the white space character after it. -/
def afterModifier? (t : Text) : Option Text :=
  modifiers.findSome? fun modifier =>
    match after? modifier t with
    | some (c :: rest) => if isBlank c then some rest else none
    | _ => none

theorem length_skipBlank_le (t : Text) : (skipBlank t).length ≤ t.length :=
  (List.dropWhile_sublist _).length_le

theorem length_lt_of_afterModifier? {t rest : Text} (h : afterModifier? t = some rest) :
    rest.length < t.length := by
  obtain ⟨modifier, -, found⟩ := List.exists_of_findSome?_eq_some h
  split at found
  · next c tail step =>
    split at found
    · simp only [Option.some.injEq] at found
      subst found
      rw [after?_eq_some_iff.1 step]
      simp only [List.length_append, List.length_cons]
      omega
    · simp at found
  · simp at found

def opensClass (t : Text) : Bool :=
  match after? keyword t with
  | some rest => !startsWithWord rest
  | none => false

/-- The text begins with a class declaration. -/
def declares (t : Text) : Bool :=
  match _h : afterModifier? (skipBlank t) with
  | some rest => declares rest
  | none => opensClass (skipBlank t)
termination_by t.length
decreasing_by exact Nat.lt_of_lt_of_le (length_lt_of_afterModifier? _h) (length_skipBlank_le t)

end Scaffold.Source
