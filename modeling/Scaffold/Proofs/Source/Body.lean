import Scaffold.Proofs.Text.Offset
import Scaffold.Source.Edit

/-! A block put in front of the last closing brace, which moves behind all that followed it. -/

namespace Scaffold.Source
open Text

theorem appendToBody_eq {back : Text} (absent : '\x7d' ∉ back) (block front : Text) :
    appendToBody block (front ++ '\x7d' :: back) =
      .ok (front ++ block ++ back ++ ['\x7d', '\n']) := by
  rw [appendToBody, cutLast?_append absent]

theorem appendToBody_eq_ok {block t later : Text} (h : appendToBody block t = .ok later) :
    ∃ front back, t = front ++ '\x7d' :: back ∧ '\x7d' ∉ back ∧
      later = front ++ block ++ back ++ ['\x7d', '\n'] := by
  cases cut : cutLast? '\x7d' t with
  | none => simp [appendToBody, cut] at h
  | some pieces =>
    obtain ⟨rfl, absent⟩ := cutLast?_eq_some_iff.1 cut
    rw [appendToBody_eq absent, Except.ok.injEq] at h
    exact ⟨pieces.1, pieces.2, rfl, absent, h.symm⟩

theorem appendToBody_spliced {front back part : Text} (braced : '\x7d' ∈ front ++ back)
    (free : '\x7d' ∉ part) (block : Text) :
    ∃ offset, LastAt '\x7d' (front ++ back) offset ∧
      appendToBody block (front ++ part ++ back) =
        .ok (spliced front.length part offset block (front ++ back) ++ ['\x7d', '\n']) := by
  by_cases later : '\x7d' ∈ back
  · obtain ⟨before, after, rfl, absent⟩ := exists_last_of_mem later
    refine ⟨(front ++ before).length, ?_, ?_⟩
    · rw [← List.append_assoc]
      exact lastAt_append absent
    · rw [← List.append_assoc, appendToBody_eq absent, ← List.append_assoc, spliced_behind]
  · have here : '\x7d' ∈ front := by simpa [later] using braced
    obtain ⟨before, after, rfl, absent⟩ := exists_last_of_mem here
    refine ⟨before.length, ?_, ?_⟩
    · rw [List.append_assoc, List.cons_append]
      exact lastAt_append (by simp [absent, later])
    · have still : '\x7d' ∉ after ++ part ++ back := by simp [absent, free, later]
      have shape : before ++ '\x7d' :: after ++ part ++ back =
          before ++ '\x7d' :: (after ++ part ++ back) := by simp
      rw [shape, appendToBody_eq still, spliced_ahead]
      simp

end Scaffold.Source
