import Scaffold.Source.Declaration
import Scaffold.Text.Line

/-! Doc blocks. The block of a class is the leftmost comment that is closed for the first time
right in front of a class declaration; `render` writes one entry a line and `entries` reads
them back without the comment marks. -/

namespace Scaffold.Source
open Text

structure DocBlockCut where
  before : Text
  block : Text
  after : Text
  deriving DecidableEq, Repr

namespace DocBlockCut

def text (cut : DocBlockCut) : Text :=
  cut.before ++ cut.block ++ cut.after

def span (cut : DocBlockCut) : Nat × Nat :=
  (cut.before.length, cut.before.length + cut.block.length)

end DocBlockCut

namespace DocBlock

def opener : Text := "/**".toList
def closer : Text := "*/".toList

/-- A block that stands at the front of the text and documents the declaration behind it. -/
def atFront? (t : Text) : Option DocBlockCut := do
  let inner ← after? opener t
  let (body, rest) ← cut? closer inner
  if declares rest then some ⟨[], opener ++ body ++ closer, rest⟩ else none

def find? : Text → Option DocBlockCut
  | [] => none
  | c :: t =>
    match atFront? (c :: t) with
    | some cut => some cut
    | none => (find? t).map fun cut => { cut with before := c :: cut.before }

theorem text_of_atFront? {t : Text} {cut : DocBlockCut} (h : atFront? t = some cut) :
    cut.text = t := by
  simp only [atFront?, Option.bind_eq_bind, Option.bind_eq_some_iff] at h
  obtain ⟨inner, opened, ⟨body, rest⟩, closed, h⟩ := h
  split at h
  · simp only [Option.some.injEq] at h
    subst h
    rw [after?_eq_some_iff.1 opened, eq_of_cut? closed]
    simp [DocBlockCut.text]
  · simp at h

theorem text_of_find? {t : Text} {cut : DocBlockCut} (h : find? t = some cut) :
    cut.text = t := by
  induction t generalizing cut with
  | nil => simp [find?] at h
  | cons c t ih =>
    rw [find?] at h
    split at h
    · next found =>
      simp only [Option.some.injEq] at h
      exact h ▸ text_of_atFront? found
    · simp only [Option.map_eq_some_iff] at h
      obtain ⟨cut', found, rfl⟩ := h
      simpa [DocBlockCut.text] using ih found

def entryLine (entry : Text) : Text :=
  if entry = [] then " *".toList else " * ".toList ++ entry

def render (entries : List Text) : Text :=
  joinLines (opener :: entries.map entryLine ++ [' ' :: closer])

def entry? (line : Text) : Option Text :=
  match strip line with
  | [] => none
  | '*' :: ' ' :: entry => some (stripEnd entry)
  | '*' :: entry => some (stripEnd entry)
  | entry => some (stripEnd entry)

def entries (block : Text) : List Text :=
  let opened := (after? opener block).getD block
  let inner := (before? closer opened).getD opened
  (splitLines inner).filterMap entry?

end DocBlock
end Scaffold.Source
