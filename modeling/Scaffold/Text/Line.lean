import Scaffold.Text.Basic

/-! Lines of a text. A line feed, a carriage return or the pair of both ends a line, and the
last line has no ending; `joined` is the inverse of `lines`. -/

namespace Scaffold

inductive Ending where
  | lf
  | cr
  | crlf
  | last
  deriving DecidableEq, Repr

def Ending.text : Ending → Text
  | .lf => ['\n']
  | .cr => ['\r']
  | .crlf => ['\r', '\n']
  | .last => []

structure Line where
  body : Text
  ending : Ending
  deriving DecidableEq, Repr

namespace Line

def text (line : Line) : Text :=
  line.body ++ line.ending.text

def grow (c : Char) : List Line → List Line
  | [] => [⟨[c], .last⟩]
  | line :: rest => ⟨c :: line.body, line.ending⟩ :: rest

end Line

namespace Text

def lines : Text → List Line
  | [] => [⟨[], .last⟩]
  | '\r' :: '\n' :: t => ⟨[], .crlf⟩ :: lines t
  | c :: t =>
    if c = '\r' then ⟨[], .cr⟩ :: lines t
    else if c = '\n' then ⟨[], .lf⟩ :: lines t
    else Line.grow c (lines t)

def joined (ls : List Line) : Text :=
  ls.flatMap Line.text

@[simp] theorem joined_nil : joined [] = [] := rfl

@[simp] theorem joined_cons (line : Line) (rest : List Line) :
    joined (line :: rest) = line.text ++ joined rest := rfl

theorem joined_grow (c : Char) (ls : List Line) :
    joined (Line.grow c ls) = c :: joined ls := by
  cases ls <;> simp [Line.grow, Line.text, Ending.text]

@[simp] theorem joined_lines (t : Text) : joined (lines t) = t := by
  fun_induction lines t with
  | case1 => rfl
  | case2 t ih => simp [ih, Line.text, Ending.text]
  | case3 t _ ih => simp [ih, Line.text, Ending.text]
  | case4 t _ _ ih => simp [ih, Line.text, Ending.text]
  | case5 c t _ _ _ ih => rw [joined_grow, ih]

/-- The lines without their endings. -/
def splitLines (t : Text) : List Text :=
  (lines t).map Line.body

/-- The text with every line ended by a line feed alone. -/
def unixLines (t : Text) : Text :=
  joinLines (splitLines t)

/-- Start and end of each line, without its ending, counted from `start`. -/
def spansFrom (start : Nat) : List Line → List (Nat × Nat)
  | [] => []
  | line :: rest =>
    (start, start + line.body.length) :: spansFrom (start + line.text.length) rest

def spans (t : Text) : List (Nat × Nat) :=
  spansFrom 0 (lines t)

end Text

/-- A line of a text with the text in front of it and the text behind its last character. -/
structure LineCut where
  before : Text
  line : Text
  after : Text
  deriving DecidableEq, Repr

namespace LineCut

def text (cut : LineCut) : Text :=
  cut.before ++ cut.line ++ cut.after

def span (cut : LineCut) : Nat × Nat :=
  (cut.before.length, cut.before.length + cut.line.length)

def first? (p : Text → Bool) : List Line → Option LineCut
  | [] => none
  | line :: rest =>
    if p line.body then some ⟨[], line.body, line.ending.text ++ Text.joined rest⟩
    else (first? p rest).map fun cut => { cut with before := line.text ++ cut.before }

theorem text_of_first? {p : Text → Bool} {ls : List Line} {cut : LineCut}
    (h : first? p ls = some cut) : cut.text = Text.joined ls := by
  induction ls generalizing cut with
  | nil => simp [first?] at h
  | cons line rest ih =>
    rw [first?] at h
    split at h
    · simp only [Option.some.injEq] at h
      subst h
      simp [text, Line.text]
    · simp only [Option.map_eq_some_iff] at h
      obtain ⟨cut', found, rfl⟩ := h
      simpa [text, Line.text] using ih found

theorem first?_eq_none_iff {p : Text → Bool} {ls : List Line} :
    first? p ls = none ↔ ∀ line ∈ ls, p line.body = false := by
  induction ls with
  | nil => simp [first?]
  | cons line rest ih => by_cases h : p line.body <;> simp [first?, h, ih]

end LineCut
end Scaffold
