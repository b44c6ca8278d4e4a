/-! Texts as lists of characters. A search reports what stands in front of and behind an
occurrence, so nothing is counted by offset until an answer needs one. -/

namespace Scaffold

abbrev Text := List Char

namespace Text

/-- What follows `front` in a text that begins with it. -/
def after? : (front : Text) → Text → Option Text
  | [], t => some t
  | _ :: _, [] => none
  | a :: front, c :: t => if a = c then after? front t else none

theorem after?_eq_some_iff {front t rest : Text} :
    after? front t = some rest ↔ t = front ++ rest := by
  induction front generalizing t with
  | nil => simp [after?]
  | cons a front ih =>
    cases t with
    | nil => simp [after?]
    | cons c t =>
      by_cases h : a = c
      · simp [after?, h, ih]
      · simp [after?, h, Ne.symm h]

@[simp] theorem after?_append (front rest : Text) : after? front (front ++ rest) = some rest :=
  after?_eq_some_iff.2 rfl

/-- What precedes `back` in a text that ends with it. -/
def before? (back t : Text) : Option Text :=
  (after? back.reverse t.reverse).map List.reverse

/-- The parts in front of and behind the first occurrence of `needle`. -/
def cut? (needle : Text) : Text → Option (Text × Text)
  | [] => if needle.isEmpty then some ([], []) else none
  | c :: t =>
    match after? needle (c :: t) with
    | some back => some ([], back)
    | none => (cut? needle t).map fun (front, back) => (c :: front, back)

theorem eq_of_cut? {needle t front back : Text} (h : cut? needle t = some (front, back)) :
    t = front ++ needle ++ back := by
  induction t generalizing front with
  | nil =>
    cases needle with
    | nil => simp [cut?] at h; simp [h]
    | cons a needle => simp [cut?] at h
  | cons c t ih =>
    rw [cut?] at h
    split at h
    · next rest found =>
      simp only [Option.some.injEq, Prod.mk.injEq] at h
      obtain ⟨rfl, rfl⟩ := h
      simpa using after?_eq_some_iff.1 found
    · simp only [Option.map_eq_some_iff, Prod.exists, Prod.mk.injEq] at h
      obtain ⟨front', back', found, rfl, rfl⟩ := h
      simp [ih found]

def occurs (needle t : Text) : Bool :=
  (cut? needle t).isSome

theorem occurs_iff {needle t : Text} : occurs needle t ↔ needle <:+: t := by
  constructor
  · intro h
    obtain ⟨⟨front, back⟩, found⟩ := Option.isSome_iff_exists.1 h
    exact ⟨front, back, (eq_of_cut? found).symm⟩
  · rintro ⟨front, back, rfl⟩
    induction front with
    | nil =>
      cases needle with
      | nil => cases back <;> simp [occurs, cut?, after?]
      | cons a needle =>
        have found : after? (a :: needle) (a :: (needle ++ back)) = some back :=
          after?_eq_some_iff.2 rfl
        simp [occurs, cut?, found]
    | cons c front ih =>
      simp only [occurs, List.cons_append, cut?] at ih ⊢
      split
      · rfl
      · simpa using ih

/-- The parts in front of and behind the last `mark`. -/
def cutLast? (mark : Char) : Text → Option (Text × Text)
  | [] => none
  | c :: t =>
    match cutLast? mark t with
    | some (front, back) => some (c :: front, back)
    | none => if c = mark then some ([], t) else none

@[simp] theorem cutLast?_nil (mark : Char) : cutLast? mark [] = none := rfl

theorem eq_of_cutLast? {mark : Char} {t front back : Text}
    (h : cutLast? mark t = some (front, back)) : t = front ++ mark :: back := by
  induction t generalizing front with
  | nil => simp at h
  | cons c t ih =>
    rw [cutLast?] at h
    split at h
    · next front' back' found =>
      simp only [Option.some.injEq, Prod.mk.injEq] at h
      obtain ⟨rfl, rfl⟩ := h
      simp [ih found]
    · split at h
      · next hc =>
        simp only [Option.some.injEq, Prod.mk.injEq] at h
        obtain ⟨rfl, rfl⟩ := h
        simp [hc]
      · simp at h

/-- Puts `value` for every occurrence of `needle`, from the left and without overlap; the
counter passes over the characters of an occurrence already replaced. -/
def replaceFrom (needle value : Text) : (passed : Nat) → Text → Text
  | _, [] => []
  | passed + 1, _ :: t => replaceFrom needle value passed t
  | 0, c :: t =>
    if (after? needle (c :: t)).isSome then
      value ++ replaceFrom needle value (needle.length - 1) t
    else c :: replaceFrom needle value 0 t

def replaceAll (needle value t : Text) : Text :=
  replaceFrom needle value 0 t

def trimStart (p : Char → Bool) (t : Text) : Text :=
  t.dropWhile p

def trimEnd (p : Char → Bool) (t : Text) : Text :=
  (t.reverse.dropWhile p).reverse

def trim (p : Char → Bool) (t : Text) : Text :=
  trimEnd p (trimStart p t)

theorem dropWhile_dropWhile (p : Char → Bool) (t : Text) :
    (t.dropWhile p).dropWhile p = t.dropWhile p := by
  induction t with
  | nil => rfl
  | cons c t ih => by_cases h : p c <;> simp [h, ih]

@[simp] theorem trimStart_trimStart (p : Char → Bool) (t : Text) :
    trimStart p (trimStart p t) = trimStart p t :=
  dropWhile_dropWhile p t

@[simp] theorem trimEnd_trimEnd (p : Char → Bool) (t : Text) :
    trimEnd p (trimEnd p t) = trimEnd p t := by
  simp [trimEnd, dropWhile_dropWhile]

theorem trimEnd_isPrefix (p : Char → Bool) (t : Text) : trimEnd p t <+: t := by
  rw [trimEnd, ← List.reverse_suffix, List.reverse_reverse]
  exact List.dropWhile_suffix p

theorem trimStart_eq_self {p : Char → Bool} {t : Text} (h : ∀ c ∈ t.head?, p c = false) :
    trimStart p t = t := by
  cases t with
  | nil => rfl
  | cons c t => simp [trimStart, h c rfl]

@[simp] theorem trim_trim (p : Char → Bool) (t : Text) : trim p (trim p t) = trim p t := by
  have front : trimStart p (trim p t) = trim p t := by
    apply trimStart_eq_self
    intro c h
    obtain ⟨rest, whole⟩ := trimEnd_isPrefix p (trimStart p t)
    have head : (trimStart p t).head? = some c := by
      rw [← whole, List.head?_append]
      simp only [trim, Option.mem_def] at h
      simp [h]
    have := List.head?_dropWhile_not p t
    rw [trimStart] at head
    simpa [head] using this
  rw [trim, front, trim, trimEnd_trimEnd]

/-- Joins by line feeds. -/
def joinLines (blocks : List Text) : Text :=
  ['\n'].intercalate blocks

/-- Order by code points, a text coming after its own beginnings. -/
def precedes : Text → Text → Bool
  | [], _ => true
  | _ :: _, [] => false
  | a :: s, b :: t => if a = b then precedes s t else a.toNat < b.toNat

/-- The distinct texts in order. -/
def ascending (ts : List Text) : List Text :=
  ts.eraseDups.mergeSort precedes

/-- Membership of a code point in a table of closed ranges. -/
def within (ranges : List (Nat × Nat)) (c : Char) : Bool :=
  ranges.any fun (first, last) => first ≤ c.toNat && c.toNat ≤ last

end Text
end Scaffold
