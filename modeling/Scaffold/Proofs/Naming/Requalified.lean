import Scaffold.Proofs.Naming.Location

/-! Names qualified twice. White space is taken off the ends of a name before the separators are,
so what stands in front of separators at its end outlasts the first qualification and goes with
the second one, which changes nothing else; a third changes nothing at all. -/

namespace Scaffold
open Text Naming

namespace Naming

/-- What may stand in front of a last segment: nothing, or whole segments. -/
def Parted (front : Text) : Prop :=
  front = [] ∨ ∃ ahead, front = ahead ++ ['\\']

theorem Parted.behind {front : Text} (h : Parted front) (space : Text) :
    Parted (space ++ '\\' :: front) := by
  rcases h with rfl | ⟨ahead, rfl⟩
  · exact .inr ⟨space, rfl⟩
  · exact .inr ⟨space ++ '\\' :: ahead, by simp⟩

theorem Parted.lastSegment {front base : Text} (h : Parted front) (whole : '\\' ∉ base) :
    lastSegment (front ++ base) = base := by
  rcases h with rfl | ⟨ahead, rfl⟩
  · exact lastSegment_of_not_mem whole
  · rw [List.append_assoc, List.singleton_append, lastSegment_append, lastSegment_of_not_mem whole]

theorem exists_parted (t : Text) :
    ∃ front, t = front ++ lastSegment t ∧ '\\' ∉ lastSegment t ∧ Parted front := by
  cases cut : cutLast? '\\' t with
  | none =>
    have whole := cutLast?_eq_none_iff.1 cut
    rw [lastSegment_of_not_mem whole]
    exact ⟨[], rfl, whole, .inl rfl⟩
  | some pieces =>
    obtain ⟨rfl, whole⟩ := cutLast?_eq_some_iff.1 cut
    rw [lastSegment_append, lastSegment_of_not_mem whole]
    exact ⟨pieces.1 ++ ['\\'], by simp, whole, .inr ⟨_, rfl⟩⟩

end Naming

namespace Qualifier

variable {q : Qualifier} {kind : Kind} {name r t front base : Text}

theorem normalised_outer {c : Char}
    (h : c ∈ (normalised name).head? ∨ c ∈ (normalised name).getLast?) : c ≠ '\\' := by
  have kept {d : Char} (outer : d ∈ (trim (fun c => c == '\\' || c == '/') (strip name)).head? ∨
      d ∈ (trim (fun c => c == '\\' || c == '/') (strip name)).getLast?)
      (same : (if d = '/' then '\\' else d) = c) : c ≠ '\\' := by
    have apart := trim_outer outer
    rw [Bool.or_eq_false_iff, beq_eq_false_iff_ne, beq_eq_false_iff_ne] at apart
    rw [if_neg apart.2] at same
    exact same ▸ apart.1
  rw [normalised, backslashed, List.head?_map, List.getLast?_map, Option.mem_def, Option.mem_def,
    Option.map_eq_some_iff, Option.map_eq_some_iff] at h
  rcases h with ⟨d, mem, same⟩ | ⟨d, mem, same⟩
  · exact kept (.inl mem) same
  · exact kept (.inr mem) same

theorem basename_normalised (name : Text) :
    basename (normalised name) = lastSegment (normalised name) := by
  have free : '/' ∉ normalised name := not_mem_slash_backslashed _
  have ends : trimEnd isSeparator (normalised name) = normalised name :=
    trimEnd_eq_self_iff.2 fun c mem => by simpa [isSeparator] using normalised_outer (.inr mem)
  rw [basename, backslashed_eq_self free, ends]

theorem lastSegment_qualified (known : q.qualify kind name = .ok r) :
    lastSegment r = lastSegment (normalised name) := by
  obtain ⟨-, rfl⟩ := qualify_eq_ok.1 known
  split
  · rfl
  · exact lastSegment_append ..

theorem stripEnd_lastSegment_ne_nil (known : q.qualify kind name = .ok r) :
    stripEnd (lastSegment r) ≠ [] := by
  obtain ⟨filled, -⟩ := qualify_eq_ok.1 known
  intro blank
  refine filled (trim_eq_nil_iff.2 ?_)
  rw [basename_normalised, ← lastSegment_qualified known]
  exact trimEnd_eq_nil_iff.1 blank

theorem exists_base (known : q.qualify kind name = .ok r) :
    ∃ front base, r = q.root ++ (front ++ base) ∧ Parted front ∧ '/' ∉ front ++ base ∧
      '\\' ∉ base ∧ stripEnd base ≠ [] := by
  obtain ⟨relative, root, free⟩ := exists_root_append known
  obtain ⟨front, split, whole, parted⟩ := exists_parted relative
  have filled := stripEnd_lastSegment_ne_nil known
  have last : lastSegment r = lastSegment relative := by
    rw [root, Qualifier.root, List.append_assoc, List.singleton_append, lastSegment_append]
  rw [last] at filled
  rw [split] at root free
  exact ⟨front, lastSegment relative, root, parted, free, whole, filled⟩

theorem separated_eq (free : '/' ∉ t) (first : ∀ c ∈ t.head?, c ≠ '\\')
    (last : ∀ c ∈ t.getLast?, c ≠ '\\') :
    backslashed (trim (fun c => c == '\\' || c == '/') t) = t := by
  have solid : ∀ c ∈ t, c ≠ '/' := by
    rintro c mem rfl
    exact free mem
  rw [trim_eq_self, backslashed_eq_self free]
  · intro c mem
    simpa using ⟨first c mem, solid c (List.mem_of_mem_head? mem)⟩
  · intro c mem
    simpa using ⟨last c mem, solid c (List.mem_of_mem_getLast? mem)⟩

theorem stripEnd_append (filled : stripEnd base ≠ []) (front : Text) :
    stripEnd (front ++ base) = front ++ stripEnd base :=
  trimEnd_append_of_ne_nil filled front

theorem strip_eq_stripEnd (first : ∀ c ∈ t.head?, isBlank c = false) : strip t = stripEnd t := by
  rw [strip, trim, trimStart_eq_self first]
  rfl

theorem not_mem_stripEnd {c : Char} (absent : c ∉ t) : c ∉ stripEnd t :=
  fun mem => absent ((trimEnd_isPrefix _ _).subset mem)

theorem qualify_of_normalised (other : Kind) (read : normalised t = front ++ stripEnd base)
    (parted : Parted front) (whole : '\\' ∉ base) (filled : stripEnd base ≠ []) :
    q.qualify other t = .ok (if q.rooted (front ++ stripEnd base) then front ++ stripEnd base
      else q.selector other q.space ++ '\\' :: (front ++ stripEnd base)) := by
  refine qualify_eq_ok.2 ⟨fun blank => filled ?_, by rw [read]⟩
  rw [basename_normalised, read, parted.lastSegment (not_mem_stripEnd whole), strip,
    trim_eq_nil_iff, ← trimEnd_eq_nil_iff] at blank
  rwa [stripEnd, trimEnd_trimEnd] at blank

theorem ne_separator_of_getLast? (whole : '\\' ∉ base) (filled : base ≠ []) (front : Text) :
    ∀ c ∈ (front ++ base).getLast?, c ≠ '\\' := by
  rintro c mem rfl
  refine whole (List.mem_of_mem_getLast? ?_)
  rwa [List.getLast?_append, Option.or_of_isSome (by simpa using filled)] at mem

theorem qualify_again (slash : '/' ∉ q.space) (own : q.space ≠ [])
    (opens : ∀ c ∈ q.space.head?, isBlank c = false ∧ c ≠ '\\')
    (known : q.qualify kind name = .ok r) (other : Kind) :
    q.qualify other r = .ok (stripEnd r) := by
  obtain ⟨front, base, rfl, parted, free, whole, filled⟩ := exists_base known
  have behind : Parted (q.root ++ front) := by
    rw [root, List.append_assoc]
    exact parted.behind q.space
  have ends : stripEnd (q.root ++ front ++ base) = q.root ++ front ++ stripEnd base :=
    stripEnd_append filled _
  have head : ∀ rest : Text, (q.root ++ rest).head? = q.space.head? := by
    intro rest
    rw [root, List.append_assoc, List.head?_append, Option.or_of_isSome (by simpa using own)]
  -- with the root in front, reading takes off nothing but the white space at the end
  have read : normalised (q.root ++ (front ++ base)) = q.root ++ front ++ stripEnd base := by
    have blanks : strip (q.root ++ (front ++ base)) = stripEnd (q.root ++ (front ++ base)) :=
      strip_eq_stripEnd fun c mem => (opens c (head _ ▸ mem)).1
    rw [normalised, blanks, ← List.append_assoc, ends]
    refine separated_eq ?_ (fun c mem => ?_) (ne_separator_of_getLast? (not_mem_stripEnd whole) filled _)
    · rw [← ends]
      refine not_mem_stripEnd ?_
      simpa [root, slash] using free
    · rw [List.append_assoc, head] at mem
      exact (opens c mem).2
  have rooted : q.rooted (q.root ++ front ++ stripEnd base) :=
    rooted_iff.2 ⟨front ++ stripEnd base, by simp⟩
  rw [qualify_of_normalised other read behind whole filled, if_pos rooted, ← ends,
    List.append_assoc]

theorem head_of_empty (bare : q.space = []) {relative : Text}
    (known : q.qualify kind name = .ok ('\\' :: relative)) : ∀ c ∈ relative.head?, c ≠ '\\' := by
  obtain ⟨-, eq⟩ := qualify_eq_ok.1 known
  have unrooted : ¬ q.rooted (normalised name) := by
    intro rooted
    obtain ⟨rest, split⟩ := rooted_iff.1 rooted
    have first : '\\' ∈ (normalised name).head? := by
      rw [split, root, bare]
      rfl
    exact normalised_outer (.inl first) rfl
  rw [if_neg unrooted] at eq
  have plain (kind : Kind) : '\\' ∉ kind.segment ∧ kind.segment ≠ [] :=
    ⟨(plain_segment kind).not_mem_separator, (plain_segment kind).ne_nil⟩
  rcases q.selector_eq kind with same | ⟨-, below⟩
  · rw [same, bare, List.nil_append, List.cons_inj_right] at eq
    subst eq
    exact fun c mem => normalised_outer (.inl mem)
  · rw [below, bare, List.nil_append, List.cons_append, List.cons_inj_right] at eq
    subst eq
    rintro c mem rfl
    rw [List.head?_append, Option.or_of_isSome (by simpa using (plain kind).2)] at mem
    exact (plain kind).1 (List.mem_of_mem_head? mem)

theorem qualify_again_of_empty (bare : q.space = []) (known : q.qualify kind name = .ok r)
    (other : Kind) : q.qualify other r = .ok (q.selector other [] ++ stripEnd r) := by
  obtain ⟨front, base, rfl, parted, free, whole, filled⟩ := exists_base known
  have root : q.root = ['\\'] := by rw [Qualifier.root, bare]; rfl
  rw [root, List.singleton_append] at known ⊢
  have first := head_of_empty bare known
  have ends : stripEnd ('\\' :: (front ++ base)) = '\\' :: (front ++ stripEnd base) :=
    stripEnd_append filled ('\\' :: front)
  have kept : stripEnd (front ++ base) = front ++ stripEnd base := stripEnd_append filled front
  have head : ∀ c ∈ (front ++ stripEnd base).head?, c ≠ '\\' := by
    intro c mem
    obtain ⟨rest, split⟩ : front ++ stripEnd base <+: front ++ base := kept ▸ trimEnd_isPrefix _ _
    refine first c ?_
    rw [← split, List.head?_append, Option.mem_def.1 mem]
    rfl
  -- the root is the separator alone here, and reading takes that off
  have read : normalised ('\\' :: (front ++ base)) = front ++ stripEnd base := by
    have blanks : strip ('\\' :: (front ++ base)) = stripEnd ('\\' :: (front ++ base)) :=
      strip_eq_stripEnd fun c mem => by
        obtain rfl : '\\' = c := Option.some.inj mem
        decide
    have outer : trim (fun c => c == '\\' || c == '/') ('\\' :: (front ++ stripEnd base)) =
        trim (fun c => c == '\\' || c == '/') (front ++ stripEnd base) := rfl
    rw [normalised, blanks, ends, outer]
    refine separated_eq ?_ head (ne_separator_of_getLast? (not_mem_stripEnd whole) filled _)
    exact kept ▸ not_mem_stripEnd free
  have unrooted : ¬ q.rooted (front ++ stripEnd base) := by
    intro rooted
    obtain ⟨rest, split⟩ := rooted_iff.1 rooted
    refine head '\\' ?_ rfl
    rw [split, root]
    rfl
  rw [qualify_of_normalised other read parted whole filled, if_neg unrooted, bare, ends]

theorem stripEnd_eq_self_iff (known : q.qualify kind name = .ok r) :
    stripEnd r = r ↔ stripEnd (normalised name) = normalised name := by
  obtain ⟨-, eq⟩ := qualify_eq_ok.1 known
  obtain ⟨front, split, -, -⟩ := exists_parted (normalised name)
  have filled : stripEnd (normalised name) ≠ [] := by
    have last := stripEnd_lastSegment_ne_nil known
    rw [lastSegment_qualified known] at last
    rw [split, stripEnd_append last]
    exact List.append_ne_nil_of_right_ne_nil _ last
  subst eq
  split
  · rfl
  · rw [List.append_cons, stripEnd_append filled, List.append_cancel_left_eq]

/-- The second qualification takes away the white space that a name ends in once its separators
are off, and with an empty root it puts the name below the root once more; the third takes away
nothing. -/
theorem qualify_twice {root : Text} (slash : '/' ∉ root)
    (opens : ∀ c ∈ (trim isSeparator root).head?, isBlank c = false) (occupied : Text → Bool)
    (known : (under root occupied).qualify kind name = .ok r) (other third : Kind) :
    let q := under root occupied
    (q.space ≠ [] → q.qualify other r = .ok (stripEnd r) ∧
      q.qualify third (stripEnd r) = .ok (stripEnd r)) ∧
    (q.space = [] → q.qualify other r = .ok (q.selector other [] ++ stripEnd r)) ∧
    (stripEnd r = r ↔ stripEnd (normalised name) = normalised name) := by
  intro q
  have part : q.space <:+: root := trim_infix isSeparator root
  have free : '/' ∉ q.space := fun mem => slash (part.subset mem)
  have outer : ∀ c ∈ q.space.head?, isBlank c = false ∧ c ≠ '\\' := fun c mem =>
    ⟨opens c mem, by simpa [isSeparator] using trim_outer (.inl mem)⟩
  refine ⟨fun own => ?_, fun bare => qualify_again_of_empty bare known other,
    stripEnd_eq_self_iff known⟩
  have second := qualify_again free own outer known
  have final := qualify_again free own outer (second other) third
  rw [stripEnd, stripEnd, trimEnd_trimEnd] at final
  exact ⟨second other, final⟩

theorem qualify_twice_below_models :
    let q := under "\\Acme\\App\\".toList fun segment => segment == "Models".toList
    let r := "Acme\\App\\Models\\Blog \\Post ".toList
    q.qualify .model " /Blog \\Post /".toList = .ok r ∧
      q.qualify .collection r = .ok (stripEnd r) ∧
      q.qualify .model (stripEnd r) = .ok (stripEnd r) ∧ stripEnd r ≠ r := by
  intro q r
  have accepted : q.qualify .model " /Blog \\Post /".toList = .ok r := by decide +kernel
  have opens : ∀ c ∈ (trim isSeparator "\\Acme\\App\\".toList).head?, isBlank c = false := by
    intro c mem
    obtain rfl : 'A' = c := Option.some.inj mem
    decide
  obtain ⟨own, -, -⟩ := qualify_twice (by decide) opens _ accepted .collection .model
  exact ⟨accepted, (own (by decide)).1, (own (by decide)).2, by decide⟩

/-- A qualified name need not be the qualified name of itself. -/
theorem qualify_moves :
    let root := "App".toList
    let q := under root fun _ => false
    '/' ∉ root ∧ strip root = root ∧
      q.qualify .model "Foo \\".toList = .ok "App\\Foo ".toList ∧
      q.qualify .model "App\\Foo ".toList = .ok "App\\Foo".toList ∧
      "App\\Foo".toList ≠ "App\\Foo ".toList := by
  decide +kernel

end Qualifier
end Scaffold
