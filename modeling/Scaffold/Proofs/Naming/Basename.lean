import Scaffold.Proofs.Naming.Requalified

/-! The base name of a name, as it is given and as it is qualified. Qualification takes off the
white space at the ends of a name before it is cut, which `basename` does not do: the two differ
where white space stands behind a name, or in front of a name of one segment. -/

namespace Scaffold
open Text Naming

theorem Text.exists_trim (p : Char → Bool) (t : Text) :
    ∃ lead tail, (∀ c ∈ lead, p c) ∧ (∀ c ∈ tail, p c) ∧ t = lead ++ trim p t ++ tail := by
  have front : t = t.takeWhile p ++ trimStart p t := List.takeWhile_append_dropWhile.symm
  have back : trimStart p t = trim p t ++ ((trimStart p t).reverse.takeWhile p).reverse := by
    rw [trim, trimEnd, ← List.reverse_append, List.takeWhile_append_dropWhile, List.reverse_reverse]
  refine ⟨t.takeWhile p, ((trimStart p t).reverse.takeWhile p).reverse, ?_, ?_, ?_⟩
  · exact fun c mem => List.mem_takeWhile_imp mem
  · exact fun c mem => List.mem_takeWhile_imp (List.mem_reverse.1 mem)
  · rw [List.append_assoc, ← back, ← front]

namespace Naming

variable {name front back lead tail core : Text}

theorem lastSegment_parted (h : Parted front) (back : Text) :
    lastSegment (front ++ back) = lastSegment back := by
  rcases h with rfl | ⟨ahead, rfl⟩
  · rfl
  · rw [List.append_assoc, List.singleton_append, lastSegment_append]

theorem lastSegment_append_eq (front back : Text) :
    lastSegment (front ++ back) =
      if '\\' ∈ back then lastSegment back else lastSegment front ++ back := by
  split
  · next cut =>
    obtain ⟨ahead, behind, rfl⟩ := List.append_of_mem cut
    rw [← List.append_assoc, lastSegment_append, lastSegment_append]
  · next whole =>
    obtain ⟨ahead, split, single, parted⟩ := exists_parted front
    have joined : '\\' ∉ lastSegment front ++ back := by simp [single, whole]
    calc lastSegment (front ++ back)
        = lastSegment (ahead ++ (lastSegment front ++ back)) := by
          rw [← List.append_assoc, ← split]
      _ = lastSegment front ++ back := parted.lastSegment joined

theorem parted_of_separators (h : ∀ c ∈ lead, isSeparator c) : Parted lead := by
  rcases List.eq_nil_or_concat lead with rfl | ⟨ahead, c, rfl⟩
  · exact .inl rfl
  · rw [List.concat_eq_append] at h ⊢
    have last : c = '\\' := by simpa [isSeparator] using h c (by simp)
    exact .inr ⟨ahead, by rw [last]⟩

theorem lastSegment_trim (t : Text) :
    lastSegment (trim isSeparator t) = lastSegment (trimEnd isSeparator t) := by
  obtain ⟨lead, tail, ahead, behind, split⟩ := exists_trim isSeparator t
  have core : trimEnd isSeparator t = trimEnd isSeparator (lead ++ trim isSeparator t) :=
    (congrArg (trimEnd isSeparator) split).trans
      (trimEnd_append_of_eq_nil (trimEnd_eq_nil_iff.2 behind) _)
  have ends : trimEnd isSeparator (trim isSeparator t) = trim isSeparator t := trimEnd_trimEnd _ _
  rw [core]
  by_cases bare : trim isSeparator t = []
  · rw [bare, List.append_nil, trimEnd_eq_nil_iff.2 ahead]
  · rw [trimEnd_append bare ends, lastSegment_parted (parted_of_separators ahead)]

theorem backslashed_trim (name : Text) :
    backslashed (trim (fun c => c == '\\' || c == '/') name) =
      trim isSeparator (backslashed name) := by
  have same : isSeparator ∘ (fun c => if c = '/' then '\\' else c) =
      fun c => c == '\\' || c == '/' := by
    funext c
    by_cases slash : c = '/' <;> simp [isSeparator, slash]
  simp only [backslashed, trim, trimStart, trimEnd, List.dropWhile_map, ← List.map_reverse, same]

theorem not_mem_of_blank (h : ∀ c ∈ lead, isBlank c) : '\\' ∉ lead ∧ '/' ∉ lead := by
  constructor <;> exact fun mem => absurd (h _ mem) (by decide)

theorem basename_append_blank (behind : ∀ c ∈ tail, isBlank c) (more : tail ≠ []) (front : Text) :
    basename (front ++ tail) = lastSegment (backslashed front) ++ tail := by
  obtain ⟨whole, free⟩ := not_mem_of_blank behind
  have ends : trimEnd isSeparator tail = tail := by
    refine trimEnd_eq_self_iff.2 fun c mem => ?_
    have other : c ≠ '\\' := fun eq => whole (eq ▸ List.mem_of_mem_getLast? mem)
    simpa [isSeparator] using other
  rw [basename, backslashed_append, backslashed_eq_self free, trimEnd_append more ends,
    lastSegment_append_eq, if_neg whole]

theorem basename_blank_append (ahead : ∀ c ∈ lead, isBlank c)
    (filled : trimEnd isSeparator (backslashed core) ≠ []) :
    basename (lead ++ core) = if '\\' ∈ trimEnd isSeparator (backslashed core) then basename core
      else lead ++ basename core := by
  obtain ⟨whole, free⟩ := not_mem_of_blank ahead
  rw [basename, basename, backslashed_append, backslashed_eq_self free,
    trimEnd_append_of_ne_nil filled, lastSegment_append_eq]
  split
  · rfl
  · next single => rw [lastSegment_of_not_mem whole, lastSegment_of_not_mem single]

theorem length_lastSegment_le (front back : Text) :
    (lastSegment back).length ≤ (lastSegment (front ++ back)).length := by
  rw [lastSegment_append_eq]
  split
  · exact Nat.le_refl _
  · next whole => simp [lastSegment_of_not_mem whole]

theorem basename_append_blank_ne (behind : ∀ c ∈ tail, isBlank c) (more : tail ≠ [])
    (filled : strip (basename core) ≠ []) (front : Text) :
    basename (front ++ core ++ tail) ≠ basename core := by
  intro same
  rw [basename_append_blank behind more, backslashed_append] at same
  by_cases ends : trimEnd isSeparator (backslashed core) = backslashed core
  · have longer := length_lastSegment_le (backslashed front) (backslashed core)
    have lengths := congrArg List.length same
    rw [basename, ends, List.length_append] at lengths
    have some_ := List.length_pos_iff.2 more
    omega
  · -- behind a separator the white space makes a base name of its own
    obtain ⟨c, last, separator⟩ : ∃ c ∈ (backslashed core).getLast?, isSeparator c := by
      rw [trimEnd_eq_self_iff] at ends
      simpa using ends
    obtain ⟨ahead, split⟩ := List.getLast?_eq_some_iff.1 last
    rw [beq_iff_eq.1 separator] at split
    rw [split, ← List.append_assoc, lastSegment_append] at same
    exact filled (trim_eq_nil_iff.2 (same ▸ behind))

/-- No white space stands behind the name, and none in front unless a separator parts it from the
base name. -/
def Tidy (name : Text) : Prop :=
  stripEnd name = name ∧
    (skipBlank name = name ∨ '\\' ∈ trimEnd isSeparator (backslashed name))

instance : DecidablePred Tidy := fun _ => inferInstanceAs (Decidable (_ ∧ _))

theorem not_tidy_append_blank (behind : ∀ c ∈ tail, isBlank c) (more : tail ≠ []) (front : Text) :
    ¬ Tidy (front ++ tail) := by
  rintro ⟨kept, -⟩
  rw [stripEnd, trimEnd_append_of_eq_nil (trimEnd_eq_nil_iff.2 behind)] at kept
  have short := (trimEnd_isPrefix isBlank front).length_le
  have some_ := List.length_pos_iff.2 more
  rw [kept, List.length_append] at short
  omega

theorem tidy_blank_append_iff (ahead : ∀ c ∈ lead, isBlank c) (core_ : strip core = core)
    (solid : trimEnd isSeparator (backslashed core) ≠ []) :
    Tidy (lead ++ core) ↔ lead = [] ∨ '\\' ∈ trimEnd isSeparator (backslashed core) := by
  have filled : core ≠ [] := by
    rintro rfl
    exact solid rfl
  have ends : stripEnd core = core := core_ ▸ trimEnd_trimEnd _ _
  have opens : skipBlank core = core :=
    trimStart_eq_self fun c mem => trim_outer (.inl (core_.symm ▸ mem))
  have kept : stripEnd (lead ++ core) = lead ++ core := trimEnd_append filled ends lead
  have skipped : skipBlank (lead ++ core) = core :=
    (List.dropWhile_append_of_pos ahead).trans opens
  obtain ⟨whole, free⟩ := not_mem_of_blank ahead
  rw [Tidy, kept, skipped, backslashed_append, backslashed_eq_self free,
    trimEnd_append_of_ne_nil solid]
  simp [whole]

theorem basename_eq_strip_iff (filled : strip (basename (strip name)) ≠ []) :
    basename name = basename (strip name) ↔ Tidy name := by
  obtain ⟨lead, tail, ahead, behind, split⟩ := exists_trim isBlank name
  have core_ : strip (strip name) = strip name := trim_trim _ _
  rw [← strip] at split
  generalize strip name = core at *
  subst split
  have solid : trimEnd isSeparator (backslashed core) ≠ [] := by
    intro bare
    rw [basename, bare] at filled
    exact filled rfl
  by_cases more : tail = []
  · rw [more, List.append_nil, basename_blank_append ahead solid,
      tidy_blank_append_iff ahead core_ solid]
    split <;> simp [*]
  · exact iff_of_false (basename_append_blank_ne behind more filled lead)
      (not_tidy_append_blank behind more _)

end Naming

namespace Qualifier

variable {q : Qualifier} {kind : Kind} {name r : Text}

theorem basename_strip (name : Text) : basename (strip name) = lastSegment (normalised name) := by
  rw [normalised, backslashed_trim, lastSegment_trim, basename]

theorem basename_qualified (known : q.qualify kind name = .ok r) :
    basename r = basename (strip name) := by
  obtain ⟨front, base, split, parted, free, whole, filled⟩ := exists_base known
  have ends : trimEnd isSeparator (backslashed q.root ++ front ++ base) =
      backslashed q.root ++ front ++ base := by
    refine trimEnd_eq_self_iff.2 fun c mem => ?_
    have other := ne_separator_of_getLast? whole (fun bare => filled (by rw [bare]; rfl)) _ c mem
    simpa [isSeparator] using other
  have last (space : Text) : lastSegment (space ++ '\\' :: (front ++ base)) = base := by
    have joined := (parted.behind space).lastSegment whole
    rwa [List.append_assoc, List.cons_append] at joined
  have given : lastSegment r = base := by
    rw [split, root, List.append_assoc, List.singleton_append, last]
  rw [basename_strip, ← lastSegment_qualified known, given, basename, split, backslashed_append,
    backslashed_eq_self free, ← List.append_assoc, ends, root, backslashed_append]
  simpa [backslashed] using last (backslashed q.space)

theorem basename_eq_iff (known : q.qualify kind name = .ok r) :
    basename name = basename r ↔ Tidy name := by
  rw [basename_qualified known, basename_eq_strip_iff]
  rw [basename_strip, ← basename_normalised]
  exact (qualify_eq_ok.1 known).1

end Qualifier
end Scaffold
