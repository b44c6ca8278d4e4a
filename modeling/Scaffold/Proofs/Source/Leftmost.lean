import Scaffold.Proofs.Source.DocBlock

/-! The class doc block by its offsets. A block begins at an opener, goes on to the first closer
behind it and has a class declaration right behind that; the search reports the one that begins
first, and nothing only where no offset begins one. -/

namespace Scaffold

namespace Text

variable {word front back t : Text} {start place other : Nat}

def StandsAt (word t : Text) (place : Nat) : Prop :=
  word <+: t.drop place

/-- The word stands at the place, and nowhere between the start and there. -/
structure FirstFrom (word t : Text) (start place : Nat) : Prop where
  behind : start ≤ place
  here : StandsAt word t place
  first : ∀ earlier, start ≤ earlier → StandsAt word t earlier → place ≤ earlier

theorem FirstFrom.unique (h : FirstFrom word t start place) (h' : FirstFrom word t start other) :
    place = other :=
  Nat.le_antisymm (h.first other h'.behind h'.here) (h'.first place h.behind h.here)

theorem firstFrom_of_clear (split : t.drop start = front ++ word ++ back)
    (clear : Clear word front) : FirstFrom word t start (start + front.length) := by
  refine ⟨Nat.le_add_right _ _, ?_, fun earlier behind found => ?_⟩
  · rw [StandsAt, ← List.drop_drop, split, List.append_assoc, List.drop_left]
    exact List.prefix_append _ _
  · by_contra before
    -- what is left of `front` behind the earlier place would hold the beginning of the word
    have inside : earlier - start < front.length := by omega
    have rest : t.drop earlier = front.drop (earlier - start) ++ word ++ back := by
      rw [← Nat.add_sub_cancel' behind, ← List.drop_drop, split, List.append_assoc,
        List.drop_append_of_le_length (by omega), Nat.add_sub_cancel' behind, List.append_assoc]
    have tail : front.drop (earlier - start) <:+ front := List.drop_suffix _ _
    rw [StandsAt, rest] at found
    rw [List.drop_eq_getElem_cons inside] at found tail
    obtain ⟨behind, eq⟩ := found
    have passed : after? word (front[earlier - start] :: front.drop (earlier - start + 1) ++
        word ++ back) = none := after?_eq_none_of_clear (clear.of_suffix tail)
    rw [← eq, after?_append] at passed
    simp at passed

theorem firstFrom_iff (filled : word ≠ []) : FirstFrom word t start place ↔
    ∃ front back, t.drop start = front ++ word ++ back ∧ Clear word front ∧
      place = start + front.length := by
  constructor
  · intro h
    have within : word <:+: t.drop start := by
      have behind : t.drop place <:+ t.drop start := by
        rw [← Nat.add_sub_cancel' h.behind, ← List.drop_drop]
        exact List.drop_suffix _ _
      exact h.here.isInfix.trans behind.isInfix
    obtain ⟨⟨front, back⟩, cut⟩ := Option.isSome_iff_exists.1 (occurs_iff.2 within)
    obtain ⟨split, clear⟩ := (cut?_eq_some_iff filled).1 cut
    exact ⟨front, back, split, clear, h.unique (firstFrom_of_clear split clear)⟩
  · rintro ⟨front, back, split, clear, rfl⟩
    exact firstFrom_of_clear split clear

end Text

namespace Source.DocBlock
open Text

variable {t : Text} {start stop : Nat}

/-- A comment from one offset to another that documents the class declared behind it. -/
structure BlockAt (t : Text) (start stop : Nat) : Prop where
  opens : StandsAt opener t start
  closes : ∃ place, FirstFrom closer t (start + opener.length) place ∧
    stop = place + closer.length
  declared : ∃ header rest, t.drop stop = header ++ rest ∧ Header header ∧
    startsWithWord rest = false

theorem blockAt_iff : BlockAt t start stop ↔
    ∃ body rest, t.drop start = opener ++ (body ++ closer ++ rest) ∧ Clear closer body ∧
      declares rest ∧ stop = start + (opener ++ body ++ closer).length := by
  constructor
  · rintro ⟨⟨inner, opened⟩, ⟨place, first, rfl⟩, declared⟩
    obtain ⟨body, rest, split, clear, rfl⟩ := (firstFrom_iff (by decide)).1 first
    have behind : inner = body ++ closer ++ rest := by
      rw [← split, ← List.drop_drop, ← opened, List.drop_left]
    have after : t.drop (start + opener.length + body.length + closer.length) = rest := by
      rw [Nat.add_assoc, ← List.drop_drop, split, ← List.length_append, List.drop_left]
    rw [after, ← declares_iff] at declared
    refine ⟨body, rest, behind ▸ opened.symm, clear, declared, ?_⟩
    simp only [List.length_append, Nat.add_assoc]
  · rintro ⟨body, rest, split, clear, here, rfl⟩
    have inner : t.drop (start + opener.length) = body ++ closer ++ rest := by
      rw [← List.drop_drop, split, List.drop_left]
    have after : t.drop (start + (opener ++ body ++ closer).length) = rest := by
      rw [← List.drop_drop, split, ← List.append_assoc, ← List.append_assoc, List.drop_left]
    refine ⟨⟨_, split.symm⟩, ⟨_, firstFrom_of_clear inner clear, ?_⟩, ?_⟩
    · simp only [List.length_append, Nat.add_assoc]
    · rw [after]
      exact declares_iff.1 here

theorem blockAt_iff_atFront? : BlockAt t start stop ↔
    ∃ cut, atFront? (t.drop start) = some cut ∧ stop = start + cut.block.length := by
  rw [blockAt_iff]
  constructor
  · rintro ⟨body, rest, split, clear, here, eq⟩
    exact ⟨_, atFront?_eq_some_iff.2 ⟨body, rest, split, clear, here, rfl⟩, eq⟩
  · rintro ⟨cut, found, eq⟩
    obtain ⟨body, rest, split, clear, here, rfl⟩ := atFront?_eq_some_iff.1 found
    exact ⟨body, rest, split, clear, here, eq⟩

theorem BlockAt.body_free (h : BlockAt t start stop) :
    ¬ closer <:+: (t.take (stop - closer.length)).drop (start + opener.length) := by
  obtain ⟨place, first, rfl⟩ := h.closes
  obtain ⟨body, rest, split, clear, rfl⟩ := (firstFrom_iff (by decide)).1 first
  rw [Nat.add_sub_cancel, List.drop_take, split, Nat.add_sub_cancel_left, List.append_assoc,
    List.take_left]
  exact fun inside => clear (inside.trans List.infix_append_left)

theorem blockAt_of_find? {cut : DocBlockCut} (h : find? t = some cut) :
    BlockAt t cut.span.1 cut.span.2 ∧ ∀ start stop, BlockAt t start stop → cut.span.1 ≤ start := by
  obtain ⟨here, earlier⟩ := leftmost_of_find? h
  have text := text_of_find? h
  rw [DocBlockCut.text, List.append_assoc] at text
  constructor
  · refine blockAt_iff_atFront?.2 ⟨⟨[], cut.block, cut.after⟩, ?_, rfl⟩
    rw [← text, DocBlockCut.span, List.drop_left]
    exact here
  · intro start stop block
    by_contra before
    have inside : start < cut.before.length := Nat.lt_of_not_le before
    obtain ⟨other, found, -⟩ := blockAt_iff_atFront?.1 block
    have passed := earlier (cut.before.drop start) (List.drop_suffix _ _) (by simpa using inside)
    rw [← text, List.drop_append_of_le_length inside.le, passed] at found
    simp at found

/-- The block found is the first that there is, from its opener to its closer, and where none is
found there is none. -/
theorem find?_leftmost (t : Text) :
    (∀ start stop, (find? t).map DocBlockCut.span = some (start, stop) ↔
      BlockAt t start stop ∧ ∀ start' stop', BlockAt t start' stop' → start ≤ start') ∧
    (find? t = none ↔ ∀ start stop, ¬ BlockAt t start stop) ∧
    ∀ start stop, (find? t).map DocBlockCut.span = some (start, stop) →
      ¬ closer <:+: (t.take (stop - closer.length)).drop (start + opener.length) := by
  have absent (h : find? t = none) (start stop : Nat) : ¬ BlockAt t start stop := by
    intro block
    obtain ⟨cut, found, -⟩ := blockAt_iff_atFront?.1 block
    rw [atFront?_eq_none_of_find? h (List.drop_suffix start t)] at found
    simp at found
  cases found : find? t with
  | none =>
    have none_ := absent found
    simp [none_]
  | some cut =>
    obtain ⟨here, least⟩ := blockAt_of_find? found
    refine ⟨fun start stop => ⟨fun span => ?_, fun ⟨block, first⟩ => ?_⟩, ?_, fun start stop span => ?_⟩
    · obtain ⟨rfl, rfl⟩ := Prod.mk.inj (Option.some.inj span)
      exact ⟨here, least⟩
    · have same : cut.span.1 = start :=
        Nat.le_antisymm (least start stop block) (first _ _ here)
      subst same
      -- from one opener on there is one first closer, so the ends agree as well
      obtain ⟨place, closed, ends⟩ := here.closes
      obtain ⟨place', closed', rfl⟩ := block.closes
      rw [Option.map_some, Option.some.injEq, Prod.ext_iff]
      exact ⟨rfl, ends.trans (by rw [closed.unique closed'])⟩
    · exact iff_of_false (by simp) fun none_ => none_ _ _ here
    · obtain ⟨rfl, rfl⟩ := Prod.mk.inj (Option.some.inj span)
      exact here.body_free

/-- The slash of a closer may begin the opener of the next comment. -/
example : (find? "/**/ class A /** a */*/** b */ final\tclass B".toList).map DocBlockCut.span =
    some (22, 30) := by
  decide +kernel

end Source.DocBlock
end Scaffold
