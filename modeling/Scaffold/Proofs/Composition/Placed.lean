import Scaffold.Proofs.Naming.Location
import Scaffold.Proofs.Stub.Fill

/-! Names that qualification leaves as they are and that a stub takes in as they stand. The dummy
names matter in the namespace alone: a namespace is filled in first and looked through for the
dummies of the slots that follow, while the class comes last. -/

namespace Scaffold
open Text Naming

/-- A plain name below the root namespace, with nothing in front of its last segment that would
be taken for a slot. -/
structure Placed (q : Qualifier) (name : Text) : Prop where
  plain : Plain name
  undummied : Stub.Undummied (namespaceOf name)
  settled : ∀ kind, q.qualify kind name = .ok name

namespace Placed

variable {q : Qualifier} {name : Text}

theorem clean_space (h : Placed q name) : Spelled (namespaceOf name) :=
  fun c mem => h.plain.spelled c (namespaceOf_begins.subset mem)

theorem clean_base (h : Placed q name) : Spelled (lastSegment name) :=
  h.plain.lastSegment.spelled

theorem filled (h : Placed q name) : name ≠ [] :=
  h.plain.filled

theorem basename_eq (h : Placed q name) : basename name = lastSegment name := by
  rw [h.plain.given.basename_eq, h.plain.backslashed_eq]

end Placed

namespace Stub

variable {s t name : Text}

theorem Undummied.of_part (h : Undummied t) (part : s <:+: t) : Undummied s :=
  fun slot found => h slot (found.trans part)

theorem Undummied.append (hs : Undummied s) (ht : Undummied t) : Undummied (s ++ '\\' :: t) := by
  intro slot found
  have word : '\\' ∉ slot.dummy := by cases slot <;> decide
  exact (infix_append_cons word found).elim (hs slot) (ht slot)

theorem Undummied.backslashed (h : Undummied name) : Undummied (backslashed name) := by
  intro slot found
  have word : '\\' ∉ slot.dummy := by cases slot <;> decide
  obtain ⟨part, within, eq⟩ := List.infix_map_iff.1 found
  have same : ∀ c ∈ part, (if c = '/' then '\\' else c) = c := by
    intro c mem
    split
    · next slash =>
      refine absurd ?_ word
      rw [eq]
      exact List.mem_map.2 ⟨c, mem, if_pos slash⟩
    · rfl
  rw [List.map_congr_left same, List.map_id'] at eq
  exact h slot (eq ▸ within)

theorem undummied_segment (kind : Kind) : Undummied kind.segment := by
  intro slot
  cases slot <;> cases kind <;> decide

end Stub

open Stub

namespace Qualifier

variable {q : Qualifier} {name : Text}

theorem undummied_selector (free : Undummied q.space) (kind : Kind) :
    Undummied (q.selector kind q.space) := by
  rcases q.selector_eq kind with same | ⟨-, below⟩
  · rwa [same]
  · rw [below]
    exact free.append (undummied_segment kind)

theorem placed_of_qualify (space : Plain q.space) (given : PlainGiven name) {kind : Kind}
    {qualified : Text} (known : q.qualify kind name = .ok qualified)
    (undummied : Undummied (namespaceOf qualified)) : Placed q qualified := by
  obtain ⟨relative, rfl, plain, -⟩ := exists_relative given known
  refine ⟨?_, undummied, qualify_root_append space plain⟩
  rw [root, List.append_assoc]
  exact plain_append_iff.2 ⟨space, plain⟩

theorem exists_placed (space : Plain q.space) (free : Undummied q.space) (given : PlainGiven name)
    (free' : Undummied name) (kind : Kind) :
    ∃ qualified, q.qualify kind name = .ok qualified ∧ Placed q qualified := by
  have known := qualify_given (q := q) given.solid kind
  refine ⟨_, known, placed_of_qualify space given known (.of_part ?_ namespaceOf_begins.isInfix)⟩
  split
  · exact free'.backslashed
  · exact (undummied_selector free kind).append free'.backslashed

theorem exists_placed_segment (space : Plain q.space) (free : Undummied q.space)
    (segment : PlainSegment name) (kind : Kind) :
    ∃ qualified, q.qualify kind name = .ok qualified ∧ Placed q qualified := by
  have known := qualify_segment (q := q) segment kind
  refine ⟨_, known, placed_of_qualify space segment.toPlain.given known ?_⟩
  rw [namespaceOf_append segment.not_mem_separator]
  exact undummied_selector free kind

end Qualifier

end Scaffold
