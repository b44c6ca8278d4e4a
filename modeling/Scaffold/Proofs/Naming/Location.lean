import Scaffold.Proofs.Naming.File
import Scaffold.Proofs.Naming.Plain

/-! Where plain names lead: below the root namespace by qualification, and from there to a file
whose parts below the application directory are the segments of the name, the last of them with
the extension behind it. -/

namespace Scaffold
open Text Naming

namespace Qualifier

variable {q : Qualifier} {name relative : Text}

theorem selector_eq (q : Qualifier) (kind : Kind) :
    q.selector kind q.space = q.space ∨
      q.occupied kind.segment ∧ q.selector kind q.space = q.space ++ '\\' :: kind.segment := by
  unfold selector specified
  split
  · next occupied => exact .inr ⟨occupied, rfl⟩
  · exact .inl rfl

theorem rooted_selector (q : Qualifier) (kind : Kind) :
    q.rooted (q.selector kind q.space ++ ['\\']) := by
  rcases q.selector_eq kind with same | ⟨-, below⟩
  · rw [same]
    exact rooted_iff.2 ⟨[], by simp [root]⟩
  · rw [below]
    exact rooted_iff.2 ⟨kind.segment ++ ['\\'], by simp [root]⟩

theorem qualify_eq_ok {kind : Kind} {qualified : Text} :
    q.qualify kind name = .ok qualified ↔ strip (basename (normalised name)) ≠ [] ∧
      qualified = if q.rooted (normalised name) then normalised name
        else q.selector kind q.space ++ '\\' :: normalised name := by
  unfold qualify qualifyBy prefixed
  dsimp only
  by_cases blank : strip (basename (normalised name)) = []
  · simp [blank]
  · rw [if_neg blank, if_pos (q.rooted_selector kind)]
    by_cases rooted : q.rooted (normalised name) <;> simp [blank, rooted, eq_comm]

theorem exists_root_append {kind : Kind} {qualified : Text}
    (ok : q.qualify kind name = .ok qualified) :
    ∃ relative, qualified = q.root ++ relative ∧ '/' ∉ relative := by
  obtain ⟨-, rfl⟩ := qualify_eq_ok.1 ok
  have free : '/' ∉ normalised name := not_mem_slash_backslashed _
  split
  · next rooted =>
    obtain ⟨relative, eq⟩ := rooted_iff.1 rooted
    rw [eq, List.mem_append, not_or] at free
    exact ⟨relative, eq, free.2⟩
  · rcases q.selector_eq kind with same | ⟨-, below⟩
    · exact ⟨normalised name, by simp [same, root], free⟩
    · refine ⟨kind.segment ++ '\\' :: normalised name, by simp [below, root], ?_⟩
      rw [List.mem_append, List.mem_cons, not_or, not_or]
      exact ⟨by cases kind <;> decide, by decide, free⟩

theorem qualify_given (h : SolidGiven name) (kind : Kind) :
    q.qualify kind name = .ok (if q.rooted (backslashed name) then backslashed name
      else q.selector kind q.space ++ '\\' :: backslashed name) := by
  have inner : SolidSegment (basename (backslashed name)) := by
    have again : SolidGiven (backslashed name) := by
      rwa [SolidGiven, backslashed_eq_self (not_mem_slash_backslashed name)]
    exact again.basename
  refine qualify_eq_ok.2 ⟨?_, by rw [h.normalised_eq]⟩
  rw [h.normalised_eq, inner.strip_eq]
  exact inner.ne_nil

theorem plain_segment (kind : Kind) : PlainSegment kind.segment := by
  cases kind <;> decide +kernel

theorem exists_relative_of_each {P : Text → Prop} (h : SolidGiven name)
    (each : EachSegment P (backslashed name)) (customary : ∀ kind : Kind, P kind.segment)
    {kind : Kind} {qualified : Text} (ok : q.qualify kind name = .ok qualified) :
    ∃ relative, qualified = q.root ++ relative ∧ EachSegment P relative ∧
      lastSegment relative = basename name := by
  rw [qualify_given h, Except.ok.injEq] at ok
  rw [h.basename_eq]
  split at ok
  · next rooted =>
    obtain ⟨relative, eq⟩ := rooted_iff.1 rooted
    have whole : backslashed name = q.space ++ '\\' :: relative := by
      rw [eq, root]
      simp
    rw [whole] at each ⊢
    exact ⟨relative, ok.symm.trans eq, (EachSegment.append_iff.1 each).2,
      (lastSegment_append ..).symm⟩
  · rcases q.selector_eq kind with same | ⟨-, below⟩
    · refine ⟨backslashed name, ?_, each, rfl⟩
      rw [← ok, same, root]
      simp
    · refine ⟨kind.segment ++ '\\' :: backslashed name, ?_, ?_, lastSegment_append ..⟩
      · rw [← ok, below, root]
        simp
      · have single := (plain_segment kind).not_mem_separator
        exact EachSegment.append_iff.2 ⟨.single (customary kind) single, each⟩

theorem exists_relative (h : PlainGiven name) {kind : Kind}
    {qualified : Text} (ok : q.qualify kind name = .ok qualified) :
    ∃ relative, qualified = q.root ++ relative ∧ Plain relative ∧
      lastSegment relative = basename name :=
  exists_relative_of_each h.solid h plain_segment ok

theorem qualify_root_append (space : Plain q.space) (h : Plain relative) (kind : Kind) :
    q.qualify kind (q.root ++ relative) = .ok (q.root ++ relative) := by
  have plain : Plain (q.root ++ relative) := by
    rw [root, List.append_assoc]
    exact plain_append_iff.2 ⟨space, h⟩
  have rooted : q.rooted (q.root ++ relative) := rooted_iff.2 ⟨relative, rfl⟩
  rw [qualify_given plain.given.solid, plain.backslashed_eq, if_pos rooted]

theorem requalify (space : Plain q.space) (h : PlainGiven name) {kind : Kind} {qualified : Text}
    (ok : q.qualify kind name = .ok qualified) (other : Kind) :
    q.qualify other qualified = .ok qualified := by
  obtain ⟨relative, rfl, plain, -⟩ := exists_relative h ok
  exact qualify_root_append space plain other

theorem qualify_segment (h : PlainSegment name) (kind : Kind) :
    q.qualify kind name = .ok (q.selector kind q.space ++ '\\' :: name) := by
  have unrooted : ¬ q.rooted name := by
    intro rooted
    obtain ⟨rest, eq⟩ := rooted_iff.1 rooted
    refine h.not_mem_separator ?_
    rw [eq, root]
    simp
  rw [qualify_given h.toPlain.given.solid, h.toPlain.backslashed_eq, if_neg unrooted]

end Qualifier

namespace Layout

variable {layout : Layout} {relative segment : Text}

theorem slashed_eq (h : PlainSegment segment) : slashed segment = segment := by
  have same : ∀ c ∈ segment, (if c = '\\' then '/' else c) = c := by
    intro c mem
    rw [if_neg (apart_of_isPlainChar (h.plain c mem)).1]
  rw [slashed, List.map_congr_left same, List.map_id']

theorem segmentPath_eq (layout : Layout) (h : PlainSegment segment) :
    layout.segmentPath segment =
      ⟨layout.appRoot.origin, layout.appRoot.parts ++ [segment]⟩ := by
  rw [segmentPath, slashed_eq h, Path.ofText_single h.not_mem_slash,
    List.filter_cons_of_pos h.solid.part, List.filter_nil, Path.append_relative]

theorem extended_kept (each : EachSegment (fun segment => Path.isPart segment) relative) :
    layout.extended (layout.kept (layout.root ++ relative)) =
      (relative.splitOn '\\').dropLast ++ [lastSegment relative ++ layout.extension] := by
  rw [kept_root_append, List.filter_eq_self.2 each, splitOn_eq_concat, extended,
    List.dropLast_concat, List.getLastD_concat]

theorem pathOf_root_append (h : Plain relative) (slash : '/' ∉ layout.extension) :
    layout.pathOf (layout.root ++ relative) =
      ⟨layout.appRoot.origin, layout.appRoot.parts ++
        ((relative.splitOn '\\').dropLast ++ [lastSegment relative ++ layout.extension])⟩ := by
  rw [pathOf_eq h.not_mem_slash slash, extended_kept fun segment mem => (h segment mem).solid.part,
    Path.append_relative]

end Layout
end Scaffold
