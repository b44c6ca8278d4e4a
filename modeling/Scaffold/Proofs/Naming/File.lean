import Scaffold.Layout
import Scaffold.Proofs.Naming.Segment

/-! The file of a name below the root namespace. Its parts are the segments of the name that a
path keeps, with the extension behind the last of them; so the file says which segments these
were, and nothing else about the name. -/

namespace Scaffold
open Text Naming

namespace Path

theorem isPart_append {segment extension : Text} (part : segment = ['.'] ∨ isPart segment)
    (dotted : extension.head? = some '.') : isPart (segment ++ extension) := by
  cases extension with
  | nil => simp at dotted
  | cons dot extension =>
    cases segment with
    | nil => simp [isPart] at part
    | cons c segment => simp [isPart]

theorem ofText_intercalate {parts : List Text} (filled : parts ≠ [])
    (h : ∀ part ∈ parts, '/' ∉ part ∧ isPart part) :
    ofText (['/'].intercalate parts) = ⟨.relative, parts⟩ := by
  have split : (['/'].intercalate parts).splitOn '/' = parts :=
    List.splitOn_intercalate '/' (fun part mem => (h part mem).1) filled
  have origin : Origin.ofText (['/'].intercalate parts) = .relative := by
    cases parts with
    | nil => exact absurd rfl filled
    | cons part rest =>
      obtain ⟨slash, named⟩ := h part (by simp)
      cases part with
      | nil => simp [isPart] at named
      | cons c part =>
        have first : c ≠ '/' := by
          rintro rfl
          simp at slash
        cases rest <;> simp [Origin.ofText, first]
  rw [ofText, split, origin, List.filter_eq_self.2 fun part mem => (h part mem).2]

theorem ofText_append {t rest : Text} {parts : List Text} (filled : t ≠ [])
    (front : ofText t = ⟨.relative, parts⟩) (slash : ∀ c ∈ rest.head?, c = '/') :
    ofText (t ++ rest) = ⟨.relative, parts ++ (ofText rest).parts⟩ := by
  obtain ⟨relative, rfl⟩ := Path.mk.inj front
  have origin : Origin.ofText (t ++ rest) = .relative := by
    cases t with
    | nil => exact absurd rfl filled
    | cons c t =>
      by_cases same : c = '/'
      · subst same
        unfold Origin.ofText at relative
        split at relative <;> simp_all
      · simp [Origin.ofText, same]
  have split : ((t ++ rest).splitOn '/').filter isPart =
      (t.splitOn '/').filter isPart ++ (rest.splitOn '/').filter isPart := by
    cases rest with
    | nil => simp [isPart]
    | cons c more =>
      obtain rfl : c = '/' := slash c rfl
      have empty : ([] ++ '/' :: more).splitOn '/' = [] :: more.splitOn '/' :=
        List.splitOn_append_cons_self ..
      rw [List.nil_append] at empty
      rw [List.splitOn_append_cons_self, empty, List.filter_append, List.filter_cons_of_neg (by decide)]
  rw [ofText, origin, split]
  rfl

theorem ofText_single {segment : Text} (slash : '/' ∉ segment) :
    ofText segment = ⟨.relative, [segment].filter isPart⟩ := by
  have origin : Origin.ofText segment = .relative := by
    cases segment with
    | nil => rfl
    | cons c segment =>
      have first : c ≠ '/' := by
        rintro rfl
        simp at slash
      simp [Origin.ofText, first]
  rw [ofText, List.splitOn_eq_singleton slash, origin]

theorem foldl_join_singles (segments : List Text) (p : Path) :
    (segments.map fun segment => (⟨.relative, [segment].filter isPart⟩ : Path)).foldl join p =
      ⟨p.origin, p.parts ++ segments.filter isPart⟩ := by
  induction segments generalizing p with
  | nil => simp
  | cons segment rest ih =>
    rw [List.map_cons, List.foldl_cons, ih, join, if_pos rfl, List.append_assoc,
      ← List.filter_append]
    rfl

theorem text_of_parts {parts : List Text} (filled : parts ≠ []) :
    text ⟨.relative, parts⟩ = ['/'].intercalate parts := by
  cases parts with
  | nil => exact absurd rfl filled
  | cons part rest => rfl

theorem intercalate_concat_append (front : List Text) (last t : Text) :
    ['/'].intercalate (front ++ [last]) ++ t = ['/'].intercalate (front ++ [last ++ t]) := by
  induction front with
  | nil => simp
  | cons part rest ih =>
    rw [List.cons_append, List.cons_append, List.intercalate_cons_of_ne_nil (by simp),
      List.intercalate_cons_of_ne_nil (by simp), ← ih]
    simp

end Path

namespace Layout

variable {layout : Layout} {relative other : Text}

theorem unrooted_root_append (layout : Layout) (relative : Text) :
    layout.unrooted (layout.root ++ relative) = relative := by
  rw [unrooted, after?_append]
  rfl

/-- The segments of a name below the root that a path keeps: neither empty nor a single dot. -/
def kept (layout : Layout) (name : Text) : List Text :=
  ((layout.unrooted name).splitOn '\\').filter Path.isPart

/-- The parts of a path with the extension behind the last, or behind a dot if there are none. -/
def extended (layout : Layout) (parts : List Text) : List Text :=
  parts.dropLast ++ [parts.getLastD ['.'] ++ layout.extension]

theorem kept_root_append (layout : Layout) (relative : Text) :
    layout.kept (layout.root ++ relative) = (relative.splitOn '\\').filter Path.isPart := by
  rw [kept, unrooted_root_append]

theorem text_append_extension (layout : Layout) (parts : List Text) :
    Path.text ⟨.relative, parts⟩ ++ layout.extension =
      ['/'].intercalate (layout.extended parts) := by
  rcases List.eq_nil_or_concat parts with rfl | ⟨front, last, rfl⟩
  · simp [extended, Path.text]
  · rw [List.concat_eq_append, Path.text_of_parts (by simp), Path.intercalate_concat_append,
      extended, List.dropLast_concat, List.getLastD_concat]

theorem relativePath_eq (free : '/' ∉ relative) :
    layout.relativePath (layout.root ++ relative) =
      ['/'].intercalate (layout.extended (layout.kept (layout.root ++ relative))) := by
  have whole : ∀ segment ∈ segments relative, '/' ∉ segment := by
    intro segment mem slash
    exact free (mem_of_mem_splitOnP (List.mem_filter.1 mem |>.1) '/' slash).1
  have read : (segments relative).map Path.ofText =
      (segments relative).map fun segment => ⟨.relative, [segment].filter Path.isPart⟩ :=
    List.map_congr_left fun segment mem => Path.ofText_single (whole segment mem)
  have same : (segments relative).filter Path.isPart = layout.kept (layout.root ++ relative) := by
    rw [kept_root_append, segments, List.filter_filter]
    refine List.filter_congr fun segment _ => ?_
    by_cases filled : segment = [] <;> simp [Path.isPart, filled]
  unfold relativePath
  dsimp only
  rw [unrooted_root_append, read, Path.foldl_join_singles, same]
  exact layout.text_append_extension _

/-- What the extension puts behind the last segment: all in front of its first slash. -/
def ending (layout : Layout) : Text :=
  layout.extension.takeWhile (· ≠ '/')

/-- The parts that slashes in the extension open behind the last segment. -/
def beyond (layout : Layout) : List Text :=
  (Path.ofText (layout.extension.dropWhile (· ≠ '/'))).parts

/-- The parts of a file below the application directory, for the segments of a name. -/
def fileParts (layout : Layout) (parts : List Text) : List Text :=
  parts.dropLast ++ (parts.getLastD ['.'] ++ layout.ending) :: layout.beyond

theorem head?_ending (layout : Layout) : layout.ending.head? = some '.' := by
  obtain ⟨rest, dotted⟩ := List.head?_eq_some_iff.1 layout.extension_dotted
  rw [ending, dotted, List.takeWhile_cons_of_pos (by decide), List.head?_cons]

theorem not_mem_ending (layout : Layout) : '/' ∉ layout.ending := fun mem => by
  simpa using List.mem_takeWhile_imp mem

theorem named_parts (layout : Layout) (free : '/' ∉ relative) :
    ∀ part ∈ (layout.kept (layout.root ++ relative)).dropLast ++
      [(layout.kept (layout.root ++ relative)).getLastD ['.'] ++ layout.ending],
      '/' ∉ part ∧ Path.isPart part := by
  generalize eq : layout.kept (layout.root ++ relative) = parts
  rw [kept_root_append] at eq
  have inner : ∀ part ∈ parts, '/' ∉ part ∧ Path.isPart part := by
    intro part mem
    rw [← eq, List.mem_filter] at mem
    exact ⟨fun inside => free (mem_of_mem_splitOnP mem.1 '/' inside).1, mem.2⟩
  have last : '/' ∉ parts.getLastD ['.'] ∧
      (parts.getLastD ['.'] = ['.'] ∨ Path.isPart (parts.getLastD ['.'])) := by
    rcases List.eq_nil_or_concat parts with rfl | ⟨front, last, rfl⟩
    · exact ⟨by decide, .inl rfl⟩
    · rw [List.concat_eq_append, List.getLastD_concat]
      obtain ⟨clean, part⟩ := inner last (by simp)
      exact ⟨clean, .inr part⟩
  intro part mem
  rcases List.mem_append.1 mem with mem | mem
  · exact inner part (List.dropLast_subset _ mem)
  · rw [List.mem_singleton] at mem
    rw [mem, List.mem_append, not_or]
    exact ⟨⟨last.1, layout.not_mem_ending⟩, Path.isPart_append last.2 layout.head?_ending⟩

theorem pathOf_eq_fileParts (free : '/' ∉ relative) :
    layout.pathOf (layout.root ++ relative) = layout.appRoot ++
      (⟨.relative, layout.fileParts (layout.kept (layout.root ++ relative))⟩ : Path) := by
  have parts := layout.named_parts free
  rw [pathOf, relativePath_eq free, extended, fileParts]
  generalize layout.kept (layout.root ++ relative) = segments at parts
  have whole : segments.getLastD ['.'] ++ layout.extension =
      (segments.getLastD ['.'] ++ layout.ending) ++ layout.extension.dropWhile (· ≠ '/') := by
    rw [List.append_assoc, ending, List.takeWhile_append_dropWhile]
  have named : Path.ofText (['/'].intercalate
      (segments.dropLast ++ [segments.getLastD ['.'] ++ layout.ending])) =
        ⟨.relative, segments.dropLast ++ [segments.getLastD ['.'] ++ layout.ending]⟩ :=
    Path.ofText_intercalate (by simp) parts
  have filled : ['/'].intercalate
      (segments.dropLast ++ [segments.getLastD ['.'] ++ layout.ending]) ≠ [] := by
    intro empty
    rw [empty] at named
    simp [Path.ofText, Path.isPart] at named
  have slash : ∀ c ∈ (layout.extension.dropWhile (· ≠ '/')).head?, c = '/' := fun c mem => by
    have stops := List.head?_dropWhile_not (· ≠ '/') layout.extension
    rw [Option.mem_def.1 mem] at stops
    simpa using stops
  rw [whole, ← Path.intercalate_concat_append, Path.ofText_append filled named slash]
  simp [beyond]

theorem fileParts_injective (layout : Layout) {parts others : List Text}
    (h : ∀ part ∈ parts, Path.isPart part) (h' : ∀ part ∈ others, Path.isPart part)
    (same : layout.fileParts parts = layout.fileParts others) : parts = others := by
  obtain ⟨front, last⟩ := List.append_inj' same (by simp)
  rw [List.cons.injEq, List.append_cancel_right_eq] at last
  have dotless : ¬ Path.isPart ['.'] := by decide
  -- no parts at all show as a dot, which is no part
  rcases List.eq_nil_or_concat parts with rfl | ⟨parts, part, rfl⟩ <;>
    rcases List.eq_nil_or_concat others with rfl | ⟨others, other, rfl⟩
  · rfl
  · have dot : other = ['.'] := by simpa using last.1.symm
    exact absurd (h' other (by simp)) (dot ▸ dotless)
  · have dot : part = ['.'] := by simpa using last.1
    exact absurd (h part (by simp)) (dot ▸ dotless)
  · simp only [List.concat_eq_append, List.dropLast_concat, List.getLastD_concat] at front last ⊢
    rw [front, last.1]

theorem pathOf_eq_pathOf_iff (free : '/' ∉ relative) (free' : '/' ∉ other) :
    layout.pathOf (layout.root ++ relative) = layout.pathOf (layout.root ++ other) ↔
      layout.kept (layout.root ++ relative) = layout.kept (layout.root ++ other) := by
  rw [pathOf_eq_fileParts free, pathOf_eq_fileParts free', Path.append_relative,
    Path.append_relative, Path.mk.injEq, List.append_cancel_left_eq, and_iff_right rfl]
  refine ⟨fun same => layout.fileParts_injective ?_ ?_ same, fun same => by rw [same]⟩ <;>
    exact fun part mem => (List.mem_filter.1 mem).2

theorem fileParts_eq_extended (slash : '/' ∉ layout.extension) (parts : List Text) :
    layout.fileParts parts = layout.extended parts := by
  have all : ∀ c ∈ layout.extension, decide (c ≠ '/') = true := by
    intro c mem
    exact decide_eq_true fun same => slash (same ▸ mem)
  rw [fileParts, ending, beyond, List.takeWhile_eq_self_iff.2 all, List.dropWhile_eq_nil_iff.2 all]
  rfl

theorem pathOf_eq (free : '/' ∉ relative) (slash : '/' ∉ layout.extension) :
    layout.pathOf (layout.root ++ relative) = layout.appRoot ++
      (⟨.relative, layout.extended (layout.kept (layout.root ++ relative))⟩ : Path) := by
  rw [pathOf_eq_fileParts free, fileParts_eq_extended slash]

end Layout
end Scaffold
