import Scaffold.Proofs.Composition.Fresh
import Scaffold.Proofs.Composition.Placed

/-! What a model, its collection and its query builder consist of when all three are made of the
built-in stubs. Every edit on the way is one of a sheet, so none of them can fail, and what is
asked of the texts is read off the sheets. -/

namespace Scaffold
open Text Naming Source DocBlock Recipe

namespace Source.Sheet

variable {s : Sheet} {name : Text} {names entries : List Text}

/-- A sheet with a part for the class of the given name. -/
def withPart (s : Sheet) (part : Part) (name : Text) : Sheet :=
  (s.importing (missingImports s.text [name])).extended (part.method (lastSegment name))

theorem Sound.withPart (h : s.Sound) (part : Part) (clean : Spelled name) :
    (s.withPart part name).Sound := by
  refine (h.importing fun other mem => ?_).extended _
  rwa [List.mem_singleton.1 (mem_missingImports.1 mem).1]

theorem mem_imports_withPart (part : Part) (clean : Spelled name) :
    name ∈ imports (s.withPart part name).text :=
  imports_extended _ _ (mem_imports_importing clean (List.mem_singleton_self name))

theorem imports_withPart (part : Part) (name : Text) :
    imports s.text ⊆ imports (s.withPart part name).text :=
  fun _ mem => imports_extended _ _ (imports_importing s _ mem)

theorem occurrences_withPart (part other : Part) (clean : Spelled name)
    (clean' : Spelled (lastSegment name)) :
    occurrences part.marker (s.withPart other name).text =
      occurrences part.marker s.text + if part = other then 1 else 0 := by
  obtain ⟨filled, whole, -⟩ := part.marker_sound
  have bare : ∀ missing ∈ missingImports s.text [name],
      ¬ part.marker <:+: Import.statement missing := by
    intro missing mem
    rw [List.mem_singleton.1 (mem_missingImports.1 mem).1]
    exact part.not_marked_statement clean
  rw [withPart, occurrences_extended filled whole, occurrences_importing filled whole bare,
    part.occurrences_method other clean']

/-- A sheet that refers to the classes of the given names. -/
def referring (s : Sheet) (names entries : List Text) : Sheet :=
  (s.importing (missingImports s.text names)).documented entries

theorem Sound.missing (h : s.Sound) (clean : ∀ name ∈ names, Spelled name) :
    (s.importing (missingImports s.text names)).Sound :=
  h.importing fun name mem => clean name (mem_missingImports.1 mem).1

theorem addImports_referring (h : s.Sound) (blank : s.doc = none)
    (clean : ∀ name ∈ names, Spelled name) (entries : List Text) :
    (addImports names s.text >>= insertBeforeClass [render entries]) =
      .ok (s.referring names entries).text := by
  rw [addImports_text h]
  exact insertBeforeClass_text (h.missing clean) blank entries

theorem mem_imports_referring (blank : s.doc = none) (clean : Spelled name) (mem : name ∈ names)
    (entries : List Text) : name ∈ imports (s.referring names entries).text := by
  have blank : (s.importing (missingImports s.text names)).doc = none := blank
  exact imports_documented blank entries (mem_imports_importing clean mem)

theorem classEntries?_referring (h : s.Sound) (clean : ∀ name ∈ names, Spelled name)
    (listed : ∀ entry ∈ entries, IsEntry entry) :
    classEntries? (s.referring names entries).text = some entries :=
  classEntries?_text ((h.missing clean).documented entries) rfl listed

theorem inert_withPart (part : Part) (body : Inert (ofRows s.body))
    (clean' : Spelled (lastSegment name)) : Inert (ofRows (s.withPart part name).body) := by
  have split : ofRows (s.withPart part name).body =
      ofRows s.body ++ (['\n'] ++ ofRows (part.method (lastSegment name))) := by
    simp [withPart]
    rfl
  rw [split]
  exact body.append ((inert_of_not_mem (by decide)).append (part.inert_method clean'))

theorem inject_withPart (h : s.Sound) (part : Part) (clean' : Spelled (lastSegment name))
    (bare : occurrences part.marker s.text = 0) (subject : Option Text) :
    inject [name] ('\n' :: trim Project.isLineEnd (Stub.fillClass name part.stub))
      (some part.marker) subject s.text = .ok (s.withPart part name).text := by
  have unmarked : ∀ mark ∈ some part.marker, mark ≠ [] → isComposed mark s.text = false := by
    intro mark given _
    rw [← Option.some.inj given, isComposed, ← Bool.not_eq_true, occurs_iff]
    exact occurrences_eq_zero_iff.1 bare
  have filled : part.method (lastSegment name) ≠ [] := by simp [Part.method]
  rw [inject_eq unmarked, part.fillClass_stub (clean'.not_mem (by decide)), part.trim_method,
    addImports_text h]
  exact appendToBody_text filled _

end Source.Sheet

namespace Project

variable {p : Project} {q c b short : Text}

/-- The model with both parts. -/
def modelSheet (q c b : Text) : Sheet :=
  (((Kind.model.sheetOf q).withPart .collection c).withPart .queryBuilder b).documented
    (modelEntries b)

def collectionSheet (q c : Text) : Sheet :=
  (Kind.collection.sheetOf c).referring [q] (collectionEntries q)

def queryBuilderSheet (q c b short : Text) : Sheet :=
  (Kind.queryBuilder.sheetOf b).referring [q, c] (queryBuilderEntries q (some short))

theorem Builtin.buildModel (h : p.Builtin) (hq : Placed p.qualifier q) :
    (p.buildModel q).outcome = .ok (Kind.model.sheetOf q).text := by
  rw [Project.buildModel, Noted.outcome_bind, Noted.outcome_lift, hq.settled]
  exact h.rendered .model hq.clean_space hq.clean_base hq.undummied

theorem Builtin.composeCollection (h : p.Builtin) (hq : Placed p.qualifier q)
    (hc : Placed p.qualifier c) (model : Option Text) :
    (p.composeCollection c model (Kind.model.sheetOf q).text).outcome =
      .ok ((Kind.model.sheetOf q).withPart .collection c).text := by
  have composed := compose_outcome h.parts ⟨.collection, c, model⟩ (Kind.model.sheetOf q).text
  have bare := Part.collection.occurrences_sheet hq.clean_space hq.clean_base
  have sound := Kind.model.sound_sheet hq.clean_space hq.clean_base
  rw [hc.settled] at composed
  refine composed.trans ?_
  exact congrArg (· >>= pure) (Sheet.inject_withPart sound .collection hc.clean_base bare _)

theorem Builtin.composeQueryBuilder (h : p.Builtin) (hq : Placed p.qualifier q)
    (hc : Placed p.qualifier c) (hb : Placed p.qualifier b) (model : Option Text) :
    (p.composeQueryBuilder b model ((Kind.model.sheetOf q).withPart .collection c).text).outcome =
      .ok (modelSheet q c b).text := by
  have composed := compose_outcome h.parts ⟨.queryBuilder, b, model⟩
    ((Kind.model.sheetOf q).withPart .collection c).text
  have bare : occurrences Part.queryBuilder.marker
      ((Kind.model.sheetOf q).withPart .collection c).text = 0 := by
    have fresh := Part.queryBuilder.occurrences_sheet hq.clean_space hq.clean_base
    rw [Sheet.occurrences_withPart _ _ hc.plain.spelled hc.clean_base, Kind.sheetOf, fresh]
    rfl
  have sound := (Kind.model.sound_sheet hq.clean_space hq.clean_base).withPart .collection
    hc.plain.spelled
  have body : Inert (ofRows (Kind.model.sheetOf q).body) := by
    show Inert (ofRows Kind.model.body)
    exact inert_of_not_mem (by decide)
  have inert := Sheet.inert_withPart .queryBuilder
    (Sheet.inert_withPart .collection body hc.clean_base) hb.clean_base
  have injected := Sheet.inject_withPart sound .queryBuilder hb.clean_base bare (subjectOf model)
  have annotated := Sheet.annotate_text (sound.withPart .queryBuilder hb.plain.spelled) rfl inert
    (modelEntries b)
  rw [hb.settled] at composed
  refine composed.trans ?_
  calc _ = Except.ok _ >>= Part.queryBuilder.finish b := congrArg (· >>= _) injected
    _ = .ok (modelSheet q c b).text := annotated

theorem Builtin.buildCollection (h : p.Builtin) (hq : Placed p.qualifier q)
    (hc : Placed p.qualifier c) :
    (p.buildCollection c (some q)).outcome = .ok (collectionSheet q c).text := by
  have rendered : (p.rendered Stub.collectionName c).outcome =
      .ok (Kind.collection.sheetOf c).text :=
    h.rendered .collection hc.clean_space hc.clean_base hc.undummied
  have sound := Kind.collection.sound_sheet hc.clean_space hc.clean_base
  have clean : ∀ name ∈ [q], Spelled name := by simpa using hq.plain.spelled
  have referred := Sheet.addImports_referring sound rfl clean (collectionEntries q)
  rw [Project.buildCollection, given_some hq.filled]
  simp only [Noted.outcome_bind_eq_ok, Noted.outcome_lift]
  exact ⟨c, hc.settled _, _, rendered, q, hq.settled _, bind_eq_ok.1 referred⟩

theorem Builtin.buildQueryBuilder (h : p.Builtin) (hq : Placed p.qualifier q)
    (hc : Placed p.qualifier c) (hb : Placed p.qualifier b) (filled : short ≠ [])
    (known : p.qualifier.qualify .collection short = .ok c) :
    (p.buildQueryBuilder b (some q) (some short)).outcome =
      .ok (queryBuilderSheet q c b short).text := by
  have rendered : (p.rendered Stub.queryBuilderName b).outcome =
      .ok (Kind.queryBuilder.sheetOf b).text :=
    h.rendered .queryBuilder hb.clean_space hb.clean_base hb.undummied
  have sound := Kind.queryBuilder.sound_sheet hb.clean_space hb.clean_base
  have clean : ∀ name ∈ [q, c], Spelled name := by
    simpa using ⟨hq.plain.spelled, hc.plain.spelled⟩
  have referred := Sheet.addImports_referring sound rfl clean (queryBuilderEntries q (some short))
  have named : p.referred q (some short) = .ok [q, c] := by
    rw [Project.referred, given_some filled, bind_eq_ok]
    refine ⟨q, hq.settled _, ?_⟩
    simp only [known]
    rfl
  rw [Project.buildQueryBuilder, given_some hq.filled]
  simp only [Noted.outcome_bind_eq_ok, Noted.outcome_lift]
  exact ⟨b, hb.settled _, _, rendered, _, named, bind_eq_ok.1 referred⟩

end Project

theorem isEntry_of_spelled {front back base : Text} (clean : Spelled base)
    (whole : Unbroken front ∧ Unbroken back) (free : '/' ∉ front ∧ '/' ∉ back) {last : Char}
    (ends : back.getLast? = some last) (solid : isBlank last = false) :
    IsEntry (front ++ base ++ back) := by
  refine ⟨?_, fun found => ?_, fun d mem => ?_⟩
  · simp [whole, Sheet.unbroken_of_spelled clean]
  · have slash : '/' ∈ front ++ base ++ back := found.subset (by decide)
    simp [free, clean.not_mem (c := '/') (by decide)] at slash
  · have same : last = d := by simpa [ends] using mem
    rwa [← same]

section entries

variable {name : Text} (clean : Spelled (basename name))
include clean

theorem isEntry_firstEntry : IsEntry (firstEntry name) :=
  isEntry_of_spelled clean (by decide) (by decide) rfl (by decide)

theorem isEntry_getEntry : IsEntry (getEntry name) :=
  isEntry_of_spelled clean (by decide) (by decide) rfl (by decide)

theorem isEntry_queryEntry : IsEntry (queryEntry name) :=
  isEntry_of_spelled clean (by decide) (by decide) rfl (by decide)

end entries

namespace Project

variable {k : Qualifier} {q c b short : Text}

theorem modelSheet_spec (hq : Placed k q) (hc : Placed k c) (hb : Placed k b) :
    (∀ part : Part, occurrences part.marker (modelSheet q c b).text = 1) ∧
      c ∈ imports (modelSheet q c b).text ∧ b ∈ imports (modelSheet q c b).text ∧
      Sheet.classEntries? (modelSheet q c b).text = some (modelEntries b) := by
  have clean : Spelled (basename b) := hb.basename_eq ▸ hb.clean_base
  have sound : ((Kind.model.sheetOf q).withPart .collection c).Sound :=
    (Kind.model.sound_sheet hq.clean_space hq.clean_base).withPart .collection hc.plain.spelled
  have sound' := sound.withPart .queryBuilder hb.plain.spelled
  refine ⟨fun part => ?_, ?_, ?_, ?_⟩
  · obtain ⟨filled, whole, -⟩ := part.marker_sound
    have bare : ∀ row ∈ Sheet.docRows (some (modelEntries b)), ¬ part.marker <:+: row := by
      have marks : ¬ part.marker <:+: opener ∧ ¬ part.marker <:+: ' ' :: closer := by
        cases part <;> decide
      simp [Sheet.docRows, modelEntries, marks, part.not_marked_queryEntry clean]
    have fresh : occurrences part.marker (Kind.model.sheetOf q).text = 0 :=
      part.occurrences_sheet hq.clean_space hq.clean_base
    rw [modelSheet, Sheet.occurrences_documented filled whole rfl bare,
      Sheet.occurrences_withPart part _ hb.plain.spelled hb.clean_base,
      Sheet.occurrences_withPart part _ hc.plain.spelled hc.clean_base, fresh]
    cases part <;> rfl
  · exact Sheet.imports_documented rfl _ (Sheet.imports_withPart _ _
      (Sheet.mem_imports_withPart _ hc.plain.spelled))
  · exact Sheet.imports_documented rfl _ (Sheet.mem_imports_withPart _ hb.plain.spelled)
  · refine Sheet.classEntries?_text (sound'.documented _) rfl ?_
    simpa [modelEntries] using isEntry_queryEntry clean

theorem collectionSheet_spec (hq : Placed k q) (hc : Placed k c) :
    q ∈ imports (collectionSheet q c).text ∧
      Sheet.classEntries? (collectionSheet q c).text = some (collectionEntries q) := by
  have clean : Spelled (basename q) := hq.basename_eq ▸ hq.clean_base
  have sound := Kind.collection.sound_sheet hc.clean_space hc.clean_base
  constructor
  · exact Sheet.mem_imports_referring rfl hq.plain.spelled (by simp) _
  · refine Sheet.classEntries?_referring sound (by simpa using hq.plain.spelled) ?_
    simpa [collectionEntries] using isEntry_firstEntry clean

theorem queryBuilderSheet_spec (hq : Placed k q) (hc : Placed k c) (hb : Placed k b)
    (segment : PlainSegment short) :
    q ∈ imports (queryBuilderSheet q c b short).text ∧
      c ∈ imports (queryBuilderSheet q c b short).text ∧
      Sheet.classEntries? (queryBuilderSheet q c b short).text =
        some [firstEntry q, getEntry short] := by
  have clean : Spelled (basename q) := hq.basename_eq ▸ hq.clean_base
  have clean' : Spelled (basename short) := segment.toPlain.given.basename.spelled
  have sound := Kind.queryBuilder.sound_sheet hb.clean_space hb.clean_base
  have both : ∀ name ∈ [q, c], Spelled name := by
    simpa using ⟨hq.plain.spelled, hc.plain.spelled⟩
  have entries : queryBuilderEntries q (some short) = [firstEntry q, getEntry short] := by
    simp [queryBuilderEntries, given_some segment.ne_nil]
  refine ⟨Sheet.mem_imports_referring rfl hq.plain.spelled (by simp) _,
    Sheet.mem_imports_referring rfl hc.plain.spelled (by simp) _, ?_⟩
  rw [queryBuilderSheet, entries]
  refine Sheet.classEntries?_referring sound both ?_
  simpa using ⟨isEntry_firstEntry clean, isEntry_getEntry clean'⟩

end Project
end Scaffold
