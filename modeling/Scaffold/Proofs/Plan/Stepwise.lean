import Scaffold.Proofs.Plan.ClassFile
import Scaffold.Proofs.Plan.Rewritten
import Scaffold.Proofs.Plan.Steps

/-! A model together with its collection and query builder, made at once or by a request for
each. The requests made apart read the model back from the disk where the joint one hands its
text on; the invariant between them is that the disk is the initial one but for the files
written, none of which any later check or stub looks at. -/

namespace Scaffold.Site
open Text Naming Recipe

variable {s : Site} {name model : Text} {collection : Option Text}
  {source : Except Fault (Path × Text)} {writes : List Write} {fresh update w : Write} {e : Disk}

/-- No file written is where the project would keep a stub of its own. -/
def SparesStubs (s : Site) (writes : List Write) : Prop :=
  ∀ w ∈ writes, ∀ stub ∈ Stub.builtin.map Prod.fst,
    s.disk.placeOf w.path ≠ s.disk.placeOf (s.layout.stubPath stub)

instance (s : Site) (writes : List Write) : Decidable (s.SparesStubs writes) :=
  inferInstanceAs (Decidable (∀ w ∈ writes, ∀ stub ∈ Stub.builtin.map Prod.fst,
    s.disk.placeOf w.path ≠ s.disk.placeOf (s.layout.stubPath stub)))

/-- No file written is the one of the path. -/
def Spares (s : Site) (writes : List Write) (path : Path) : Prop :=
  ∀ w ∈ writes, s.disk.placeOf w.path ≠ s.disk.placeOf path

theorem alike_of_rewritten (h : s.disk.Rewritten writes e) (spares : s.SparesStubs writes) :
    s.project.Alike (project { s with disk := e }) := by
  refine ⟨rfl, funext fun segment => h.tree.isDirectory_eq _, fun stub known => ?_⟩
  show e.file? (s.layout.stubPath stub) = s.disk.file? (s.layout.stubPath stub)
  unfold Disk.file?
  rw [h.at?_eq fun w mem => spares w mem stub known]

theorem newClass_of_rewritten (h : s.disk.Rewritten writes e) (spares : s.Spares writes w.path)
    {built : Noted Text} (ok : (s.newClass name built).outcome = .ok w) :
    (newClass { s with disk := e } name built).outcome = .ok w := by
  obtain ⟨action, t, free, done, rfl⟩ := newClass_eq_ok.1 ok
  have same : actionFor { s with disk := e } (s.layout.pathOf name) =
      s.actionFor (s.layout.pathOf name) := by
    unfold actionFor Disk.holds
    dsimp only
    rw [h.at?_eq spares]
  exact newClass_eq_ok.2 ⟨action, t, same.trans free, done, rfl⟩

theorem composedCollection_of_alike {fresh' : Write}
    (alike : s.project.Alike (project { s with disk := e }))
    (remade : ∀ {qualified : Text} {built : Noted Text},
      (s.newClass qualified built).outcome = .ok fresh →
      (newClass { s with disk := e } qualified built).outcome = .ok fresh')
    (ok : (s.composedCollection name model source).outcome = .ok (fresh, update)) :
    (composedCollection { s with disk := e } name model source).outcome =
      .ok (fresh', update) := by
  obtain ⟨qualified, path, t, composed, known, read, done, built, rfl⟩ :=
    composedCollection_eq_ok.1 ok
  refine composedCollection_eq_ok.2 ⟨qualified, path, t, composed, ?_, read, ?_, ?_, rfl⟩
  · rw [qualifier, alike.qualifier_eq]
    exact known
  · rw [alike.composeCollection_eq]
    exact done
  · rw [alike.buildCollection_eq]
    exact remade built

theorem composedQueryBuilder_of_alike {fresh' : Write} {planned planned' : List Path}
    (alike : s.project.Alike (project { s with disk := e }))
    (remade : ∀ {qualified : Text} {built : Noted Text},
      (s.newClass qualified built).outcome = .ok fresh →
      (newClass { s with disk := e } qualified built).outcome = .ok fresh')
    (there : ensureCollection { s with disk := e } collection planned' = .ok ())
    (ok : (s.composedQueryBuilder name model collection planned source).outcome =
      .ok (fresh, update)) :
    (composedQueryBuilder { s with disk := e } name model collection planned' source).outcome =
      .ok (fresh', update) := by
  obtain ⟨qualified, path, t, composed, known, -, read, done, built, rfl⟩ :=
    composedQueryBuilder_eq_ok.1 ok
  refine composedQueryBuilder_eq_ok.2
    ⟨qualified, path, t, composed, ?_, there, read, ?_, ?_, rfl⟩
  · rw [qualifier, alike.qualifier_eq]
    exact known
  · rw [alike.composeQueryBuilder_eq]
    exact done
  · rw [alike.buildQueryBuilder_eq]
    exact remade built

/-- Requests carried out in turn, each on the disk that the one before has left. -/
def makeAll (s : Site) : List Request → Except Fault Disk
  | [] => .ok s.disk
  | request :: rest =>
    let run := s.make false [] request
    match run.outcome with
    | .error fault => .error fault
    | .ok _ => makeAll { s with disk := run.disk } rest

/-- The requests for a plain model, then its collection, then its query builder. -/
def separately (name qualified : Text) : List Request :=
  let base := studly (basename name)
  [.model name true,
    .collection (collectionNameFor base) (some qualified),
    .queryBuilder (queryBuilderNameFor base) (some qualified) (some (collectionNameFor base))]

theorem makeAll_cons (request : Request) (planned : (s.plan request).outcome = .ok writes)
    (ready : ∀ w ∈ writes, s.disk.Ready w.path) :
    ∃ e, s.disk.Rewritten writes e ∧
      ∀ rest, s.makeAll (request :: rest) = makeAll { s with disk := e } rest := by
  obtain ⟨done, rewritten⟩ := make_ready planned ready
  refine ⟨_, rewritten, fun rest => ?_⟩
  rw [makeAll]
  simp only [done]

/-- The files of a model, its collection and its query builder: three places in directories that
are there. -/
structure Trio (s : Site) (model collection builder : Path) : Prop where
  readyModel : s.disk.Ready model
  readyCollection : s.disk.Ready collection
  readyBuilder : s.disk.Ready builder
  model_collection : s.disk.placeOf model ≠ s.disk.placeOf collection
  model_builder : s.disk.placeOf model ≠ s.disk.placeOf builder
  collection_builder : s.disk.placeOf collection ≠ s.disk.placeOf builder

theorem SparesStubs.of_paths {more : List Write} (h : s.SparesStubs writes)
    (listed : ∀ v ∈ more, ∃ w ∈ writes, w.path = v.path) : s.SparesStubs more := by
  intro v mem stub known
  obtain ⟨w, there, same⟩ := listed v mem
  rw [← same]
  exact h w there stub known

theorem modelSource_of_rewritten (front : List Write) {qualified marker : Text}
    (h : s.disk.Rewritten (front ++ [w]) e) (stubs : s.SparesStubs (front ++ [w]))
    (ready : s.disk.Ready w.path) (path : w.path = s.layout.pathOf qualified)
    (requalified : s.qualifier.qualify .model qualified = .ok qualified)
    (bare : isComposed marker w.content = false) :
    modelSource { s with disk := e } qualified marker = .ok (w.path, w.content) := by
  have read : e.file? w.path = some (.text w.content) := h.file?_last front ready (by simp)
  rw [path] at read ⊢
  refine modelSource_eq_ok ?_ read bare
  rw [qualifier, (alike_of_rewritten h stubs).qualifier_eq]
  exact requalified

namespace ModelPlan

variable {qualified : Text} {m c once b twice : Write}

theorem plan_collection (plan : s.ModelPlan name qualified m c once b twice)
    (trio : s.Trio m.path c.path b.path) (stubs : s.SparesStubs [m])
    (requalified : s.qualifier.qualify .model qualified = .ok qualified)
    (filled : qualified ≠ []) (h : s.disk.Rewritten [m] e) :
    (Site.plan { s with disk := e } (.collection (collectionNameFor (studly (basename name)))
      (some qualified))).outcome = .ok [c, once] := by
  have spares : s.Spares [m] c.path := by simpa [Spares] using trio.model_collection
  have source := modelSource_of_rewritten [] h stubs trio.readyModel plan.path
    requalified plan.uncollected.1
  refine planCollection_composed filled ?_
  rw [source]
  exact composedCollection_of_alike (alike_of_rewritten h stubs) (newClass_of_rewritten h spares)
    plan.first

theorem plan_builder (plan : s.ModelPlan name qualified m c once b twice)
    (trio : s.Trio m.path c.path b.path) (stubs : s.SparesStubs [m, c, once])
    (requalified : s.qualifier.qualify .model qualified = .ok qualified)
    (filled : qualified ≠ []) (h : s.disk.Rewritten [m, c, once] e) :
    (Site.plan { s with disk := e } (.queryBuilder (queryBuilderNameFor (studly (basename name)))
      (some qualified) (some (collectionNameFor (studly (basename name)))))).outcome =
      .ok [b, twice] := by
  have updated := plan.uncollected.2
  have spares : s.Spares [m, c, once] b.path := by
    simpa [Spares, updated] using
      ⟨trio.model_builder, trio.collection_builder, trio.model_builder⟩
  have source := modelSource_of_rewritten [m, c] h stubs (updated ▸ trio.readyModel)
    (updated.trans plan.path) requalified plan.unbuilt.1
  -- the collection asked for is the one that the request before has put on the disk
  have collected : ensureCollection { s with disk := e }
      (some (collectionNameFor (studly (basename name)))) [] = .ok () := by
    obtain ⟨placed, path, t, composed, known, -⟩ := composedCollection_eq_ok.1 plan.first
    have there : e.isFile (s.layout.pathOf placed) := by
      have found := h.file?_last [m] trio.readyCollection
        (by simpa [updated] using trio.model_collection)
      rw [← plan.collection_path known, Disk.isFile, found]
      rfl
    refine ensureCollection_of_isFile (s := { s with disk := e }) (by simp [collectionNameFor])
      ?_ there []
    rw [qualifier, (alike_of_rewritten h stubs).qualifier_eq]
    exact known
  refine planQueryBuilder_composed filled ?_
  rw [source, updated]
  exact composedQueryBuilder_of_alike (alike_of_rewritten h stubs)
    (newClass_of_rewritten h spares) collected plan.second

theorem makeAll_separately_of_trio (plan : s.ModelPlan name qualified m c once b twice)
    (trio : s.Trio m.path c.path b.path) (stubs : s.SparesStubs [m, c, b])
    (requalified : s.qualifier.qualify .model qualified = .ok qualified)
    (filled : qualified ≠ []) :
    ∃ e, s.makeAll (separately name qualified) = .ok e ∧
      s.disk.Rewritten [m, c, once, b, twice] e := by
  have updated := plan.uncollected.2
  have updated' := plan.unbuilt.2
  -- the model alone
  obtain ⟨d₁, left₁, step₁⟩ := makeAll_cons (.model name true)
    (planModel_plain_eq_ok.2 ⟨_, m, plan.known, plan.built, rfl⟩) (by simpa using trio.readyModel)
  -- its collection, with the model read back
  have plan₂ := plan.plan_collection trio (stubs.of_paths (by simp)) requalified filled left₁
  obtain ⟨d₂, left₂, step₂⟩ := makeAll_cons (.collection _ (some qualified)) plan₂ (by
    simpa [updated] using
      ⟨left₁.tree.ready trio.readyCollection, left₁.tree.ready trio.readyModel⟩)
  have both : s.disk.Rewritten [m, c, once] d₂ := left₁.trans left₂
  -- its query builder, with both read back
  have plan₃ := plan.plan_builder trio (stubs.of_paths (by simp [updated])) requalified filled
    both
  obtain ⟨d₃, left₃, step₃⟩ := makeAll_cons (.queryBuilder _ (some qualified) _) plan₃ (by
    simpa [updated'] using
      ⟨both.tree.ready trio.readyBuilder, both.tree.ready trio.readyModel⟩)
  refine ⟨d₃, ?_, both.trans left₃⟩
  rw [separately, step₁, step₂, step₃]
  rfl

end ModelPlan

theorem ready_of_make {report : Report} {hazards : Hazards} {request : Request} {relative : Text}
    (done : (s.make false hazards request).outcome = .ok report) (mem : w ∈ report.writes)
    (path : w.path = s.layout.pathOf (s.layout.root ++ relative)) (plain : Plain relative)
    (slash : '/' ∉ s.layout.extension)
    (parent : s.disk.isDirectory (s.layout.pathOf (s.layout.root ++ relative)).parent) :
    s.disk.Ready w.path := by
  obtain ⟨-, -, committed⟩ := make_ok done
  obtain ⟨clean, -, -⟩ := (commit_effect s.disk hazards report.writes).of_ok committed
  refine ⟨?_, clean w mem, ?_, free_of_commit committed mem⟩
  · rw [path]
    exact Layout.parts_pathOf_ne_nil plain slash
  · rw [path]
    exact parent

theorem ModelPlan.trio {relative : Text} {m c once b twice : Write} {hazards : Hazards}
    {report : Report}
    (plan : s.ModelPlan name (s.layout.root ++ relative) m c once b twice)
    (done : (s.make false hazards (.model name false)).outcome = .ok report)
    (writes_eq : report.writes = [c, b, { m with content := twice.content }])
    (slash : '/' ∉ s.layout.extension) (base : PlainSegment (basename name))
    (plain : Plain relative) (last : lastSegment relative = basename name)
    (parent : s.disk.isDirectory (s.layout.pathOf (s.layout.root ++ relative)).parent) :
    s.Trio m.path c.path b.path := by
  obtain ⟨collection, builder, parts⟩ := names_apart (basename name)
  have app := Layout.isDirectory_appRoot plain slash parent
  obtain ⟨short₁, short₂⟩ := plain_partNames base
  obtain ⟨relative₁, known₁, plain₁, last₁, parent₁⟩ :=
    exists_selected short₁ slash app .collection
  obtain ⟨relative₂, known₂, plain₂, last₂, parent₂⟩ :=
    exists_selected short₂ slash app .queryBuilder
  have path := plan.path
  have path₁ := plan.collection_path known₁
  have path₂ := plan.builder_path known₂
  refine ⟨ready_of_make (w := { m with content := twice.content }) done (by simp [writes_eq])
      path plain slash parent,
    ready_of_make done (by simp [writes_eq]) path₁ plain₁ slash parent₁,
    ready_of_make done (by simp [writes_eq]) path₂ plain₂ slash parent₂, ?_, ?_, ?_⟩
  · rw [path, path₁]
    exact Layout.placeOf_pathOf_ne _ plain plain₁ slash (by rwa [last, last₁])
  · rw [path, path₂]
    exact Layout.placeOf_pathOf_ne _ plain plain₂ slash (by rwa [last, last₂])
  · rw [path₁, path₂]
    exact Layout.placeOf_pathOf_ne _ plain₁ plain₂ slash (by rwa [last₁, last₂])

/-- Making a model with its collection and query builder comes to the same files as making the
three one after the other. -/
theorem makeAll_separately (s : Site) {name qualified : Text} {hazards : Hazards}
    {report : Report} (space : Plain s.layout.space) (slash : '/' ∉ s.layout.extension)
    (plain : PlainGiven name) (known : s.qualifier.qualify .model name = .ok qualified)
    (done : (s.make false hazards (.model name false)).outcome = .ok report)
    (parent : s.disk.isDirectory (s.layout.pathOf qualified).parent)
    (stubs : s.SparesStubs report.writes) :
    ∃ d, s.makeAll (separately name qualified) = .ok d ∧
      d.fileAt? = (s.make false hazards (.model name false)).disk.fileAt? := by
  obtain ⟨planned, -, committed⟩ := make_ok done
  obtain ⟨qualified', m, c, once, b, twice, plan, writes_eq⟩ := exists_modelPlan planned
  obtain rfl : qualified' = qualified := by
    have same := plan.known
    rw [known, Except.ok.injEq] at same
    exact same.symm
  obtain ⟨relative, root, plainRelative, last⟩ := Qualifier.exists_relative plain known
  obtain rfl : qualified' = s.layout.root ++ relative := root
  have requalified : s.qualifier.qualify .model (s.layout.root ++ relative) =
      .ok (s.layout.root ++ relative) := Qualifier.qualify_root_append space plainRelative .model
  have filled : s.layout.root ++ relative ≠ [] := by simp [Layout.root]
  have trio := plan.trio done writes_eq slash plain.basename plainRelative last parent
  have spared : s.SparesStubs [m, c, b] := stubs.of_paths (by simp [writes_eq])
  obtain ⟨d, made, rewritten⟩ :=
    plan.makeAll_separately_of_trio trio spared requalified filled
  obtain ⟨-, -, files⟩ := (commit_effect s.disk hazards report.writes).of_ok committed
  refine ⟨d, made, ?_⟩
  rw [rewritten.files, (make_of_plan hazards planned).1, files, writes_eq]
  -- the last text of the model covers the two before it
  funext place
  simp only [Disk.overwritten, List.foldl_cons, List.foldl_nil, Disk.overwrite,
    plan.uncollected.2, plan.unbuilt.2, Function.update_apply]
  split_ifs <;> rfl

/-- A project without stubs of its own and with one directory for classes. -/
def blogSite : Site :=
  ⟨.standard ⟨.root, ["p".toList]⟩,
    ((Disk.empty ["p".toList]).makeDirectories ⟨.relative, ["app".toList, "Blog".toList]⟩).1,
    false⟩

theorem makeAll_separately_blog_post :
    ∃ d, blogSite.makeAll (separately "App/Blog/blog_post".toList
        "App\\Blog\\blog_post".toList) = .ok d ∧
      d.fileAt? =
        (blogSite.make false [] (.model "App/Blog/blog_post".toList false)).disk.fileAt? := by
  have succeeds : ∃ report, report ∈
      (blogSite.make false [] (.model "App/Blog/blog_post".toList false)).outcome.toOption ∧
      blogSite.SparesStubs report.writes := by
    decide +kernel
  obtain ⟨report, made, stubs⟩ := succeeds
  have done : (blogSite.make false [] (.model "App/Blog/blog_post".toList false)).outcome =
      .ok report := by
    generalize (blogSite.make false [] (.model "App/Blog/blog_post".toList false)).outcome =
      outcome at made
    cases outcome with
    | error fault => simp [Except.toOption] at made
    | ok other => simpa [Except.toOption] using made
  exact makeAll_separately blogSite (by decide +kernel) (by decide +kernel) (by decide +kernel)
    (by decide +kernel) done (by decide +kernel) stubs

end Scaffold.Site
