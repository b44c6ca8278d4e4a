import Scaffold.Command.Session
import Scaffold.Plan.Commit
import Scaffold.Proofs.Disk.Write

/-! Checks before writes. A plan is made without touching the disk, so what stops a run short
of its first write leaves everything as it was. One fault is found too late for that: a null
character in a planned path is noticed when its file is to be put in place, after the writes in
front of it. -/

namespace Scaffold

namespace Disk

variable {d e : Disk} {w : Write} {place : Place}

/-- Files as they are with one more write done. -/
def overwrite (d : Disk) (files : Place → Option Content) (w : Write) : Place → Option Content :=
  Function.update files (d.placeOf w.path) (some (.text w.content))

/-- The files of a disk with writes done in order. -/
def overwritten (d : Disk) (writes : List Write) : Place → Option Content :=
  writes.foldl d.overwrite d.fileAt?

theorem foldl_overwrite_of_ne {writes : List Write} (files : Place → Option Content)
    (h : ∀ w ∈ writes, d.placeOf w.path ≠ place) :
    writes.foldl d.overwrite files place = files place := by
  induction writes generalizing files with
  | nil => rfl
  | cons w rest ih =>
    have first : place ≠ d.placeOf w.path := (h w (by simp)).symm
    rw [List.foldl_cons, ih _ fun v mem => h v (List.mem_cons_of_mem _ mem)]
    exact Function.update_of_ne first _ _

theorem overwritten_of_ne {writes : List Write} (h : ∀ w ∈ writes, d.placeOf w.path ≠ place) :
    d.overwritten writes place = d.fileAt? place :=
  foldl_overwrite_of_ne _ h

theorem overwritten_last (front : List Write) {back : List Write}
    (h : ∀ v ∈ back, d.placeOf v.path ≠ d.placeOf w.path) :
    d.overwritten (front ++ w :: back) (d.placeOf w.path) = some (.text w.content) := by
  rw [overwritten, List.foldl_append, List.foldl_cons, foldl_overwrite_of_ne _ h]
  exact Function.update_self ..

theorem overwritten_cons (grown : d.Extends e)
    (h : e.fileAt? = Function.update d.fileAt? (d.placeOf w.path) (some (.text w.content)))
    (rest : List Write) : e.overwritten rest = d.overwritten (w :: rest) := by
  have same : e.overwrite = d.overwrite := by
    funext files v
    rw [overwrite, overwrite, grown.placeOf_eq]
  rw [overwritten, overwritten, same, List.foldl_cons, h, overwrite]

/-- The writes were done up to the first whose path holds a null character. -/
def HaltedAtNull (d : Disk) (writes : List Write) (after : Disk) : Prop :=
  ∃ done w rest, writes = done ++ w :: rest ∧ (∀ v ∈ done, v.path.hasNull = false) ∧
    w.path.hasNull ∧ d.Extends after ∧ after.fileAt? = d.overwritten done

theorem HaltedAtNull.cons {after : Disk} {writes : List Write} (grown : d.Extends e)
    (clean : w.path.hasNull = false)
    (changed : e.fileAt? = Function.update d.fileAt? (d.placeOf w.path) (some (.text w.content)))
    (h : e.HaltedAtNull writes after) : d.HaltedAtNull (w :: writes) after := by
  obtain ⟨done, v, rest, rfl, others, null, grown', files⟩ := h
  refine ⟨w :: done, v, rest, rfl, ?_, null, grown.trans grown', ?_⟩
  · simpa [clean] using others
  · rw [files, overwritten_cons grown changed]

/-- The files of `d` with all writes done, each read back through its path, and no others. -/
structure Carries (d : Disk) (writes : List Write) (after : Disk) : Prop where
  files : after.fileAt? = d.overwritten writes
  clean : ∀ w ∈ writes, w.path.hasNull = false
  last : ∀ front w back, writes = front ++ w :: back →
    (∀ v ∈ back, d.placeOf v.path ≠ d.placeOf w.path) →
    after.file? w.path = some (.text w.content)
  others : ∀ place, (∀ w ∈ writes, d.placeOf w.path ≠ place) →
    after.fileAt? place = d.fileAt? place

theorem Carries.of_files {after : Disk} {writes : List Write}
    (clean : ∀ w ∈ writes, w.path.hasNull = false)
    (placed : ∀ w ∈ writes, after.locate? w.path = some (d.placeOf w.path))
    (files : after.fileAt? = d.overwritten writes) : d.Carries writes after := by
  refine ⟨files, clean, fun front w back split later => ?_, fun place apart => ?_⟩
  · have found := placed w (by simp [split])
    have content : after.fileAt? (d.placeOf w.path) = some (.text w.content) := by
      rw [files, split]
      exact overwritten_last front later
    rw [fileAt?_eq_some_iff] at content
    simp [file?, at?, found, content]
  · rw [files]
    exact overwritten_of_ne apart

end Disk

/-- What carrying out a plan may do to the disk `d`. -/
structure CommitEffect (d : Disk) (writes : List Write) (run : Run Unit) : Prop where
  grown : d.Extends run.disk
  of_ok : run.outcome = .ok () → (∀ w ∈ writes, w.path.hasNull = false) ∧
    (∀ w ∈ writes, run.disk.locate? w.path = some (d.placeOf w.path)) ∧
    run.disk.fileAt? = d.overwritten writes
  of_error : ∀ fault, run.outcome = .error fault → fault = .system ∨
    fault = .nullInName ∧ d.HaltedAtNull writes run.disk

theorem CommitEffect.cons {d after : Disk} {w : Write} {rest : List Write} {run : Run Unit}
    (notes : List Note) (first : d.WriteEffect w.path w.content (after, .ok ()))
    (others : CommitEffect after rest run) :
    CommitEffect d (w :: rest) ⟨run.disk, notes, run.outcome⟩ := by
  obtain ⟨clean, found, changed⟩ := first.of_ok rfl
  refine ⟨first.grown.trans others.grown, fun eq => ?_, fun fault eq => ?_⟩
  · obtain ⟨bare, placed, files⟩ := others.of_ok eq
    refine ⟨by simpa [clean] using bare, fun v mem => ?_,
      files.trans (Disk.overwritten_cons first.grown changed rest)⟩
    rcases List.mem_cons.1 mem with rfl | mem
    · exact others.grown.locate? found
    · rw [← first.grown.placeOf_eq]
      exact placed v mem
  · rcases others.of_error fault eq with system | ⟨null, halted⟩
    · exact .inl system
    · exact .inr ⟨null, halted.cons first.grown clean changed⟩

theorem commit_effect (d : Disk) (hazards : Hazards) (writes : List Write) :
    CommitEffect d writes (commit d hazards writes) := by
  -- a write goes on from the disk that the one before it has left, so the disk is not fixed
  induction writes generalizing d hazards with
  | nil =>
    refine ⟨.refl d, fun _ => ⟨by simp, by simp, rfl⟩, fun fault eq => by simp [commit] at eq⟩
  | cons w rest ih =>
    have first := Disk.write_effect d (hazards.headD Hazard.calm) w.path w.content
    unfold commit
    split
    · next after result =>
      rw [result] at first
      exact .cons _ first (ih after hazards.tail)
    · next after fault result =>
      rw [result] at first
      refine ⟨first.grown, fun eq => by simp at eq, fun other eq => ?_⟩
      obtain rfl : fault = other := by simpa using eq
      rcases first.of_error fault rfl with system | ⟨null, bad, same⟩
      · exact .inl system
      · exact .inr ⟨null, [], w, rest, rfl, by simp, bad, first.grown, same⟩

instance decidableEqOutcome {α : Type} [DecidableEq α] : DecidableEq (Except Fault α)
  | .ok a, .ok b => decidable_of_iff (a = b) (by simp)
  | .error f, .error g => decidable_of_iff (f = g) (by simp)
  | .ok _, .error _ => isFalse (by simp)
  | .error _, .ok _ => isFalse (by simp)

namespace Site

variable {s : Site} {request : Request} {hazards : Hazards} {fault : Fault}

theorem make_of_plan_error (hazards : Hazards) (h : (s.plan request).outcome = .error fault) (dryRun : Bool) :
    (s.make dryRun hazards request).outcome = .error fault ∧
      (s.make dryRun hazards request).disk = s.disk := by
  simp only [make, h, and_self]

theorem make_of_plan (hazards : Hazards) {writes : List Write} (h : (s.plan request).outcome = .ok writes) :
    (s.make false hazards request).disk = (commit s.disk hazards writes).disk ∧
      (s.make false hazards request).outcome =
        (commit s.disk hazards writes).outcome.map fun _ => ⟨writes, false⟩ := by
  simp only [make, h]
  exact ⟨rfl, rfl⟩

theorem dryRun_of_plan (hazards : Hazards) {writes : List Write} (h : (s.plan request).outcome = .ok writes) :
    (s.make true hazards request).outcome = .ok ⟨writes, true⟩ := by
  simp only [make, h]
  rfl

theorem dryRun_disk (s : Site) (hazards : Hazards) (request : Request) :
    (s.make true hazards request).disk = s.disk := by
  cases planned : (s.plan request).outcome with
  | error fault => exact (make_of_plan_error hazards planned true).2
  | ok writes => simp [make, planned]

theorem make_error (h : (s.make false hazards request).outcome = .error fault) :
    ((s.plan request).outcome = .error fault ∧ (s.make false hazards request).disk = s.disk) ∨
      fault = .system ∨
      fault = .nullInName ∧ ∃ writes, (s.plan request).outcome = .ok writes ∧
        s.disk.HaltedAtNull writes (s.make false hazards request).disk := by
  cases planned : (s.plan request).outcome with
  | error early =>
    have whole := make_of_plan_error hazards planned false
    obtain rfl : early = fault := by simpa [whole.1] using h
    exact .inl ⟨rfl, whole.2⟩
  | ok writes =>
    have effect := commit_effect s.disk hazards writes
    obtain ⟨disk, outcome⟩ := make_of_plan hazards planned
    rw [outcome] at h
    cases committed : (commit s.disk hazards writes).outcome with
    | ok u =>
      rw [committed] at h
      simp [Except.map] at h
    | error late =>
      rw [committed] at h
      obtain rfl : late = fault := by simpa [Except.map] using h
      rcases effect.of_error late committed with system | ⟨null, halted⟩
      · exact .inr (.inl system)
      · exact .inr (.inr ⟨null, writes, rfl, disk ▸ halted⟩)

theorem make_ok {report : Report} (h : (s.make false hazards request).outcome = .ok report) :
    (s.plan request).outcome = .ok report.writes ∧ report.dryRun = false ∧
      (commit s.disk hazards report.writes).outcome = .ok () := by
  cases planned : (s.plan request).outcome with
  | error early =>
    rw [(make_of_plan_error hazards planned false).1] at h
    simp at h
  | ok writes =>
    rw [(make_of_plan hazards planned).2] at h
    cases committed : (commit s.disk hazards writes).outcome with
    | error late =>
      rw [committed] at h
      simp [Except.map] at h
    | ok u =>
      rw [committed] at h
      obtain rfl : ⟨writes, false⟩ = report := by simpa [Except.map] using h
      exact ⟨rfl, rfl, committed⟩

end Site

namespace Command

theorem Invocation.make_error {i : Invocation} {layout : Layout} {d : Disk} {request : Request}
    {out err : Text} (h : (i.make layout d request).response = .done 1 out err) :
    ∃ fault, fault ≠ .system ∧
      (Site.make ⟨layout, d, i.settings.force⟩ i.settings.dryRun [] request).outcome =
        .error fault := by
  unfold make at h
  cases ended : (Site.make ⟨layout, d, i.settings.force⟩ i.settings.dryRun [] request).outcome with
  | ok report => simp [ended] at h
  | error fault =>
    refine ⟨fault, ?_, rfl⟩
    rintro rfl
    simp [ended, failed, Fault.isReported] at h

theorem Invocation.make_disk (i : Invocation) (layout : Layout) (d : Disk) (request : Request) :
    (i.make layout d request).disk =
      (Site.make ⟨layout, d, i.settings.force⟩ i.settings.dryRun [] request).disk := by
  unfold make
  dsimp only
  split <;> rfl

theorem run_error {reader : Config.Reader} {surroundings : Surroundings} {d : Disk}
    {arguments : List Text} {out err : Text}
    (h : (run reader surroundings d arguments).response = .done 1 out err) :
    (run reader surroundings d arguments).disk = d ∨
      ∃ invocation layout request writes, read arguments = .ok invocation ∧
        invocation.layout reader surroundings d = .ok layout ∧
        invocation.request? = some request ∧
        (Site.plan ⟨layout, d, invocation.settings.force⟩ request).outcome = .ok writes ∧
        d.HaltedAtNull writes (run reader surroundings d arguments).disk := by
  unfold run at h ⊢
  cases given : read arguments with
  | error halt => cases halt <;> exact .inl rfl
  | ok invocation =>
    simp only [given, Invocation.run] at h ⊢
    cases placed : invocation.layout reader surroundings d with
    | error fault => exact .inl rfl
    | ok layout =>
      simp only [placed] at h ⊢
      cases asked : invocation.request? with
      | none => exact .inl rfl
      | some request =>
        simp only [asked] at h ⊢
        obtain ⟨fault, reported, ended⟩ := Invocation.make_error h
        rw [Invocation.make_disk]
        cases dry : invocation.settings.dryRun with
        | true => exact .inl (Site.dryRun_disk ..)
        | false =>
          rw [dry] at ended
          rcases Site.make_error ended with ⟨-, same⟩ | system | ⟨-, writes, planned, halted⟩
          · exact .inl same
          · exact absurd system reported
          · exact .inr ⟨invocation, layout, request, writes, rfl, placed, asked, planned, halted⟩

end Command

namespace Site

/-- Every check comes before the first write, but for the one on null characters: a run that
fails by itself either changed nothing or has done the writes of its plan up to a path that
holds a null character. A dry run changes nothing, fails as the plan fails and else reports the
writes of the plan; a run that succeeds has done them, in order, and touched no other file. -/
theorem make_checks_first (s : Site) (hazards : Hazards) (request : Request) :
    (∀ fault, (s.make false hazards request).outcome = .error fault → fault ≠ .system →
      ((s.plan request).outcome = .error fault ∧
        (s.make false hazards request).disk = s.disk) ∨
      (fault = .nullInName ∧ ∃ writes, (s.plan request).outcome = .ok writes ∧
        s.disk.HaltedAtNull writes (s.make false hazards request).disk)) ∧
    (∀ reader surroundings arguments out err,
      (Command.run reader surroundings s.disk arguments).response = .done 1 out err →
      (Command.run reader surroundings s.disk arguments).disk = s.disk ∨
      ∃ invocation layout asked writes, Command.read arguments = .ok invocation ∧
        invocation.layout reader surroundings s.disk = .ok layout ∧
        invocation.request? = some asked ∧
        (plan ⟨layout, s.disk, invocation.settings.force⟩ asked).outcome = .ok writes ∧
        s.disk.HaltedAtNull writes (Command.run reader surroundings s.disk arguments).disk) ∧
    (s.make true hazards request).disk = s.disk ∧
    (∀ fault, (s.plan request).outcome = .error fault →
      (s.make true hazards request).outcome = .error fault ∧
      (s.make false hazards request).outcome = .error fault) ∧
    (∀ writes, (s.plan request).outcome = .ok writes →
      (s.make true hazards request).outcome = .ok ⟨writes, true⟩ ∧
      ∀ report, (s.make false hazards request).outcome = .ok report → report = ⟨writes, false⟩) ∧
    ∀ report, (s.make false hazards request).outcome = .ok report →
      s.disk.Carries report.writes (s.make false hazards request).disk := by
  refine ⟨fun fault failed own => ?_, fun _ _ _ _ _ => Command.run_error,
    dryRun_disk s hazards request, fun fault planned => ?_, fun writes planned => ?_,
    fun report done => ?_⟩
  · rcases make_error failed with early | system | null
    · exact .inl early
    · exact absurd system own
    · exact .inr null
  · exact ⟨(make_of_plan_error hazards planned true).1, (make_of_plan_error hazards planned false).1⟩
  · refine ⟨dryRun_of_plan hazards planned, fun report done => ?_⟩
    obtain ⟨same, real, -⟩ := make_ok done
    have writes_eq : writes = report.writes := by simpa [planned] using same
    cases report
    simp_all
  · obtain ⟨planned, -, committed⟩ := make_ok done
    obtain ⟨clean, placed, files⟩ := (commit_effect s.disk hazards report.writes).of_ok committed
    rw [(make_of_plan hazards planned).1]
    exact .of_files clean placed files

/-- The first two files are there when the null character in the path of the third is met. -/
theorem null_met_after_writes :
    let s : Site := ⟨.standard ⟨.root, ["p".toList]⟩, .empty ["p".toList], false⟩
    let run := s.make false [] (.model "A\x00/Foo".toList false)
    run.outcome = .error .nullInName ∧
      run.disk.isFile ⟨.relative, ["app".toList, "FooCollection.php".toList]⟩ ∧
      run.disk ≠ s.disk := by
  decide +kernel

end Site
end Scaffold
