import Scaffold.Proofs.Plan.Rewritten

/-! What a run that went through leaves: the directories and files of before, and a file at every
path that it has written to. -/

namespace Scaffold

/-- The disk `after` a run that has done its writes on the disk `d`. -/
structure Aftermath (d : Disk) (writes : List Write) (after : Disk) : Prop where
  grown : d.Extends after
  written : ∀ w ∈ writes, after.isFile w.path
  kept : ∀ p, d.isFile p → after.isFile p

theorem Aftermath.isFile {d after : Disk} {w : Write} {writes : List Write} {p : Path}
    (h : Aftermath d writes after) (mem : w ∈ writes) (path : w.path = p) : after.isFile p :=
  path ▸ h.written w mem

theorem aftermath_of_commit {d : Disk} {hazards : Hazards} {writes : List Write}
    (h : (commit d hazards writes).outcome = .ok ()) :
    Aftermath d writes (commit d hazards writes).disk := by
  have effect := commit_effect d hazards writes
  obtain ⟨-, placed, files⟩ := effect.of_ok h
  refine ⟨effect.grown, fun w mem => ?_, fun p there => ?_⟩
  · refine Disk.isFile_iff.2 ⟨_, placed w mem, ?_⟩
    rw [files]
    exact Disk.foldl_overwrite_isSome (.inr ⟨w, mem, rfl⟩)
  · obtain ⟨target, found, content⟩ := Disk.isFile_iff.1 there
    refine Disk.isFile_iff.2 ⟨target, effect.grown.locate? found, ?_⟩
    rw [files]
    exact Disk.foldl_overwrite_isSome (.inl content)

namespace Site

variable {s : Site} {request : Request} {hazards : Hazards}

theorem exists_report (h : (s.make false hazards request).outcome.isOk) :
    ∃ report, (s.make false hazards request).outcome = .ok report := by
  cases outcome : (s.make false hazards request).outcome with
  | error fault => simp [outcome, Except.isOk, Except.toBool] at h
  | ok report => exact ⟨report, rfl⟩

theorem aftermath_of_make {report : Report}
    (done : (s.make false hazards request).outcome = .ok report) :
    Aftermath s.disk report.writes (s.make false hazards request).disk := by
  obtain ⟨planned, -, committed⟩ := make_ok done
  rw [(make_of_plan hazards planned).1]
  exact aftermath_of_commit committed

end Site
end Scaffold
