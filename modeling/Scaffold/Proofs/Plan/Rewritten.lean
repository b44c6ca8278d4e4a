import Scaffold.Proofs.Disk.Tree
import Scaffold.Proofs.Plan.Commit

/-! Plans whose directories are all there. Such a plan goes through, and the disk that it leaves
differs from the one before in the written files alone; several of them add up. -/

namespace Scaffold

namespace Disk

variable {d e f : Disk} {place : Place} {p : Path} {w : Write} {writes more : List Write}

/-- The tree of `d` with the writes done. -/
structure Rewritten (d : Disk) (writes : List Write) (e : Disk) : Prop where
  tree : d.SameTree e
  files : e.fileAt? = d.overwritten writes

namespace Rewritten

theorem trans (first : d.Rewritten writes e) (second : e.Rewritten more f) :
    d.Rewritten (writes ++ more) f := by
  refine ⟨first.tree.trans second.tree, ?_⟩
  have same : e.overwrite = d.overwrite := by
    funext files v
    rw [overwrite, overwrite, first.tree.placeOf_eq]
  rw [second.files, overwritten, same, first.files, overwritten, overwritten,
    List.foldl_append]

theorem at?_eq (h : d.Rewritten writes e) (apart : ∀ w ∈ writes, d.placeOf w.path ≠ d.placeOf p) :
    e.at? p = d.at? p := by
  refine h.tree.at?_eq ?_
  rw [h.files, overwritten_of_ne apart]

theorem file?_last (front : List Write) (h : d.Rewritten (front ++ w :: writes) e)
    (ready : d.Ready w.path) (last : ∀ v ∈ writes, d.placeOf v.path ≠ d.placeOf w.path) :
    e.file? w.path = some (.text w.content) := by
  have content : e.fileAt? (d.placeOf w.path) = some (.text w.content) := by
    rw [h.files]
    exact overwritten_last front last
  rw [fileAt?_eq_some_iff] at content
  simp [file?, at?, h.tree.locate?_eq, ready.locate?, content]

end Rewritten

theorem foldl_overwrite_isSome {files : Place → Option Content}
    (h : (files place).isSome ∨ ∃ w ∈ writes, d.placeOf w.path = place) :
    (writes.foldl d.overwrite files place).isSome := by
  induction writes generalizing files with
  | nil => simpa using h
  | cons v rest ih =>
    rw [List.foldl_cons]
    refine ih ?_
    by_cases here : d.placeOf v.path = place
    · simp [overwrite, ← here]
    · rcases h with there | ⟨w, mem, eq⟩
      · left
        rwa [overwrite, Function.update_of_ne (Ne.symm here)]
      · rcases List.mem_cons.1 mem with rfl | mem
        · exact absurd eq here
        · exact .inr ⟨w, mem, eq⟩

end Disk

theorem free_of_commit {d : Disk} {hazards : Hazards} {writes : List Write}
    (h : (commit d hazards writes).outcome = .ok ()) {w : Write} (mem : w ∈ writes) :
    ¬ d.isDirectoryAt (d.placeOf w.path) := by
  have effect := commit_effect d hazards writes
  obtain ⟨-, -, files⟩ := effect.of_ok h
  intro directory
  have still := effect.grown.directory _ directory
  have written : ((commit d hazards writes).disk.fileAt? (d.placeOf w.path)).isSome := by
    rw [files]
    exact Disk.foldl_overwrite_isSome (.inr ⟨w, mem, rfl⟩)
  rw [Disk.isDirectoryAt, beq_iff_eq] at still
  simp [Disk.fileAt?, still] at written

theorem commit_ready {d : Disk} {writes : List Write} (h : ∀ w ∈ writes, d.Ready w.path) :
    (commit d [] writes).outcome = .ok () ∧ d.SameTree (commit d [] writes).disk := by
  induction writes generalizing d with
  | nil => exact ⟨rfl, .refl d⟩
  | cons w rest ih =>
    have ready := h w (by simp)
    have first := ready.sameTree_set w.content
    have others := ih fun v mem => first.ready (h v (List.mem_cons_of_mem _ mem))
    have done := ready.write w.content
    unfold commit
    rw [List.headD_nil, done]
    exact ⟨others.1, first.trans others.2⟩

theorem rewritten_commit {d : Disk} {writes : List Write} (h : ∀ w ∈ writes, d.Ready w.path) :
    d.Rewritten writes (commit d [] writes).disk := by
  obtain ⟨done, tree⟩ := commit_ready h
  exact ⟨tree, ((commit_effect d [] writes).of_ok done).2.2⟩

namespace Site

variable {s : Site} {request : Request} {writes : List Write}

theorem make_ready (planned : (s.plan request).outcome = .ok writes)
    (h : ∀ w ∈ writes, s.disk.Ready w.path) :
    (s.make false [] request).outcome = .ok ⟨writes, false⟩ ∧
      s.disk.Rewritten writes (s.make false [] request).disk := by
  obtain ⟨disk, outcome⟩ := make_of_plan [] planned
  rw [disk, outcome, (commit_ready h).1]
  exact ⟨rfl, rewritten_commit h⟩

end Site
end Scaffold
