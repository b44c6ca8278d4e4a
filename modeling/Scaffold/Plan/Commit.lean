import Scaffold.Disk.Write
import Scaffold.Plan.Basic

/-! Carrying out a plan: its writes one after the other, each in one step, up to the first
refusal of the file system. A dry run reports the plan and leaves the disk alone. -/

namespace Scaffold

structure Report where
  writes : List Write
  dryRun : Bool
  deriving DecidableEq, Repr

namespace Report

def pathsOf (r : Report) (action : Action) : List Path :=
  (r.writes.filter (·.action = action)).map Write.path

def created (r : Report) : List Path := r.pathsOf .created
def updated (r : Report) : List Path := r.pathsOf .updated

end Report

/-- The disk after a run, with the notes and the outcome of the run. -/
structure Run (α : Type) where
  disk : Disk
  notes : List Note
  outcome : Except Fault α

/-- The hazards of the writes to come, in order; none are left after the list's end. -/
abbrev Hazards := List Hazard

def commit (d : Disk) (hazards : Hazards) : List Write → Run Unit
  | [] => ⟨d, [], .ok ()⟩
  | w :: rest =>
    match d.write (hazards.headD Hazard.calm) w.path w.content with
    | (after, .ok ()) =>
      let next := commit after hazards.tail rest
      { next with notes := .written w.action w.path :: next.notes }
    | (after, .error fault) => ⟨after, [], .error fault⟩

namespace Site

def make (s : Site) (dryRun : Bool) (hazards : Hazards) (request : Request) : Run Report :=
  let planned := s.plan request
  match planned.outcome with
  | .error fault => ⟨s.disk, planned.notes, .error fault⟩
  | .ok writes =>
    let done :=
      if dryRun then ⟨s.disk, writes.map fun w => .withheld w.path, .ok ()⟩
      else commit s.disk hazards writes
    ⟨done.disk, planned.notes ++ done.notes, done.outcome.map fun _ => ⟨writes, dryRun⟩⟩

end Site
end Scaffold
