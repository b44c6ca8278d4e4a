import Scaffold.Main
import Scaffold.Proofs.Text.Line
import Scaffold.Proofs.Text.Nesting
import Scaffold.Proofs.Text.Joint
import Scaffold.Proofs.Naming.Segment
import Scaffold.Proofs.Naming.File
import Scaffold.Proofs.Text.Offset
import Scaffold.Proofs.Source.Import
import Scaffold.Proofs.Source.ImportLines
import Scaffold.Proofs.Source.Declaration
import Scaffold.Proofs.Text.Trim
import Scaffold.Proofs.Source.DocBlock
import Scaffold.Proofs.Source.Entry
import Scaffold.Proofs.Source.Annotate
import Scaffold.Proofs.Disk.Place
import Scaffold.Proofs.Disk.Write
import Scaffold.Proofs.Plan.Commit
import Scaffold.Proofs.Composition.Project
import Scaffold.Proofs.Disk.Tree
import Scaffold.Proofs.Naming.Location
import Scaffold.Proofs.Naming.Correspondence
import Scaffold.Proofs.Naming.Enclosure
import Scaffold.Proofs.Plan.ClassFile
import Scaffold.Proofs.Plan.Rewritten
import Scaffold.Proofs.Plan.Steps
import Scaffold.Proofs.Plan.Stepwise
import Scaffold.Proofs.Plan.Aftermath
import Scaffold.Proofs.Plan.Again
import Scaffold.Proofs.Plan.Imported
import Scaffold.Proofs.Composition.Injection
import Scaffold.Proofs.Composition.Edits
import Scaffold.Proofs.Stub.Fill
import Scaffold.Proofs.Composition.History
import Scaffold.Proofs.Source.Surroundings
import Scaffold.Proofs.Text.Replace
import Scaffold.Proofs.Source.Body
import Scaffold.Proofs.Source.Lasting
import Scaffold.Proofs.Source.Inert
import Scaffold.Proofs.Source.Sheet
import Scaffold.Proofs.Composition.Part
import Scaffold.Proofs.Composition.Fresh
import Scaffold.Proofs.Composition.Composed
import Scaffold.Proofs.Plan.FreshModel
import Scaffold.Proofs.Naming.Requalified
import Scaffold.Proofs.Source.Leftmost
import Scaffold.Proofs.Disk.Stopped
import Scaffold.Proofs.Naming.Studly
import Scaffold.Proofs.Plan.Classes
import Scaffold.Proofs.Plan.Apart
import Scaffold.Proofs.Plan.Interrupted
import Scaffold.Proofs.Composition.Annotated
import Scaffold.Proofs.Composition.Refusal
import Scaffold.Proofs.Naming.Rooting
import Scaffold.Proofs.Disk.Leftover
import Scaffold.Proofs.Plan.Regenerated
import Scaffold.Proofs.Composition.Rendered
import Scaffold.Proofs.Source.Heading
import Scaffold.Proofs.Composition.Headed
import Scaffold.Proofs.Text.Span
