import PathResolution.Main
import PathResolution.Proofs.Handles.Discipline
import PathResolution.Proofs.Resolution.Course
import PathResolution.Proofs.Resolution.TreeView
import PathResolution.Session
import PathResolution.Proofs.Resolution.Faithful
import PathResolution.Proofs.Resolution.Cutting
import PathResolution.Proofs.Resolution.Canonical
import PathResolution.Proofs.Resolution.Composition
import PathResolution.Proofs.Resolution.WalkAgreement
import PathResolution.Proofs.Resolution.Reporting
import PathResolution.Proofs.Resolution.Accounting
import PathResolution.Proofs.Resolution.Sharing
import PathResolution.Proofs.Disk.Names
import PathResolution.Proofs.Disk.Shape
import PathResolution.Proofs.Disk.Lookup
import PathResolution.Proofs.Disk.Passage
import PathResolution.Proofs.Resolution.OnDisk
import PathResolution.Proofs.Lexical.Writing
import PathResolution.Proofs.Lexical.Looking
import PathResolution.Proofs.Lexical.Simulation
import PathResolution.Proofs.RealPath
import PathResolution.Proofs.Resolution.Heads
import PathResolution.Proofs.Resolution.CursorAndTrail
import PathResolution.Proofs.Resolution.Grounds
import PathResolution.Proofs.Resolution.Budget
import PathResolution.Proofs.Resolution.Leniency
import PathResolution.Proofs.Resolution.Stability
import PathResolution.Proofs.Resolution.Substitution
import PathResolution.Proofs.Resolution.Dots
import PathResolution.Proofs.Resolution.Relative
import PathResolution.Proofs.Resolution.Unrepresentable
import PathResolution.Proofs.Tree.Literal
import PathResolution.Proofs.Tree.Making
import PathResolution.Proofs.Building.Effects
import PathResolution.Proofs.Building.Histories
import PathResolution.Proofs.Building.Dots
import PathResolution.Proofs.Handles.Moves
import PathResolution.Proofs.Handles.Ownership
import PathResolution.Proofs.Tree.Itinerary
import PathResolution.Proofs.Opening.Nesting
import PathResolution.Proofs.Opening.EmptyTargets
import PathResolution.Proofs.Handles.Numbering
import PathResolution.Proofs.Patches
import PathResolution.Proofs.Configuration.Sources
import PathResolution.Proofs.CommandLine.Runs
import PathResolution.ErrorClass
import PathResolution.Proofs.Handles.Alike
import PathResolution.Proofs.Resolution.Independent
