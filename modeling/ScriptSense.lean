import ScriptSense.Data.JsonText
import ScriptSense.Feature.Definition
import ScriptSense.Feature.Signature
import ScriptSense.Log.Basic
import ScriptSense.Project.Lifecycle
import ScriptSense.Project.Setup
import ScriptSense.Proofs.Namespace.Layers
import ScriptSense.Proofs.Project.Following
import ScriptSense.Proofs.Source.Backward
import ScriptSense.Proofs.Source.Scan
import ScriptSense.Proofs.Script.Phrase
import ScriptSense.Proofs.Analysis.Nesting
import ScriptSense.Proofs.Project.Isolation
import ScriptSense.Proofs.Script.Agreement
import ScriptSense.Proofs.Disk.Matching
import ScriptSense.Proofs.Glob.Blocks
import ScriptSense.Proofs.Settings.Resolution
import ScriptSense.Proofs.Feature.Horizon
import ScriptSense.Proofs.Feature.Provenance
import ScriptSense.Proofs.Project.Effects
import ScriptSense.Proofs.Project.Anchoring
import ScriptSense.Proofs.Project.Ordering
import ScriptSense.Proofs.Feature.Packages
import ScriptSense.Proofs.Namespace.Cycles
import ScriptSense.Proofs.Source.OpenCall
import ScriptSense.Proofs.Feature.Totality
import ScriptSense.Proofs.Analysis.Overrides
import ScriptSense.Proofs.Source.Nearest
import ScriptSense.Proofs.Project.Discovery
import ScriptSense.Proofs.Feature.Precedence
import ScriptSense.Proofs.Record.TypeTag
import ScriptSense.Proofs.Analysis.WellFormed
import ScriptSense.Proofs.Analysis.Introduction
import ScriptSense.Proofs.Record.RoundTrip
import ScriptSense.Proofs.Record.AccessorType
