import XmlOutline.Layout.Lemmas
import XmlOutline.Main
import XmlOutline.Proofs.Spans.Hulls
import XmlOutline.Proofs.Reading.Names
import XmlOutline.Proofs.Reading.Markup
import XmlOutline.Proofs.Reading.Spelling
import XmlOutline.Proofs.Reading.Run
import XmlOutline.Proofs.Reading.Doctypes
import XmlOutline.Proofs.Derivation.Completeness
import XmlOutline.Proofs.Derivation.Soundness
import XmlOutline.Proofs.Derivation.Lockstep
import XmlOutline.Proofs.Derivation.Slices
import XmlOutline.Proofs.Derivation.OneRoot
import XmlOutline.Proofs.Derivation.Declarations
import XmlOutline.Proofs.Derivation.Doctypes
import XmlOutline.Proofs.Pruning.Documents
import XmlOutline.Proofs.Pruning.Texts
import XmlOutline.Proofs.Tags.Matching
import XmlOutline.Proofs.Tags.Faults
import XmlOutline.Proofs.Tags.Names
import XmlOutline.Proofs.Tiling.Elements
import XmlOutline.Proofs.Tiling.TopLevel
import XmlOutline.Proofs.Tiling.Runs
import XmlOutline.Proofs.Outline.Documents
import XmlOutline.Proofs.Outline.Styles
import XmlOutline.Proofs.Style.Overrides
import XmlOutline.Proofs.Stripping.Documents
import XmlOutline.Proofs.Stripping.Joints
import XmlOutline.Proofs.RoundTrip.Written
import XmlOutline.Proofs.RoundTrip.Siblings
import XmlOutline.Proofs.RoundTrip.Requotes
import XmlOutline.Proofs.RoundTrip.Steps
import XmlOutline.Proofs.RoundTrip.Reread
import XmlOutline.Proofs.RoundTrip.Documents
import XmlOutline.Proofs.Positions.Offsets
import XmlOutline.Proofs.Positions.Faults
import XmlOutline.Proofs.Positions.Nesting
import XmlOutline.Proofs.Positions.Counting
import XmlOutline.Proofs.CommandLine.Runs
import XmlOutline.Proofs.Stripping.Occurrences
import XmlOutline.Proofs.Outline.Entries
import XmlOutline.Proofs.Rebuilding.Documents
import XmlOutline.Proofs.Derivation.Stages
