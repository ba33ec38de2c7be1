import Letterhead.Text.Case
import Letterhead.Text.Quoted
import Letterhead.Text.Point
import Letterhead.Text.Utf8.Lemmas
import Letterhead.Comment.Twig
import Letterhead.Php.Node
import Letterhead.Php.Chart
import Letterhead.Php.Tree
import Letterhead.Manifest
import Letterhead.Header.Stamp
import Letterhead.Setting.Constraint
import Letterhead.Toml.Reader
import Letterhead.Finder.Basic
import Letterhead.Licence.Basic
import Letterhead.Licence.Bundled
import Letterhead.Machine
import Letterhead.Command.Basic
import Letterhead.Main
import Letterhead.Report.Summary
import Letterhead.Config.Load
import Letterhead.Proofs.Traversal
import Letterhead.Proofs.Text.Pieces
import Letterhead.Proofs.Setting.Items
import Letterhead.Proofs.Config.Merging
import Letterhead.Proofs.Config.Precedence
import Letterhead.Proofs.Decimal.Rounding
import Letterhead.Proofs.Decimal.Shortest
import Letterhead.Proofs.Json.Numbers
import Letterhead.Proofs.Json.Strings
import Letterhead.Proofs.Json.RoundTrip
import Letterhead.Proofs.Manifest.Patching
import Letterhead.Proofs.Comment.Ways
import Letterhead.Proofs.Comment.Closing
import Letterhead.Proofs.Comment.Scanning
import Letterhead.Proofs.Comment.Twig
import Letterhead.Proofs.Header.LineEnds
import Letterhead.Proofs.Header.Rendering
import Letterhead.Proofs.Header.Rewrapping
import Letterhead.Proofs.Header.Markers
import Letterhead.Proofs.Header.TwigExtent
import Letterhead.Proofs.Header.TopComment
import Letterhead.Proofs.Header.BlankLines
import Letterhead.Proofs.Header.Idempotence
import Letterhead.Proofs.Header.Replacement
import Letterhead.Proofs.Header.Respelling
import Letterhead.Proofs.Header.Recognition
import Letterhead.Proofs.Header.LeadingComments
import Letterhead.Proofs.Header.Restamping
import Letterhead.Proofs.Header.UniformEnds
import Letterhead.Proofs.Php.Offsets
import Letterhead.Proofs.Php.FirstError
import Letterhead.Proofs.Licence.Loading
import Letterhead.Proofs.Licence.Reloading
import Letterhead.Proofs.Licence.Frozen
import Letterhead.Proofs.Disk.Outline
import Letterhead.Proofs.Disk.Proper
import Letterhead.Proofs.Disk.Following
import Letterhead.Proofs.Disk.Files
import Letterhead.Proofs.Finder.Walk
import Letterhead.Proofs.Finder.Extension
import Letterhead.Proofs.Finder.Globbing
import Letterhead.Proofs.Finder.Discovery
import Letterhead.Proofs.Update.Course
import Letterhead.Proofs.Update.Turns
import Letterhead.Proofs.Update.Agenda
import Letterhead.Proofs.Update.Halting
import Letterhead.Proofs.Update.WholeFiles
import Letterhead.Proofs.Update.Reporting
import Letterhead.Proofs.Update.Faithful
import Letterhead.Proofs.Update.Parity
import Letterhead.Proofs.Update.Reordering
import Letterhead.Proofs.Update.Settled
import Letterhead.Proofs.Command.Making
import Letterhead.Proofs.Command.Status
