import DocHeader.Main
import DocHeader.Proofs.Edit.Woven
import DocHeader.Proofs.Disk.Steps
import DocHeader.Proofs.Disk.AllOrNothing
import DocHeader.Proofs.Disk.Calm
import DocHeader.Proofs.Disk.Stamps
import DocHeader.Proofs.Disk.Stranded
import DocHeader.Proofs.Disk.Located
import DocHeader.Proofs.Edit.Applied
import DocHeader.Proofs.Syntax.Typed
import DocHeader.Proofs.Syntax.Described
import DocHeader.Proofs.Declaration.Pending
import DocHeader.Proofs.Generation.Steps
import DocHeader.Proofs.Generation.Turns
import DocHeader.Proofs.Generation.Collected
import DocHeader.Proofs.Generation.Cancelled
import DocHeader.Proofs.Generation.Outcome
import DocHeader.Proofs.Generation.Shares
import DocHeader.Proofs.Generation.Gains
import DocHeader.Proofs.Generation.Separate
import DocHeader.Proofs.Header.Misfits
import DocHeader.Proofs.Header.Written
import DocHeader.Proofs.Header.Lines
import DocHeader.Proofs.Header.Comment
import DocHeader.Proofs.Header.Shape
import DocHeader.Proofs.Snippet.Reader
import DocHeader.Proofs.Snippet.Preview
import DocHeader.Proofs.Header.Above
import DocHeader.Proofs.Header.Independence
import DocHeader.Proofs.Header.Answers
import DocHeader.Proofs.Generation.Isolated
import DocHeader.Proofs.Generation.Builds
import DocHeader.Proofs.Disk.Parts
import DocHeader.Proofs.Glob.Matching
import DocHeader.Proofs.Glob.Sources
import DocHeader.Proofs.Disk.Found
import DocHeader.Proofs.Syntax.Supported
import DocHeader.Proofs.Disk.Confined
import DocHeader.Proofs.CommandLine.Released
import DocHeader.Proofs.Edit.Contained
import DocHeader.Proofs.Declaration.Targets
import DocHeader.Proofs.Declaration.Headed
import DocHeader.Proofs.Generation.Position
import DocHeader.Proofs.Generation.Repeated
import DocHeader.Proofs.Syntax.TreeOrder
import DocHeader.Proofs.Declaration.Deepest
import DocHeader.Proofs.Generation.InTurn
import DocHeader.Proofs.Declaration.Selected
import DocHeader.Proofs.Declaration.Classified
import DocHeader.Proofs.Generation.Accounts
import DocHeader.Proofs.Header.Told
import DocHeader.Proofs.Header.Parameters
import DocHeader.Proofs.Syntax.Outlined
import DocHeader.Proofs.TypeText.Compound
import DocHeader.Proofs.TypeText.Wrapped
import DocHeader.Proofs.Text.Ends
import DocHeader.Proofs.Header.Lifecycle
import DocHeader.Proofs.Snippet.Columns
import DocHeader.Proofs.Snippet.Dollars
import DocHeader.Proofs.Snippet.Regions
import DocHeader.Proofs.Header.Reuse
import DocHeader.Proofs.Header.Counterparts
import DocHeader.Proofs.Text.Rows
import DocHeader.Proofs.Text.Locations
import DocHeader.Proofs.Assistant.Retries
import DocHeader.Proofs.Assistant.Cleaned
import DocHeader.Proofs.Glob.Expanding
import DocHeader.Proofs.Glob.Reading
import DocHeader.Proofs.Header.UserTags
import DocHeader.Proofs.Syntax.Untyped
import DocHeader.Proofs.Header.Untyped
import DocHeader.Proofs.Header.Inquiries
import DocHeader.Proofs.Settings.Validated
import DocHeader.Proofs.Header.DistinctNames
import DocHeader.Proofs.Generation.TopOfFile
