import Sluice.Animation.Builder
import Sluice.Main
import Sluice.Proofs.Build.Freshness
import Sluice.Proofs.Coverage.Functions
import Sluice.Proofs.Coverage.Order
import Sluice.Proofs.Coverage.Views
import Sluice.Proofs.Database.Namespace
import Sluice.Proofs.Database.Query
import Sluice.Proofs.Evaluation.Answer
import Sluice.Proofs.Evaluation.Conversation
import Sluice.Proofs.Form.Boxes
import Sluice.Proofs.Form.Checking
import Sluice.Proofs.Mail.Attachments
import Sluice.Proofs.Mail.Limit
import Sluice.Proofs.Mail.Paging
import Sluice.Proofs.Markdown.Blocks
import Sluice.Proofs.Markdown.Printing
import Sluice.Proofs.Markdown.RoundTrip
import Sluice.Proofs.Markup.Records
import Sluice.Proofs.Mcp.Faults
import Sluice.Proofs.Mcp.Priority
import Sluice.Proofs.Mcp.Variables
import Sluice.Proofs.Office.Formatting
import Sluice.Proofs.Office.Registration
import Sluice.Proofs.Office.Revisions
import Sluice.Proofs.Office.Suggestion
import Sluice.Proofs.Slides.Grids
import Sluice.Proofs.Slides.Order
import Sluice.Proofs.Slides.Sequence
import Sluice.Proofs.Source.Definitions
import Sluice.Proofs.Source.Reported
import Sluice.Proofs.Table.Page
import Sluice.Proofs.Watch.Bound
import Sluice.Proofs.Workbook.Reported
import Sluice.Proofs.Workbook.RoundTrip
import Sluice.Proofs.Workbook.Transposed
import Sluice.Sample.Files
import Sluice.Servers.Command
import Sluice.Skill.Command
import Sluice.Slides.Command
