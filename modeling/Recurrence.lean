import Recurrence.Main
import Recurrence.Schedule.Edit
import Recurrence.Storage.Database
import Recurrence.Proofs.Span.Text
import Recurrence.Proofs.Weekday.Text
import Recurrence.Proofs.Expression.Text
import Recurrence.Proofs.Expression.RoundTrip
import Recurrence.Proofs.Calendar.Date
import Recurrence.Proofs.Calendar.WallTime
import Recurrence.Proofs.Span.Values
import Recurrence.Proofs.Span.Successor
import Recurrence.Proofs.Weekday.Values
import Recurrence.Proofs.Zone.Mapping
import Recurrence.Proofs.Search.Cursor
import Recurrence.Proofs.Search.Pass
import Recurrence.Proofs.Search.Run
import Recurrence.Proofs.Search.Spelling
import Recurrence.Proofs.Search.Steady
import Recurrence.Proofs.Search.Turned
import Recurrence.Proofs.Schedule.Merge
import Recurrence.Proofs.Span.Grammar
import Recurrence.Proofs.Weekday.Grammar
import Recurrence.Proofs.Weekday.Fault
import Recurrence.Proofs.Expression.Grammar
import Recurrence.Proofs.Expression.Fault
import Recurrence.Proofs.Expression.Sites
import Recurrence.Proofs.Expression.Parts
import Recurrence.Proofs.Schedule.Division
import Recurrence.Proofs.Text.Utf8
import Recurrence.Proofs.Schedule.Text
import Recurrence.Proofs.Schedule.Lines
import Recurrence.Proofs.Json.Strings
import Recurrence.Proofs.Json.Documents
import Recurrence.Proofs.Storage.FileTree
import Recurrence.Proofs.Storage.File
import Recurrence.Proofs.Schedule.Edit
import Recurrence.Proofs.Storage.Database
import Recurrence.Proofs.Search.Skipped
import Recurrence.Proofs.Search.Ceiling
import Recurrence.Proofs.Search.Passed
import Recurrence.Proofs.Search.DefaultLimit
import Recurrence.Proofs.Session.Command
import Recurrence.Proofs.Session.Effect
import Recurrence.Proofs.Session.Course
import Recurrence.Proofs.Search.Dates
