import PotHub.Lib.Runs
import PotHub.Lib.Refinement
import PotHub.Lib.Fifo
import PotHub.Lib.Monitor
import PotHub.Lib.InPlace
import PotHub.Lib.Holders
import PotHub.Lib.Parsers
import PotHub.Lib.Calendar
import PotHub.Lib.DateSteps
import PotHub.Lib.CStrings
import PotHub.Lib.Ledger
import PotHub.Lib.Programs
import PotHub.Lib.Heaps
import PotHub.Json.Tree
import PotHub.Json.Parse
import PotHub.Json.Strings
import PotHub.Json.Print
import PotHub.Json.RoundTrip
import PotHub.Json.PrintBuffer
import PotHub.Json.Nodes
import PotHub.Json.ParseString
import PotHub.Json.ParseNodes
import PotHub.Server.PollArray
import PotHub.Server.MainLoop
import PotHub.Server.EventDispatch
import PotHub.Server.AcceptBatch
import PotHub.Server.System
import PotHub.Server.Passes
import PotHub.Server.ThreadPool
import PotHub.Server.Cells
import PotHub.Server.Compaction
import PotHub.Server.FreedSlots
import PotHub.Server.Shape
import PotHub.Server.WakeUps
import PotHub.Server.Tasks
import PotHub.Server.Ownership
import PotHub.Server.Survival
import PotHub.Server.HandOff
import PotHub.Server.WriteBack
import PotHub.Server.Request
import PotHub.Server.DoWork
import PotHub.Server.Session
import PotHub.Server.Replies
import PotHub.Server.Arrivals
import PotHub.Server.Dates
import PotHub.Server.DateStrings
import PotHub.Server.DateOrder
import PotHub.Server.UserQuery
import PotHub.Server.Window
import PotHub.Server.RangeQuery
import PotHub.Server.Store
import PotHub.Server.Outcomes
import PotHub.Server.Pointers
import PotHub.Server.Releases
import PotHub.Server.Interference
import PotHub.App.QueryText
import PotHub.App.Detector
import PotHub.App.Spacing
import PotHub.App.Triggers
import PotHub.App.Connection
import PotHub.App.QueryAnswers
import PotHub.App.Exchange
import PotHub.App.RangeRequests
import PotHub.App.Connectivity
import PotHub.App.ServiceLife
import PotHub.App.GeocoderAnswers
import PotHub.App.SignIn
import PotHub.App.PasswordReset
import PotHub.Json.BuildNodes
import PotHub.Json.ReadNodes
import PotHub.Server.ReplyNodes
import PotHub.Server.ServeNodes
