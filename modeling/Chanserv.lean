import Chanserv.Access
import Chanserv.AssignmentMails
import Chanserv.Bot.AccessControl
import Chanserv.Bot.Announcements
import Chanserv.Bot.Answers
import Chanserv.Bot.Assignee
import Chanserv.Bot.AtTheDesk
import Chanserv.Bot.Blanks
import Chanserv.Bot.CallbackMoves
import Chanserv.Bot.Callbacks
import Chanserv.Bot.Calm
import Chanserv.Bot.Consumers
import Chanserv.Bot.Contractor
import Chanserv.Bot.ContractorList
import Chanserv.Bot.CreateIssue
import Chanserv.Bot.Deliveries
import Chanserv.Bot.Departures
import Chanserv.Bot.Desk
import Chanserv.Bot.Dialogs
import Chanserv.Bot.Dispatch
import Chanserv.Bot.Ending
import Chanserv.Bot.FamilyTasks
import Chanserv.Bot.FiledRows
import Chanserv.Bot.Filings
import Chanserv.Bot.Frames
import Chanserv.Bot.Handles
import Chanserv.Bot.HostCommand
import Chanserv.Bot.Isolation
import Chanserv.Bot.KeyButtons
import Chanserv.Bot.KeyClicks
import Chanserv.Bot.KeyMoves
import Chanserv.Bot.KeyRequests
import Chanserv.Bot.KeyTable
import Chanserv.Bot.Ledger
import Chanserv.Bot.Lengths
import Chanserv.Bot.Lifecycle
import Chanserv.Bot.Listing
import Chanserv.Bot.Lives
import Chanserv.Bot.Lodging
import Chanserv.Bot.MainLoop
import Chanserv.Bot.MasterKey
import Chanserv.Bot.MessageMoves
import Chanserv.Bot.Moves
import Chanserv.Bot.MyIssues
import Chanserv.Bot.Own
import Chanserv.Bot.Photos
import Chanserv.Bot.Provenance
import Chanserv.Bot.ReasonLeft
import Chanserv.Bot.Reasons
import Chanserv.Bot.Requests
import Chanserv.Bot.Run
import Chanserv.Bot.Selection
import Chanserv.Bot.SmallTalk
import Chanserv.Bot.Stays
import Chanserv.Bot.Survival
import Chanserv.Bot.Threads
import Chanserv.Bot.Turns
import Chanserv.Bot.Verdicts
import Chanserv.Bot.Waiting
import Chanserv.Bot.WebhookPaths
import Chanserv.Bot.WorkDay
import Chanserv.Bot.World
import Chanserv.Checker.Archiving
import Chanserv.Checker.Board
import Chanserv.Checker.Cardless
import Chanserv.Checker.ClosedCards
import Chanserv.Checker.Convergence
import Chanserv.Checker.Idempotence
import Chanserv.Checker.Pass
import Chanserv.Checker.Passes
import Chanserv.Checker.Recipients
import Chanserv.Checker.Removal
import Chanserv.Checker.Rows
import Chanserv.Checker.Tables
import Chanserv.Checker.Visits
import Chanserv.Crypto.Totp
import Chanserv.Database
import Chanserv.Filing.Attachments
import Chanserv.Filing.Cards
import Chanserv.Filing.Copies
import Chanserv.Filing.Escapes
import Chanserv.Filing.Payloads
import Chanserv.Filing.Persistence
import Chanserv.Filing.Script
import Chanserv.Filing.Table
import Chanserv.Jira
import Chanserv.Json.Content
import Chanserv.Json.Lexer
import Chanserv.Json.Parser
import Chanserv.Notes
import Chanserv.Outside
import Chanserv.Program.Beside
import Chanserv.Program.Caching
import Chanserv.Program.Calendar
import Chanserv.Program.Expiry
import Chanserv.Program.Keyed
import Chanserv.Program.Logic
import Chanserv.Program.Numbered
import Chanserv.Program.Traces
import Chanserv.Queue.Discarded
import Chanserv.Queue.Order
import Chanserv.Queue.Shutdown
import Chanserv.Queue.TaskQueue
import Chanserv.Queue.Wakeup
import Chanserv.Queue.Webhooks
import Chanserv.SessionHistory
import Chanserv.SessionStore
import Chanserv.Staff
import Chanserv.Structures
import Chanserv.Support
import Chanserv.Support.Datetime
import Chanserv.Support.EntireText
import Chanserv.Support.EscapeString
import Chanserv.Support.Totp
import Chanserv.Support.Truncation
import Chanserv.Text.Edges
import Chanserv.Text.Number
import Chanserv.Text.Utf16
import Chanserv.Trello
import Chanserv.TrelloAnswers
import Chanserv.TrelloFiles
import Chanserv.TrelloImages
