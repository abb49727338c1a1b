import CoopSched.Bridge
import CoopSched.Config.Environment
import CoopSched.Config.Printer
import CoopSched.Config.Reader
import CoopSched.Counters
import CoopSched.Event.Channel
import CoopSched.Group
import CoopSched.Job
import CoopSched.Phase
import CoopSched.Proofs.Admission.Causes
import CoopSched.Proofs.Admission.Refused
import CoopSched.Proofs.Children.Books
import CoopSched.Proofs.Children.Calm
import CoopSched.Proofs.Children.Family
import CoopSched.Proofs.Children.FamilyChange
import CoopSched.Proofs.Children.Kept
import CoopSched.Proofs.Children.Ledger
import CoopSched.Proofs.Children.Shares
import CoopSched.Proofs.Children.Waits
import CoopSched.Proofs.Config.Environment
import CoopSched.Proofs.Config.Literal
import CoopSched.Proofs.Config.Reading
import CoopSched.Proofs.Config.Rendering
import CoopSched.Proofs.Config.Strays
import CoopSched.Proofs.Fallback.Agreement
import CoopSched.Proofs.Fallback.Bare
import CoopSched.Proofs.Fallback.Figures
import CoopSched.Proofs.Fallback.Unneeded
import CoopSched.Proofs.Invocation.Account
import CoopSched.Proofs.Invocation.Beside
import CoopSched.Proofs.Invocation.Crew
import CoopSched.Proofs.Invocation.InTurn
import CoopSched.Proofs.Invocation.Launching
import CoopSched.Proofs.Invocation.Line
import CoopSched.Proofs.Invocation.Lost
import CoopSched.Proofs.Invocation.Results
import CoopSched.Proofs.Invocation.Staff
import CoopSched.Proofs.Invocation.Start
import CoopSched.Proofs.Invocation.Window
import CoopSched.Proofs.Job.Answer
import CoopSched.Proofs.Job.Course
import CoopSched.Proofs.Job.Session
import CoopSched.Proofs.Journal.Lives
import CoopSched.Proofs.Journal.StatusChanges
import CoopSched.Proofs.Journal.Stories
import CoopSched.Proofs.Journal.Tally
import CoopSched.Proofs.Log
import CoopSched.Proofs.Observer.Buffer
import CoopSched.Proofs.Observer.Onto
import CoopSched.Proofs.Observer.Watching
import CoopSched.Proofs.Outcome.Became
import CoopSched.Proofs.Outcome.Blame
import CoopSched.Proofs.Outcome.Joined
import CoopSched.Proofs.Outcome.MoveChange
import CoopSched.Proofs.Outcome.Reports
import CoopSched.Proofs.Outcome.Unheard
import CoopSched.Proofs.Outcome.Whereabouts
import CoopSched.Proofs.Peak.Crowd
import CoopSched.Proofs.Peak.LiveChange
import CoopSched.Proofs.Peak.Overcount
import CoopSched.Proofs.Peak.Shown
import CoopSched.Proofs.Queue.Calls
import CoopSched.Proofs.Queue.InLine
import CoopSched.Proofs.Scheduler.Cascade
import CoopSched.Proofs.Scheduler.Change
import CoopSched.Proofs.Scheduler.Chronicle
import CoopSched.Proofs.Scheduler.Claims
import CoopSched.Proofs.Scheduler.Deadlines
import CoopSched.Proofs.Scheduler.Early
import CoopSched.Proofs.Scheduler.Effects
import CoopSched.Proofs.Scheduler.Ending
import CoopSched.Proofs.Scheduler.Entries
import CoopSched.Proofs.Scheduler.Fates
import CoopSched.Proofs.Scheduler.Finishing
import CoopSched.Proofs.Scheduler.Frame
import CoopSched.Proofs.Scheduler.Guards
import CoopSched.Proofs.Scheduler.Handoff
import CoopSched.Proofs.Scheduler.Journal
import CoopSched.Proofs.Scheduler.Legs
import CoopSched.Proofs.Scheduler.Move
import CoopSched.Proofs.Scheduler.Nested
import CoopSched.Proofs.Scheduler.Orderly
import CoopSched.Proofs.Scheduler.Parking
import CoopSched.Proofs.Scheduler.Parts
import CoopSched.Proofs.Scheduler.Placement
import CoopSched.Proofs.Scheduler.Places
import CoopSched.Proofs.Scheduler.Rows
import CoopSched.Proofs.Scheduler.Segments
import CoopSched.Proofs.Scheduler.Stable
import CoopSched.Proofs.Scheduler.Takings
import CoopSched.Proofs.Scheduler.Timers
import CoopSched.Proofs.Scheduler.Tracks
import CoopSched.Proofs.Scheduler.Turns
import CoopSched.Proofs.Scheduler.Wakeups
import CoopSched.Proofs.Scheduler.Watch
import CoopSched.Proofs.Shutdown.Ascending
import CoopSched.Proofs.Shutdown.Cutters
import CoopSched.Proofs.Shutdown.Cutting
import CoopSched.Proofs.Shutdown.Descent
import CoopSched.Proofs.Shutdown.Graceful
import CoopSched.Proofs.Shutdown.InOrder
import CoopSched.Proofs.Shutdown.Parentage
import CoopSched.Proofs.Shutdown.Report
import CoopSched.Proofs.Shutdown.Stopped
import CoopSched.Proofs.Shutdown.Tidy
import CoopSched.Proofs.Shutdown.Unwinding
import CoopSched.ReadyQueue
import CoopSched.Script.Run
import CoopSched.Script.Value
import CoopSched.Strand.Basic
import CoopSched.Table
import CoopSched.Timer
