import WindowHost.Hierarchy.Restructure
import WindowHost.Hierarchy.InPlace
import WindowHost.Hierarchy.Occlusion
import WindowHost.Hierarchy.Outline
import WindowHost.BackgroundStart
import WindowHost.LaunchParams
import WindowHost.RecentTasks
import WindowHost.Start.Outcome
import WindowHost.TimerQueue
import WindowHost.Visibility
import WindowHost.Start.Admission
import WindowHost.Start.Execute
import WindowHost.Hierarchy.Snapshots
import WindowHost.Report.Encoding
import WindowHost.Registry
import WindowHost.Kdl.Document
import WindowHost.Settings
import WindowHost.CommandLine
import WindowHost.Demo
import WindowHost.Main
import WindowHost.Proofs.Hierarchy.Lookup
import WindowHost.Proofs.Hierarchy.Forest
import WindowHost.Proofs.Hierarchy.WellFormed
import WindowHost.Proofs.Hierarchy.Removal
import WindowHost.Proofs.Hierarchy.Growth
import WindowHost.Proofs.Hierarchy.Homes
import WindowHost.Proofs.Hierarchy.Change
import WindowHost.Proofs.Hierarchy.Reachable
import WindowHost.Proofs.Hierarchy.Restore
import WindowHost.Proofs.Start.Quiet
import WindowHost.Proofs.Start.Refusal
import WindowHost.Proofs.Visibility.View
import WindowHost.Proofs.Visibility.Visit
import WindowHost.Proofs.Visibility.Settled
import WindowHost.Proofs.Visibility.Survey
import WindowHost.Proofs.Visibility.Passes
import WindowHost.Proofs.Hierarchy.Roots
import WindowHost.Proofs.Hierarchy.Searches
import WindowHost.Proofs.Visibility.Idempotence
import WindowHost.Proofs.Hierarchy.Cover
import WindowHost.Proofs.Visibility.Agreement
import WindowHost.Proofs.Hierarchy.Records
import WindowHost.Proofs.Visibility.Focus
import WindowHost.Proofs.Hierarchy.Clearing
import WindowHost.Proofs.Hierarchy.Foremost
import WindowHost.Proofs.Hierarchy.Front
import WindowHost.Proofs.Visibility.Top
import WindowHost.Proofs.Visibility.Resumption
import WindowHost.Proofs.Start.Arrival
import WindowHost.Proofs.Start.Landing
import WindowHost.Proofs.Start.Course
import WindowHost.Proofs.Run.Touch
import WindowHost.Proofs.Run.Steps
import WindowHost.Proofs.Run.Starts
import WindowHost.Proofs.Run.Acts
import WindowHost.Proofs.Run.Follow
import WindowHost.Proofs.Run.Client
import WindowHost.Proofs.Run.Finishing
import WindowHost.Proofs.Run.Foreground
import WindowHost.Proofs.Hierarchy.Partners
import WindowHost.Proofs.Hierarchy.Spared
import WindowHost.Proofs.Start.Confinement
import WindowHost.Proofs.Visibility.Alike
import WindowHost.Proofs.Visibility.Untouched
import WindowHost.Proofs.Visibility.UpToDate
import WindowHost.Proofs.Run.UpToDate
import WindowHost.Proofs.Start.Lodging
import WindowHost.Proofs.Run.Upshot
import WindowHost.Proofs.Run.Isolation
import WindowHost.Proofs.Run.SoleInstance
import WindowHost.Proofs.Run.Delivery
import WindowHost.Proofs.Hierarchy.Places
import WindowHost.Proofs.Hierarchy.Pinned
import WindowHost.Proofs.Visibility.Meeting
import WindowHost.Proofs.Visibility.Hidden
import WindowHost.Proofs.Visibility.Destroyed
import WindowHost.Proofs.Visibility.News
import WindowHost.Proofs.Run.Passes
import WindowHost.Proofs.Visibility.HomeRule
import WindowHost.Proofs.Visibility.Refresh
import WindowHost.Proofs.Visibility.Containers
import WindowHost.Proofs.Visibility.FocusShown
import WindowHost.Proofs.Run.Resumed
import WindowHost.Proofs.Hierarchy.Intact
import WindowHost.Proofs.Start.Clearance
import WindowHost.Proofs.Run.Tally
import WindowHost.Proofs.Run.Entries
import WindowHost.Proofs.Run.Account
import WindowHost.Proofs.Start.Hook
import WindowHost.Proofs.Timers.FreezeTimer
import WindowHost.Proofs.Run.Freeze
import WindowHost.Proofs.Hierarchy.Undisturbed
import WindowHost.Proofs.Hierarchy.Fetched
import WindowHost.Proofs.Start.Recall
import WindowHost.Proofs.Run.Behind
import WindowHost.Proofs.Timers.Entries
import WindowHost.Proofs.Timers.Table
import WindowHost.Proofs.Timers.Run
import WindowHost.Proofs.Visibility.Requests
import WindowHost.Proofs.Run.Restarts
import WindowHost.Proofs.Run.Addition
import WindowHost.Proofs.Run.Beside
import WindowHost.Proofs.Run.Pairing
import WindowHost.Proofs.Hierarchy.Refused
import WindowHost.Proofs.Report.RoundTrip
import WindowHost.Proofs.Report.Faithful
import WindowHost.Proofs.Hierarchy.Siblings
import WindowHost.Proofs.Visibility.Frame
import WindowHost.Proofs.Visibility.Handover
import WindowHost.Proofs.Hierarchy.SplitPair
import WindowHost.Proofs.Run.Configured
import WindowHost.Proofs.Run.Display
import WindowHost.Proofs.Hierarchy.TopFirst
import WindowHost.Proofs.Hierarchy.Raising
import WindowHost.Proofs.Timers.RecentOrder
import WindowHost.Proofs.Hierarchy.Dismantling
import WindowHost.Proofs.Hierarchy.TopDown
import WindowHost.Proofs.Start.Chain
import WindowHost.Proofs.Run.Oblivious
import WindowHost.Proofs.Start.Unasked
import WindowHost.Proofs.Run.Stages
import WindowHost.Proofs.Run.Forgone
