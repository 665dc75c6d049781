import Rollout.Config.Json
import Rollout.Main
import Rollout.Proofs.Roster
import Rollout.Proofs.Completion
import Rollout.Proofs.Dispatch
import Rollout.Proofs.History
import Rollout.Proofs.Latch
import Rollout.Proofs.Launching
import Rollout.Proofs.Fate
import Rollout.Proofs.Ending
import Rollout.Proofs.Phase
import Rollout.Proofs.Reordering
import Rollout.Proofs.Horizon
import Rollout.Proofs.Twins
import Rollout.Proofs.Bodies
import Rollout.Proofs.Turns
import Rollout.Proofs.Headway
import Rollout.Proofs.Publishing
import Rollout.Proofs.Cuts
import Rollout.Proofs.Grammar
import Rollout.Proofs.Spelling
import Rollout.Proofs.Subscription
import Rollout.Proofs.Frame
import Rollout.Proofs.Decoder
import Rollout.Proofs.Stream
import Rollout.Proofs.Calls
import Rollout.Proofs.Changes
import Rollout.Proofs.Operations
import Rollout.Proofs.Pacing
import Rollout.Proofs.Timetable
import Rollout.Proofs.Watching
import Rollout.Proofs.Installation
import Rollout.Proofs.Recording
import Rollout.Proofs.Transitions
import Rollout.Proofs.ByteOrder
import Rollout.Proofs.Listings
import Rollout.Proofs.Grouping
import Rollout.Proofs.Teardown
import Rollout.Proofs.Duration
import Rollout.Proofs.Settings
import Rollout.Proofs.Readiness
import Rollout.Proofs.Overriding
import Rollout.Proofs.Consumption
import Rollout.Proofs.Parameters
import Rollout.Proofs.Likeness
import Rollout.Proofs.Shapes
import Rollout.Proofs.Sections
import Rollout.Proofs.Messages
