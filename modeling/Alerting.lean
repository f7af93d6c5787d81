import Alerting.Table
import Alerting.Number.Shortest
import Alerting.Number.Reader
import Alerting.Time.Rfc3339
import Alerting.Json.Reader
import Alerting.Json.Writer
import Alerting.Json.Decode
import Alerting.Event.Json
import Alerting.Rule.Json
import Alerting.FaultCenter
import Alerting.Config.Json
import Alerting.Fingerprint
import Alerting.Template
import Alerting.Cache
import Alerting.RuleStore
import Alerting.Recovery
import Alerting.Simulation.Bench
import Alerting.Simulation.Run
import Alerting.Proofs.Scheduler.Guard
import Alerting.Proofs.Recovery.Stuck
import Alerting.Proofs.Recovery.Grace
import Alerting.Proofs.Dispatch.Undone
import Alerting.Proofs.Dispatch.Flight
import Alerting.Proofs.Recovery.Listed
import Alerting.Proofs.Dispatch.Live
import Alerting.Proofs.Recovery.Ended
import Alerting.Proofs.Dispatch.Confirmed
import Alerting.Proofs.Recovery.Apart
import Alerting.Proofs.Recovery.Outage
import Alerting.Proofs.Dispatch.FanIn
import Alerting.Proofs.Tick.Mirror
import Alerting.Proofs.Tick.Commute
import Alerting.Proofs.Scheduler.Registry
import Alerting.Proofs.Scheduler.Release
import Alerting.Proofs.Simulation.Change
import Alerting.Proofs.Simulation.Order
import Alerting.Proofs.Scheduler.Restart
import Alerting.Proofs.Simulation.Bulk
import Alerting.Proofs.Recovery.Undisturbed
import Alerting.Proofs.Simulation.Discarded
import Alerting.Proofs.Cache.Isolation
import Alerting.Proofs.Fingerprint.Preimage
import Alerting.Proofs.Dispatch.Identity
import Alerting.Proofs.Dispatch.Window
import Alerting.Proofs.Recovery.Account
import Alerting.Proofs.Recovery.Repeat
import Alerting.Proofs.Dispatch.Metrics
import Alerting.Proofs.Dispatch.Sent
import Alerting.Proofs.Dispatch.Stamped
import Alerting.Proofs.Dispatch.Groups
import Alerting.Proofs.Tick.Progress
import Alerting.Proofs.Dispatch.Failed
import Alerting.Proofs.Dispatch.Reserved
import Alerting.Proofs.Scheduler.CrashLoop
import Alerting.Proofs.Json.Stored
import Alerting.Proofs.Threshold.Grammar
import Alerting.Proofs.Template.Segments
import Alerting.Proofs.Simulation.Refused
import Alerting.Proofs.Rule.Ranks
