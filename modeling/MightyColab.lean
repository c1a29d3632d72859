import MightyColab.Lib.Runs
import MightyColab.Lib.Loop
import MightyColab.Lib.Prog
import MightyColab.Lib.Json
import MightyColab.Lib.JsonTree
import MightyColab.Lib.IpAddress
import MightyColab.Lib.Text
import MightyColab.Lib.Path
import MightyColab.Lib.Url
import MightyColab.Lib.UrlWrite
import MightyColab.Lib.PyLiteral
import MightyColab.Lib.Dict
import MightyColab.Lib.JsonText
import MightyColab.Lib.TreeWalk
import MightyColab.Lib.SharedRecord
import MightyColab.Job.Models
import MightyColab.Job.Transport
import MightyColab.Job.TransportSteps
import MightyColab.Job.TransportPasses
import MightyColab.Job.NotFound
import MightyColab.Job.TransportBounds
import MightyColab.Job.TransportEnds
import MightyColab.Job.SecretRemoval
import MightyColab.Job.Verdict
import MightyColab.Job.Absorb
import MightyColab.Job.Coherent
import MightyColab.Job.ApplyClaim
import MightyColab.Job.LaunchRecord
import MightyColab.Job.CancelRace
import MightyColab.Job.Release
import MightyColab.Job.Observe
import MightyColab.Job.Command
import MightyColab.Job.Destroy
import MightyColab.Job.DestroyRelease
import MightyColab.Job.Status
import MightyColab.Job.Process
import MightyColab.Job.Orchestrator
import MightyColab.Job.Poll
import MightyColab.Job.Apply
import MightyColab.Job.ApplyFrame
import MightyColab.Job.ApplyRelease
import MightyColab.Job.Provision
import MightyColab.Job.Interrupts
import MightyColab.Job.OneVm
import MightyColab.Job.Absence
import MightyColab.Job.Upload
import MightyColab.Job.Runner
import MightyColab.Job.Absorbable
import MightyColab.Job.LateResult
import MightyColab.Job.Concurrent
import MightyColab.Job.CommandFrame
import MightyColab.Job.DoneFinal
import MightyColab.Job.ApplyTrace
import MightyColab.Job.WriteBack
import MightyColab.Job.Prune
import MightyColab.Job.NetPolicy
import MightyColab.Job.Destinations
import MightyColab.Job.SpecPaths
import MightyColab.Job.Resources
import MightyColab.Job.LaunchArgs
import MightyColab.Job.UrlIdentity
import MightyColab.Job.TransferChannel
import MightyColab.Job.OffloadAgreement
import MightyColab.Job.Watchdog
import MightyColab.Job.Planner
import MightyColab.Job.WallClock
import MightyColab.Job.RunnerFailures
import MightyColab.Job.PlanDump
import MightyColab.Job.PlanStore
import MightyColab.Job.PlanSecrecy
import MightyColab.Job.PlanHash
import MightyColab.Job.PlanGates
import MightyColab.Job.CredentialScan
import MightyColab.Job.SourceTree
import MightyColab.Job.StagePayload
import MightyColab.Session.Record
import MightyColab.Session.Writers
import MightyColab.Lib.JsonRecord
import MightyColab.Job.EnvelopeJson
import MightyColab.Job.EnvelopeKept
import MightyColab.Lib.FileTree
import MightyColab.Sync.Extract
import MightyColab.Sync.Install
import MightyColab.Job.Teardown
import MightyColab.Job.CommandRecords
import MightyColab.Job.AbsorbTwice
import MightyColab.Job.ExpiryChecks
import MightyColab.Job.Escalation
import MightyColab.Job.Canceller
import MightyColab.Job.PollEvidence
import MightyColab.Job.ScannedUrls
import MightyColab.Job.SignedExpiry
import MightyColab.Job.UserNames
import MightyColab.Job.ExcerptCuts
import MightyColab.Job.ExcerptStarts
import MightyColab.Job.InstallExcerpts
import MightyColab.Exec.AnsiStream
import MightyColab.Contents.FileUpload
import MightyColab.Job.StagedDownload
import MightyColab.Job.GoneSettled
import MightyColab.Exec.LogTail
import MightyColab.Session.Store
import MightyColab.Session.Pruning
import MightyColab.Session.ExecAsync
import MightyColab.Mcp.Watch
import MightyColab.Mcp.Subscriptions
import MightyColab.Job.Agreement
import MightyColab.Sync.Destination
import MightyColab.Job.Refusals
import MightyColab.Job.OutcomeEvents
import MightyColab.Job.Recovery
import MightyColab.Lib.Built
import MightyColab.Job.ApplySteps
import MightyColab.Job.ApplySuccess
import MightyColab.Job.Successes
import MightyColab.Lib.OffsetTable
import MightyColab.Kernel.WsFrames
import MightyColab.Kernel.Execute
import MightyColab.Kernel.Outputs
import MightyColab.Kernel.ExecCommand
import MightyColab.Lib.Calls
import MightyColab.Lib.Custody
import MightyColab.Session.Commands
import MightyColab.Session.CommandDiscipline
import MightyColab.Session.VmCustody
import MightyColab.Lib.Symlinks
import MightyColab.Sync.Snapshot
import MightyColab.Sync.SnapshotAccepted
import MightyColab.Sync.SnapshotLinks
import MightyColab.Job.ProcessIdent
import MightyColab.Job.IdentSweeps
import MightyColab.Job.SweepComplete
