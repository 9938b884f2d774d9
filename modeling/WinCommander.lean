import WinCommander.Library.Run
import WinCommander.Library.Outcome
import WinCommander.Library.Keyed
import WinCommander.Library.Json
import WinCommander.Library.JsonText
import WinCommander.Proto.Canonical
import WinCommander.Proto.Preimages
import WinCommander.Proto.Injectivity
import WinCommander.Fleet.Verify
import WinCommander.Fleet.Dispatch
import WinCommander.Fleet.Cycle
import WinCommander.Fleet.Replay
import WinCommander.Fleet.Binding
import WinCommander.Policy.Store
import WinCommander.Library.Register
import WinCommander.Policy.AntiRollback
import WinCommander.FleetMachine.Trust
import WinCommander.FleetMachine.Store
import WinCommander.FleetMachine.Run
import WinCommander.FleetMachine.Revisions
import WinCommander.Fleet.Accounting
import WinCommander.Library.Codec
import WinCommander.Policy.Health
import WinCommander.Shield.Journal
import WinCommander.Shield.Runs
import WinCommander.Shield.LocalUser
import WinCommander.Library.Base64Url
import WinCommander.Library.Bytes
import WinCommander.Wipe.Token
import WinCommander.Wipe.Contract
import WinCommander.FleetMachine.Recovery
import WinCommander.Library.JsonPath
import WinCommander.Settings.Scope
import WinCommander.Settings.Personal
import WinCommander.Settings.LockOut
import WinCommander.Library.Serde
import WinCommander.Settings.Schema
import WinCommander.Settings.Load
import WinCommander.Settings.Partition
import WinCommander.Settings.Overlay
import WinCommander.Settings.Lanes
import WinCommander.Settings.Revisions
import WinCommander.Clipboard.Policy
import WinCommander.Clipboard.Engine
import WinCommander.Licence.Ledger
import WinCommander.Licence.LedgerRuns
import WinCommander.Licence.LedgerRecovery
import WinCommander.Licence.Release
import WinCommander.Licence.ReleaseRuns
import WinCommander.Library.AsciiText
import WinCommander.VaultAccess.Types
import WinCommander.VaultAccess.Registry
import WinCommander.VaultAccess.RegistryMoves
import WinCommander.VaultAccess.Reservations
import WinCommander.VaultAccess.Refused
import WinCommander.Library.Strongest
import WinCommander.VaultAccess.Plan
import WinCommander.VaultAccess.Authorize
import WinCommander.Library.Fallible
import WinCommander.VaultPolicy.Machine
import WinCommander.VaultPolicy.Apply
import WinCommander.VaultPolicy.Groups
import WinCommander.Hybrid.Jws
import WinCommander.Hybrid.Signed
import WinCommander.Library.JsonSize
import WinCommander.CaseBundle.Verify
import WinCommander.CaseBundle.Complete
import WinCommander.MetricAlerts.Config
import WinCommander.MetricAlerts.Runs
import WinCommander.Inactivity.Runs
import WinCommander.Library.Recorded
import WinCommander.RebootWipe.Orchestrator
import WinCommander.RebootWipe.KeysFirst
import WinCommander.ProUpdate.Guard
import WinCommander.ProUpdate.Leases
import WinCommander.Flows.Validation
import WinCommander.Flows.UsbTrigger
import WinCommander.Library.JsonMask
import WinCommander.Flows.SettingChanges
import WinCommander.Fleet.Enrolment
import WinCommander.SelectiveErase.Erase
import WinCommander.Authz.Capability
import WinCommander.Authz.Dispatch
import WinCommander.Library.SelfDelimiting
import WinCommander.Recovery.Admission
import WinCommander.KillSwitch.Watcher
import WinCommander.Library.JsonDepth
import WinCommander.ManagedDeployment.Authority
import WinCommander.ManagedDeployment.Runs
import WinCommander.Flows.Catalog
import WinCommander.ContentSearch.Tokenize
import WinCommander.Webhooks.Registry
import WinCommander.ContentSearch.Filters
import WinCommander.Fleet.Freshness
import WinCommander.Authz.LockdownGate
import WinCommander.Library.CommandLine
import WinCommander.ProUpdate.ElevatedArguments
import WinCommander.ProUpdate.Replace
import WinCommander.FleetMachine.ContactTransfer
import WinCommander.Library.History
import WinCommander.MetricAlerts.Evaluator
import WinCommander.Library.SlidingWindow
import WinCommander.Ransomware.Monitor
import WinCommander.Flows.Bridge
import WinCommander.StartupAuth.Pins
import WinCommander.StartupAuth.Sessions
import WinCommander.StartupAuth.Attempts
import WinCommander.ClipRules.Base58
import WinCommander.ClipRules.Checksums
import WinCommander.ClipRules.Cooldown
import WinCommander.Library.JsonNumber
import WinCommander.Fleet.Numbers
import WinCommander.Library.JsonSame
import WinCommander.Fleet.Preimage
import WinCommander.Library.ByteStream
import WinCommander.Ipc.Envelope
import WinCommander.Ipc.Framing
import WinCommander.Library.TextBytes
import WinCommander.ContentSearch.Chunks
import WinCommander.Library.SortedMap
import WinCommander.Library.Views
import WinCommander.Shield.Episodes
import WinCommander.ClipRules.Masking
import WinCommander.Library.LetterCase
import WinCommander.Library.Occurrences
import WinCommander.ClipRules.Phrases
import WinCommander.FleetMachine.Fencing
import WinCommander.DiskAnalyzer.Walk
import WinCommander.DiskAnalyzer.Totals
import WinCommander.DiskAnalyzer.Scan
import WinCommander.SessionInstance.Forwarding
