import Firewall.Action
import Firewall.Address.Basic
import Firewall.Address.Text
import Firewall.Audit.Log
import Firewall.Audit.Timestamp
import Firewall.Audit.Uuid
import Firewall.Bytes
import Firewall.Chain
import Firewall.CommandLine
import Firewall.Config.Basic
import Firewall.Config.File
import Firewall.Controller
import Firewall.CtState
import Firewall.Decimal.Shortest
import Firewall.Discovery
import Firewall.Error
import Firewall.Family
import Firewall.Hint
import Firewall.Input
import Firewall.Interchange.Decode
import Firewall.Interchange.Encode
import Firewall.Interchange.Report
import Firewall.Json.Basic
import Firewall.Json.Decode
import Firewall.Json.Number
import Firewall.Json.Token
import Firewall.Json.Tree
import Firewall.Kernel
import Firewall.KeyType
import Firewall.Main
import Firewall.MatchSet.Basic
import Firewall.MatchSet.Spec
import Firewall.Namespace
import Firewall.Nft.Document
import Firewall.Nft.Listing
import Firewall.Nft.Session
import Firewall.Packet
import Firewall.Policy.Layout
import Firewall.Policy.Rules
import Firewall.Predicate
import Firewall.Program.Check
import Firewall.Program.Machine
import Firewall.Program.Op
import Firewall.Proofs.Acceptance
import Firewall.Proofs.Access
import Firewall.Proofs.AddressCheck
import Firewall.Proofs.AddressText
import Firewall.Proofs.Admission
import Firewall.Proofs.Agreement
import Firewall.Proofs.Assembly
import Firewall.Proofs.AuditLog
import Firewall.Proofs.Ban
import Firewall.Proofs.Baseline
import Firewall.Proofs.Bytes
import Firewall.Proofs.Changes
import Firewall.Proofs.Cleanup
import Firewall.Proofs.ConfigFile
import Firewall.Proofs.CutText
import Firewall.Proofs.Decision
import Firewall.Proofs.DefaultRoute
import Firewall.Proofs.Denotation
import Firewall.Proofs.ElementText
import Firewall.Proofs.Elements
import Firewall.Proofs.Failures
import Firewall.Proofs.Fitting
import Firewall.Proofs.Fragment
import Firewall.Proofs.Freshness
import Firewall.Proofs.HostBits
import Firewall.Proofs.HostDecision
import Firewall.Proofs.HostPolicy
import Firewall.Proofs.Inlining
import Firewall.Proofs.Installed
import Firewall.Proofs.JsonRecord
import Firewall.Proofs.JsonText
import Firewall.Proofs.JsonTokens
import Firewall.Proofs.Layout
import Firewall.Proofs.ListingRoundTrip
import Firewall.Proofs.MaskedComparison
import Firewall.Proofs.Network
import Firewall.Proofs.NetworkRange
import Firewall.Proofs.NetworkText
import Firewall.Proofs.NumberText
import Firewall.Proofs.Numeral
import Firewall.Proofs.Packet
import Firewall.Proofs.Placement
import Firewall.Proofs.Plan
import Firewall.Proofs.PortCheck
import Firewall.Proofs.PortText
import Firewall.Proofs.Ports
import Firewall.Proofs.Predicate
import Firewall.Proofs.Pruning
import Firewall.Proofs.RateText
import Firewall.Proofs.Reached
import Firewall.Proofs.Reading
import Firewall.Proofs.Refusal
import Firewall.Proofs.RegisterSafety
import Firewall.Proofs.Rendering
import Firewall.Proofs.Repetition
import Firewall.Proofs.Requests
import Firewall.Proofs.RuleIds
import Firewall.Proofs.RuleParts
import Firewall.Proofs.Ruleset
import Firewall.Proofs.Runs
import Firewall.Proofs.Scope
import Firewall.Proofs.SetUpdate
import Firewall.Proofs.SpecMeaning
import Firewall.Proofs.SpecRoundTrip
import Firewall.Proofs.Statements
import Firewall.Proofs.Store
import Firewall.Proofs.Success
import Firewall.Proofs.Succession
import Firewall.Proofs.Table
import Firewall.Proofs.Text
import Firewall.Proofs.Tracking
import Firewall.Proofs.Transaction
import Firewall.Proofs.Traversal
import Firewall.Proofs.Utf8
import Firewall.Proofs.Validity
import Firewall.RateLimit
import Firewall.Rule
import Firewall.Ruleset.Basic
import Firewall.Ruleset.Decision
import Firewall.Sha256
import Firewall.Sink
import Firewall.Table
import Firewall.Text.Blank
import Firewall.Text.Numeral
import Firewall.Transaction
import Firewall.Utf8
