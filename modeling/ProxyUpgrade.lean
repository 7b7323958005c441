import ProxyUpgrade.Abi.Argument
import ProxyUpgrade.Abi.Decode
import ProxyUpgrade.Abi.Encode
import ProxyUpgrade.Abi.Kind
import ProxyUpgrade.Abi.Kind.Parser
import ProxyUpgrade.Abi.Sequence
import ProxyUpgrade.Abi.Value
import ProxyUpgrade.Abi.Value.Parser
import ProxyUpgrade.Action
import ProxyUpgrade.Build.Basic
import ProxyUpgrade.Build.Source
import ProxyUpgrade.Bytes.Basic
import ProxyUpgrade.Bytes.Hex
import ProxyUpgrade.Chain.Address
import ProxyUpgrade.Chain.Call
import ProxyUpgrade.Chain.Json
import ProxyUpgrade.Chain.Quantity
import ProxyUpgrade.Chain.Receipt
import ProxyUpgrade.CommandLine.Basic
import ProxyUpgrade.CommandLine.Scan
import ProxyUpgrade.Config.Basic
import ProxyUpgrade.Config.File
import ProxyUpgrade.Config.Network
import ProxyUpgrade.Config.Routing
import ProxyUpgrade.Crypto.Keccak
import ProxyUpgrade.Crypto.Secp256k1
import ProxyUpgrade.Crypto.Sha256
import ProxyUpgrade.Decimal.Shortest
import ProxyUpgrade.Deploy
import ProxyUpgrade.Deploy.Artifact
import ProxyUpgrade.Deploy.Record
import ProxyUpgrade.Deploy.Session
import ProxyUpgrade.Deploy.Status
import ProxyUpgrade.Error
import ProxyUpgrade.Explorer.Client
import ProxyUpgrade.Explorer.Target
import ProxyUpgrade.Files.Basic
import ProxyUpgrade.Files.Document
import ProxyUpgrade.Files.Path
import ProxyUpgrade.Files.Tree
import ProxyUpgrade.History.Group
import ProxyUpgrade.History.Store
import ProxyUpgrade.Http.Basic
import ProxyUpgrade.Json.Basic
import ProxyUpgrade.Json.Fields
import ProxyUpgrade.Json.Parser
import ProxyUpgrade.Json.Plain
import ProxyUpgrade.Json.Printer
import ProxyUpgrade.Log.Filter
import ProxyUpgrade.Log.Line
import ProxyUpgrade.Main
import ProxyUpgrade.Node.Account
import ProxyUpgrade.Node.Backend
import ProxyUpgrade.Node.Basic
import ProxyUpgrade.Poll
import ProxyUpgrade.Program
import ProxyUpgrade.Proofs.Abi.Admits
import ProxyUpgrade.Proofs.Abi.Layout
import ProxyUpgrade.Proofs.Abi.Naming
import ProxyUpgrade.Proofs.Abi.Reading
import ProxyUpgrade.Proofs.Abi.RoundTrip
import ProxyUpgrade.Proofs.Asking
import ProxyUpgrade.Proofs.Beside
import ProxyUpgrade.Proofs.Build.Listing
import ProxyUpgrade.Proofs.Bytes.Text
import ProxyUpgrade.Proofs.Chain.Checksum
import ProxyUpgrade.Proofs.Chain.Hash
import ProxyUpgrade.Proofs.Chain.Json
import ProxyUpgrade.Proofs.Config.Saved
import ProxyUpgrade.Proofs.Config.Stores
import ProxyUpgrade.Proofs.Decimal.Digits
import ProxyUpgrade.Proofs.Deploy.Assessment
import ProxyUpgrade.Proofs.Deploy.Balance
import ProxyUpgrade.Proofs.Deploy.Choice
import ProxyUpgrade.Proofs.Deploy.Frame
import ProxyUpgrade.Proofs.Deploy.Initializer
import ProxyUpgrade.Proofs.Deploy.Liveness
import ProxyUpgrade.Proofs.Deploy.Loss
import ProxyUpgrade.Proofs.Deploy.Order
import ProxyUpgrade.Proofs.Deploy.Outcome
import ProxyUpgrade.Proofs.Deploy.Questions
import ProxyUpgrade.Proofs.Deploy.Repeat
import ProxyUpgrade.Proofs.Deploy.Routes
import ProxyUpgrade.Proofs.Deploy.Session
import ProxyUpgrade.Proofs.Deploy.Sharing
import ProxyUpgrade.Proofs.Deploy.Slots
import ProxyUpgrade.Proofs.Deploy.Verifying
import ProxyUpgrade.Proofs.Dialogue
import ProxyUpgrade.Proofs.Files.Apart
import ProxyUpgrade.Proofs.Files.Atomic
import ProxyUpgrade.Proofs.Files.Document
import ProxyUpgrade.Proofs.Files.Path
import ProxyUpgrade.Proofs.Files.Ready
import ProxyUpgrade.Proofs.Files.Refusal
import ProxyUpgrade.Proofs.Files.Stores
import ProxyUpgrade.Proofs.Files.Tree
import ProxyUpgrade.Proofs.Files.Way
import ProxyUpgrade.Proofs.History.Annals
import ProxyUpgrade.Proofs.History.Calls
import ProxyUpgrade.Proofs.History.Chronicle
import ProxyUpgrade.Proofs.History.Document
import ProxyUpgrade.Proofs.History.Growth
import ProxyUpgrade.Proofs.History.Manifest
import ProxyUpgrade.Proofs.History.Untimed
import ProxyUpgrade.Proofs.Json.Fields
import ProxyUpgrade.Proofs.Json.RoundTrip
import ProxyUpgrade.Proofs.Poll
import ProxyUpgrade.Proofs.Poll.Rounds
import ProxyUpgrade.Proofs.Records
import ProxyUpgrade.Proofs.Registry.Calls
import ProxyUpgrade.Proofs.Registry.Document
import ProxyUpgrade.Proofs.Registry.Interleaving
import ProxyUpgrade.Proofs.Registry.Key
import ProxyUpgrade.Proofs.Registry.Rows
import ProxyUpgrade.Proofs.Registry.Saves
import ProxyUpgrade.Proofs.Registry.Table
import ProxyUpgrade.Proofs.Registry.WriteOnce
import ProxyUpgrade.Proofs.Retry.Last
import ProxyUpgrade.Proofs.Site.Acceptance
import ProxyUpgrade.Proofs.Site.Agreement
import ProxyUpgrade.Proofs.Site.Asking
import ProxyUpgrade.Proofs.Site.Basic
import ProxyUpgrade.Proofs.Site.Law
import ProxyUpgrade.Proofs.Site.Ledger
import ProxyUpgrade.Proofs.Site.Parts
import ProxyUpgrade.Proofs.Site.Proposing
import ProxyUpgrade.Proofs.Site.Reads
import ProxyUpgrade.Proofs.Site.Receipts
import ProxyUpgrade.Proofs.Site.Sending
import ProxyUpgrade.Proofs.Site.Steps
import ProxyUpgrade.Proofs.State
import ProxyUpgrade.Proofs.Toml.Document
import ProxyUpgrade.Proofs.Toml.Quoted
import ProxyUpgrade.Proofs.Toml.Scalar
import ProxyUpgrade.Proofs.Verification
import ProxyUpgrade.Proofs.Verification.Course
import ProxyUpgrade.Proofs.Verification.Moment
import ProxyUpgrade.Proofs.Wallet.Binding
import ProxyUpgrade.Proofs.Wallet.Form
import ProxyUpgrade.Proofs.Wallet.Identity
import ProxyUpgrade.Proofs.Wallet.Listing
import ProxyUpgrade.Proofs.Wallet.Numbering
import ProxyUpgrade.Proofs.Wallet.Payload
import ProxyUpgrade.Proofs.Wallet.Proposing
import ProxyUpgrade.Proofs.Wallet.Requests
import ProxyUpgrade.Proofs.Wallet.Submission
import ProxyUpgrade.Registry
import ProxyUpgrade.Registry.Key
import ProxyUpgrade.Registry.Store
import ProxyUpgrade.Rehearsal.Chain
import ProxyUpgrade.Rehearsal.Event
import ProxyUpgrade.Rehearsal.Script
import ProxyUpgrade.Retry
import ProxyUpgrade.Route
import ProxyUpgrade.Settings.Environment
import ProxyUpgrade.Settings.Layers
import ProxyUpgrade.Text.Basic
import ProxyUpgrade.Text.Quoted
import ProxyUpgrade.Text.Table
import ProxyUpgrade.Text.Width
import ProxyUpgrade.Time.Span
import ProxyUpgrade.Time.Timestamp
import ProxyUpgrade.Toml.Parser
import ProxyUpgrade.Toml.Printer
import ProxyUpgrade.Toml.Quoted
import ProxyUpgrade.Toml.Scalar
import ProxyUpgrade.Toml.Table
import ProxyUpgrade.Url.Basic
import ProxyUpgrade.Url.Domain
import ProxyUpgrade.Url.Host
import ProxyUpgrade.Url.Parser
import ProxyUpgrade.Url.Percent
import ProxyUpgrade.Url.Punycode
import ProxyUpgrade.Verification
import ProxyUpgrade.Wallet.Client
import ProxyUpgrade.Wallet.Proposal
import ProxyUpgrade.Wallet.Transaction
