import TokenSale.Allocation.Basic
import TokenSale.Allocation.Commit
import TokenSale.Allocation.Walk
import TokenSale.Binary64.Basic
import TokenSale.Binary64.Shortest
import TokenSale.Cap.Tracker
import TokenSale.Command.Arguments
import TokenSale.Command.Execute
import TokenSale.Command.Folder
import TokenSale.Command.Help
import TokenSale.Command.Invocation
import TokenSale.Digest.Blocks
import TokenSale.Digest.Hex
import TokenSale.Digest.Sha1
import TokenSale.Digest.Sha256
import TokenSale.Directory
import TokenSale.Identity
import TokenSale.Instant.Basic
import TokenSale.Instant.Calendar
import TokenSale.Instant.Text
import TokenSale.Journal.Chain
import TokenSale.Journal.Entry
import TokenSale.Journal.Text
import TokenSale.Journal.Writer
import TokenSale.Json.Basic
import TokenSale.Json.Decode
import TokenSale.Json.Number
import TokenSale.Json.Pointer
import TokenSale.Json.Printer
import TokenSale.Json.Reader
import TokenSale.Main
import TokenSale.Memory.Collaborators
import TokenSale.Memory.Sink
import TokenSale.Memory.World
import TokenSale.Price
import TokenSale.Price.Text
import TokenSale.Quantity
import TokenSale.Quantity.Text
import TokenSale.Rate.Basic
import TokenSale.Sale.Book
import TokenSale.Sale.Config
import TokenSale.Sale.Error
import TokenSale.Sale.Event
import TokenSale.Sale.Operations
import TokenSale.Sale.Program
import TokenSale.Sale.Record
import TokenSale.Sale.Settlement
import TokenSale.Sale.State
import TokenSale.Server.Answer
import TokenSale.Server.Notice
import TokenSale.Server.Payload
import TokenSale.Server.Request
import TokenSale.Server.Response
import TokenSale.Server.Route
import TokenSale.Server.State
import TokenSale.Setup.Layers
import TokenSale.Setup.SaleSetup
import TokenSale.Setup.Secrets
import TokenSale.Setup.UnusedKeys
import TokenSale.Simulation.Report
import TokenSale.Simulation.Run
import TokenSale.Simulation.Script
import TokenSale.Text.Blank
import TokenSale.Text.Hex
import TokenSale.Text.Order
import TokenSale.Text.Percent
import TokenSale.Text.Quoted
import TokenSale.Text.Utf8
import TokenSale.Text.Visible
import TokenSale.Tier.Basic
import TokenSale.Tier.Ledger
import TokenSale.Uuid
import TokenSale.Wire.Allocation
import TokenSale.Wire.Sale
import TokenSale.Wire.Values
import TokenSale.Yaml.Cursor
import TokenSale.Yaml.Lexer
import TokenSale.Yaml.Node
import TokenSale.Yaml.Scalar
import TokenSale.Yaml.Token
import TokenSale.Yaml.Value
import TokenSale.Proofs.Interleaving
import TokenSale.Proofs.Protocol
import TokenSale.Proofs.Calendar
import TokenSale.Proofs.Commit
import TokenSale.Proofs.JournalAppend
import TokenSale.Proofs.JournalChain
import TokenSale.Proofs.JournalLine
import TokenSale.Proofs.JournalReplay
import TokenSale.Proofs.JsonRecord
import TokenSale.Proofs.JsonText
import TokenSale.Proofs.Lifecycle
import TokenSale.Proofs.Conversion
import TokenSale.Proofs.Planning
import TokenSale.Proofs.TierValidity
import TokenSale.Proofs.GreedyWalk
import TokenSale.Proofs.PrefixCost
import TokenSale.Proofs.PlanAccounting
import TokenSale.Proofs.PlanCommit
import TokenSale.Proofs.Overflow
import TokenSale.Proofs.LargerPayment
import TokenSale.Proofs.DiscountBand
import TokenSale.Proofs.SpendHistory
import TokenSale.Proofs.Reconciliation
import TokenSale.Proofs.SettlementAccount
import TokenSale.Proofs.SettlementScript
import TokenSale.Proofs.PurchaseStream
import TokenSale.Proofs.AllOrNothing
import TokenSale.Proofs.ClosingIssue
import TokenSale.Proofs.Conservation
import TokenSale.Proofs.Entries
import TokenSale.Proofs.EventRecord
import TokenSale.Proofs.Finalizing
import TokenSale.Proofs.FanOut
import TokenSale.Proofs.WrittenForms
import TokenSale.Proofs.SplitOrder
import TokenSale.Proofs.Warrant
import TokenSale.Proofs.Freshness
import TokenSale.Proofs.Admission
import TokenSale.Proofs.Permission
import TokenSale.Proofs.Preview
import TokenSale.Proofs.TierDraws
import TokenSale.Proofs.AdminGate
import TokenSale.Proofs.DerivedIds
import TokenSale.Proofs.PurchaseIds
import TokenSale.Proofs.Administration
import TokenSale.Proofs.Versions
import TokenSale.Proofs.Announcements
import TokenSale.Proofs.JsonOrder
import TokenSale.Proofs.Layers
import TokenSale.Proofs.LayerMerge
import TokenSale.Proofs.Pointers
import TokenSale.Proofs.SecretScan
import TokenSale.Proofs.UnusedKeys
import TokenSale.Proofs.QuantityText
import TokenSale.Proofs.Readings
import TokenSale.Proofs.Spellings
import TokenSale.Proofs.Respelling
import TokenSale.Proofs.CanonicalForm
import TokenSale.Proofs.AllocationForms
import TokenSale.Proofs.SaleForms
import TokenSale.Proofs.ReliableWorld
import TokenSale.Proofs.SimulationReport
import TokenSale.Proofs.Idempotence
