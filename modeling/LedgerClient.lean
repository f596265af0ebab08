import LedgerClient.AccountId
import LedgerClient.Allowance
import LedgerClient.Bytes
import LedgerClient.Checksum.Basic
import LedgerClient.Checksum.Notation
import LedgerClient.Checksum.Validation
import LedgerClient.Client.Basic
import LedgerClient.Client.Config
import LedgerClient.Client.Error
import LedgerClient.Client.Execute
import LedgerClient.Curve.Edwards25519
import LedgerClient.Curve.Modular
import LedgerClient.Curve.Secp256k1
import LedgerClient.Der
import LedgerClient.Engine.Basic
import LedgerClient.Engine.Mock
import LedgerClient.Engine.Scripted
import LedgerClient.EntityId
import LedgerClient.Envelope
import LedgerClient.Error
import LedgerClient.EvmAddress
import LedgerClient.Hash.Keccak
import LedgerClient.Hash.Sha256
import LedgerClient.Hash.Sha512
import LedgerClient.Hbar
import LedgerClient.Inspect
import LedgerClient.Json.Basic
import LedgerClient.Json.Codec
import LedgerClient.Json.Float
import LedgerClient.Json.Printer
import LedgerClient.Json.Reader
import LedgerClient.Json.Record
import LedgerClient.Json.Scalar
import LedgerClient.Json.Tree
import LedgerClient.Key.List
import LedgerClient.Key.Private
import LedgerClient.Key.Public
import LedgerClient.LedgerId.Basic
import LedgerClient.LedgerId.Notation
import LedgerClient.Metrics
import LedgerClient.NftId
import LedgerClient.Operation.Argument
import LedgerClient.Operation.Basic
import LedgerClient.Operation.Call
import LedgerClient.Operation.Fields
import LedgerClient.OperationData
import LedgerClient.Proofs.Bytes
import LedgerClient.Proofs.Checksum.Arithmetic
import LedgerClient.Proofs.Checksum.Edits
import LedgerClient.Proofs.Checksum.Formula
import LedgerClient.Proofs.Checksum.Ledgers
import LedgerClient.Proofs.Checksum.Stamping
import LedgerClient.Proofs.Client.Accounting
import LedgerClient.Proofs.Client.Admission
import LedgerClient.Proofs.Client.Attempt
import LedgerClient.Proofs.Client.Echo
import LedgerClient.Proofs.Client.Pricing
import LedgerClient.Proofs.Client.Replay
import LedgerClient.Proofs.Client.Targets
import LedgerClient.Proofs.Client.Wire
import LedgerClient.Proofs.Der
import LedgerClient.Proofs.Engine.Delivery
import LedgerClient.Proofs.Engine.Interleaving
import LedgerClient.Proofs.Engine.Tasks
import LedgerClient.Proofs.Json.Codec
import LedgerClient.Proofs.Json.Decoded
import LedgerClient.Proofs.Json.Encodable
import LedgerClient.Proofs.Json.Faults
import LedgerClient.Proofs.Json.Numbers
import LedgerClient.Proofs.Json.Object
import LedgerClient.Proofs.Json.Path
import LedgerClient.Proofs.Json.Plain
import LedgerClient.Proofs.Json.Presentation
import LedgerClient.Proofs.Json.Record
import LedgerClient.Proofs.Json.RoundTrip
import LedgerClient.Proofs.Json.Scalar
import LedgerClient.Proofs.Json.Shape
import LedgerClient.Proofs.Json.Strings
import LedgerClient.Proofs.Json.Text
import LedgerClient.Proofs.Json.Tree
import LedgerClient.Proofs.Key.Detection
import LedgerClient.Proofs.Key.Encodings
import LedgerClient.Proofs.Key.Nesting
import LedgerClient.Proofs.Key.PrivateEncodings
import LedgerClient.Proofs.Key.Refusal
import LedgerClient.Proofs.Key.RoundTrip
import LedgerClient.Proofs.Key.ShortForm
import LedgerClient.Proofs.Key.SubjectKey
import LedgerClient.Proofs.Key.Threshold
import LedgerClient.Proofs.Notation.Account
import LedgerClient.Proofs.Notation.AccountFields
import LedgerClient.Proofs.Notation.AccountGrammar
import LedgerClient.Proofs.Notation.AccountReaders
import LedgerClient.Proofs.Notation.Amount
import LedgerClient.Proofs.Notation.Entity
import LedgerClient.Proofs.Notation.EntityGrammar
import LedgerClient.Proofs.Notation.Key
import LedgerClient.Proofs.Notation.Ledger
import LedgerClient.Proofs.Notation.LongZero
import LedgerClient.Proofs.Notation.Transaction
import LedgerClient.Proofs.Notation.TransactionGrammar
import LedgerClient.Proofs.Operation.Approval
import LedgerClient.Proofs.Operation.Execution
import LedgerClient.Proofs.Operation.Filling
import LedgerClient.Proofs.Operation.Freezing
import LedgerClient.Proofs.Operation.Layout
import LedgerClient.Proofs.Operation.Records
import LedgerClient.Proofs.Operation.RoundTrip
import LedgerClient.Proofs.Operation.SerialGrants
import LedgerClient.Proofs.Operation.Soundness
import LedgerClient.Proofs.Operation.Span
import LedgerClient.Proofs.Operation.Thresholds
import LedgerClient.Proofs.Response.Balances
import LedgerClient.Proofs.Response.RoundTrip
import LedgerClient.Proofs.Text.Base64
import LedgerClient.Proofs.Text.Decimal
import LedgerClient.Proofs.Text.Hex
import LedgerClient.Proofs.Text.Numeral
import LedgerClient.Proofs.Text.Shortest
import LedgerClient.Proofs.Text.Split
import LedgerClient.Proofs.Text.Utf8
import LedgerClient.Proofs.Time.Calendar
import LedgerClient.Proofs.Time.Timestamp
import LedgerClient.Query.Basic
import LedgerClient.Response.Account
import LedgerClient.Response.Transaction
import LedgerClient.Signature.Ecdsa
import LedgerClient.Signature.EdDsa
import LedgerClient.Signer
import LedgerClient.Text.Base64
import LedgerClient.Text.Blank
import LedgerClient.Text.Decimal
import LedgerClient.Text.Hex
import LedgerClient.Text.Shortest
import LedgerClient.Text.Split
import LedgerClient.Text.Utf8
import LedgerClient.Time.Calendar
import LedgerClient.Time.Duration
import LedgerClient.Time.Instant
import LedgerClient.Time.Timestamp
import LedgerClient.Transaction.Approval
import LedgerClient.Transaction.Basic
import LedgerClient.Transaction.Contract
import LedgerClient.Transaction.Token
import LedgerClient.Transaction.Topic
import LedgerClient.TransactionId
