import Attest.CommandLine.Spelling
import Attest.Key.Lifetime
import Attest.Main
import Attest.Proofs.Primality
import Attest.Proofs.Residue
import Attest.Proofs.Curve.Group
import Attest.Proofs.Curve.Lift
import Attest.Proofs.Curve.Order
import Attest.Proofs.Ecdsa.Recovery
import Attest.Proofs.Ecdsa.Signing
import Attest.Proofs.Signature
import Attest.Proofs.PersonalMessage
import Attest.Proofs.Recovery
import Attest.Proofs.Recovery.Twins
import Attest.Proofs.Recovery.Digests
import Attest.Proofs.Entropy
import Attest.Proofs.Ownership
import Attest.Proofs.Key.Reading
import Attest.Proofs.Key.Spelled
import Attest.Proofs.Key.Generation
import Attest.Proofs.Lookup
import Attest.Proofs.Json.Grammar
import Attest.Proofs.Json.Strings
import Attest.Proofs.Json.Tokens
import Attest.Proofs.Json.Values
import Attest.Proofs.Record.Format
import Attest.Proofs.Record.Reading
import Attest.Proofs.Json.Writing
import Attest.Proofs.Record.Writing
import Attest.Proofs.Text.Hexadecimal
import Attest.Proofs.Checksum
import Attest.Proofs.Address
import Attest.Proofs.Signature.Reading
import Attest.Proofs.Verdict
import Attest.Proofs.Lifetime
import Attest.Proofs.Text.Utf8
import Attest.Proofs.Batch.Lines
import Attest.Proofs.Batch.Tally
import Attest.Proofs.Batch.Progress
import Attest.Proofs.Batch.Report
import Attest.Proofs.Batch.Input
import Attest.Proofs.Batch.Layout
import Attest.Proofs.Batch.Concatenation
import Attest.Proofs.Text.Decimal
import Attest.Proofs.Json.Objects
import Attest.Proofs.Program.Batches
import Attest.Proofs.Program.Commands
import Attest.Proofs.Program.ExitCodes
import Attest.Proofs.Checksum.Bits
import Attest.Proofs.Key.Usability
import Attest.Proofs.Json.Numbers
import Attest.Proofs.Double.Rounding
import Attest.Proofs.Double.Storage
import Attest.Proofs.Double.Arithmetic
import Attest.Proofs.Double.Intervals
import Attest.Proofs.Decimal.Shortest
import Attest.Proofs.Json.Doubles
import Attest.Proofs.Json.Words
import Attest.Proofs.Json.Unambiguous
import Attest.Proofs.Record.Problems
import Attest.Proofs.Batch.Outcome
import Attest.Proofs.Batch.Counting
import Attest.Proofs.CommandLine.Reading
import Attest.Proofs.CommandLine.Spelling
