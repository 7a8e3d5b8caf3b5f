import CallTrace.Archive
import CallTrace.Builder.Arena
import CallTrace.Builder.Deferred
import CallTrace.Builder.Event
import CallTrace.Builder.Streaming
import CallTrace.Bytes.Basic
import CallTrace.Bytes.Hex
import CallTrace.Engine.ExitCode
import CallTrace.Engine.Listener
import CallTrace.Json.Reader
import CallTrace.Json.Record
import CallTrace.Json.Shape
import CallTrace.Json.Surplus
import CallTrace.Json.Text
import CallTrace.Json.Token
import CallTrace.Json.Value
import CallTrace.Keccak
import CallTrace.Precheck.Inquiry
import CallTrace.Precheck.Rejection
import CallTrace.Precheck.Scope
import CallTrace.Proofs.Archive.Failure
import CallTrace.Proofs.Archive.History
import CallTrace.Proofs.Arena.Links
import CallTrace.Proofs.Arena.Walk
import CallTrace.Proofs.Builder.Agreement
import CallTrace.Proofs.Builder.Allocation
import CallTrace.Proofs.Builder.Bisimulation
import CallTrace.Proofs.Builder.Consistency
import CallTrace.Proofs.Builder.Finality
import CallTrace.Proofs.Builder.GasSharing
import CallTrace.Proofs.Builder.Growth
import CallTrace.Proofs.Builder.Invariant
import CallTrace.Proofs.Builder.Locality
import CallTrace.Proofs.Builder.Moment
import CallTrace.Proofs.Builder.Morphism
import CallTrace.Proofs.Builder.OpenOutcome
import CallTrace.Proofs.Builder.Run
import CallTrace.Proofs.Builder.Stacks
import CallTrace.Proofs.Builder.Traffic
import CallTrace.Proofs.Builder.WritingOut
import CallTrace.Proofs.Bytes.Digits
import CallTrace.Proofs.Engine.Count
import CallTrace.Proofs.Engine.Lifetime
import CallTrace.Proofs.Engine.Listener
import CallTrace.Proofs.Engine.Refinement
import CallTrace.Proofs.Engine.Translation
import CallTrace.Proofs.Except
import CallTrace.Proofs.Forest.Arena
import CallTrace.Proofs.Forest.Basic
import CallTrace.Proofs.Forest.CallTree
import CallTrace.Proofs.Forest.Deferred
import CallTrace.Proofs.Forest.Levels
import CallTrace.Proofs.Forest.OpenFrames
import CallTrace.Proofs.Forest.Preorder
import CallTrace.Proofs.Forest.Replacement
import CallTrace.Proofs.Forest.Segments
import CallTrace.Proofs.Forest.Streaming
import CallTrace.Proofs.Json.Reader
import CallTrace.Proofs.Json.Record
import CallTrace.Proofs.Json.Token
import CallTrace.Proofs.Precheck.Checks
import CallTrace.Proofs.Precheck.Operands
import CallTrace.Proofs.Rendered.Likeness
import CallTrace.Proofs.Rendered.RoundTrip
import CallTrace.Proofs.Rlp.Delimited
import CallTrace.Proofs.Rlp.Header
import CallTrace.Proofs.Rlp.Lawful
import CallTrace.Proofs.Rlp.Optional
import CallTrace.Proofs.Rlp.SizeBound
import CallTrace.Proofs.Rlp.Truncated
import CallTrace.Proofs.Stored.Classification
import CallTrace.Proofs.Stored.Fault
import CallTrace.Proofs.Stored.Output
import CallTrace.Proofs.Stored.Record
import CallTrace.Proofs.Stored.Rewriting
import CallTrace.Proofs.Stored.RoundTrip
import CallTrace.Rendered.Entry
import CallTrace.Rendered.Json
import CallTrace.Rlp.Codec
import CallTrace.Rlp.Compound
import CallTrace.Rlp.Header
import CallTrace.Stored.Record
import CallTrace.Stored.Trace
import CallTrace.Trace.Action
import CallTrace.Trace.Frame
import CallTrace.Trace.Node
