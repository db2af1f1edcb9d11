import ExecTrace.Command.Arguments
import ExecTrace.Command.Help
import ExecTrace.Command.Run
import ExecTrace.Config
import ExecTrace.Config.Environment
import ExecTrace.Instrument.Options
import ExecTrace.Instrument.Pass
import ExecTrace.Instrument.Program
import ExecTrace.Instrument.Record
import ExecTrace.Instrument.Scope
import ExecTrace.Instrument.Tree
import ExecTrace.Machine.Call
import ExecTrace.Machine.Eval
import ExecTrace.Machine.Hierarchy
import ExecTrace.Machine.Host
import ExecTrace.Machine.Location
import ExecTrace.Machine.Notation
import ExecTrace.Machine.Observer
import ExecTrace.Machine.Report
import ExecTrace.Machine.State
import ExecTrace.Machine.Val
import ExecTrace.Main
import ExecTrace.Number
import ExecTrace.Number.Arithmetic
import ExecTrace.Number.Remainder
import ExecTrace.Problem
import ExecTrace.Scalar
import ExecTrace.Session
import ExecTrace.Span
import ExecTrace.Syntax.Build
import ExecTrace.Syntax.Dump
import ExecTrace.Syntax.Notation
import ExecTrace.Syntax.Notation.Program
import ExecTrace.Syntax.Operator
import ExecTrace.Syntax.Print
import ExecTrace.Syntax.Probe
import ExecTrace.Syntax.Tree
import ExecTrace.Syntax.Ty
import ExecTrace.Text.Blank
import ExecTrace.Text.CharSet
import ExecTrace.Text.Decimal
import ExecTrace.Text.Hexadecimal
import ExecTrace.Text.Json
import ExecTrace.Text.Json.Reader
import ExecTrace.Text.Json.Record
import ExecTrace.Text.Pattern
import ExecTrace.Text.Pattern.Class
import ExecTrace.Text.Pattern.Flags
import ExecTrace.Text.Pattern.Reader
import ExecTrace.Text.Pattern.Size
import ExecTrace.Text.Quoted
import ExecTrace.Text.Setting
import ExecTrace.Text.Timestamp
import ExecTrace.Text.Unshown
import ExecTrace.Text.Uuid
import ExecTrace.Trace.Action
import ExecTrace.Trace.Activation
import ExecTrace.Trace.Canonical
import ExecTrace.Trace.Capture
import ExecTrace.Trace.Codec.Event
import ExecTrace.Trace.Codec.Report
import ExecTrace.Trace.Codec.Snapshot
import ExecTrace.Trace.Describe
import ExecTrace.Trace.Event
import ExecTrace.Trace.Forest
import ExecTrace.Trace.Log
import ExecTrace.Trace.Recorder
import ExecTrace.Trace.Rendering
import ExecTrace.Trace.Snapshot
import ExecTrace.Trace.Validity
import ExecTrace.Proofs.Agreement
import ExecTrace.Proofs.CallAgreement
import ExecTrace.Proofs.Conversion
import ExecTrace.Proofs.Capturing
import ExecTrace.Proofs.FlowAgreement
import ExecTrace.Proofs.Linked
import ExecTrace.Proofs.Paired
import ExecTrace.Proofs.Passes
import ExecTrace.Proofs.Retelling
import ExecTrace.Proofs.Retelling.Runs
import ExecTrace.Proofs.Retelling.Statements
import ExecTrace.Proofs.Scopes
import ExecTrace.Proofs.Simulation
import ExecTrace.Proofs.Source
import ExecTrace.Proofs.Splicing
import ExecTrace.Proofs.Splicing.Assignments
import ExecTrace.Proofs.Splicing.Calls
import ExecTrace.Proofs.Splicing.Expressions
import ExecTrace.Proofs.Splicing.Parts
import ExecTrace.Proofs.Splicing.Places
import ExecTrace.Proofs.Splicing.Reports
import ExecTrace.Proofs.Splicing.Tales
import ExecTrace.Proofs.Telling
import ExecTrace.Proofs.Unspoken
import ExecTrace.Proofs.Splicing.Boxes
import ExecTrace.Proofs.Splicing.Statements
import ExecTrace.Proofs.Detached
import ExecTrace.Proofs.Splicing.Bodies
import ExecTrace.Proofs.Splicing.Runs
import ExecTrace.Proofs.Hosting
import ExecTrace.Proofs.Preservation
import ExecTrace.Proofs.Lineage
import ExecTrace.Proofs.Mirroring
import ExecTrace.Proofs.Groves
import ExecTrace.Proofs.Bracketing
import ExecTrace.Proofs.Replaying
import ExecTrace.Proofs.Rebuilding
import ExecTrace.Proofs.Histories
import ExecTrace.Proofs.Calculations
import ExecTrace.Proofs.Truthfulness
import ExecTrace.Proofs.Thinning
import ExecTrace.Proofs.Reordering
import ExecTrace.Proofs.Codecs
import ExecTrace.Proofs.Documents
import ExecTrace.Proofs.Logs
import ExecTrace.Proofs.Journals
import ExecTrace.Proofs.Atomicity
import ExecTrace.Proofs.Congruence
import ExecTrace.Proofs.Jumps
import ExecTrace.Proofs.Landings
import ExecTrace.Proofs.Settling
import ExecTrace.Proofs.Provision
import ExecTrace.Proofs.Holding
import ExecTrace.Proofs.Inspection
import ExecTrace.Proofs.Reporting
import ExecTrace.Proofs.Leaving
import ExecTrace.Proofs.Balance
import ExecTrace.Proofs.Retention
import ExecTrace.Proofs.Readiness
import ExecTrace.Proofs.Activations
import ExecTrace.Proofs.Nesting
import ExecTrace.Proofs.Grammar
import ExecTrace.Proofs.Operands
import ExecTrace.Proofs.Literals
import ExecTrace.Proofs.Ancestry
import ExecTrace.Proofs.Visits
import ExecTrace.Proofs.Outcomes
import ExecTrace.Proofs.Acceptance
import ExecTrace.Proofs.Verdicts
import ExecTrace.Proofs.Integers
import ExecTrace.Proofs.Narrowing
import ExecTrace.Proofs.Branches
import ExecTrace.Proofs.Walks
import ExecTrace.Proofs.Lines
import ExecTrace.Proofs.Growth
import ExecTrace.Proofs.Ledger
import ExecTrace.Proofs.Phases
import ExecTrace.Proofs.Guarding
import ExecTrace.Proofs.Guarding.Reports
import ExecTrace.Proofs.Guarding.Flows
import ExecTrace.Proofs.Guarding.Forms
import ExecTrace.Proofs.Guarding.Speakers
import ExecTrace.Proofs.Guarding.Bodies
import ExecTrace.Proofs.Guarding.Requests
import ExecTrace.Proofs.Guarding.Brackets
import ExecTrace.Proofs.Guarding.Attribution
import ExecTrace.Proofs.Guarding.Transparency
import ExecTrace.Proofs.Guarding.Propagation
import ExecTrace.Proofs.Acyclicity
import ExecTrace.Proofs.Hygiene
