import KeyIntrospection.Main
import KeyIntrospection.Proofs.Object.Agreement
import KeyIntrospection.Proofs.Object.Freezing
import KeyIntrospection.Proofs.Object.Frame
import KeyIntrospection.Proofs.Object.Equality
import KeyIntrospection.Proofs.Grammar.Refusal
import KeyIntrospection.Proofs.Grammar.Locality
import KeyIntrospection.Proofs.Script.Lead
import KeyIntrospection.Proofs.Script.Word
import KeyIntrospection.Proofs.Script.Locality
import KeyIntrospection.Proofs.Grammar.Alignment
import KeyIntrospection.Proofs.Script.Alignment
import KeyIntrospection.Proofs.Grammar.Delay
import KeyIntrospection.Proofs.Script.Lines
import KeyIntrospection.Proofs.Script.Concatenation
import KeyIntrospection.Proofs.Session.Scanner
import KeyIntrospection.Proofs.Script.Single
import KeyIntrospection.Proofs.Script.Sole
import KeyIntrospection.Proofs.Session.Depth
import KeyIntrospection.Proofs.Session.Assembly
import KeyIntrospection.Proofs.Run.Execution
import KeyIntrospection.Proofs.Run.Places
import KeyIntrospection.Proofs.Session.Replay
import KeyIntrospection.Proofs.Session.Completeness
import KeyIntrospection.Proofs.Script.Canonical
import KeyIntrospection.Proofs.Script.Reading
import KeyIntrospection.Proofs.Script.Spelling
import KeyIntrospection.Proofs.Script.RoundTrip
import KeyIntrospection.Proofs.Script.Continuation
import KeyIntrospection.Proofs.Script.Printed
import KeyIntrospection.Proofs.Run.States
import KeyIntrospection.Proofs.Run.Expectations
import KeyIntrospection.Proofs.Decimal.Characters
import KeyIntrospection.Proofs.Run.Composition
import KeyIntrospection.Proofs.Script.SExpr
import KeyIntrospection.Proofs.Script.Forms
import KeyIntrospection.Proofs.Script.Regions
import KeyIntrospection.Proofs.Script.Survey
import KeyIntrospection.Proofs.Script.Spans
import KeyIntrospection.Proofs.Run.Tables
import KeyIntrospection.Proofs.Run.Effects
import KeyIntrospection.Proofs.Run.Independence
import KeyIntrospection.Proofs.Run.Classes
import KeyIntrospection.Proofs.Run.Names
import KeyIntrospection.Proofs.Run.Errors
import KeyIntrospection.Proofs.Session.Account
import KeyIntrospection.Proofs.CommandLine.Arguments
import KeyIntrospection.Proofs.CommandLine.Batch
import KeyIntrospection.Proofs.Script.Zones
import KeyIntrospection.Proofs.Script.Layout
import KeyIntrospection.Proofs.Script.Traversal
import KeyIntrospection.Proofs.Run.Matchers
import KeyIntrospection.Proofs.Grammar.Tokens
import KeyIntrospection.Proofs.Script.Escapes
import KeyIntrospection.Proofs.Script.Literals
import KeyIntrospection.Proofs.Script.Inspected
import KeyIntrospection.Proofs.Run.Diagnostics
import KeyIntrospection.Proofs.Object.InPlace
import KeyIntrospection.Proofs.Object.Naming
import KeyIntrospection.Proofs.Script.Names
import KeyIntrospection.Proofs.Script.QuotedForms
