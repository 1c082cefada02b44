import TestSelection.Main
import TestSelection.Regex.Meaning
import TestSelection.Rule.Equality
import TestSelection.Rule.Meaning
import TestSelection.Proofs.Compilation
import TestSelection.Proofs.Filter.Meaning
import TestSelection.Proofs.Filter.Keep
import TestSelection.Proofs.Selection.Policy
import TestSelection.Proofs.Pairing
import TestSelection.Proofs.Rule.Equality
import TestSelection.Proofs.Rule.Hash
import TestSelection.Proofs.Selection.Shards
import TestSelection.Proofs.Rule.Alike
import TestSelection.Proofs.Results
import TestSelection.Proofs.Rule.Failure
import TestSelection.Proofs.Text.Lines
import TestSelection.Proofs.Text.Utf8
import TestSelection.Proofs.Json.Grammar
import TestSelection.Proofs.Json.Scan
import TestSelection.Proofs.Json.Value
import TestSelection.Proofs.Json.Document
import TestSelection.Proofs.Json.Layout
import TestSelection.Proofs.Json.Acceptance
import TestSelection.Proofs.Json.Plain
import TestSelection.Proofs.Shape.Record
import TestSelection.Proofs.Shape.Entries
import TestSelection.Proofs.Shape.Reading
import TestSelection.Proofs.Json.Reading
import TestSelection.Proofs.Rule.Written
import TestSelection.Proofs.Rule.Depth
import TestSelection.Proofs.Rule.RoundTrip
import TestSelection.Proofs.Test.Written
import TestSelection.Proofs.Json.Variant
import TestSelection.Proofs.Test.Variants
import TestSelection.Proofs.Config.Settings
import TestSelection.Proofs.Output.Sink
import TestSelection.Proofs.Output.Style
import TestSelection.Proofs.Selection.Lossless
import TestSelection.Proofs.Config.Reload
import TestSelection.Proofs.Rule.Validity
import TestSelection.Proofs.Specification
import TestSelection.Proofs.Selection.Failure
import TestSelection.Proofs.Run.Outcome
import TestSelection.Proofs.Regex.Construction
import TestSelection.Proofs.Regex.Whole
import TestSelection.Proofs.Unicode.CodeSet
import TestSelection.Proofs.Regex.Reading
import TestSelection.Proofs.Regex.Denotation
import TestSelection.Proofs.Regex.Printing
import TestSelection.Proofs.Regex.Names
import TestSelection.Proofs.Regex.Settled
import TestSelection.Proofs.Regex.Depth
import TestSelection.Proofs.Unicode.Answers
import TestSelection.Proofs.Filter.ValuesFile
import TestSelection.Proofs.Filter.Buckets
import TestSelection.Proofs.Rule.Reading
import TestSelection.Proofs.Rule.Keys
import TestSelection.Proofs.Rule.Nested
import TestSelection.Proofs.Test.Name
import TestSelection.Proofs.Selection.Listing
import TestSelection.Proofs.Selection.Counts
import TestSelection.Proofs.Selection.Colors
import TestSelection.Proofs.Config.UnknownKeys
import TestSelection.Proofs.Regex.Faults
import TestSelection.Proofs.Regex.Usable
