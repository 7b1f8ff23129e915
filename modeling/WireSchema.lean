import WireSchema.Envelope
import WireSchema.Main
import WireSchema.Schema.WireTypes
import WireSchema.Table.Parser
import WireSchema.Proofs.Alignment
import WireSchema.Proofs.Content
import WireSchema.Proofs.Layout
import WireSchema.Proofs.Step
import WireSchema.Proofs.Writing
import WireSchema.Proofs.Encoding
import WireSchema.Proofs.Serialize
import WireSchema.Proofs.Denotation
import WireSchema.Proofs.Reading
import WireSchema.Proofs.Decoding
import WireSchema.Proofs.Deserialize
import WireSchema.Proofs.RoundTrip
import WireSchema.Proofs.Room
import WireSchema.Proofs.Refusal
import WireSchema.Proofs.Cut
import WireSchema.Proofs.Truncation
import WireSchema.Proofs.Cycle
import WireSchema.Proofs.WellFormed
import WireSchema.Proofs.Measuring
import WireSchema.Proofs.FixedSize
import WireSchema.Proofs.Parts
import WireSchema.Proofs.Borrowing
import WireSchema.Proofs.Describing
import WireSchema.Proofs.Quoting
import WireSchema.Proofs.Lexing
import WireSchema.Proofs.Grouping
import WireSchema.Proofs.TableLines
import WireSchema.Proofs.TableReading
import WireSchema.Proofs.Rendering
import WireSchema.Proofs.Recursion
import WireSchema.Proofs.Repetition
import WireSchema.Proofs.Depth
import WireSchema.Proofs.Streaming
import WireSchema.Proofs.FieldTypes
import WireSchema.Proofs.Reload
import WireSchema.Proofs.CodeWords
import WireSchema.Proofs.Declarations
import WireSchema.Proofs.Lifetimes
import WireSchema.Proofs.Guarding
import WireSchema.Proofs.Confinement
import WireSchema.Proofs.Overflow
import WireSchema.Proofs.Slicing
import WireSchema.Proofs.Traversal
import WireSchema.Proofs.TypeForms
import WireSchema.Proofs.TableGrammar
import WireSchema.Proofs.Inversion
import WireSchema.Proofs.Documentation
import WireSchema.Proofs.TableDerivation
import WireSchema.Proofs.TypeTokens
import WireSchema.Proofs.Violations
import WireSchema.Proofs.Discovery
import WireSchema.Proofs.DeclarationOrder
import WireSchema.Proofs.ErrorPlaces
import WireSchema.Proofs.TableStrings
import WireSchema.Proofs.Reprinting
import WireSchema.Proofs.Masking
import WireSchema.Proofs.LeastBytes
import WireSchema.Proofs.FieldTexts
import WireSchema.Proofs.Slots
import WireSchema.Proofs.BoundedList
