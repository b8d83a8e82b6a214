import ColorTokens.Main
import ColorTokens.Session
import ColorTokens.Proofs.Text.Bytes
import ColorTokens.Proofs.Text.Recognizer
import ColorTokens.Proofs.Color.Literal
import ColorTokens.Proofs.Source.Declaration
import ColorTokens.Proofs.Occurrence.Hits
import ColorTokens.Proofs.Occurrence.Scan
import ColorTokens.Proofs.Splice
import ColorTokens.Proofs.Keyed
import ColorTokens.Proofs.Token.Assignment
import ColorTokens.Proofs.Tokenization
import ColorTokens.Proofs.Determinism
import ColorTokens.Proofs.Idempotence
import ColorTokens.Proofs.Color.Canonical
import ColorTokens.Proofs.Token.Reading
import ColorTokens.Proofs.Token.Insertion
import ColorTokens.Proofs.Color.FixedPoint
import ColorTokens.Proofs.Session
import ColorTokens.Proofs.Reuse
import ColorTokens.Proofs.Token.Effective
import ColorTokens.Proofs.Project.Reading
import ColorTokens.Proofs.Path
import ColorTokens.Proofs.Project.Tree
import ColorTokens.Proofs.Project.Writing
import ColorTokens.Proofs.Project.Applying
import ColorTokens.Proofs.Component.Idempotence
import ColorTokens.Proofs.Token.Numbering
import ColorTokens.Proofs.Source.Rounds
import ColorTokens.Proofs.Source.Skipped
import ColorTokens.Proofs.Source.Nesting
import ColorTokens.Proofs.Color.Agreement
import ColorTokens.Proofs.Selection
import ColorTokens.Proofs.Occurrence.Composition
import ColorTokens.Proofs.Completeness
import ColorTokens.Proofs.Color.Spacing
import ColorTokens.Proofs.Color.Invariant
import ColorTokens.Proofs.Token.Verification
import ColorTokens.Proofs.Token.Reserved
import ColorTokens.Proofs.Report
import ColorTokens.Proofs.Token.Emission
import ColorTokens.Proofs.Token.Palette
import ColorTokens.Proofs.Path.Cleaning
import ColorTokens.Proofs.Path.Exclusion
import ColorTokens.Proofs.Source.QuotedSpans
import ColorTokens.Proofs.Text.Lines
