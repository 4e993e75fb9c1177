import StaticReflection.Main
import StaticReflection.Proofs.Folding.Range
import StaticReflection.Proofs.Reflection.Lexical
import StaticReflection.Proofs.Reflection.Lookup
import StaticReflection.Proofs.Reflection.Nearest
import StaticReflection.Proofs.Reflection.Missing
import StaticReflection.Proofs.Reflection.Circles
import StaticReflection.Proofs.Reflection.Visibility
import StaticReflection.Proofs.Report.Faults
import StaticReflection.Proofs.Locating.Alike
import StaticReflection.Proofs.Reflection.Kept
import StaticReflection.Proofs.Reflection.FirstComer
import StaticReflection.Proofs.Value.Export
import StaticReflection.Proofs.Report.Modes
import StaticReflection.Proofs.Grammar.Scan
import StaticReflection.Proofs.Grammar.Operand
import StaticReflection.Proofs.Decimal.Digits
import StaticReflection.Proofs.Decimal.Notation
import StaticReflection.Proofs.Value.Spelling
import StaticReflection.Proofs.Grammar.Literal
import StaticReflection.Proofs.Grammar.Reading
import StaticReflection.Proofs.Value.ReadBack
import StaticReflection.Proofs.Folding.Exported
import StaticReflection.Proofs.Folding.LeftOut
import StaticReflection.Proofs.Reflection.NonConstant
import StaticReflection.Proofs.DocBlock.Rendering
import StaticReflection.Proofs.Declaration.Regions
import StaticReflection.Proofs.Reflection.Enumeration
import StaticReflection.Proofs.Locating.Offer
import StaticReflection.Reflection.Chain
import StaticReflection.Proofs.Reflection.Chained
import StaticReflection.Proofs.Value.Building
import StaticReflection.Proofs.Value.TextKey
import StaticReflection.Proofs.DocBlock.Union
import StaticReflection.Proofs.Folding.TextKeys
import StaticReflection.Proofs.DocBlock.Comment
import StaticReflection.Proofs.Value.Canonical
import StaticReflection.Proofs.Value.ArrayUnion
import StaticReflection.Proofs.Value.Spread
import StaticReflection.Proofs.Folding.Operation
import StaticReflection.Proofs.Folding.Words
import StaticReflection.Proofs.Folding.Division
import StaticReflection.Proofs.Value.Equality
import StaticReflection.Proofs.Value.Ordering
import StaticReflection.Proofs.Folding.Comparison
import StaticReflection.Proofs.Value.Apart
import StaticReflection.Proofs.Folding.Identity
import StaticReflection.Proofs.Grammar.Quoted
import StaticReflection.Proofs.Folding.Quoted
import StaticReflection.Proofs.Folding.Dedent
import StaticReflection.Proofs.Folding.Notation
import StaticReflection.Proofs.Decimal.Readers
import StaticReflection.Proofs.Value.Numeric
import StaticReflection.Proofs.Reflection.Flattening
import StaticReflection.Proofs.Folding.Comments
import StaticReflection.Proofs.Folding.Undisturbed
import StaticReflection.Proofs.Locating.LongestRule
import StaticReflection.Proofs.Locating.Containment
import StaticReflection.Proofs.Declaration.Concealed
import StaticReflection.Proofs.Reflection.Indexed
import StaticReflection.Proofs.Declaration.Imports
import StaticReflection.Proofs.Declaration.Recased
import StaticReflection.Proofs.Reflection.Recased
import StaticReflection.Proofs.Locating.Configuration
import StaticReflection.Proofs.Report.Table
