import SourceModel.CoreType
import SourceModel.Declaration
import SourceModel.Diagnostic
import SourceModel.Document
import SourceModel.Draft.Basic
import SourceModel.Draft.Error
import SourceModel.Draft.Event
import SourceModel.Draft.Feed
import SourceModel.Dump
import SourceModel.Expr.Basic
import SourceModel.Expr.Leaf
import SourceModel.Expr.Reading
import SourceModel.Expr.Reduction
import SourceModel.Literal.Basic
import SourceModel.Literal.Digits
import SourceModel.Literal.Escape
import SourceModel.Literal.Reader
import SourceModel.Literal.Token
import SourceModel.Modifier
import SourceModel.Name
import SourceModel.Number.Binary64
import SourceModel.Number.Shortest
import SourceModel.Number.Text
import SourceModel.Primitive
import SourceModel.Project
import SourceModel.Property
import SourceModel.Query
import SourceModel.Reference
import SourceModel.Rendering
import SourceModel.Resolution.Lookup
import SourceModel.Resolution.Memo
import SourceModel.Resolution.Target
import SourceModel.Scope
import SourceModel.SourceUnit
import SourceModel.Text.Blank
import SourceModel.Text.Case
import SourceModel.Text.DefaultIgnorable
import SourceModel.Text.GraphemeExtend
import SourceModel.Text.Quoted
import SourceModel.Text.Range
import SourceModel.Text.Unprintable
import SourceModel.Ty.Basic
import SourceModel.Ty.Occurrence
import SourceModel.Ty.Written
import SourceModel.Proofs.Accepted
import SourceModel.Proofs.Arena
import SourceModel.Proofs.Drafts
import SourceModel.Proofs.LiteralTexts
import SourceModel.Proofs.Contexts
import SourceModel.Proofs.Refusals
import SourceModel.Proofs.Preorder
import SourceModel.Proofs.Loading
import SourceModel.Proofs.Chain
import SourceModel.Proofs.SimpleNames
import SourceModel.Proofs.DottedNames
import SourceModel.Proofs.Outside
import SourceModel.Proofs.Renaming
import SourceModel.Proofs.SourceOrder
import SourceModel.Proofs.MoreSources
import SourceModel.Proofs.Places
import SourceModel.Proofs.Remembering
import SourceModel.Proofs.Attachment
import SourceModel.Proofs.Containers
import SourceModel.Proofs.WrittenUnits
import SourceModel.Proofs.Rebuilding
import SourceModel.Proofs.Growth
import SourceModel.Proofs.Forest
import SourceModel.Proofs.Descent
import SourceModel.Proofs.CanonicalNames
import SourceModel.Proofs.Ambiguity
import SourceModel.Proofs.InRange
import SourceModel.Proofs.ReferenceOrder
import SourceModel.Proofs.Checking
import SourceModel.Proofs.Unchecked
import SourceModel.Proofs.Parentheses
import SourceModel.Proofs.ReducedForm
import SourceModel.Proofs.Wrapping
import SourceModel.Proofs.Concatenation
import SourceModel.Proofs.DecimalTexts
import SourceModel.Proofs.FloatTexts
import SourceModel.Proofs.Documents
import SourceModel.Proofs.DumpedParts
import SourceModel.Proofs.Faithful
import SourceModel.Proofs.FirstFault
import SourceModel.Proofs.Numerals
import SourceModel.Proofs.TokenClasses
import SourceModel.Proofs.IntegerTexts
import SourceModel.Proofs.Escapes
import SourceModel.Proofs.Signs
import SourceModel.Proofs.NormalTypes
import SourceModel.Proofs.Properties
import SourceModel.Proofs.AccessorNames
import SourceModel.Proofs.FloatLiterals
import SourceModel.Proofs.ImportUse
import SourceModel.Proofs.LexicalClasses
import SourceModel.Proofs.OccurrenceOrder
import SourceModel.Proofs.DisplayNames
import SourceModel.Proofs.RenderedTypes
