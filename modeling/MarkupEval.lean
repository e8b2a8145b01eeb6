import MarkupEval.Html.Document
import MarkupEval.Tree.Evaluate
import MarkupEval.Value.StoredJson
import MarkupEval.Proofs.Evaluation.Simulation
import MarkupEval.Proofs.Tree.Paths
import MarkupEval.Proofs.Evaluation.History
import MarkupEval.Proofs.Html.Escaping
import MarkupEval.Proofs.Html.Forest
import MarkupEval.Proofs.Html.Ordinary
import MarkupEval.Proofs.Html.RoundTrip
import MarkupEval.Proofs.Json.RoundTrip
import MarkupEval.Proofs.Markup.Payload
import MarkupEval.Proofs.Number.Integers
import MarkupEval.Proofs.Value.MarkedText
import MarkupEval.Proofs.Evaluation.Strictness
import MarkupEval.Proofs.Evaluation.Coverage
import MarkupEval.Proofs.Evaluation.CutReads
import MarkupEval.Proofs.Evaluation.Dependency
import MarkupEval.Proofs.Evaluation.Termination
import MarkupEval.Proofs.Tree.PathText
import MarkupEval.Proofs.Evaluation.References
import MarkupEval.Proofs.Evaluation.MutualReads
import MarkupEval.Tree.Arena
import MarkupEval.Proofs.Tree.Arena
import MarkupEval.Proofs.Tree.Wrapping
import MarkupEval.Proofs.Tree.Cells
import MarkupEval.Proofs.Tree.LiveNodes
import MarkupEval.Proofs.Value.Storing
import MarkupEval.Proofs.Evaluation.Standalone
import MarkupEval.Proofs.Evaluation.Layout
import MarkupEval.Proofs.Value.StoredJson
import MarkupEval.Proofs.Transformer.SetProperty
import MarkupEval.Proofs.Transformer.Addressing
import MarkupEval.Proofs.Evaluation.Folds
import MarkupEval.Proofs.Evaluation.PlainMarkup
import MarkupEval.Proofs.Value.FloatRoundTrip
import MarkupEval.Proofs.Html.Canonical
import MarkupEval.Proofs.Html.ScriptContent
import MarkupEval.Proofs.Html.Pretty
import MarkupEval.Proofs.Text.Substitution
import MarkupEval.Proofs.Transformer.Replace
import MarkupEval.Proofs.Value.Congruence
import MarkupEval.Proofs.Number.Numeral
import MarkupEval.Proofs.Value.NumberReading
import MarkupEval.Proofs.Number.WrittenNumerals
import MarkupEval.Proofs.Value.NumberText
import MarkupEval.Proofs.Value.JsonViews
import MarkupEval.Proofs.Value.Casts
import MarkupEval.Proofs.Transformer.SetAttribute
import MarkupEval.Proofs.Html.Construction
import MarkupEval.Proofs.Html.Unescaping
import MarkupEval.Proofs.Markup.TextContent
