import UtilityCss.Main
import UtilityCss.Config.Writer
import UtilityCss.Proofs.ClassName.ByteReading
import UtilityCss.Proofs.ClassName.Derivation
import UtilityCss.Proofs.ClassName.Extension
import UtilityCss.Proofs.ClassName.Priority
import UtilityCss.Proofs.CommandLine.Effects
import UtilityCss.Proofs.Config.Report
import UtilityCss.Proofs.Config.RoundTrip
import UtilityCss.Proofs.Engine.Cascade
import UtilityCss.Proofs.Engine.Fusion
import UtilityCss.Proofs.Engine.LiteralClass
import UtilityCss.Proofs.Engine.MatchedClass
import UtilityCss.Proofs.Engine.NamedValue
import UtilityCss.Proofs.Engine.NestedAlias
import UtilityCss.Proofs.Engine.PlaceholderClass
import UtilityCss.Proofs.Engine.Separation
import UtilityCss.Proofs.Engine.Vocabulary
import UtilityCss.Proofs.Engine.WellFormed
import UtilityCss.Proofs.Expansion.PropertyList
import UtilityCss.Proofs.Expansion.SinglePass
import UtilityCss.Proofs.Expansion.Template
import UtilityCss.Proofs.Markup.ClassAttribute
import UtilityCss.Proofs.Project.Rebuild
import UtilityCss.Proofs.Project.Selection
import UtilityCss.Proofs.Project.Settings
import UtilityCss.Proofs.Project.Sources
import UtilityCss.Proofs.Project.Vocabulary
import UtilityCss.Proofs.Style.Grouping
import UtilityCss.Proofs.Style.Identifier
import UtilityCss.Proofs.Style.Legibility
import UtilityCss.Proofs.Style.PropertyName
