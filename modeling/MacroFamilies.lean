import MacroFamilies.Main
import MacroFamilies.Proofs.CommandLine.Agreement
import MacroFamilies.Proofs.CommandLine.Effects
import MacroFamilies.Proofs.Delivery.Effect
import MacroFamilies.Proofs.Delivery.Failure
import MacroFamilies.Proofs.Emission.Repetition
import MacroFamilies.Proofs.Emission.ShortName
import MacroFamilies.Proofs.Emission.Spelling
import MacroFamilies.Proofs.Family.FixedParameter
import MacroFamilies.Proofs.Family.Parameters
import MacroFamilies.Proofs.Generator.ArtifactSet
import MacroFamilies.Proofs.Generator.Growth
import MacroFamilies.Proofs.Generator.MaximumArity
import MacroFamilies.Proofs.LineDiff
import MacroFamilies.Proofs.ParameterSet.Synthesis
import MacroFamilies.Proofs.Template.Composition
import MacroFamilies.Proofs.Template.LineNumbers
import MacroFamilies.Proofs.Template.PercentRuns
import MacroFamilies.Proofs.Template.Printing
import MacroFamilies.Proofs.CommandLine.Differences
import MacroFamilies.Proofs.FileSystem.Trees
import MacroFamilies.Proofs.TemplateStore
import MacroFamilies.Proofs.Yaml.Ordinary
import MacroFamilies.Proofs.Yaml.Reading
import MacroFamilies.Proofs.Yaml.Rejection
import MacroFamilies.Proofs.Configuration.UnknownKeys
import MacroFamilies.Proofs.Yaml.Data
import MacroFamilies.Proofs.Yaml.Record
import MacroFamilies.Proofs.Configuration.Overlay
import MacroFamilies.Proofs.FileSystem.Naming
