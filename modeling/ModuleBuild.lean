import ModuleBuild.Main
import ModuleBuild.Compile.Scripted
import ModuleBuild.Proofs.Association
import ModuleBuild.Proofs.Plugin.History
import ModuleBuild.Proofs.Plugin.Checks
import ModuleBuild.Proofs.Linking.Conflicts
import ModuleBuild.Proofs.Linking.Globals
import ModuleBuild.Proofs.Linking.ImportOrder
import ModuleBuild.Proofs.Plugin.Session
import ModuleBuild.Proofs.Text.Occurrence
import ModuleBuild.Proofs.Text.Words
import ModuleBuild.Proofs.Preflight.Exactness
import ModuleBuild.Proofs.Preflight.Discipline
import ModuleBuild.Proofs.Helper.Imports
import ModuleBuild.Proofs.Linking.Scope
import ModuleBuild.Proofs.Linking.HelperNames
import ModuleBuild.Proofs.Linking.Preservation
import ModuleBuild.Proofs.Helper.Sharing
import ModuleBuild.Proofs.Linking.Cycles
import ModuleBuild.Proofs.Compile.Exports
import ModuleBuild.Proofs.Compile.Bindings
import ModuleBuild.Proofs.Compile.Order
import ModuleBuild.Proofs.Compile.Freshness
import ModuleBuild.Proofs.Compile.Interleaving
import ModuleBuild.Proofs.Compile.InlineHelpers
import ModuleBuild.Proofs.Plugin.Concurrent
import ModuleBuild.Proofs.Linking.EntryExports
import ModuleBuild.Proofs.Text.EditedText
import ModuleBuild.Proofs.Helper.PieceReader
import ModuleBuild.Proofs.Linking.Statements
import ModuleBuild.Proofs.Linking.Stripped
import ModuleBuild.Proofs.Linking.Declared
import ModuleBuild.Proofs.Compile.Configuration
import ModuleBuild.Proofs.Script.Literals
import ModuleBuild.Proofs.Compile.Directives
import ModuleBuild.Proofs.Compile.Lines
import ModuleBuild.Proofs.Options.Discovery
import ModuleBuild.Proofs.Plugin.Filter
import ModuleBuild.Proofs.Helper.Shapes
import ModuleBuild.Proofs.Text.Matches
import ModuleBuild.Proofs.Helper.Exploration
import ModuleBuild.Proofs.Linking.DefaultNames
