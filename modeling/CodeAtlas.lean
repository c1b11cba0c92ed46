import CodeAtlas.Attribute.Json
import CodeAtlas.Main
import CodeAtlas.Proofs.ByteCoverage
import CodeAtlas.Proofs.LinkSoundness
import CodeAtlas.Proofs.Frame
import CodeAtlas.Proofs.Document.Codec
import CodeAtlas.Proofs.Repetition
import CodeAtlas.Proofs.Parents
import CodeAtlas.Proofs.Pipeline.DataFlow
import CodeAtlas.Proofs.Convergence
import CodeAtlas.Proofs.StoreSafety
import CodeAtlas.Proofs.Pipeline.UpdateRun
import CodeAtlas.Proofs.Pipeline.AutoDetection
import CodeAtlas.Proofs.Pipeline.FilteredRuns
import CodeAtlas.Proofs.Extraction.FirstDefinitions
import CodeAtlas.Proofs.Pipeline.StageContracts
import CodeAtlas.Proofs.Command.ReadBack
import CodeAtlas.Proofs.Extraction.RelativeImports
import CodeAtlas.Proofs.Extraction.Calls
import CodeAtlas.Proofs.LocalCalls
import CodeAtlas.Proofs.FailureIsolation
import CodeAtlas.Proofs.LinkingPass
import CodeAtlas.Proofs.NameTables
import CodeAtlas.Proofs.Extraction.UseTrees
import CodeAtlas.Proofs.ExactCoverage
import CodeAtlas.Proofs.Query.View
import CodeAtlas.Proofs.Query.Search
import CodeAtlas.Proofs.Query.Dependencies
import CodeAtlas.Proofs.ChangeSets
import CodeAtlas.Proofs.ChangeReports
import CodeAtlas.Proofs.Config.Reloading
import CodeAtlas.Proofs.Counters
import CodeAtlas.Proofs.FilterLaws
import CodeAtlas.Proofs.Command.Selection
import CodeAtlas.Proofs.Collecting
import CodeAtlas.Proofs.StagingFile
import CodeAtlas.Proofs.Text.Spellings
