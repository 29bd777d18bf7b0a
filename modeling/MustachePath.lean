import MustachePath.Preprocess
import MustachePath.Data.Shaping
import MustachePath.Options.Document
import MustachePath.Options.Yaml
import MustachePath.Command.Run
import MustachePath.Main
import MustachePath.Proofs.Characters
import MustachePath.Proofs.Results
import MustachePath.Proofs.Splicing
import MustachePath.Proofs.Places
import MustachePath.Proofs.LineTables
import MustachePath.Proofs.Tokens
import MustachePath.Proofs.Braces
import MustachePath.Proofs.Scanning
import MustachePath.Proofs.TagSpans
import MustachePath.Proofs.Rescanning
import MustachePath.Proofs.Clauses
import MustachePath.Proofs.Escapes
import MustachePath.Proofs.Replacements
import MustachePath.Proofs.Idempotence
import MustachePath.Proofs.Subexpressions
import MustachePath.Proofs.WrittenPaths
import MustachePath.Proofs.SignSearch
import MustachePath.Proofs.PathReading
import MustachePath.Proofs.WrittenJson
import MustachePath.Proofs.PathTags
import MustachePath.Proofs.SpelledPaths
import MustachePath.Proofs.JoinedPaths
import MustachePath.Proofs.BracketFilters
import MustachePath.Proofs.NumberedSteps
import MustachePath.Proofs.ItemOrder
import MustachePath.Proofs.ShapedItems
import MustachePath.Proofs.MixedItems
import MustachePath.Proofs.NearestNumbers
import MustachePath.Proofs.IntegerSort
import MustachePath.Proofs.Respacing
import MustachePath.Proofs.Calls
import MustachePath.Proofs.NativeTags
import MustachePath.Proofs.ReplacementBraces
import MustachePath.Proofs.TagStructure
import MustachePath.Proofs.PreservedMarkers
import MustachePath.Proofs.PathConventions
import MustachePath.Proofs.ReportedTags
import MustachePath.Proofs.FolderWrites
import MustachePath.Proofs.CommandRuns
import MustachePath.Proofs.EditOrder
import MustachePath.Proofs.Lexemes
import MustachePath.Proofs.PairShapes
import MustachePath.Proofs.FoundTags
import MustachePath.Proofs.PathLiterals
import MustachePath.Proofs.RelativePaths
