import RecordStore.CommandLine.Arguments
import RecordStore.CommandLine.Execution
import RecordStore.CommandLine.Flag
import RecordStore.Database
import RecordStore.Datum
import RecordStore.Evaluation
import RecordStore.Evaluation.Command
import RecordStore.Evaluation.Matcher
import RecordStore.Evaluation.Meaning
import RecordStore.Identifier
import RecordStore.Json.Document
import RecordStore.Json.Fault
import RecordStore.Json.Head
import RecordStore.Json.Number
import RecordStore.Json.Text
import RecordStore.Json.Value
import RecordStore.Json.Writing
import RecordStore.Main
import RecordStore.Number.Binary64
import RecordStore.Number.Binary64.Bits
import RecordStore.Number.Binary64.Shortest
import RecordStore.Number.Decimal
import RecordStore.Number.Decimal.Conversion
import RecordStore.Number.Decimal.Reading
import RecordStore.Number.Power
import RecordStore.Plan
import RecordStore.Plan.Compilation
import RecordStore.Plan.Explanation
import RecordStore.Plan.Scope
import RecordStore.Plan.Support
import RecordStore.Proofs.Binding
import RecordStore.Proofs.Cutting
import RecordStore.Proofs.Expressible
import RecordStore.Proofs.QueryPipeline
import RecordStore.Proofs.ReadingParts
import RecordStore.Proofs.ReadingStatements
import RecordStore.Proofs.ReadingSteps
import RecordStore.Proofs.ScriptTokens
import RecordStore.Proofs.ValueOrder
import RecordStore.Proofs.WrittenTokens
import RecordStore.Record
import RecordStore.Row
import RecordStore.Session
import RecordStore.Session.History
import RecordStore.Sql.Grammar
import RecordStore.Sql.Lexeme
import RecordStore.Sql.Number
import RecordStore.Sql.ParseError
import RecordStore.Sql.Reading
import RecordStore.Sql.Script
import RecordStore.Sql.Statement
import RecordStore.Sql.Substitution
import RecordStore.Sql.Token
import RecordStore.Sql.Writing
import RecordStore.Storage.Backend
import RecordStore.Storage.Faithful
import RecordStore.Storage.FileSystem
import RecordStore.Storage.OsError
import RecordStore.Storage.Path
import RecordStore.Table
import RecordStore.Text.Alphabetic
import RecordStore.Text.CharClass
import RecordStore.Text.Doubled
import RecordStore.Text.Hidden
import RecordStore.Text.Numeric
import RecordStore.Text.Quoted
import RecordStore.Time.Calendar
import RecordStore.Time.Moment
import RecordStore.Wire.Head
import RecordStore.Wire.Reply
import RecordStore.Wire.Request
import RecordStore.Wire.Service
import RecordStore.Proofs.SessionSteps
import RecordStore.Proofs.CacheCoherence
import RecordStore.Proofs.Rounding
import RecordStore.Proofs.ShortestDigits
import RecordStore.Proofs.JsonNumbers
import RecordStore.Proofs.JsonTexts
import RecordStore.Proofs.StoredValues
import RecordStore.Proofs.StoreDocument
import RecordStore.Proofs.StoreRoundTrip
import RecordStore.Proofs.NearestDouble
import RecordStore.Proofs.DecimalToDouble
import RecordStore.Proofs.ExactDigits
import RecordStore.Proofs.ExactNumbers
import RecordStore.Proofs.DoubleToDecimal
import RecordStore.Proofs.SteadyDecimals
import RecordStore.Proofs.PlanParts
import RecordStore.Proofs.QuestionMarks
import RecordStore.Proofs.Parameters
import RecordStore.Proofs.BoundValues
import RecordStore.Proofs.LenientDialect
import RecordStore.Proofs.FailedCalls
import RecordStore.Proofs.IndependentMutations
import RecordStore.Proofs.SameRows
import RecordStore.Proofs.SameValues
import RecordStore.Proofs.SavedFiles
import RecordStore.Proofs.SessionRuns
import RecordStore.Proofs.UpdatedRecords
import RecordStore.Proofs.WriteModes
import RecordStore.Proofs.JsonFronts
import RecordStore.Proofs.JsonSpelling
import RecordStore.Proofs.JsonReaders
import RecordStore.Proofs.LoadedDocuments
import RecordStore.Proofs.RecordCounts
import RecordStore.Proofs.FilledStamps
import RecordStore.Proofs.Frames
import RecordStore.Proofs.ServedReplies
import RecordStore.Proofs.CalendarDays
import RecordStore.Proofs.StampFields
import RecordStore.Proofs.StampOrder
import RecordStore.Proofs.SortedStamps
import RecordStore.Proofs.StampReading
import RecordStore.Proofs.ClearedTables
import RecordStore.Proofs.InnerJoin
import RecordStore.Proofs.ProjectedFields
import RecordStore.Proofs.QualifiedColumns
import RecordStore.Proofs.InsertedRecords
import RecordStore.Proofs.RepeatedMutations
import RecordStore.Proofs.RefusedPlans
import RecordStore.Proofs.PathNames
import RecordStore.Proofs.FollowedPaths
import RecordStore.Proofs.StoppedSaves
import RecordStore.Proofs.PreparedSaves
import RecordStore.Proofs.TokenPlaces
import RecordStore.Proofs.NumberLiterals
import RecordStore.Proofs.PrintedTokens
import RecordStore.Proofs.PrintedValues
import RecordStore.Proofs.PrintedConditions
