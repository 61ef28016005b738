import StatementAnalyzer.Api.Statements
import StatementAnalyzer.Database.OpenTransactions
import StatementAnalyzer.Database.Runs
import StatementAnalyzer.Service.StoredResults
import StatementAnalyzer.Insights.Soundness
import StatementAnalyzer.Worker.JobDecision
import StatementAnalyzer.Analytics.ConsecutiveMonths
import StatementAnalyzer.Insights.InsightsGrammar
import StatementAnalyzer.Insights.Acceptance
import StatementAnalyzer.Insights.CachedDocument
import StatementAnalyzer.Database.MigrationHistory
import StatementAnalyzer.Api.UploadGate
import StatementAnalyzer.Worker.LoopProtocol
import StatementAnalyzer.Storage.BoundedReading
import StatementAnalyzer.Insights.Fingerprint
import StatementAnalyzer.Observability.Logger
import StatementAnalyzer.Insights.OneGeneration
import StatementAnalyzer.Api.InsightsLoad
import StatementAnalyzer.Service.Stranded
import StatementAnalyzer.Service.Insights
import StatementAnalyzer.Service.Responses
import StatementAnalyzer.Queue.WireRefinement
import StatementAnalyzer.Insights.InsightsPrompt
import StatementAnalyzer.Insights.OverBedrock
