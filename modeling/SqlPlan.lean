import SqlPlan.Conninfo
import SqlPlan.Entity.Write
import SqlPlan.Options
import SqlPlan.Proofs.BatchCommands
import SqlPlan.Proofs.Binding
import SqlPlan.Proofs.CachedSession
import SqlPlan.Proofs.Execution
import SqlPlan.Proofs.Fingerprint
import SqlPlan.Proofs.Program
import SqlPlan.Proofs.Reader
import SqlPlan.Proofs.SetReader
import SqlPlan.Proofs.SharedCache
import SqlPlan.Proofs.StoredRows
import SqlPlan.Proofs.TerminalOperation
import SqlPlan.Proofs.WellFormed
import SqlPlan.Scripted.Backend
import SqlPlan.Scripted.Engine
import SqlPlan.Terminal
import SqlPlan.Transaction
import SqlPlan.Proofs.PartialRows
import SqlPlan.Proofs.HiddenNull
import SqlPlan.Proofs.JoinedTables
import SqlPlan.Proofs.TransactionRuns
import SqlPlan.Proofs.Statistics
import SqlPlan.Proofs.Streaming
import SqlPlan.Proofs.DerivedStatements
import SqlPlan.Proofs.FirstRows
import SqlPlan.Proofs.GrowingDeclarations
import SqlPlan.Proofs.CallOrder
import SqlPlan.Proofs.KeyTerms
import SqlPlan.Proofs.VisitedColumns
import SqlPlan.Proofs.WriteStatements
import SqlPlan.Proofs.UpdatedKey
import SqlPlan.Proofs.OptionGrammar
import SqlPlan.Proofs.ConnectionStrings
import SqlPlan.Proofs.CellPriority
import SqlPlan.Proofs.IntegerConversions
import SqlPlan.Proofs.Expansion
import SqlPlan.Proofs.NamingStyles
import SqlPlan.Proofs.Cutting
import SqlPlan.Proofs.QuotedText
import SqlPlan.Proofs.TypedKeys
