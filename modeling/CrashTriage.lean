import CrashTriage.Main
import CrashTriage.Package.Flights
import CrashTriage.Proofs.Package.Nearest
import CrashTriage.Proofs.Package.Index.Queries
import CrashTriage.Proofs.Package.DpkgAnswers
import CrashTriage.Proofs.Package.Index.Transactions
import CrashTriage.Proofs.Package.Index.ImportedOwners
import CrashTriage.Proofs.Backtrace.FrameLine
import CrashTriage.Proofs.Backtrace.Frames
import CrashTriage.Proofs.Symbol.Outcomes
import CrashTriage.Proofs.Symbol.ExactEdits
import CrashTriage.Proofs.Backtrace.Renewal
import CrashTriage.Proofs.Symbol.EditedLines
import CrashTriage.Proofs.Symbol.StableReports
import CrashTriage.Proofs.Symbol.AskedSources
import CrashTriage.Proofs.Log.LogStates
import CrashTriage.Proofs.Package.ResolverCache
import CrashTriage.Proofs.Package.FlightMoves
import CrashTriage.Proofs.Package.FlightRuns
import CrashTriage.Proofs.Package.FlightAskers
import CrashTriage.Proofs.Package.SingleFlight
import CrashTriage.Proofs.Script.EvaluatedChain
import CrashTriage.Proofs.Script.Quoting
import CrashTriage.Proofs.Script.ReadLines
import CrashTriage.Proofs.Script.WrittenLines
import CrashTriage.Proofs.Script.RoundTrip
import CrashTriage.Proofs.Backtrace.Printed
import CrashTriage.Proofs.Symbol.ImageOrder
import CrashTriage.Proofs.Backtrace.ReadPrinted
import CrashTriage.Proofs.Disk.Places
import CrashTriage.Proofs.HostRuns
import CrashTriage.Proofs.Disk.Drafts
import CrashTriage.Proofs.FileReplacement
import CrashTriage.Proofs.Symbol.CutFiles
import CrashTriage.Proofs.Log.RewrittenFiles
import CrashTriage.Proofs.Package.Index.LastWritten
import CrashTriage.Proofs.Report.ClaimPolicies
import CrashTriage.Proofs.Package.InstalledOwners
import CrashTriage.Proofs.Image.RowRange
import CrashTriage.Proofs.Package.SelectedOwner
import CrashTriage.Proofs.Symbol.ScannedSymbols
import CrashTriage.Proofs.Path.Parents
import CrashTriage.Proofs.Helper.DirectChildren
import CrashTriage.Proofs.Helper.ConfinedHelper
import CrashTriage.Proofs.Package.Index.RepeatedUpserts
import CrashTriage.Proofs.Log.StackSuspects
import CrashTriage.Proofs.Log.PotentialSuspects
import CrashTriage.Proofs.Calendar.Years
import CrashTriage.Proofs.Calendar.ReadStamps
import CrashTriage.Proofs.SyslogWindow
import CrashTriage.Proofs.Script.AuthorLinks
import CrashTriage.Proofs.Image.PrintedRows
import CrashTriage.Proofs.Symbol.FileLayouts
import CrashTriage.Proofs.Helper.OwnRequests
import CrashTriage.Proofs.Package.Index.SchemaGate
import CrashTriage.Proofs.Disk.LexicalPlaces
import CrashTriage.Proofs.Symbol.KeptTables
import CrashTriage.Proofs.Symbol.ConfinedFiles
import CrashTriage.Proofs.Log.NameDates
import CrashTriage.Proofs.Log.ScannedGroups
import CrashTriage.Proofs.Package.ContainerBundles
import CrashTriage.Proofs.Package.PrintedStanzas
import CrashTriage.Proofs.Report.PrintedNumbers
import CrashTriage.Proofs.Script.CommandTargets
