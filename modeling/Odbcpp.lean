import Odbcpp.Auth.Receipts
import Odbcpp.Auth.TemporaryValidity
import Odbcpp.Cancellation.Containment
import Odbcpp.Connection.Budget
import Odbcpp.Connection.Startup
import Odbcpp.Mysql.Packets
import Odbcpp.Odbc.ArrayReports
import Odbcpp.Odbc.CommitReports
import Odbcpp.Odbc.CursorNames
import Odbcpp.Odbc.Lossless
import Odbcpp.Odbc.ManualCommit
import Odbcpp.Odbc.RowsetWrites
import Odbcpp.Odbc.Scrolling
import Odbcpp.Odbc.TraceMasking
import Odbcpp.Odbc.TraceStorage
import Odbcpp.Odbc.WideText
import Odbcpp.Ownership.CacheScope
import Odbcpp.Ownership.Reuse
import Odbcpp.Ownership.Tenures
import Odbcpp.Postgres.CallSplitting
import Odbcpp.Postgres.CancelEligibility
import Odbcpp.Postgres.Placement
import Odbcpp.Postgres.RedshiftNames
import Odbcpp.Postgres.RedshiftTables
import Odbcpp.Postgres.Values
import Odbcpp.Postgres.WireBudgets
import Odbcpp.Transport.CancellationStatus
import Odbcpp.Transport.SubmissionOrder
