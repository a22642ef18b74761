import MysqlConnectPool.Library.Calendar
import MysqlConnectPool.Library.Cuts
import MysqlConnectPool.Library.Double
import MysqlConnectPool.Library.Numeral
import MysqlConnectPool.Library.FixedWidth
import MysqlConnectPool.Library.Conversion
import MysqlConnectPool.Library.Regex
import MysqlConnectPool.Library.System
import MysqlConnectPool.Library.Executor
import MysqlConnectPool.Library.RoundRobin
import MysqlConnectPool.Library.BatchService
import MysqlConnectPool.Library.Traversal
import MysqlConnectPool.Library.MinQueue
import MysqlConnectPool.Library.SqlLexer
import MysqlConnectPool.Library.Handler
import MysqlConnectPool.MySQLImpl.Placeholder
import MysqlConnectPool.MySQLImpl.PlaceholderLexing
import MysqlConnectPool.MySQLImpl.PlaceholderLiterals
import MysqlConnectPool.MySQLImpl.MySQLConnector
import MysqlConnectPool.MySQLImpl.MySQLConnectorRules
import MysqlConnectPool.MySQLImpl.MySQLConnectorStable
import MysqlConnectPool.MySQLImpl.FatalError
import MysqlConnectPool.MySQLImpl.ArmedWaits
import MysqlConnectPool.MySQLImpl.IdleConnection
import MysqlConnectPool.MySQLImpl.StatementLog
import MysqlConnectPool.MySQLImpl.StatementOutcome
import MysqlConnectPool.MySQLImpl.LifeCycle
import MysqlConnectPool.MySQLImpl.Handshake
import MysqlConnectPool.MySQLImpl.Timeouts
import MysqlConnectPool.MySQLImpl.HandleUse
import MysqlConnectPool.MySQLImpl.MySQLResultImpl
import MysqlConnectPool.Utils.SplitString
import MysqlConnectPool.Utils.Hex
import MysqlConnectPool.Utils.SplitJoin
import MysqlConnectPool.Utils.MPSCQueue
import MysqlConnectPool.Utils.MPSCQueueInv
import MysqlConnectPool.Utils.MPSCQueueSpec
import MysqlConnectPool.Event.EventDispatcher
import MysqlConnectPool.Poll.EpollPoller
import MysqlConnectPool.Event.ActiveDispatchers
import MysqlConnectPool.Event.PolledDispatchers
import MysqlConnectPool.Event.EventLoop
import MysqlConnectPool.Event.NoLostWakeup
import MysqlConnectPool.Event.FunctorOrder
import MysqlConnectPool.Event.ObservedQuit
import MysqlConnectPool.Event.LoopTurns
import MysqlConnectPool.Event.EventLoopThread
import MysqlConnectPool.Event.EventLoopThreadInv
import MysqlConnectPool.Event.EventLoopThreadRuns
import MysqlConnectPool.Event.EventLoopThreadPool
import MysqlConnectPool.Event.LoopThreads
import MysqlConnectPool.Event.LeaveLoop
import MysqlConnectPool.Event.EventLoopTimers
import MysqlConnectPool.Event.InvalidateTimer
import MysqlConnectPool.Time.TimerQueue
import MysqlConnectPool.Time.TimerQueueInv
import MysqlConnectPool.Time.TimerQueueArming
import MysqlConnectPool.Time.TimerThrow
import MysqlConnectPool.Time.TimerTiming
import MysqlConnectPool.Time.DateTime
import MysqlConnectPool.Time.DbStringText
import MysqlConnectPool.Time.DbStringReader
import MysqlConnectPool.Time.FixedZone
import MysqlConnectPool.Time.ZoneHistory
import MysqlConnectPool.Time.Formatting
import MysqlConnectPool.Time.TextOrder
import MysqlConnectPool.Time.RoundDay
import MysqlConnectPool.Db.ArrayParser
import MysqlConnectPool.Db.ArrayText
import MysqlConnectPool.Db.SingleQuoted
import MysqlConnectPool.Db.ArrayTokens
import MysqlConnectPool.Db.ArrayMemory
import MysqlConnectPool.Db.Field
import MysqlConnectPool.Db.ArrayEnds
import MysqlConnectPool.Db.FieldInteger
import MysqlConnectPool.Db.Result
import MysqlConnectPool.Db.DbConnection
import MysqlConnectPool.Db.ConnString
import MysqlConnectPool.Db.UnquotedConnString
import MysqlConnectPool.MySQLImpl.ConnectionParameters
