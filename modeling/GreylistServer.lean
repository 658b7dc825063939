import GreylistServer.Lib.Text
import GreylistServer.Lib.OrdMap
import GreylistServer.Lib.Table
import GreylistServer.Lib.Interleaving
import GreylistServer.Triplet
import GreylistServer.DataSource
import GreylistServer.Core
import GreylistServer.Greylist
import GreylistServer.GreylistStep
import GreylistServer.GreylistRun
import GreylistServer.GreylistReverse
import GreylistServer.GreylistConcurrent
import GreylistServer.Parser
import GreylistServer.Server
import GreylistServer.ServerFraming
import GreylistServer.Matchers
import GreylistServer.MatchersAgree
import GreylistServer.CacheSharing
import GreylistServer.CacheConcurrent
import GreylistServer.CacheReload
import GreylistServer.Creators
import GreylistServer.System
import GreylistServer.SystemReload
import GreylistServer.Lib.Machine
import GreylistServer.Scheduler
import GreylistServer.SchedulerTasks
import GreylistServer.SchedulerLimits
import GreylistServer.SchedulerShutdown
import GreylistServer.ServerDescriptors
import GreylistServer.ServerSockets
import GreylistServer.DatabasePool
import GreylistServer.DatabaseHandles
import GreylistServer.GreylistCounter
import GreylistServer.CoreModules
import GreylistServer.SystemLayout
import GreylistServer.QueryRender
import GreylistServer.DBQueryBinding
import GreylistServer.DBQueryStatements
import GreylistServer.ParserRequired
import GreylistServer.SystemSettings
import GreylistServer.ConfigFileReader
import GreylistServer.SystemMembers
import GreylistServer.ConfigFileLines
import GreylistServer.AddressNames
import GreylistServer.AddressNumeric
import GreylistServer.AddressReverse
import GreylistServer.SystemRun
import GreylistServer.SystemRunThreads
import GreylistServer.SystemRunHistory
import GreylistServer.Lib.Holders
import GreylistServer.QueryPool
import GreylistServer.Lib.Transducer
import GreylistServer.GreylistService
import GreylistServer.PolicyService
import GreylistServer.ConfigText
import GreylistServer.ConfigErrors
import GreylistServer.ReplyStream
