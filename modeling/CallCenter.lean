import CallCenter.Foundation.Runs
import CallCenter.Foundation.OrderedMap
import CallCenter.Foundation.Cell
import CallCenter.Foundation.PriorityQueue
import CallCenter.Foundation.HeapOrder
import CallCenter.Foundation.Decimal
import CallCenter.Foundation.Outcomes
import CallCenter.Foundation.Text
import CallCenter.Foundation.Scan
import CallCenter.Model.Records
import CallCenter.Model.Event
import CallCenter.Model.Json
import CallCenter.Model.Agent
import CallCenter.Model.Ivr
import CallCenter.Model.AcdQueue
import CallCenter.Model.Manager
import CallCenter.Model.Dispatch
import CallCenter.Model.Reload
import CallCenter.Model.ProcessEvent
import CallCenter.Model.Callout
import CallCenter.Model.System
import CallCenter.Model.AcdRun
import CallCenter.Model.Threads
import CallCenter.Model.WsServer
import CallCenter.Model.TcpServer
import CallCenter.Model.DbPool
import CallCenter.Model.DbOperator
import CallCenter.Model.QueueThreads
import CallCenter.Model.IniFile
import CallCenter.Model.Inirw
import CallCenter.Verified.IvrNavigation
import CallCenter.Verified.IvrLoading
import CallCenter.Verified.ServiceOrder
import CallCenter.Verified.Handlers
import CallCenter.Verified.Steps
import CallCenter.Verified.Reloading
import CallCenter.Verified.Pickers
import CallCenter.Verified.AvailableAgent
import CallCenter.Verified.ComparedAgents
import CallCenter.Verified.CompanyRules
import CallCenter.Verified.EventHandling
import CallCenter.Verified.FailedTransfers
import CallCenter.Verified.StatusChanges
import CallCenter.Verified.AgentChanges
import CallCenter.Verified.OneCall
import CallCenter.Verified.NotReady
import CallCenter.Verified.AgentMap
import CallCenter.Verified.Sessions
import CallCenter.Verified.HandleOwnership
import CallCenter.Verified.QueuedOnce
import CallCenter.Verified.Blocking
import CallCenter.Verified.Tasks
import CallCenter.Verified.OwnList
import CallCenter.Verified.Pacing
import CallCenter.Verified.Interleaving
import CallCenter.Verified.WakeUps
import CallCenter.Verified.TaskWakeUps
import CallCenter.Verified.Restoration
import CallCenter.Verified.WorkingLibraries
import CallCenter.Verified.Mirror
import CallCenter.Verified.Restart
import CallCenter.Verified.CallRecords
import CallCenter.Verified.SessionStore
import CallCenter.Verified.Companies
import CallCenter.Verified.ClientRequests
import CallCenter.Verified.CommandServers
import CallCenter.Verified.OneAnswer
import CallCenter.Verified.StreamCuts
import CallCenter.Verified.PoolAccounting
import CallCenter.Verified.DatabaseCleanup
import CallCenter.Verified.QueueSignals
import CallCenter.Verified.IniRoundTrip
import CallCenter.Verified.IniLines
import CallCenter.Verified.IniLookup
import CallCenter.Verified.IniSetGet
import CallCenter.Verified.FinishedTasks
import CallCenter.Verified.UserGroups
import CallCenter.Verified.FixedBuffers
import CallCenter.Model.FreeswitchXml
import CallCenter.Verified.GatewayFiles
import CallCenter.Model.Settings
import CallCenter.Verified.IniLoading
import CallCenter.Verified.StartupSettings
import CallCenter.Verified.IniEdits
import CallCenter.Verified.IniContents
import CallCenter.Verified.IniIntegers
import CallCenter.Model.CodeHelper
import CallCenter.Verified.Utf8
import CallCenter.Verified.UrlEncoding
import CallCenter.Verified.IniProgress
import CallCenter.Model.EslBuffer
import CallCenter.Foundation.Framing
import CallCenter.Model.EslEvent
import CallCenter.Model.EslHandle
import CallCenter.Model.InboundLoop
import CallCenter.Verified.PacketBuffer
import CallCenter.Verified.EslReceiving
import CallCenter.Verified.EslChannel
import CallCenter.Verified.EslEvents
import CallCenter.Verified.InboundLoop
import CallCenter.Verified.EslHandshake
import CallCenter.Verified.EslTexts
import CallCenter.Verified.EslSerialization
import CallCenter.Verified.EslPackets
import CallCenter.Verified.SentEvents
import CallCenter.Verified.EventTurns
