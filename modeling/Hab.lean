import Hab.Library.Runs
import Hab.Library.Memory
import Hab.Library.Scan
import Hab.Library.Pool
import Hab.Library.Bytes
import Hab.Library.Unwinding
import Hab.Pipe
import Hab.PipeFifo
import Hab.PipeReads
import Hab.PipeBounds
import Hab.PipeResync
import Hab.PipeInterference
import Hab.Open
import Hab.OpenConfinement
import Hab.Export
import Hab.ImportRequest
import Hab.ExportCalls
import Hab.ExportInvariant
import Hab.ExportOwnership
import Hab.ExportSystem
import Hab.ExportLists
import Hab.ExportPinned
import Hab.Vchan
import Hab.Import
import Hab.ImportSystem
import Hab.ImportInvariant
import Hab.ImportSafety
import Hab.Vm
import Hab.VmSteps
import Hab.VmReferences
import Hab.VmHistory
import Hab.VmCalls
import Hab.CancelledOpens
import Hab.VmRequests
import Hab.VersionMismatch
import Hab.PendingOpens
import Hab.Link
import Hab.Handshake
import Hab.Sessions
import Hab.VmVchans
import Hab.VmReplies
import Hab.HalfOpen
import Hab.ExportLayout
import Hab.PagesList
import Hab.Compress
import Hab.ImportAck
import Hab.ExportAllOrNothing
import Hab.UserPages
import Hab.PagesRoundTrip
import Hab.BufferFault
import Hab.ExportLeak
import Hab.ImportPointers
import Hab.ImportAnswer
import Hab.ImportTrace
import Hab.ImportPlaces
import Hab.ImportProgress
import Hab.ImportQueue
import Hab.ImportResidue
import Hab.Frame
import Hab.Framing
import Hab.ExportAck
import Hab.MessageBuffers
import Hab.MessageLayouts
import Hab.VhostDelivery
import Hab.VirtioSend
import Hab.VirtioLayout
import Hab.VhostOwnership
import Hab.VchanCalls
import Hab.Reclaim
import Hab.VmLedger
import Hab.PchanBalance
import Hab.Locking
import Hab.LockDiscipline
import Hab.VchanThreads
import Hab.VchanLedger
import Hab.VchanLifetime
import Hab.Library.BitField
import Hab.HeaderCodec
import Hab.SocketQuery
import Hab.Library.Slab
import Hab.ScatterMessage
import Hab.Library.SearchTree
import Hab.ImportWarehouse
import Hab.Library.Registry
import Hab.VcidHandles
import Hab.HabDevices
import Hab.StaleClose
import Hab.Library.StatusLoop
import Hab.PchanGeneration
import Hab.Library.Cursor
import Hab.MemberLookups
import Hab.Library.SlotTable
import Hab.VhostTables
import Hab.VirtioProbe
import Hab.Library.Channel
import Hab.Library.Virtqueue
import Hab.Library.Writes
import Hab.ReceivedFrames
import Hab.VhostChannel
import Hab.VirtioReceive
import Hab.GuardBand
import Hab.VhostReceive
import Hab.Loopback
import Hab.DeviceTree
import Hab.ImportRelease
import Hab.Library.Simulation
import Hab.Wire
import Hab.Carrier
import Hab.Stack
import Hab.PromptSessions
import Hab.VirtioStack
