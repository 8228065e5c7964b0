import OpenCAO.TransitionSystem
import OpenCAO.Transaction
import OpenCAO.Rows
import OpenCAO.UniqueRows
import OpenCAO.Epochs
import OpenCAO.Fifo
import OpenCAO.Spans
import OpenCAO.Utf8
import OpenCAO.JsonText
import OpenCAO.PythonText
import OpenCAO.Dispatcher
import OpenCAO.WakeRoutes
import OpenCAO.Callbacks
import OpenCAO.StateReads
import OpenCAO.WorkerOutput
import OpenCAO.OutputReview
import OpenCAO.Digest
import OpenCAO.Packets
import OpenCAO.Effects
import OpenCAO.EffectAuthority
import OpenCAO.WorkFile
import OpenCAO.Statements
import OpenCAO.Supervision
import OpenCAO.Commands
import OpenCAO.Recovery
import OpenCAO.ControlPlane
import OpenCAO.Writes
import OpenCAO.Programs
import OpenCAO.Files
import OpenCAO.History
import OpenCAO.OpenBoundary
import OpenCAO.Pairing
import OpenCAO.Assignments
import OpenCAO.Steady
import OpenCAO.Issues
import OpenCAO.Lanes
import OpenCAO.CommandLanes
import OpenCAO.RecipientOrder
import OpenCAO.Inboxes
import OpenCAO.Rearming
import OpenCAO.Handouts
import OpenCAO.LaneHeads
import OpenCAO.Pauses
import OpenCAO.KeyedCommands
import OpenCAO.CaptureStreams
import OpenCAO.CaptureDiscipline
import OpenCAO.Idempotence
import OpenCAO.Memories
import OpenCAO.MemoryHistory
import OpenCAO.MemoryImport
import OpenCAO.MemoryRehearsal
import OpenCAO.Launches
import OpenCAO.LaunchEpochs
import OpenCAO.Attachments
import OpenCAO.AttachmentEpochs
import OpenCAO.ThreadEpochs
import OpenCAO.PythonValue
import OpenCAO.Regex
import OpenCAO.Secrets
import OpenCAO.Base64
import OpenCAO.BreakerRuns
import OpenCAO.CapsuleFormat
import OpenCAO.CapsuleWrites
import OpenCAO.CleanupOnce
import OpenCAO.CredentialScans
import OpenCAO.CursorCodec
import OpenCAO.Listings
import OpenCAO.LowerCase
import OpenCAO.OriginForms
import OpenCAO.RuntimeMetadata
import OpenCAO.TextChunks
import OpenCAO.ReportTexts
import OpenCAO.Decisions
import OpenCAO.LogReplay
import OpenCAO.DashboardCursor
import OpenCAO.DashboardStream
import OpenCAO.DashboardReplay
import OpenCAO.DashboardProgress
import OpenCAO.JsonWriter
import OpenCAO.ServerSentEvents
import OpenCAO.SubscriptionRelay
import OpenCAO.LineStreams
import OpenCAO.WebSocketFrames
import OpenCAO.DesktopSocket
import OpenCAO.ClaudeOutput
import OpenCAO.ClaudeTurns
import OpenCAO.Sessions
import OpenCAO.AppServer
import OpenCAO.AppServerTalks
import OpenCAO.CodexDispatch
import OpenCAO.CodexTalks
import OpenCAO.CodexTurns
