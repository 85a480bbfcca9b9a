import PacketProbe.FrameDecoderChunking
import PacketProbe.StreamDecoding
import PacketProbe.SeparatedTexts
import PacketProbe.StreamIsolation
import PacketProbe.StreamKeys
import PacketProbe.DecoderErrors
import PacketProbe.Json
import PacketProbe.InputParsing
import PacketProbe.CaptureSessions
import PacketProbe.EngineController
import PacketProbe.EngineRuns
import PacketProbe.CommandProtocol
import PacketProbe.StartHandshake
import PacketProbe.CallbackSlots
import PacketProbe.HandlerTeardown
import PacketProbe.MainWindow
import PacketProbe.WindowControls
import PacketProbe.ViewerSystem
import PacketProbe.ViewerAgreement
import PacketProbe.TcpServerSession
import PacketProbe.ServerBlocks
import PacketProbe.LatencyTracking
import PacketProbe.TaggedSplitting
import PacketProbe.FrameProvenance
import PacketProbe.FrameParents
import PacketProbe.SharedPipeline
import PacketProbe.SenderOrder
import PacketProbe.ConnectionWindow
import PacketProbe.ReportedState
import PacketProbe.WorkerSignals
import PacketProbe.StartProgress
import PacketProbe.CommandLine
import PacketProbe.ConfigRoundTrip
import PacketProbe.NumberTexts
import PacketProbe.NumericOptions
import PacketProbe.ConfigMembers
import PacketProbe.Utf8Decoding
import PacketProbe.JsonText
import PacketProbe.JsonRendering
import PacketProbe.JsonlLogLoader
import PacketProbe.LogFileLines
import PacketProbe.JsonlRecorder
import PacketProbe.LogRoundTrip
import PacketProbe.HexPayloads
import PacketProbe.LengthPrefixDecoding
import PacketProbe.DelimiterDecoding
import PacketProbe.EventLines
import PacketProbe.FifoPairing
import PacketProbe.LatencyPairing
import PacketProbe.TcpProxySession
import PacketProbe.ProxyRecording
import PacketProbe.ProxyHalfClose
import PacketProbe.ProxyStop
import PacketProbe.SendPanel
import PacketProbe.HexInputGrammars
import PacketProbe.TypedText
import PacketProbe.NumericConfig
import PacketProbe.DelimiterTexts
import PacketProbe.FileTrees
import PacketProbe.IpcSocketFiles
import PacketProbe.SenderSession
import PacketProbe.ModePosition
import PacketProbe.BoundedWindows
import PacketProbe.EventTable
import PacketProbe.LoadedTable
import PacketProbe.TableWindow
import PacketProbe.JsonDumps
import PacketProbe.Utf8Encoding
import PacketProbe.WireCommands
import PacketProbe.CaptureForm
import PacketProbe.ViewerConfig
import PacketProbe.ConfigExceptions
import PacketProbe.ConfiguredForm
import PacketProbe.FanOut
import PacketProbe.SinkOutlets
import PacketProbe.LiveEvents
import PacketProbe.TrafficDecoding
import PacketProbe.DirectSessions
import PacketProbe.ProxyDecoding
import PacketProbe.HexView
import PacketProbe.EventPanel
import PacketProbe.ViewerSettings
import PacketProbe.LiveSender
import PacketProbe.SendMacros
import PacketProbe.ConsoleLines
import PacketProbe.EngineHistory
import PacketProbe.ServerDecoding
