import LoongNvr.Support.Runs
import LoongNvr.Support.Buffer
import LoongNvr.Support.Sorter
import LoongNvr.Support.Table
import LoongNvr.Support.Json
import LoongNvr.Core.Types
import LoongNvr.Rules.Types
import LoongNvr.Rules.IouTracker
import LoongNvr.Rules.TrackLifetime
import LoongNvr.Rules.Evaluators
import LoongNvr.Rules.RuleStore
import LoongNvr.Rules.RuleEngine
import LoongNvr.Rules.ReloadRace
import LoongNvr.Rules.FrameRuns
import LoongNvr.Rules.Schedule
import LoongNvr.Network.WebSocketFrame
import LoongNvr.Support.Tensor
import LoongNvr.AiEngine.YoloAdapter
import LoongNvr.AiEngine.InferenceEngine
import LoongNvr.AiEngine.ModelManager
import LoongNvr.AiEngine.ModelCascade
import LoongNvr.AiEngine.ClassFilter
import LoongNvr.Support.Line
import LoongNvr.Core.StageQueue
import LoongNvr.VideoInput.RtspClient
import LoongNvr.Codec.FFmpegDecoder
import LoongNvr.Rules.RuleStage
import LoongNvr.Pipeline.AiStage
import LoongNvr.Pipeline.Stages
import LoongNvr.Pipeline.Orchestrator
import LoongNvr.Pipeline.FrameFlow
import LoongNvr.Pipeline.ChannelKept
import LoongNvr.Pipeline.RuleTimes
import LoongNvr.Support.AnnexB
import LoongNvr.Network.NalUnit
import LoongNvr.Network.FlvMuxer
import LoongNvr.Support.Bmff
import LoongNvr.Network.Fmp4Muxer
import LoongNvr.Network.MediaSegment
import LoongNvr.Network.RtpPacketizer
import LoongNvr.Support.TransportStream
import LoongNvr.Network.TsMuxer
import LoongNvr.Network.TsDemux
import LoongNvr.Network.RtpReceiver
import LoongNvr.Network.Scanners
import LoongNvr.Network.ParameterSets
import LoongNvr.Network.HttpFlvService
import LoongNvr.Support.Headed
import LoongNvr.Support.Gop
import LoongNvr.Network.ViewerQueue
import LoongNvr.Network.SequenceHeader
import LoongNvr.Network.WsMediaService
import LoongNvr.Network.InitSegment
import LoongNvr.Network.GopDelivery
import LoongNvr.Storage.Playback
import LoongNvr.Storage.PlaybackSafety
import LoongNvr.Support.Program
import LoongNvr.Channel.ChannelManager
import LoongNvr.Channel.Actions
import LoongNvr.Channel.RegisteredRunning
import LoongNvr.Channel.Orphans
import LoongNvr.Auth.UserStore
import LoongNvr.Network.LoginLockout
import LoongNvr.Support.Base64
import LoongNvr.Auth.JwtHelper
import LoongNvr.Auth.AuthMiddleware
import LoongNvr.Network.StoredRole
import LoongNvr.Storage.RecordIndex
import LoongNvr.Storage.Recorder
import LoongNvr.Storage.SegmentSizes
import LoongNvr.Support.Batches
import LoongNvr.Storage.StorageCleaner
import LoongNvr.Alarm.AlarmManager
import LoongNvr.Alarm.AlarmSpacing
import LoongNvr.Channel.EditCapacity
import LoongNvr.Support.Keyed
import LoongNvr.Channel.ChannelStore
import LoongNvr.Channel.StoreMirror
import LoongNvr.Channel.Persistence
import LoongNvr.Channel.Restart
import LoongNvr.Support.Spans
import LoongNvr.Analytics.AnalyticsStore
import LoongNvr.Analytics.CountedOnce
import LoongNvr.Storage.SegmentFiles
import LoongNvr.Storage.SegmentCalls
import LoongNvr.Channel.Calls
import LoongNvr.Network.H265Receiver
import LoongNvr.Network.HlsService
import LoongNvr.Network.HlsSegments
import LoongNvr.Network.RtspServer
import LoongNvr.Network.RtspKeyframes
import LoongNvr.Support.Framing
import LoongNvr.Network.WebSocketServer
import LoongNvr.Network.WebSocketStream
import LoongNvr.Core.EventBus
import LoongNvr.Alarm.AlarmBus
import LoongNvr.Pipeline.AsyncInference
import LoongNvr.Support.Countdown
import LoongNvr.Pipeline.AiBatch
import LoongNvr.Channel.StagedPipeline
import LoongNvr.Channel.PipelineRestart
import LoongNvr.Rules.RuleIsolation
import LoongNvr.Rules.SkippedFrames
import LoongNvr.Network.TopicSubscriptions
import LoongNvr.Network.ViewerStream
import LoongNvr.Storage.WriteFailures
import LoongNvr.Storage.IndexCalls
import LoongNvr.Storage.IndexedFiles
import LoongNvr.Support.Decimal
import LoongNvr.Storage.SegmentPaths
import LoongNvr.Storage.Retention
import LoongNvr.Support.Custody
import LoongNvr.Network.WebRtcService
import LoongNvr.Network.SessionCap
import LoongNvr.Network.Sessions
import LoongNvr.Support.Document
import LoongNvr.Core.HotReloadManager
import LoongNvr.Core.SectionHandlers
import LoongNvr.Auth.TokenLifetime
import LoongNvr.Network.RateLimit
import LoongNvr.Support.Window
import LoongNvr.Storage.CloudBackup
import LoongNvr.Support.Emitted
import LoongNvr.Codec.FFmpegEncoder
import LoongNvr.Pipeline.OutputEncoder
import LoongNvr.Support.DecoderRecord
import LoongNvr.Network.FlvTags
import LoongNvr.Support.Mail
import LoongNvr.Notification.EmailWhole
import LoongNvr.Support.JsonLexer
import LoongNvr.Channel.ParamsText
import LoongNvr.Channel.ParamsSurvive
import LoongNvr.Notification.EventPayload
import LoongNvr.Network.InitBoxes
import LoongNvr.Analytics.AnalyticsViews
import LoongNvr.AiEngine.GpuBudget
import LoongNvr.AiEngine.EnforcedRate
import LoongNvr.VideoInput.Reconnect
import LoongNvr.Channel.InferredPicture
import LoongNvr.Channel.OutputParams
import LoongNvr.Channel.DeclaredCodec
import LoongNvr.Core.PipelineStop
import LoongNvr.Core.DrainedFrames
import LoongNvr.Channel.StartedOnce
import LoongNvr.Support.CondVar
import LoongNvr.Pipeline.InferShutdown
import LoongNvr.AiEngine.ModelSwitch
import LoongNvr.Storage.WholeRecording
import LoongNvr.Pipeline.DecodableFrames
import LoongNvr.Support.PosixPath
import LoongNvr.Network.FileEndpoints
import LoongNvr.AiEngine.LprOcrAdapter
import LoongNvr.Pipeline.RecognisedPlates
import LoongNvr.Network.RuleHandlers
import LoongNvr.Network.SettingsHandlers
import LoongNvr.Network.SettingsReadBack
import LoongNvr.Network.UserHandlers
import LoongNvr.Network.RefusedRequests
import LoongNvr.Support.Exposition
import LoongNvr.Network.MetricsPage
import LoongNvr.Channel.ChannelMonitor
import LoongNvr.Channel.RecoveryNeeded
import LoongNvr.Analytics.LiveCounting
import LoongNvr.Support.Greedy
import LoongNvr.AiEngine.Suppression
import LoongNvr.Rules.StableMatching
import LoongNvr.Core.FrameCustody
import LoongNvr.AiEngine.LetterboxGeometry
import LoongNvr.AiEngine.CropGeometry
import LoongNvr.Support.Visits
import LoongNvr.Rules.RuleSpacing
import LoongNvr.Rules.TrackLife
import LoongNvr.Rules.TrackVisits
import LoongNvr.Rules.SideChanges
import LoongNvr.Rules.LineAgreement
import LoongNvr.Rules.StayAlerts
import LoongNvr.Rules.LoiteringRefines
import LoongNvr.Support.Guarded
import LoongNvr.AiEngine.ManagerLocks
import LoongNvr.Overlay.Trails
import LoongNvr.Overlay.ChannelCompositor
import LoongNvr.Pipeline.PlateStore
import LoongNvr.Rules.PointInPolygon
import LoongNvr.Core.FrameBufferPool
import LoongNvr.Network.ApiRoutes
