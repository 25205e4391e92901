import VcpMediaServer.Handover
import VcpMediaServer.SequentialDelivery
import VcpMediaServer.Amf0
import VcpMediaServer.Authority
import VcpMediaServer.RtmpConnection
import VcpMediaServer.RtmpAuthority
import VcpMediaServer.H264Ingest
import VcpMediaServer.AacFraming
import VcpMediaServer.RtspServerSession
import VcpMediaServer.RtspAuthority
import VcpMediaServer.WebrtcTrack
import VcpMediaServer.WebrtcSession
import VcpMediaServer.WebrtcAuthority
import VcpMediaServer.Pullers
import VcpMediaServer.Sources
import VcpMediaServer.SingleSource
import VcpMediaServer.ReaderProgress
import VcpMediaServer.WakeUp
import VcpMediaServer.GopEviction
import VcpMediaServer.GopAlignment
import VcpMediaServer.RingIndex
import VcpMediaServer.LiveDelivery
import VcpMediaServer.LiveDecodability
import VcpMediaServer.HubHandles
import VcpMediaServer.Incremental
import VcpMediaServer.RtmpChunk
import VcpMediaServer.ChunkReassembly
import VcpMediaServer.ChunkSize
import VcpMediaServer.RtmpHandshake
import VcpMediaServer.Amf0RoundTrip
import VcpMediaServer.ChunkWire
import VcpMediaServer.ChunkRoundTrip
import VcpMediaServer.ChunkTimestamps
import VcpMediaServer.VideoRelay
import VcpMediaServer.RtmpPanics
import VcpMediaServer.H264Collect
import VcpMediaServer.H264Assemble
import VcpMediaServer.H264RoundTrip
import VcpMediaServer.AccessUnitLoss
import VcpMediaServer.InterleavedRtcp
import VcpMediaServer.RtspPusher
import VcpMediaServer.InterleavedChannels
import VcpMediaServer.TsMuxer
import VcpMediaServer.TsPackets
import VcpMediaServer.TsTimestamps
import VcpMediaServer.TsContinuity
import VcpMediaServer.HlsTiming
import VcpMediaServer.M3u8
import VcpMediaServer.HlsSession
import VcpMediaServer.HlsSegments
import VcpMediaServer.HlsLoop
import VcpMediaServer.HlsCursor
import VcpMediaServer.IndependentSegments
import VcpMediaServer.HlsGaps
import VcpMediaServer.UdpReceivers
import VcpMediaServer.RtspFraming
import VcpMediaServer.Base64
import VcpMediaServer.Sdp
import VcpMediaServer.SdpParameterSets
import VcpMediaServer.HlsVideoTime
import VcpMediaServer.SlidingWindow
import VcpMediaServer.FlvPlayTimeline
import VcpMediaServer.RtpClockWrap
import VcpMediaServer.Flv
import VcpMediaServer.HttpFlv
import VcpMediaServer.MediaPaths
import VcpMediaServer.Record
import VcpMediaServer.RecordSegments
import VcpMediaServer.RecorderLifecycle
import VcpMediaServer.KeyframeSignaling
import VcpMediaServer.HlsLifecycle
import VcpMediaServer.RecvCoalesced
import VcpMediaServer.CoalescedLosses
import VcpMediaServer.WebrtcPlayStart
import VcpMediaServer.LiveEdge
import VcpMediaServer.MessageBoundaries
import VcpMediaServer.ChunkOverflow
import VcpMediaServer.CodecConfig
import VcpMediaServer.SdpTracks
import VcpMediaServer.TextBytes
import VcpMediaServer.RtspMessages
import VcpMediaServer.RtspReplies
import VcpMediaServer.RtspReplyPath
import VcpMediaServer.RtspPanics
import VcpMediaServer.ReadResponse
import VcpMediaServer.RtpHeader
import VcpMediaServer.AnnexBUnits
import VcpMediaServer.EgressUnits
import VcpMediaServer.KeyframeTests
import VcpMediaServer.DecoderConfig
import VcpMediaServer.PusherParameterSets
import VcpMediaServer.SegmentDiscontinuity
import VcpMediaServer.HlsAudioTime
import VcpMediaServer.AacAggregation
import VcpMediaServer.AnnouncedRate
import VcpMediaServer.AacRoundTrip
import VcpMediaServer.TimelineOverflow
import VcpMediaServer.IngestedFrames
import VcpMediaServer.TimestampDeltas
import VcpMediaServer.AvcSequenceHeader
import VcpMediaServer.FirstMatch
import VcpMediaServer.SdpPatch
import VcpMediaServer.AnalysisMetrics
import VcpMediaServer.Coalescing
import VcpMediaServer.History
import VcpMediaServer.MapScan
import VcpMediaServer.Receivers
import VcpMediaServer.ReceiverHistory
import VcpMediaServer.Amf0Returns
import VcpMediaServer.Chunked
import VcpMediaServer.PlayClocks
import VcpMediaServer.LivePlay
import VcpMediaServer.HttpFlvPlay
import VcpMediaServer.RtspRelay
import VcpMediaServer.RtmpRelay
import VcpMediaServer.RtmpDialogue
