import LoraBridge.Camera.AviFile
import LoraBridge.Camera.AviHeader
import LoraBridge.Camera.CameraNode
import LoraBridge.Camera.Captures
import LoraBridge.Camera.MediaCard
import LoraBridge.Camera.PhotoList
import LoraBridge.Codec.Cipher
import LoraBridge.Codec.CmacConformance
import LoraBridge.Codec.CmacReads
import LoraBridge.Codec.DataMessages
import LoraBridge.Codec.DecoderBounds
import LoraBridge.Codec.ExtractorBounds
import LoraBridge.Codec.FieldEncodings
import LoraBridge.Codec.FieldWalk
import LoraBridge.Codec.GroupTexts
import LoraBridge.Codec.LoRaWANCrypto
import LoraBridge.Codec.MacChecks
import LoraBridge.Codec.Memory
import LoraBridge.Codec.MeshCoreDecoder
import LoraBridge.Codec.MeshEncoder
import LoraBridge.Codec.MeshtasticDecoder
import LoraBridge.Codec.Protobuf
import LoraBridge.Codec.Protocol
import LoraBridge.Codec.Relay
import LoraBridge.Codec.RoundTrips
import LoraBridge.Codec.WalkProgress
import LoraBridge.Config.BridgeConfig
import LoraBridge.Config.ChannelKeys
import LoraBridge.Config.Migration
import LoraBridge.Control.Acknowledgements
import LoraBridge.Control.Actuation
import LoraBridge.Control.AtMostOnce
import LoraBridge.Control.Beacons
import LoraBridge.Control.C2Network
import LoraBridge.Control.CamC2
import LoraBridge.Control.CamC2Codec
import LoraBridge.Control.CamC2Config
import LoraBridge.Control.CamC2Send
import LoraBridge.Control.CommandTrip
import LoraBridge.Control.CounterTasks
import LoraBridge.Control.CutCalls
import LoraBridge.Control.FloorTasks
import LoraBridge.Control.MessageRing
import LoraBridge.Control.PeerEdits
import LoraBridge.Control.PeerPortal
import LoraBridge.Control.PeerRejection
import LoraBridge.Control.Station
import LoraBridge.Control.TxSequence
import LoraBridge.Core.Base64
import LoraBridge.Core.Base64Coder
import LoraBridge.Core.Base64Decode
import LoraBridge.Core.Buffer
import LoraBridge.Core.CharArray
import LoraBridge.Core.Deframer
import LoraBridge.Core.Interleaving
import LoraBridge.Core.Machine
import LoraBridge.Core.Parallel
import LoraBridge.Core.Print
import LoraBridge.Core.Program
import LoraBridge.Core.ReserveAhead
import LoraBridge.Core.Rfc4493
import LoraBridge.Core.Riff
import LoraBridge.Core.Ring
import LoraBridge.Core.SharedCounter
import LoraBridge.Core.SlotEdits
import LoraBridge.Core.TopEntries
import LoraBridge.Core.WhileLoop
import LoraBridge.Core.WrapClock
import LoraBridge.Counter.AbpUplinks
import LoraBridge.Counter.FcntAliasing
import LoraBridge.Counter.FrameCounters
import LoraBridge.Counter.LoRaWANConfig
import LoraBridge.Dispatch.Advertising
import LoraBridge.Dispatch.Branches
import LoraBridge.Dispatch.Bridge
import LoraBridge.Dispatch.Confinement
import LoraBridge.Dispatch.DecodedKeys
import LoraBridge.Dispatch.DedupCache
import LoraBridge.Dispatch.DedupHistory
import LoraBridge.Dispatch.DedupTasks
import LoraBridge.Dispatch.DedupWindow
import LoraBridge.Dispatch.Echoes
import LoraBridge.Dispatch.Emissions
import LoraBridge.Dispatch.EncodedTexts
import LoraBridge.Dispatch.Enqueue
import LoraBridge.Dispatch.FragmentDelivery
import LoraBridge.Dispatch.Fragments
import LoraBridge.Dispatch.Ingest
import LoraBridge.Dispatch.NodeDB
import LoraBridge.Dispatch.NodeEviction
import LoraBridge.Dispatch.NodeHistory
import LoraBridge.Dispatch.NodeMap
import LoraBridge.Dispatch.RawRepeats
import LoraBridge.Dispatch.SenderNames
import LoraBridge.Dispatch.Sends
import LoraBridge.Dispatch.TextDelivery
import LoraBridge.Dispatch.VirtualNodeIds
import LoraBridge.Dispatch.VirtualNodeMap
import LoraBridge.Link.ByteWire
import LoraBridge.Link.Coprocessor
import LoraBridge.Link.FrameParser
import LoraBridge.Link.Framing
import LoraBridge.Link.Healing
import LoraBridge.Link.LinkProtocol
import LoraBridge.Link.RemoteLink
import LoraBridge.Link.RemotePackets
import LoraBridge.Link.SelfHeal
import LoraBridge.Link.TxAnswers
import LoraBridge.Link.TxGate
import LoraBridge.Link.Unconfigured
import LoraBridge.Portal.Authorisation
import LoraBridge.Portal.CamPortal
import LoraBridge.Portal.CamPortalConfig
import LoraBridge.Portal.CamSessions
import LoraBridge.Portal.ChannelStorage
import LoraBridge.Portal.ConfigForm
import LoraBridge.Portal.ConfigRejection
import LoraBridge.Portal.Credentials
import LoraBridge.Portal.DeviceRoundTrip
import LoraBridge.Portal.DeviceUse
import LoraBridge.Portal.FormFields
import LoraBridge.Portal.FormPrint
import LoraBridge.Portal.FormText
import LoraBridge.Portal.LoRaWANDevices
import LoraBridge.Portal.RadioForm
import LoraBridge.Portal.RadioRanges
import LoraBridge.Portal.SelfBridge
import LoraBridge.Radio.DutyCycle
import LoraBridge.Radio.QueueAccounting
import LoraBridge.Radio.RadioTask
import LoraBridge.Radio.RouteQueue
import LoraBridge.Radio.TxDeadlines
import LoraBridge.System.BridgeSystem
import LoraBridge.System.Feeds
import LoraBridge.System.Transmissions
import LoraBridge.Tools.CamC2Tool
import LoraBridge.Tools.ChirpstackCodec
import LoraBridge.Tools.LwVerify
import LoraBridge.Tools.PythonCrypto
import LoraBridge.Tools.UplinkEndToEnd
