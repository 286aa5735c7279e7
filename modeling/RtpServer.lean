import RtpServer.Verify.FilterLanes
import RtpServer.Verify.HandOver
import RtpServer.Verify.Parsing
import RtpServer.Verify.OutputStream
import RtpServer.Verify.FrameRates
import RtpServer.Verify.LifeCycle
import RtpServer.Verify.Packetisation
import RtpServer.Verify.ResamplerEffects
import RtpServer.Verify.CompactPacket
import RtpServer.Verify.AmrnbShuffle
import RtpServer.Verify.HeaderFields
import RtpServer.Verify.ByteOrder
import RtpServer.Verify.PacketRoom
import RtpServer.Verify.OpusToc
import RtpServer.Verify.GsmSid
import RtpServer.Verify.EncoderHeader
import RtpServer.Verify.ModeRequest
import RtpServer.Verify.ScratchGuards
import RtpServer.Verify.NameLookup
import RtpServer.Verify.ByteSwap
import RtpServer.Verify.Serialiser
import RtpServer.Verify.EvsWrapper
import RtpServer.Verify.EvsChannels
import RtpServer.Verify.EvsOpening
import RtpServer.Verify.EvsModules
import RtpServer.Verify.AudioSession
import RtpServer.Verify.AudioStream
import RtpServer.Verify.EvsLoopback
import RtpServer.Verify.SharedConverters
import RtpServer.Verify.Exchange
import RtpServer.Verify.RequestHistory
import RtpServer.Verify.StreamSize
