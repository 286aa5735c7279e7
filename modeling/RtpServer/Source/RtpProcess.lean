import RtpServer.Library.Machine
import RtpServer.Source.EvsIngress
import RtpServer.Source.RtpHeader

/-!
# Packet processing and the server loop (`rtp_process.c`, `rtp_server.c`)

`rtp_process` over any transcoder with the interface of `evs_ingress_process`, and one
turn of the loop of `rtp_server`: a datagram received, processed and answered.
-/
namespace RtpServer.Source.RtpProcess

open RtpServer.Library RtpServer.Source.RtpHeader RtpServer.Source.EvsIngress
open RtpServer.Source.Usc RtpServer.Source.SampleRate

/-- A transcoder with the interface of `evs_ingress_process`: from its state, the memory at
the payload pointer, the payload length, the memory at the output pointer and the length
variable, to the new state, output memory and length. -/
structure Transcoder (τ : Type) where
  process : τ → List Uint8 → Nat → List Uint8 → Nat → τ × List Uint8 × Nat

def evsTranscoder {σ : Type} (fxns : UscFxns σ) (allocated : Buffer Sint16 delayBufDownSize16) :
    Transcoder (IngressState σ) where
  process st payload payloadLen payloadOut lenOut8 :=
    let r := evsIngressProcess fxns allocated st payload payloadLen payloadOut lenOut8
    (r.state, r.bufOut, r.lenOut8)

/-- The two statics of `rtp_process.c`. -/
structure RtpCounters where
  sSequenceNumber : Uint32 := 1
  sTimestamp : Uint32 := 10000
  deriving DecidableEq

structure RtpResult (τ : Type) where
  ret : Int
  counters : RtpCounters
  transcoder : τ
  buff : List Uint8
  bufOut : List Uint8
  lenOut8 : Nat

/-- The request's own header gets the server's numbers before it is copied to the response. -/
def stampRequest (counters : RtpCounters) (buff : List Uint8) : List Uint8 :=
  lRtpSetField (lRtpSetField buff .rtpUncompressed .seqNumber counters.sSequenceNumber)
    .rtpUncompressed .timestamp counters.sTimestamp

/-- After every accepted packet. The timestamp goes up by 20 where a frame has 160 samples. -/
def RtpCounters.advance (counters : RtpCounters) : RtpCounters :=
  ⟨counters.sSequenceNumber + 1, counters.sTimestamp + 20⟩

/-- `rtp_process`: the request is stamped, its payload transcoded behind the room for a header, and
the header copied to the response with SSRC and payload type changed. Only a request shorter than a
header is refused. -/
def rtpProcess {τ : Type} (transcoder : Transcoder τ) (counters : RtpCounters) (st : τ)
    (buff : List Uint8) (len : Nat) (bufOut : List Uint8) (lenOut8 : Nat) : RtpResult τ :=
  let size8 := lRtpGetHeaderSize8 .rtpUncompressed
  if len < size8 then ⟨-1, counters, st, buff, bufOut, lenOut8⟩
  else
    let buff := stampRequest counters buff
    let (st, payloadOut, lenOut8) :=
      transcoder.process st (buff.drop size8) (len - size8) (bufOut.drop size8) lenOut8
    let bufOut := bufOut.take size8 ++ payloadOut
    let bufOut := Buffer.blit bufOut 0 (buff.take size8)
    -- `len_out_8 += size8` moves the local pointer, not the length behind it
    let bufOut := lRtpIncrementField bufOut .rtpUncompressed .ssrc 1
    let bufOut := lRtpSetField bufOut .rtpUncompressed .payloadType 8
    ⟨0, counters.advance, st, buff, bufOut, lenOut8⟩

def requestBuffSize : Nat := 1500

/-- `recvfrom` into the zeroed `request->buff`. -/
def receive (datagram : List Uint8) : List Uint8 :=
  Buffer.blit (List.replicate requestBuffSize 0) 0 (datagram.take requestBuffSize)

/-- What the server keeps between datagrams, for all its clients together. -/
structure ServerState (τ : Type) where
  counters : RtpCounters
  transcoder : τ

/-- One call of `rtp_process` on the two zeroed buffers of a turn. -/
def serve {τ : Type} (transcoder : Transcoder τ) (st : ServerState τ) (datagram : List Uint8) :
    RtpResult τ :=
  rtpProcess transcoder st.counters st.transcoder (receive datagram)
    (min datagram.length requestBuffSize) (List.replicate requestBuffSize 0) 0

/-- `rtp_server`: each datagram is answered with the first `size_out_8` octets of `buf_out`,
to the address it came from and without regard to the value `rtp_process` returns. -/
def rtpServer {τ : Type} (transcoder : Transcoder τ) :
    Machine (ServerState τ) (List Uint8) (List Uint8) where
  step st datagram :=
    let r := serve transcoder st datagram
    (⟨r.counters, r.transcoder⟩, r.bufOut.take r.lenOut8)

def ServerState.initial {τ : Type} (st : τ) : ServerState τ := ⟨{}, st⟩

end RtpServer.Source.RtpProcess
