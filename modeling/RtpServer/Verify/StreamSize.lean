import RtpServer.Source.UscEvs
import Mathlib.Algebra.Order.Ring.Int

/-!
# The room for a stream

`GetOutStreamSize` reads the size of a coded frame from a table that misses the entry of
8000 bit/s: from that rate on it has the size of the next rate, and none for the last.
-/
namespace RtpServer.Verify.StreamSize

open RtpServer.Library RtpServer.Source.Usc RtpServer.Source.UscEvs

/-- The rates of the codec, by their index. -/
def rates : List Int :=
  [6600, 8850, 12650, 14250, 15850, 18250, 19850, 23050, 23850, 5900, 7200, 8000, 9600, 13200,
    16400, 24400, 32000, 48000, 64000, 96000, 128000]

/-- A frame of 20 ms takes a fiftieth of the rate, in whole octets. -/
def frameOctets (bitrate : Int) : Int := (bitrate / 50 + 7) / 8

/-- Each entry against the size of a frame. -/
theorem entries : ∀ bitrate ∈ rates,
    let size := getBitstreamSize (checkRateEvs bitrate)
    0 < frameOctets bitrate ∧ 0 ≤ size ∧ size ≤ 320 ∧
      (size = frameOctets bitrate ↔ checkRateEvs bitrate < 11) ∧
      (size = 0 ↔ bitrate = 128000) ∧ (bitrate ≠ 128000 → frameOctets bitrate ≤ size) := by
  decide

variable {options : UscEvsOption} {bitrate : Int} {k : Nat}

end RtpServer.Verify.StreamSize
