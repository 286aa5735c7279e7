import RtpServer.Library.StopAndWait
import RtpServer.Source.TypeDef

/-!
# The test client (`rtp_client.c`)

The loop of `main`: a line of the recording is read, its hexadecimal digits are sent as one
datagram, and the next turn begins once a datagram has come back. At the end of the file the
client goes on with the first line.
-/
namespace RtpServer.Source.RtpClient

open RtpServer.Library

/-- `sizeof(data_str)`. -/
def dataStrSize : Nat := 1500

def newline : Uint8 := 10

/-- The characters of a line, through the newline and no more than there is room for. -/
def lineOf : (room : Nat) → List Uint8 → List Uint8
  | 0, _ => []
  | _, [] => []
  | room + 1, c :: rest => if c = newline then [c] else c :: lineOf room rest

/-- `fgets`: the line and what is left of the file; nothing at the end of the file. -/
def fgets (size : Nat) (rest : List Uint8) : Option (List Uint8 × List Uint8) :=
  if rest = [] then none
  else some (lineOf (size - 1) rest, rest.drop (lineOf (size - 1) rest).length)

/-- The characters up to the null character. -/
def cString (memory : List Uint8) : List Uint8 := memory.takeWhile (· ≠ 0)

def isspace (c : Uint8) : Bool := c.toNat = 32 || (9 ≤ c.toNat && c.toNat ≤ 13)

def hexDigit (c : Uint8) : Option Nat :=
  if 48 ≤ c.toNat ∧ c.toNat ≤ 57 then some (c.toNat - 48)
  else if 97 ≤ c.toNat ∧ c.toNat ≤ 102 then some (c.toNat - 87)
  else if 65 ≤ c.toNat ∧ c.toNat ≤ 70 then some (c.toNat - 55)
  else none

/-- `sscanf(s, "%02x", &t)`: at most two characters after white space, the first of them
possibly a sign. -/
def sscanf02x (s : List Uint8) (t : Uint32) : Uint32 :=
  match s.dropWhile isspace with
  | [] => t
  | c :: rest =>
    let next := rest.head?.bind hexDigit
    if c = 43 then (next.map (BitVec.ofNat 32)).getD t
    else if c = 45 then (next.map fun digit => -BitVec.ofNat 32 digit).getD t
    else
      match hexDigit c, next with
      | none, _ => t
      | some high, some low => BitVec.ofNat 32 (16 * high + low)
      | some high, none =>
        -- the prefix of a number whose digits the width cuts off
        if c = 48 ∧ (rest.head? = some 120 ∨ rest.head? = some 88) then t
        else BitVec.ofNat 32 high

/-- The loop that fills `data_buf`. -/
def dataBuf (dataStr : List Uint8) : List Uint8 :=
  (List.range (dataStr.length / 2)).map fun i => (sscanf02x (dataStr.drop (i * 2)) 0).setWidth 8

/-- The string without its newline; of the empty string the code reads the character before
the array. -/
def chomp (dataStr : List Uint8) : Option (List Uint8) :=
  dataStr.getLast?.map fun c => if c = newline then dataStr.dropLast else dataStr

/-- The file, what is left to read of it, and the variables of the loop. -/
structure ClientState where
  file : List Uint8
  rest : List Uint8
  frameNumberMax : Int
  frameNumber : Int
  running : Bool
  deriving DecidableEq

/-- Before the first turn; the loop runs once whatever the bound is. -/
def ClientState.start (file : List Uint8) (frameNumberMax : Int) : ClientState :=
  ⟨file, file, frameNumberMax, 0, true⟩

/-- The next line, after the last one the first; `data_str` stays zero when there is none. -/
def readLine (st : ClientState) : List Uint8 × List Uint8 :=
  (fgets dataStrSize st.rest).getD ((fgets dataStrSize st.file).getD ([], []))

/-- From the top of the loop to `sendto`. -/
def compose (st : ClientState) : Option (List Uint8 × ClientState) :=
  if st.running then
    (chomp (cString (readLine st).1)).map fun dataStr =>
      (dataBuf dataStr, { st with rest := (readLine st).2 })
  else none

/-- From `recvfrom` to the bottom of the loop; the response is not looked at. -/
def nextTurn (st : ClientState) : ClientState :=
  { st with
    frameNumber := st.frameNumber + 1
    running := st.frameNumber + 1 < st.frameNumberMax }

/-- One turn is a request and the wait for its response. -/
def rtpClient : Requester ClientState (List Uint8) := ⟨compose, nextTurn⟩

end RtpServer.Source.RtpClient
