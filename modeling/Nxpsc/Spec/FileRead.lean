import Nxpsc.Ref.Desfire
import Nxpsc.Spec.Checksum
import Nxpsc.Spec.Peer
import Nxpsc.Spec.Transcript

/-!
# A card that serves a read

What a card sends for the bytes of a file, in each session and mode, cut into
frames of any size, and how long it is altogether.
-/

namespace Nxpsc

/-- The session a card answers a command from: that of the handle behind the
request, and one command on where commands are counted. -/
def Card.answering (card : Card) : Card :=
  if card.authenticated = true ∧ (card.channel = .ev2 ∨ card.channel = .lrp)
  then { card with cmdCtr := card.cmdCtr + 1 }
  else card

/-- How many bytes the card sends for `n` bytes of a file. -/
def servedLength (card : Card) (mode : Mode) (n : Nat) : Nat :=
  match card.channel, mode with
  | .auto, _ => n
  | .d40, .mac => n + 4
  | .d40, .enc => paddedLen (n + 2) (blockLen card)
  | .d40, _ => n
  | .ev1, .enc => paddedLen (n + 4) (blockLen card)
  | .ev1, _ => n + 8
  | _, .plain => n
  | _, .enc => (n / aesBlock + 1) * aesBlock + 8
  | _, _ => n + 8

/-- The frames of an answer, however it is cut: 0xAF with every part but the
last. -/
inductive Framed (sw : Bool) : List Answer → Bytes → Prop where
  | last {a : Answer} : answerStatus sw a = some 0x00 →
      Framed sw [a] (answerData sw a)
  | more {a : Answer} {answers : List Answer} {data : Bytes} :
      answerStatus sw a = some dfSAdditionalFrame → Framed sw answers data →
      Framed sw (a :: answers) (answerData sw a ++ data)

section

variable [BlockCipher]

/-- What the card sends for the bytes of a file. Outside a session nothing is
added; on EV1 there is a MAC in the plain mode too. -/
def servedAnswer (card : Card) (mode : Mode) (data : Bytes) : Option Bytes :=
  match card.channel with
  | .auto => some data
  | .d40 =>
      if mode = .mac then
        some (data ++ (encSent card.keyType card.sessionMac.bytes zeroIv
          (answerPlain card data [])).2.take 4)
      else if mode = .enc then
        some (encSent card.keyType card.sessionEnc.bytes zeroIv
          (answerPlain card data (crc16 data))).1
      else some data
  | .ev1 =>
      if mode = .enc then
        some (encSent card.keyType card.sessionEnc.bytes card.iv.bytes
          (answerPlain card data (crc32 (data ++ [0x00])))).1
      else
        (cmac card.keyType card.sessionMac.bytes card.iv.bytes
          (data ++ [0x00]) 0).toOption.map fun mac => data ++ mac.take 8
  | .ev2 | .lrp =>
      if mode = .plain then some data
      else some (peerAnswers card.onLrp card.peer (mode == .enc) data).1

/-- The request of a read of files. -/
def readArgs (fileNo : UInt8) (offset length : UInt32) : Bytes :=
  fileNo :: (putU24 offset ++ putU24 length)

/-- The session the card answers a read from. -/
def readSession (fileNo : UInt8) (offset length : UInt32) (comm : CommMode)
    (card : Card) : Card :=
  let mode := eff card (modeFromPublic comm)
  (exchangeRequest (fileCmd card dfReadData dfReadData2)
    (readArgs fileNo offset length) mode mode card).2.answering

/-- The answers serve the read: put together they are what the card sends for
the bytes asked for. -/
def Serves (fileNo : UInt8) (offset length : UInt32) (comm : CommMode)
    (card : Card) (answers : List Answer) (data : Bytes) : Prop :=
  ∃ sealed, servedAnswer (readSession fileNo offset length comm card)
      (eff card (modeFromPublic comm)) data = some sealed ∧
    Framed card.wraps answers sealed

/-- The three modes a file is read in. -/
def FileMode (mode : Mode) : Prop :=
  mode = .plain ∨ mode = .mac ∨ mode = .enc

/-- The tables know the opcode, and the search comes to the checksum of the
data before any other. On EV1 an answer to an opcode without a header is taken
for a MACed one, so it would have to look like one. -/
def ReadChecks (card : Card) (mode : Mode) (data : Bytes) : Prop :=
  match card.channel, mode with
  | .d40, .mac => card.isoChaining = false
  | .d40, .enc =>
      FirstHit (answerPlain card data (crc16 data)) 0x00 2 data.length
  | .ev1, .enc =>
      if card.isoChaining then
        servedAnswer card .enc data = servedAnswer card .mac data
      else
        FirstHit (answerPlain card data (crc32 (data ++ [0x00]))) 0x00 4
          data.length
  | _, _ => True

/-- The session is not lost, the card's answer fits into the buffer, and the
decoder can tell the data from what goes with them. -/
structure ReadReturns (fileNo : UInt8) (offset length : UInt32)
    (comm : CommMode) (card : Card) (data : Bytes) : Prop where
  session : card.sessionLost = true → comm = .plain
  fits : servedLength card (eff card (modeFromPublic comm)) data.length ≤
    maxResponse
  checks : ReadChecks (readSession fileNo offset length comm card)
    (eff card (modeFromPublic comm)) data

end

/-- The frames of a card that serves `n + 1` bytes, one in each. -/
def byteFrames (n : Nat) : List Answer :=
  List.replicate n (.ok [0xAF, 0x00]) ++ [.ok [0x00, 0x00]]

end Nxpsc
