import Nxpsc.Lib.Padding
import Nxpsc.Spec.HonestCard

/-!
# The other end of an EV2 or LRP session

What a card makes of a request, and how it makes an answer, from the data
sheets: the frame ends in eight bytes of MAC over the command, the counter,
the TI and everything in front of them; behind a header whose length goes with
the command the rest is padded and enciphered. The card shares the session of
`Shared`, and nothing else, with the handle; on LRP the IV of a session is its
counter.
-/

namespace Nxpsc

/-- The session an EV2 or LRP handle shares: AES keys, and the counter of
LRP. -/
def Card.peer (card : Card) : Shared where
  sessionEnc := card.sessionEnc.bytes.take aesBlock
  sessionMac := card.sessionMac.bytes.take aesBlock
  ti := card.ti.bytes
  cmdCtr := card.cmdCtr
  iv := card.iv.bytes.take 4

def Card.onLrp (card : Card) : Bool := card.channel == .lrp

section

variable [BlockCipher]

/-- Eight bytes of MAC over the command, the session and a frame body. -/
def peerMac (lrp : Bool) (s : Shared) (cmd : UInt8) (body : Bytes) : Bytes :=
  let input := cmd :: (putU16 s.cmdCtr ++ s.ti ++ body)
  if lrp then cardLrpMac s.sessionMac input
  else cardMac s.sessionMac input

/-- The IV of one direction on EV2. -/
def peerIv (s : Shared) (label : Bytes) : Bytes :=
  ecbEncryptBlock .aes128 s.sessionEnc
    (Bytes.fit aesBlock (label ++ s.ti ++ putU16 s.cmdCtr))

def requestLabel : Bytes := [0xA5, 0x5A]
def answerLabel : Bytes := [0x5A, 0xA5]

/-- A string deciphered under the updated key from a counter, and the counter
afterwards. -/
def lrpReceived (session counter data : Bytes) : Bytes × Bytes :=
  let done := lrpBlocks (fun y b => ecbDecryptBlock .aes128 y b)
    (lrpSetCounter (lrpInit session 1 false) counter 8)
    (Bytes.chunks aesBlock (data.length / aesBlock) data)
  (done.1.flatten, done.2.counter.bytes.take 4)

/-- Blocks for the other side, and the session afterwards. -/
def peerEnciphers (lrp : Bool) (s : Shared) (label data : Bytes) :
    Bytes × Shared :=
  if lrp then
    let sent := lrpSent s.sessionEnc s.iv data
    (sent.1, { s with iv := sent.2 })
  else ((encSent .aes128 s.sessionEnc (peerIv s label) data).1, s)

/-- Blocks from the other side. -/
def peerDeciphers (lrp : Bool) (s : Shared) (label data : Bytes) :
    Bytes × Shared :=
  if lrp then
    let received := lrpReceived s.sessionEnc s.iv data
    (received.1, { s with iv := received.2 })
  else ((decReceived .aes128 s.sessionEnc (peerIv s label) data).1, s)

/-- What the card takes out of a request, when its MAC is right. How long the
header in the clear is it has from the table of the library. -/
def peerReads (lrp : Bool) (s : Shared) (enciphered : Bool) (cmd : UInt8)
    (frame : Bytes) : Option (Bytes × Shared) :=
  let body := frame.take (frame.length - 8)
  let hdr := cmdHeaderLen cmd body.length
  if frame.length < 8 ∨
      peerMac lrp s cmd body ≠ frame.drop (frame.length - 8) then none
  else if enciphered = false ∨ body.length ≤ hdr then some (body, s)
  else
    let plain := peerDeciphers lrp s requestLabel (body.drop hdr)
    (Bytes.unpad plain.1).map fun data => (body.take hdr ++ data, plain.2)

/-- The answer of the card that carries `data`. -/
def peerAnswers (lrp : Bool) (s : Shared) (enciphered : Bool)
    (data : Bytes) : Bytes × Shared :=
  let sent := if enciphered then
      peerEnciphers lrp s answerLabel (Bytes.pad aesBlock data)
    else (data, s)
  (sent.1 ++ peerMac lrp s 0x00 sent.1, sent.2)

end

/-- The length of the frame `nxpsc_channel_encode` makes of a payload. -/
def securedLen (cmd : UInt8) (src : Bytes) (enciphered : Bool) : Nat :=
  let hdr := cmdHeaderLen cmd src.length
  if enciphered = true ∧ hdr < src.length then
    hdr + (Bytes.pad aesBlock (src.drop hdr)).length + 8
  else src.length + 8

end Nxpsc
