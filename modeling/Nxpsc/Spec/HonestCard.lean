import Nxpsc.Ref.Auth
import Nxpsc.Spec.Cmac
import Nxpsc.Spec.Device

/-!
# A card that follows the handshakes

The other side of the three pass authentications, from the data sheets: what
the card sends first, what it makes of the reader's token, and the session it
opens when the rotated RndB is right. The card holds its key as stored bytes
and knows nothing of the library's key type or of its handle.

`Shared` is what the two sides of a session must have in common.
-/

namespace Nxpsc

open Dialogue

/-! ## A session, seen from either side -/

structure Shared where
  sessionEnc : Bytes
  sessionMac : Bytes
  ti : Bytes
  cmdCtr : UInt16
  iv : Bytes
  deriving DecidableEq

/-- The handle's side. On LRP the IV holds the counter in its first bytes. -/
def Card.shared (card : Card) : Shared where
  sessionEnc := card.sessionEnc.bytes.take (keySize card.keyType)
  sessionMac := card.sessionMac.bytes.take (keySize card.keyType)
  ti := card.ti.bytes
  cmdCtr := card.cmdCtr
  iv := if card.channel = .lrp then card.iv.bytes.take 4 else card.iv.bytes

/-! ## Chaining over strings

Each direction of a chain can run on either primitive. What comes back is the
string and the last block on the air. -/

section

/-- Blocks of `bs` bytes sent with `f`. -/
def cbcSent (bs : Nat) (f : Bytes → Bytes) (iv data : Bytes) :
    Bytes × Bytes :=
  let done := Cbc.send f Bytes.xor (iv.take bs)
    (Bytes.chunks bs (data.length / bs) data)
  (done.1.flatten, done.2)

/-- Blocks of `bs` bytes received with `g`. -/
def cbcReceived (bs : Nat) (g : Bytes → Bytes) (iv data : Bytes) :
    Bytes × Bytes :=
  let done := Cbc.receive g Bytes.xor (iv.take bs)
    (Bytes.chunks bs (data.length / bs) data)
  (done.1.flatten, done.2)

variable [BlockCipher]

def encSent (type : KeyType) (key iv data : Bytes) : Bytes × Bytes :=
  cbcSent (blockSize type) (ecbEncryptBlock type key) iv data

def decSent (type : KeyType) (key iv data : Bytes) : Bytes × Bytes :=
  cbcSent (blockSize type) (ecbDecryptBlock type key) iv data

def encReceived (type : KeyType) (key iv data : Bytes) : Bytes × Bytes :=
  cbcReceived (blockSize type) (ecbEncryptBlock type key) iv data

def decReceived (type : KeyType) (key iv data : Bytes) : Bytes × Bytes :=
  cbcReceived (blockSize type) (ecbDecryptBlock type key) iv data

end

/-- The IV a chain starts from. -/
def zeroIv : Bytes := Bytes.zeros maxBlock

/-- What the card enciphers: payload, checksum, zeros to whole blocks. -/
def answerPlain (card : Card) (payload crc : Bytes) : Bytes :=
  Bytes.fit (paddedLen (payload.length + crc.length) (blockLen card))
    (payload ++ crc)

/-! ## Two passes -/

/-- What tells one handshake from another: the opening it answers, the first
answer, and what it makes of the token: the proof and the session, or nothing
when the token is wrong. -/
structure Handshake where
  opens : UInt8 → Bytes → Bool
  challenge : Bytes
  finish : Bytes → Option (Bytes × Shared)

inductive Phase where
  | ready
  | challenged
  | opened (session : Shared)
  | refused
  deriving DecidableEq

/-- `PICC_AUTHENTICATION_ERROR`. -/
def dfSAuthenticationError : UInt8 := 0xAE

def reply (status : UInt8) (data : Bytes) : Reply :=
  ⟨status, data.take replyMax, List.length_take_le _ _⟩

theorem reply_data {status : UInt8} {data : Bytes}
    (h : data.length ≤ replyMax) : (reply status data).data = data :=
  List.take_of_length_le h

def refusal : Reply × Phase := (reply dfSAuthenticationError [], .refused)

/-- It answers the opening and then the token, and nothing else: whatever
comes out of turn is refused. -/
def Handshake.device (h : Handshake) : Device Phase := fun p cmd data =>
  match p with
  | .ready =>
      if h.opens cmd data then
        (reply dfSAdditionalFrame h.challenge, .challenged)
      else refusal
  | .challenged =>
      if cmd = dfAdditionalFrame then
        match h.finish data with
        | some (proof, session) => (reply dfSOk proof, .opened session)
        | none => refusal
      else refusal
  | .opened _ | .refused => refusal

/-! ## Stored keys -/

/-- A byte of a DES key: seven bits of key, and under them a bit of the
version, whose highest one comes first. -/
def piccKeyByte (version : UInt8) (i : Nat) (b : UInt8) : UInt8 :=
  UInt8.ofNat (2 * (b.toNat / 2) + version.toNat / 2 ^ (7 - i % 8) % 2)

/-- A key as a card has it. A single DES key is two equal halves. -/
def piccKey (key : Key) : Bytes :=
  let given := key.data.bytes.take (keySize key.type)
  match key.type with
  | .aes128 | .aes256 => given
  | .k2k3des | .k3k3des => given.mapIdx (piccKeyByte key.version)
  | .des =>
      let half := given.mapIdx (piccKeyByte key.version)
      half ++ half

/-- The version of an AES key has a byte of its own. -/
def piccVersion (key : Key) : Bytes :=
  match key.type with
  | .aes128 | .aes256 => [key.version]
  | .des | .k2k3des | .k3k3des => []

/-- The two halves of a 2TDEA key are one DES key. -/
def Halves (key : Bytes) : Prop := key.take 8 = (key.drop 8).take 8

instance (key : Bytes) : Decidable (Halves key) :=
  inferInstanceAs (Decidable (_ = _))

/-- The 2TDEA key a card stores out of the data of ChangeKey. Unless the
session was opened with that key the new one comes mixed with the old one. -/
def piccStores (sameKey : Bool) (old data : Bytes) : Bytes :=
  let sent := (data.drop 1).take 16
  if sameKey then sent else Bytes.xor sent (old.take 16)

/-! ## Session keys -/

/-- Where the pieces of four bytes begin that a legacy session key is put
together from, in RndA as in RndB. -/
def pieceStarts : KeyType → List Nat
  | .des => [0]
  | .k2k3des => [0, 4]
  | .k3k3des => [0, 6, 12]
  | .aes128 | .aes256 => [0, 12]

/-- A piece of RndA and the same piece of RndB, and so on. -/
def rndPieces (type : KeyType) (rndA rndB : Bytes) : Bytes :=
  (pieceStarts type).flatMap fun i =>
    (rndA.drop i).take 4 ++ (rndB.drop i).take 4

/-- The session key of the legacy handshakes. The card tells a single DES key
from a 2TDEA key by comparing the two halves it has stored. -/
def piccLegacyKey (type : KeyType) (stored rndA rndB : Bytes) : Bytes :=
  if type = .k2k3des ∧ Halves stored then
    rndPieces .des rndA rndB ++ rndPieces .des rndA rndB
  else Bytes.fit (keySize type) (rndPieces type rndA rndB)

/-- The bytes `[hi..lo]` of a random number. The data sheets count from the
last byte, which has number 0. -/
def rndBytes (rnd : Bytes) (hi lo : Nat) : Bytes :=
  (rnd.drop (aesBlock - 1 - hi)).take (hi + 1 - lo)

/-- RndA[15..14] || (RndA[13..8] xor RndB[15..10]) || RndB[9..0] ||
RndA[7..0]. -/
def rndContext (rndA rndB : Bytes) : Bytes :=
  rndBytes rndA 15 14 ++
    Bytes.xor (rndBytes rndA 13 8) (rndBytes rndB 15 10) ++
    rndBytes rndB 9 0 ++ rndBytes rndA 7 0

/-- A key of 128 bits, the first there is. -/
def derivedBits : Bytes := [0x00, 0x01, 0x00, 0x80]

section

variable [BlockCipher]

/-- A session key of EV2: SV1 begins with 0xA55A and leads to the key that
enciphers, SV2 with 0x5AA5 and leads to the key for the MACs. -/
def piccEv2Key (label stored rndA rndB : Bytes) : Bytes :=
  nistCmac .aes128 stored (label ++ derivedBits ++ rndContext rndA rndB)

/-- The session key of LRP, whose vector ends in 0x9669. -/
def piccLrpKey (stored rndA rndB : Bytes) : Bytes :=
  nistLrpCmac stored (derivedBits ++ rndContext rndA rndB ++ [0x96, 0x69])

/-! ## D40 and EV1 -/

def piccLegacySession (type : KeyType) (stored rndA rndB : Bytes) :
    Shared where
  sessionEnc := piccLegacyKey type stored rndA rndB
  sessionMac := piccLegacyKey type stored rndA rndB
  ti := Bytes.zeros 4
  cmdCtr := 0
  iv := Bytes.zeros 16

/-- Authenticate, 0x0A. The card has the encrypt primitive only, and every
operation starts from a zero IV. -/
def d40Handshake (type : KeyType) (stored : Bytes) (keyNo : UInt8)
    (rndB : Bytes) : Handshake where
  opens cmd data := cmd == dfAuthenticate && data == [keyNo]
  challenge := (encSent type stored zeroIv rndB).1
  finish token :=
    let n := rndB.length
    let first := token.take n
    let rndA := (encReceived type stored zeroIv first).1
    let back :=
      Bytes.xor (encReceived type stored zeroIv (token.drop n)).1 first
    if token.length = n + n ∧ back = rol rndB then
      some ((encSent type stored zeroIv (rol rndA)).1,
        piccLegacySession type stored rndA rndB)
    else none

/-- AuthenticateISO, 0x1A, and AuthenticateAES, 0xAA: one chain runs through
RndB, the token and the proof. -/
def ev1Handshake (type : KeyType) (stored : Bytes) (keyNo : UInt8)
    (rndB : Bytes) : Handshake where
  opens cmd data :=
    cmd == (if type = .aes128 ∨ type = .aes256 then dfAuthenticateAes
      else dfAuthenticateIso) && data == [keyNo]
  challenge := (encSent type stored zeroIv rndB).1
  finish token :=
    let n := rndB.length
    let plain :=
      decReceived type stored (encSent type stored zeroIv rndB).2 token
    let rndA := plain.1.take n
    if token.length = n + n ∧ plain.1.drop n = rol rndB then
      some ((encSent type stored plain.2 (rol rndA)).1,
        piccLegacySession type stored rndA rndB)
    else none

/-! ## EV2 -/

/-- The session an EV2 handshake opens. -/
def piccEv2Session (stored rndA rndB ti : Bytes) (cmdCtr : UInt16) :
    Shared where
  sessionEnc := piccEv2Key [0xA5, 0x5A] stored rndA rndB
  sessionMac := piccEv2Key [0x5A, 0xA5] stored rndA rndB
  ti := ti
  cmdCtr := cmdCtr
  iv := Bytes.zeros 16

/-- RndA out of an EV2 token, when RndB came back rotated. -/
def ev2TokenRndA (stored rndB token : Bytes) : Option Bytes :=
  let plain := (decReceived .aes128 stored zeroIv token).1
  if token.length = aesBlock + aesBlock ∧
      plain.drop aesBlock = rol rndB then some (plain.take aesBlock)
  else none

/-- AuthenticateEV2First, 0x71: a TI of the card's choice and capabilities
come with the proof, and the counter starts at zero. -/
def ev2First (stored : Bytes) (keyNo : UInt8) (rndB ti caps : Bytes) :
    Handshake where
  opens cmd data := cmd == dfAuthenticateEv2f && data == [keyNo, 0x00]
  challenge := (encSent .aes128 stored zeroIv rndB).1
  finish token := do
    let rndA ← ev2TokenRndA stored rndB token
    return ((encSent .aes128 stored zeroIv (ti ++ rol rndA ++ caps)).1,
      piccEv2Session stored rndA rndB ti 0)

/-- RndA out of an LRP token, when the MAC over both random numbers is
right, and the session key. -/
def lrpTokenRndA (stored rndB token : Bytes) : Option (Bytes × Bytes) :=
  let rndA := token.take aesBlock
  let session := piccLrpKey stored rndA rndB
  if token.drop aesBlock = lrpCmac (lrpInit session 0 true) (rndA ++ rndB) then
    some (rndA, session)
  else none

/-- The counter of a fresh session. -/
def lrpZeroCounter : Bytes := Bytes.zeros 4

/-- A string enciphered under the updated key from a counter, and the counter
afterwards. -/
def lrpSent (session counter data : Bytes) : Bytes × Bytes :=
  let done := lrpBlocks (fun y b => ecbEncryptBlock .aes128 y b)
    (lrpSetCounter (lrpInit session 1 false) counter 8)
    (Bytes.chunks aesBlock (data.length / aesBlock) data)
  (done.1.flatten, done.2.counter.bytes.take 4)

/-- AuthenticateLRPFirst: RndB in clear behind the mode byte; the block with
the TI is the first under the session's counter. -/
def lrpFirst (stored : Bytes) (keyNo : UInt8) (rndB ti caps : Bytes) :
    Handshake where
  opens cmd data := cmd == dfAuthenticateEv2f && data == [keyNo, 0x01, 0x02]
  challenge := 0x01 :: rndB
  finish token := do
    let (rndA, session) ← lrpTokenRndA stored rndB token
    let sent := lrpSent session lrpZeroCounter (ti ++ caps)
    let mac := lrpCmac (lrpInit session 0 true) (rndB ++ rndA ++ sent.1)
    return (sent.1 ++ mac, ⟨session, session, ti, 0, sent.2⟩)

/-- The handshake a card follows on a channel that opens a session. No card
opens one on `auto`. -/
def firstHandshake (channel : Channel) (type : KeyType) (stored : Bytes)
    (keyNo : UInt8) (rndB ti caps : Bytes) : Handshake :=
  match channel with
  | .d40 => d40Handshake type stored keyNo rndB
  | .ev1 => ev1Handshake type stored keyNo rndB
  | .ev2 => ev2First stored keyNo rndB ti caps
  | .lrp => lrpFirst stored keyNo rndB ti caps
  | .auto => ⟨fun _ _ => false, [], fun _ => none⟩

end

/-- The key types a channel has an authentication for. -/
def Admissible (channel : Channel) (key : Key) : Prop :=
  channel = .ev2 ∨ channel = .lrp → key.type = .aes128

/-- The channel of `nxpsc_authenticate`. -/
def chosenChannel (card : Card) (key : Key) (channel : Channel) : Channel :=
  if channel = .auto then pickChannel card key else channel

/-- The length of the random numbers of a handshake. -/
def challengeLen (channel : Channel) (key : Key) : Nat :=
  if channel = .ev2 ∨ channel = .lrp then aesBlock else legacyRndLen key

/-- The key as the card holds it when it was stored as it is. -/
def Key.stored (key : Key) : Bytes := key.data.bytes.take (keySize key.type)

/-- Whatever the two sides do, the library returns `NXPSC_OK`, the card has
accepted its token, and both hold the same session. The run exists, and it is
the only one. -/
structure Agrees (h : Handshake) (m : Api Unit) (card : Card)
    (channel : Channel) : Prop where
  returns : ∃ said r card' p',
    Meets (h.device.party card.cmdset) m card .ready said r card' p'
  agrees : ∀ said r card' p',
    Meets (h.device.party card.cmdset) m card .ready said r card' p' →
      r = .ok () ∧ card'.authenticated = true ∧ card'.channel = channel ∧
        p' = .opened card'.shared

end Nxpsc
