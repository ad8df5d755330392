import Nxpsc.Spec.HonestCard
import Nxpsc.Spec.Peer

/-!
# The card's side of ChangeKey

What a card that shares the session makes of the request: it deciphers what
follows the key number, takes off its old key where the number is not the
session's, and checks the sums that its secure channel asks for. It knows the
type of the key it is given, and with it how long key and version are.
-/

namespace Nxpsc

section

variable [BlockCipher]

/-- The request in the clear. D40 has only its encryption to decipher with. -/
def piccReads (card : Card) (frame : Bytes) : Option Bytes :=
  match card.channel with
  | .d40 => some (frame.take 1 ++ (encReceived card.keyType
      card.sessionEnc.bytes zeroIv (frame.drop 1)).1)
  | .ev1 => some (frame.take 1 ++ (decReceived card.keyType
      card.sessionEnc.bytes card.iv.bytes (frame.drop 1)).1)
  | .ev2 | .lrp =>
      (peerReads card.onLrp card.peer true dfChangeKey frame).map Prod.fst
  | .auto => none

end

/-- The bytes a key of this type takes in the request. -/
def piccKeyLen (type : KeyType) : Nat :=
  if type = .des then 16 else keySize type

/-- The bytes of its version. -/
def piccVersionLen (type : KeyType) : Nat :=
  if type = .aes128 ∨ type = .aes256 then 1 else 0

/-- The transmitted number, its low six bits, is not the session's. -/
def piccOther (card : Card) (msg : Bytes) : Bool :=
  decide (msg.headD 0 &&& 0x3F ≠ card.keyNo)

/-- The new key: the transmitted one, with the old key taken off. -/
def piccNewKey (card : Card) (held : Bytes) (type : KeyType) (msg : Bytes) :
    Bytes :=
  let sent := (msg.drop 1).take (piccKeyLen type)
  if piccOther card msg then Bytes.xor sent (Bytes.fit (piccKeyLen type) held)
  else sent

/-- The sum over what is transmitted. -/
def payloadSum (card : Card) (head : UInt8) (payload : Bytes) : Bytes :=
  match card.channel with
  | .d40 => crc16 payload
  | .ev1 => crc32 (dfChangeKey :: head :: payload)
  | .ev2 | .lrp | .auto => []

/-- The sum over the new key. -/
def newKeySum (card : Card) (key : Bytes) : Bytes :=
  if card.channel = .d40 then crc16 key else crc32 key

/-- The card has the new key and its version, and every sum is right. -/
structure KeyTaken (card : Card) (held new : Key) (msg : Bytes) : Prop where
  key : piccNewKey card (piccKey held) new.type msg = piccKey new
  version : ((msg.drop 1).drop (piccKeyLen new.type)).take
    (piccVersionLen new.type) = piccVersion new
  payload :
    let n := piccKeyLen new.type + piccVersionLen new.type
    let sum := payloadSum card (msg.headD 0) ((msg.drop 1).take n)
    ((msg.drop 1).drop n).take sum.length = sum
  other : piccOther card msg = true →
    let n := piccKeyLen new.type + piccVersionLen new.type
    let first := payloadSum card (msg.headD 0) ((msg.drop 1).take n)
    let sum := newKeySum card
      (piccNewKey card (piccKey held) new.type msg)
    ((msg.drop 1).drop (n + first.length)).take sum.length = sum

/-- What pads a request of `n` bytes: zeros to the block, on the channels that
leave padding to the reader. -/
def requestPadding (card : Card) (n : Nat) : Bytes :=
  match card.channel with
  | .d40 | .ev1 => Bytes.zeros (paddedLen n (blockLen card) - n)
  | .ev2 | .lrp | .auto => []

/-- The library and the card agree on whether the session's own key is
changed: the one looks at the whole number, the other at its low six bits. -/
def SameReading (card : Card) (keyNo : UInt8) : Prop :=
  keyNo = card.keyNo ↔ keyNo &&& 0x3F = card.keyNo

/-- They do not, and nothing comes of it: the old key is all zeros as far as
the new one reaches, and a sum that was never sent is found in the padding. -/
def ReadingHarmless (card : Card) (keyNo : UInt8) (held new : Key) : Prop :=
  Bytes.fit (piccKeyLen new.type) (piccKey held) =
      Bytes.zeros (piccKeyLen new.type) ∧
    (keyNo = card.keyNo →
      let sum := newKeySum card (piccKey new)
      (requestPadding card (piccKeyLen new.type + piccVersionLen new.type +
        (payloadSum card 0 []).length)).take sum.length = sum)

/-! ## The key in the data of a command -/

/-- The key in the data of ChangeKey when it is the session's own. -/
def writtenKey (type : KeyType) (data : Bytes) : Bytes :=
  (data.drop 1).take (piccKeyLen type)

/-- The version behind it, where the type has one there. -/
def writtenVersion (type : KeyType) (data : Bytes) : Bytes :=
  ((data.drop 1).drop (piccKeyLen type)).take (piccVersionLen type)

/-- Option 0x01 of SetConfiguration gives the card the key that ChangeKey
writes: 24 bytes, with zeros behind a shorter key, and the version. -/
structure SameKeyForm (key : Key) (config change : Bytes) : Prop where
  option : config.headD 0 = 0x01
  field : (config.drop 1).take 24 =
    Bytes.fit 24 (writtenKey key.type change)
  version : config.drop 25 = [key.version]
  byte : writtenVersion key.type change =
    (config.drop 25).take (piccVersionLen key.type)

/-- The low bit of every key byte is the bit of the version that belongs
there. -/
def CarriesVersion (key : Key) : Prop :=
  ∀ (i : Nat) (b : UInt8), i < keySize key.type →
    key.data.bytes[i]? = some b →
    b &&& 1 = (key.version >>> UInt8.ofNat (7 - i % 8)) &&& 1

/-- The bytes of a key as they were given. -/
def rawKey (key : Key) : Bytes := key.data.bytes.take (keySize key.type)

/-- A key with the low bits cleared. -/
def withoutParity (key : Bytes) : Bytes := key.map (· &&& 0xFE)

/-- DES ignores the low bit of every key byte. -/
def IgnoresParity (c : BlockCipher) : Prop :=
  ∀ (type : KeyType) (key key' : Bytes), blockSize type = desBlock →
    key.map (· &&& 0xFE) = key'.map (· &&& 0xFE) →
    c.encrypt type key = c.encrypt type key' ∧
      c.decrypt type key = c.decrypt type key'

end Nxpsc
