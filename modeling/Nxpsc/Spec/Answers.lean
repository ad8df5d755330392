import Nxpsc.Ref.Channel

/-!
# What it means to accept an answer

The decoders have three rules: deliver an answer as it is, compare its MAC, or
decipher it and look for the checksum. Which one it is depends on the channel,
the mode and the command; what a rule that accepted says about the bytes it
delivers is stated without the decoder.
-/

namespace Nxpsc

/-! ## The rules -/

/-- The rule an answer is checked by. -/
inductive AnswerRule where
  | delivered
  | maced
  | deciphered
  deriving DecidableEq, Repr

/-- The rule of `nxpsc_channel_decode` on a given handle. -/
def answerRule (card : Card) : AnswerRule :=
  match card.channel with
  | .d40 =>
      if card.mode = .mac then
        if receivesMac card card.lastCmd = true then .maced else .delivered
      else if card.mode = .enc ∨ card.mode = .encPadded then .deciphered
      else .delivered
  | .ev1 =>
      if card.mode = .plain ∨ card.mode = .mac ∨
          (card.mode = .enc ∧ card.lastRequestZeroLen = false) then .maced
      else if card.mode = .enc ∨ card.mode = .encPadded then .deciphered
      else .delivered
  | .ev2 | .lrp =>
      if card.mode = .mac then .maced
      else if card.mode = .enc ∨ card.mode = .encPadded then .deciphered
      else .delivered
  | .auto => .delivered

/-! ## What they accept -/

/-- The delivered bytes stand before the CRC16 over them. -/
def Before16 (plain out : Bytes) : Prop :=
  ∃ rest, plain = out ++ crc16 out ++ rest

/-- The delivered bytes stand before the CRC32 over them and the status. -/
def Before32 (plain : Bytes) (status : UInt8) (out : Bytes) : Prop :=
  ∃ rest, plain = out ++ crc32 (out ++ [status]) ++ rest

section

variable [BlockCipher]

/-- `plain` is what the answer deciphers to, from the given IV. -/
def Deciphers (card : Card) (iv src plain : Bytes) : Prop :=
  ∃ last, cbcCryptEx card.keyType card.sessionEnc.bytes iv src false false =
    .ok (plain, last)

/-- A D40 MAC: four bytes of the last block of a chained encipherment. -/
def MacD40 (card : Card) (src out : Bytes) : Prop :=
  ∃ cipher last, cbcCryptEx card.keyType card.sessionMac.bytes
      (Bytes.zeros maxBlock)
      (Bytes.fit (paddedLen out.length (blockLen card)) out) true true =
      .ok (cipher, last) ∧
    src = out ++ last.take 4

/-- An EV1 MAC, over the data and the status on the running IV. -/
def MacEv1 (card : Card) (src : Bytes) (status : UInt8) (out : Bytes) : Prop :=
  ∃ mac, cmac card.keyType card.sessionMac.bytes card.iv.bytes
      (out ++ [status]) 0 = .ok mac ∧
    src = out ++ mac.take 8

/-- An EV2 or LRP MAC. It covers what the card sent: the delivered bytes, or
the ciphertext they come from. -/
def MacEv2 (card : Card) (src out : Bytes) : Prop :=
  ∃ body mac, ev2Cmac card 0x00 body = .ok mac ∧ src = body ++ mac ∧
    (out = body ∨
      ∃ plain card', ev2Decipher body card = (.ok plain, card') ∧
        out = plain.take (iso9797M2Len plain body.length))

/-- The answer came with the MAC of its channel. -/
def AcceptedMac (card : Card) (src : Bytes) (status : UInt8) (out : Bytes) :
    Prop :=
  match card.channel with
  | .d40 => MacD40 card src out
  | .ev1 => MacEv1 card src status out
  | .ev2 | .lrp => ∃ mac, ev2Cmac card 0x00 out = .ok mac ∧ src = out ++ mac
  | .auto => False

/-- The delivered bytes were deciphered, on D40 and EV1 from the bytes before
a checksum, on EV2 and LRP behind a MAC. What is shorter than a block is not
deciphered. -/
def AcceptedCipher (card : Card) (src : Bytes) (status : UInt8) (cap : Nat)
    (out : Bytes) : Prop :=
  match card.channel with
  | .d40 =>
      (src.length < blockLen card ∧ src.length ≤ cap ∧ out = src) ∨
        ∃ plain, Deciphers card (Bytes.zeros maxBlock) src plain ∧
          (Before16 plain out ∨
            card.type ≠ .desfireMf3icd40 ∧ Before32 plain status out)
  | .ev1 =>
      (src.length < blockLen card ∧ src.length ≤ cap ∧ out = src) ∨
        ∃ plain, Deciphers card card.iv.bytes src plain ∧
          Before32 plain status out
  | .ev2 | .lrp => MacEv2 card src out
  | .auto => False

/-- What it means that an answer was accepted by a rule. -/
def AcceptedBy (card : Card) (src : Bytes) (status : UInt8) (cap : Nat)
    (out : Bytes) : AnswerRule → Prop
  | .delivered => out = src
  | .maced => AcceptedMac card src status out
  | .deciphered => AcceptedCipher card src status cap out

/-- A check over the delivered bytes was made and passed. -/
def Verified (card : Card) (src : Bytes) (status : UInt8) (out : Bytes) :
    Prop :=
  match card.channel with
  | .d40 =>
      MacD40 card src out ∨
        ∃ plain, Deciphers card (Bytes.zeros maxBlock) src plain ∧
          (Before16 plain out ∨
            card.type ≠ .desfireMf3icd40 ∧ Before32 plain status out)
  | .ev1 =>
      MacEv1 card src status out ∨
        ∃ plain, Deciphers card card.iv.bytes src plain ∧
          Before32 plain status out
  | .ev2 | .lrp => MacEv2 card src out
  | .auto => False

/-- The card enciphers `plain` to `src`, from the given IV. -/
def Enciphers (card : Card) (iv plain src : Bytes) : Prop :=
  ∃ last, cbcCryptEx card.keyType card.sessionEnc.bytes iv plain true true =
    .ok (src, last)

end

/-- An answer that would have to be deciphered and is shorter than a block. -/
def ShortAnswer (card : Card) (src : Bytes) (cap : Nat) : Prop :=
  card.mode = .enc ∧
    (card.channel = .d40 ∨
      card.channel = .ev1 ∧ card.lastRequestZeroLen = true) ∧
    src.length < blockLen card ∧ src.length ≤ cap

end Nxpsc
