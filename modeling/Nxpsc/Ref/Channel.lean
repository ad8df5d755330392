import Nxpsc.Ref.Lrp

/-!
# `nxpsc_channel.c`: encoding a request, decoding an answer

Per channel, an encoder and a decoder, each a function of the handle that
returns its result next to the handle it leaves behind. `cap` is the size of
the destination. The tables come first, in the source's order.
-/

namespace Nxpsc

/-! ## Command metadata -/

/-- How much of a payload stays in the clear. -/
inductive HdrLen where
  | all
  | allExceptMac
  | fixed (len : Nat)
  deriving DecidableEq, Repr

def cmdHeaders : List (UInt8 × HdrLen) :=
  [ (dfCreateApplication, .all),
    (dfDeleteApplication, .all),
    (dfChangeKey, .fixed 1),
    (dfChangeKeyEv2, .fixed 2),
    (dfSetConfiguration, .fixed 1),
    (dfGetFileSettings, .fixed 1),
    (dfChangeFileSettings, .fixed 1),
    (dfCreateTransMacFile, .fixed 5),
    (dfReadData, .fixed 7),
    (dfWriteData, .fixed 7),
    (dfReadRecords, .fixed 7),
    (dfWriteRecord, .fixed 7),
    (dfUpdateRecord, .fixed 10),
    (dfGetValue, .fixed 1),
    (dfCredit, .fixed 1),
    (dfDebit, .fixed 1),
    (dfLimitedCredit, .fixed 1) ]

def cmdHeaderLen (cmd : UInt8) (dataLen : Nat) : Nat :=
  match cmdHeaders.lookup cmd with
  | some .all => dataLen
  | some .allExceptMac => if 8 ≤ dataLen then dataLen - 8 else dataLen
  | some (.fixed len) => len
  | none => 0

/-- `tx_mac_cmds`: requests that carry a MAC on D40 and EV1. -/
def txMacCmds : List UInt8 :=
  [ dfWriteData, dfCredit, dfDebit, dfLimitedCredit, dfWriteRecord,
    dfUpdateRecord, dfCommitReaderId, dfInitKeySettings, dfRollKeySettings,
    dfFinalizeKeySettings ]

def transmitsMac (card : Card) (cmd : UInt8) : Bool :=
  if card.channel ≠ .d40 ∧ card.channel ≠ .ev1 then true
  else txMacCmds.contains cmd

/-- `rx_mac_cmds`: answers that carry a MAC on D40. -/
def rxMacCmds : List UInt8 := [ dfReadData, dfReadRecords, dfGetValue ]

def receivesMac (card : Card) (cmd : UInt8) : Bool :=
  if card.channel ≠ .d40 then true else rxMacCmds.contains cmd

/-! ## Helpers -/

def blockLen (card : Card) : Nat := blockSize card.keyType

/-- The scan over the trailing zeros of `nxpsc_search_crc_pos`: the last
position up to `pos` that holds something else, position 0 regardless. -/
def skipZeros (data : Bytes) : Nat → Nat
  | 0 => 0
  | pos + 1 => if data.getD (pos + 1) 0 = 0 then skipZeros data pos else pos + 1

/-- The bytes at `candidate` are the checksum of what stands before them. -/
def crcMatches (data : Bytes) (status : UInt8) (crcLen candidate : Nat) :
    Bool :=
  let crc := if crcLen = 4 then crc32 (data.take candidate ++ [status])
    else crc16 (data.take candidate)
  crc == (data.drop candidate).take crcLen

/-- The candidates of `nxpsc_search_crc_pos`, from `pos` downwards. -/
def searchCrcFrom (data : Bytes) (status : UInt8) (crcLen pos : Nat) :
    Nat → Nat → Nat → Nat
  | 0, _, found => found
  | rounds + 1, i, found =>
      if pos < i ∨ pos - i = 0 then found
      else
        let candidate := pos - i
        if data.length < candidate + crcLen ∨ maxResponse + 1 < candidate + 1
        then searchCrcFrom data status crcLen pos rounds (i + 1) found
        else if crcMatches data status crcLen candidate
        then searchCrcFrom data status crcLen pos rounds (i + 1) candidate
        else searchCrcFrom data status crcLen pos rounds (i + 1) found

/-- `nxpsc_search_crc_pos`; 0 for none. -/
def searchCrcPos (data : Bytes) (status : UInt8) (crcLen : Nat) : Nat :=
  if data.length < crcLen then 0
  else
    let pos := skipZeros data (data.length - 1) + 1
    if pos < crcLen then 0
    else searchCrcFrom data status crcLen pos (crcLen + 2) 0 0

/-- `iso9797_m2_len` over the first `len` bytes. -/
def iso9797M2Len (data : Bytes) : Nat → Nat
  | 0 => 0
  | i + 1 =>
      if data.getD i 0 = 0x80 then i
      else if data.getD i 0 ≠ 0x00 then 0
      else iso9797M2Len data i

def copyOutput (cap : Nat) (src : Bytes) : Except Err Bytes :=
  if cap < src.length then .error .length else .ok src

/-- A counter, least significant byte first. -/
def putU16 (v : UInt16) : Bytes := [v.toUInt8, (v >>> 8).toUInt8]

section

variable [BlockCipher]

/-- What `nxpsc_ev2_fill_iv` enciphers. -/
def ev2IvInput (card : Card) (forCommand : Bool) : Bytes :=
  let label : Bytes := if forCommand then [0xA5, 0x5A] else [0x5A, 0xA5]
  Bytes.fit aesBlock (label ++ card.ti.bytes ++ putU16 card.cmdCtr)

def ev2FillIv (card : Card) (forCommand : Bool) : Bytes :=
  ecbEncryptBlock .aes128 card.sessionEnc.bytes (ev2IvInput card forCommand)

/-- What `nxpsc_ev2_cmac` covers. -/
def ev2MacInput (card : Card) (cmd : UInt8) (data : Bytes) : Bytes :=
  cmd :: (putU16 card.cmdCtr ++ card.ti.bytes ++ data)

/-- `nxpsc_ev2_cmac`, also on LRP. -/
def ev2Cmac (card : Card) (cmd : UInt8) (data : Bytes) : Except Err Bytes :=
  if card.channel = .lrp then
    .ok (lrpCmac8 (lrpInit card.sessionMac.bytes 0 true)
      (ev2MacInput card cmd data))
  else
    match cmac .aes128 card.sessionMac.bytes (Bytes.zeros aesBlock)
      (ev2MacInput card cmd data) 0 with
    | .error e => .error e
    | .ok full => .ok (truncateMac full)

/-! ## Encoding -/

def encodeD40 (cmd : UInt8) (src : Bytes) (cap : Nat) (card : Card) :
    Except Err Bytes × Card :=
  let bs := blockLen card
  let hdr := min (cmdHeaderLen cmd src.length) src.length
  if cap < src.length then (.error .length, card)
  else if card.mode = .mac ∨ (card.mode = .enc ∧ src.length ≤ hdr) then
    let plen := paddedLen (src.length - hdr) bs
    if src.length = 0 then (.ok src, card)
    else if plen = 0 then (.ok src, card)
    else
      -- checking a MAC is the same operation on both sides, so the reader
      -- runs the encryption primitive here even on D40
      match cbcCryptEx card.keyType card.sessionMac.bytes
        (Bytes.zeros maxBlock) (Bytes.fit plen (src.drop hdr)) true true with
      | .error e => (.error e, card)
      | .ok (_, iv) =>
          if transmitsMac card cmd then
            if cap < src.length + macLength card then (.error .length, card)
            else (.ok (src ++ iv.take (macLength card)), card)
          else (.ok src, card)
  else if card.mode = .enc ∨ card.mode = .encPadded then
    if src.length ≤ hdr then (.ok src, card)
    else
      let pad := if card.mode = .encPadded then 1 else 0
      let plen := paddedLen (src.length + 2 + pad - hdr) bs
      if cap < hdr + plen then (.error .length, card)
      else
        let body := src.drop hdr
        let tail := if card.mode = .encPadded then [0x80] else []
        -- D40 silicon only encrypts, the reader mirrors that with decrypt
        match cbcCryptEx card.keyType card.sessionEnc.bytes
          (Bytes.zeros maxBlock) (Bytes.fit plen (body ++ crc16 body ++ tail))
          true false with
        | .error e => (.error e, card)
        | .ok (out, _) => (.ok (src.take hdr ++ out), card)
  else if card.mode = .encPlain then
    if src.length ≤ hdr then (.ok src, card)
    else
      let plen := paddedLen (src.length - hdr) bs
      if cap < hdr + plen then (.error .length, card)
      else
        match cbcCryptEx card.keyType card.sessionEnc.bytes
          (Bytes.zeros maxBlock) (Bytes.fit plen (src.drop hdr)) true false with
        | .error e => (.error e, card)
        | .ok (out, _) =>
            (.ok (src.take hdr ++ out), { card with mode := .enc })
  else (.ok src, card)

def encodeEv1 (cmd : UInt8) (src : Bytes) (cap : Nat) (card : Card) :
    Except Err Bytes × Card :=
  let bs := blockLen card
  let hdr := min (cmdHeaderLen cmd src.length) src.length
  if cap < src.length then (.error .length, card)
  else if card.mode = .plain ∨ card.mode = .mac ∨
      (card.mode = .enc ∧ src.length ≤ hdr) then
    -- the MAC is computed for every command, it also advances the IV
    match cmac card.keyType card.sessionMac.bytes card.iv.bytes (cmd :: src) 0
      with
    | .error e => (.error e, card)
    | .ok mac =>
        let card := { card with iv := card.iv.put mac }
        if card.mode = .mac ∧ transmitsMac card cmd = true then
          if cap < src.length + macLength card then (.error .length, card)
          else (.ok (src ++ mac.take (macLength card)), card)
        else (.ok src, card)
  else if card.mode = .enc ∨ card.mode = .encPadded then
    let pad := if card.mode = .encPadded then 1 else 0
    let plen := paddedLen (src.length + 4 + pad - hdr) bs
    if cap < hdr + plen then (.error .length, card)
    else
      -- CRC32 covers the command byte and the whole payload
      let tail := if card.mode = .encPadded then [0x80] else []
      match cbcCrypt card.keyType card.sessionEnc.bytes card.iv.bytes
        (Bytes.fit plen (src.drop hdr ++ crc32 (cmd :: src) ++ tail)) true with
      | .error e => (.error e, card)
      | .ok (out, last) =>
          (.ok (src.take hdr ++ out),
            { card with iv := card.iv.put last, mode := .enc })
  else if card.mode = .encPlain then
    if src.length ≤ hdr then (.ok src, card)
    else
      let plen := paddedLen (src.length - hdr) bs
      if cap < hdr + plen then (.error .length, card)
      else
        match cbcCrypt card.keyType card.sessionEnc.bytes card.iv.bytes
          (Bytes.fit plen (src.drop hdr)) true with
        | .error e => (.error e, card)
        | .ok (out, last) =>
            (.ok (src.take hdr ++ out),
              { card with iv := card.iv.put last, mode := .enc })
  else (.ok src, card)

/-- The enciphering step of `encode_ev2`: the body under the channel's own
primitive. LRP carries its counter on in the IV. -/
def ev2Encipher (body : Bytes) (room : Nat) (card : Card) :
    Except Err Bytes × Card :=
  if card.channel = .lrp then
    let done := lrpEncode (lrpSetCounter (lrpInit card.sessionEnc.bytes 1 false)
      card.iv.bytes (4 * 2)) body room
    (done.1, { card with iv := card.iv.put (done.2.counter.bytes.take 4) })
  else
    match cbcCrypt .aes128 card.sessionEnc.bytes (ev2FillIv card true) body true
      with
    | .error e => (.error e, card)
    | .ok (out, _) => (.ok out, card)

/-- `encode_ev2`, also on LRP. -/
def encodeEv2 (cmd : UInt8) (src : Bytes) (cap : Nat) (card : Card) :
    Except Err Bytes × Card :=
  let macLen := macLength card
  let hdr := min (cmdHeaderLen cmd src.length) src.length
  if cap < src.length then (.error .length, card)
  else if card.mode = .mac then
    match ev2Cmac card cmd src with
    | .error e => (.error e, card)
    | .ok mac =>
        if cap < src.length + macLen then (.error .length, card)
        else (.ok (src ++ mac), card)
  else if card.mode = .enc ∨ card.mode = .encPadded ∨ card.mode = .encPlain
  then
    let plen := paddedLen (src.length + 1 - hdr) aesBlock
    if hdr < src.length ∧ cap < hdr + plen + macLen then (.error .length, card)
    else
      -- without a body nothing is enciphered and no pad byte is added
      let done := if hdr < src.length then
          ev2Encipher (Bytes.fit plen (src.drop hdr ++ [0x80])) (cap - hdr) card
        else (.ok [], card)
      match done with
      | (.error e, card) => (.error e, card)
      | (.ok out, card) =>
          match ev2Cmac card cmd (src.take hdr ++ out) with
          | .error e => (.error e, card)
          | .ok mac =>
              if cap < hdr + out.length + macLen then (.error .length, card)
              else
                (.ok (src.take hdr ++ out ++ mac), { card with mode := .enc })
  else (.ok src, card)

def channelEncode (cmd : UInt8) (src : Bytes) (cap : Nat) (card : Card) :
    Except Err Bytes × Card :=
  let card :=
    { card with
      lastCmd := cmd
      lastRequestZeroLen := decide (src.length ≤ cmdHeaderLen cmd src.length) }
  match card.channel with
  | .d40 => encodeD40 cmd src cap card
  | .ev1 => encodeEv1 cmd src cap card
  | .ev2 | .lrp => encodeEv2 cmd src cap card
  | .auto => (copyOutput cap src, card)

/-! ## Decoding -/

def decodeD40 (src : Bytes) (status : UInt8) (cap : Nat) (card : Card) :
    Except Err Bytes × Card :=
  if card.mode = .mac then
    let macLen := macLength card
    if receivesMac card card.lastCmd = false then (copyOutput cap src, card)
    else if src.length ≤ macLen then (.error .length, card)
    else
      let dataLen := src.length - macLen
      let plen := paddedLen dataLen (blockLen card)
      match cbcCryptEx card.keyType card.sessionMac.bytes
        (Bytes.zeros maxBlock) (Bytes.fit plen (src.take dataLen)) true true with
      | .error e => (.error e, card)
      | .ok (_, iv) =>
          if iv.take macLen ≠ src.drop dataLen then
            (.error .crypto, { card with macMismatch := true })
          else (copyOutput cap (src.take dataLen), card)
  else if card.mode = .enc ∨ card.mode = .encPadded then
    if src.length < blockLen card then (copyOutput cap src, card)
    else
      match cbcCryptEx card.keyType card.sessionEnc.bytes
        (Bytes.zeros maxBlock) src false false with
      | .error e => (.error e, card)
      | .ok (plain, _) =>
          -- a CRC16 over the data alone, or the EV1 style CRC32 over data and
          -- status on silicon newer than the MF3ICD40
          let pure := searchCrcPos plain status 2
          let pure := if pure = 0 ∧ card.type ≠ .desfireMf3icd40 then
              searchCrcPos plain status 4
            else pure
          if pure = 0 then (.error .crypto, card)
          else (copyOutput cap (plain.take pure), card)
  else (copyOutput cap src, card)

def decodeEv1 (src : Bytes) (status : UInt8) (cap : Nat) (card : Card) :
    Except Err Bytes × Card :=
  let macLen := macLength card
  if card.mode = .plain ∨ card.mode = .mac ∨
      (card.mode = .enc ∧ card.lastRequestZeroLen = false) then
    if src.length < macLen then (.error .length, card)
    else
      let dataLen := src.length - macLen
      match cmac card.keyType card.sessionMac.bytes card.iv.bytes
        (src.take dataLen ++ [status]) 0 with
      | .error e => (.error e, card)
      | .ok mac =>
          let card := { card with iv := card.iv.put mac }
          if src.drop dataLen ≠ mac.take macLen then
            (.error .crypto, { card with macMismatch := true })
          else (copyOutput cap (src.take dataLen), card)
  else if card.mode = .enc ∨ card.mode = .encPadded then
    if src.length < blockLen card then (copyOutput cap src, card)
    else
      -- the chaining runs on a copy of the IV
      match cbcCrypt card.keyType card.sessionEnc.bytes card.iv.bytes src false
        with
      | .error e => (.error e, card)
      | .ok (plain, _) =>
          let pure := searchCrcPos plain status 4
          if pure = 0 then (.error .crypto, card)
          else (copyOutput cap (plain.take pure), card)
  else (copyOutput cap src, card)

/-- The deciphering step of `decode_ev2`. -/
def ev2Decipher (body : Bytes) (card : Card) : Except Err Bytes × Card :=
  if card.channel = .lrp then
    let done := lrpDecode (lrpSetCounter (lrpInit card.sessionEnc.bytes 1 false)
      card.iv.bytes (4 * 2)) body maxResponse
    (done.1.map Prod.fst,
      { card with iv := card.iv.put (done.2.counter.bytes.take 4) })
  else
    match cbcCrypt .aes128 card.sessionEnc.bytes (ev2FillIv card false) body
      false with
    | .error e => (.error e, card)
    | .ok (plain, _) => (.ok plain, card)

/-- `decode_ev2`, also on LRP. -/
def decodeEv2 (src : Bytes) (cap : Nat) (card : Card) :
    Except Err Bytes × Card :=
  let macLen := macLength card
  if card.mode ≠ .mac ∧ card.mode ≠ .enc ∧ card.mode ≠ .encPadded then
    (copyOutput cap src, card)
  else if src.length < macLen then (.error .length, card)
  else
    let dataLen := src.length - macLen
    match ev2Cmac card 0x00 (src.take dataLen) with
    | .error e => (.error e, card)
    | .ok mac =>
        if src.drop dataLen ≠ mac then
          (.error .crypto, { card with macMismatch := true })
        else if card.mode = .mac ∨ dataLen < aesBlock then
          (copyOutput cap (src.take dataLen), card)
        else
          match ev2Decipher (src.take dataLen) card with
          | (.error e, card) => (.error e, card)
          | (.ok plain, card) =>
              let pure := iso9797M2Len plain dataLen
              if pure = 0 then (.error .crypto, card)
              else (copyOutput cap (plain.take pure), card)

def channelDecode (src : Bytes) (status : UInt8) (cap : Nat) (card : Card) :
    Except Err Bytes × Card :=
  match card.channel with
  | .d40 => decodeD40 src status cap card
  | .ev1 => decodeEv1 src status cap card
  | .ev2 | .lrp => decodeEv2 src cap card
  | .auto => (copyOutput cap src, card)

end

end Nxpsc
