import Nxpsc.Ref.CryptoMemory

/-!
# `nxpsc_channel.c` on its arrays

The encoders, the decoders and what they search with, once more, with every
array they are given or set up: the source, the destination, whose size is
`cap`, the zeroed arrays for padding, checksums and MACs, each of the size the
branch asks for, and the two that have a fixed size. An encoder and a decoder
return the destination and how much of it they filled.
-/

namespace Nxpsc.InMemory

open Checked

variable {σ : Type} {cap : Nat}

/-! ## Helpers -/

/-- The scan over the trailing zeros. -/
def skipZeros (data : Bytes) : Nat → Run σ Nat
  | 0 => pure 0
  | pos + 1 => do
      let b ← byteAt data (pos + 1)
      if b = 0 then skipZeros data pos else pure (pos + 1)

/-- The checksum of what stands before a candidate, in an array of four bytes,
and the buffer it was computed in. -/
def candidateCrc (data : Bytes) (status : UInt8) (crcLen candidate : Nat)
    (buffer : Buf (maxResponse + 1)) :
    Run σ (Buf 4 × Buf (maxResponse + 1)) := do
  let front ← load data 0 candidate
  if crcLen = 4 then do
    let buffer ← store buffer 0 front
    let buffer ← store buffer candidate [status]
    let covered ← load buffer.bytes 0 (candidate + 1)
    let crc ← store (.zero 4) 0 (crc32 covered)
    pure (crc, buffer)
  else do
    let crc ← store (.zero 4) 0 (crc16 front)
    pure (crc, buffer)

/-- The candidates of `nxpsc_search_crc_pos`. -/
def searchCrcFrom (data : Bytes) (len : Nat) (status : UInt8)
    (crcLen pos : Nat) :
    Nat → Nat → Nat → Buf (maxResponse + 1) → Run σ Nat
  | 0, _, found, _ => pure found
  | rounds + 1, i, found, buffer =>
      if pos < i ∨ pos - i = 0 then pure found
      else do
        let candidate ← minus pos i
        if len < candidate + crcLen ∨ maxResponse + 1 < candidate + 1 then
          searchCrcFrom data len status crcLen pos rounds (i + 1) found buffer
        else do
          let crc ← candidateCrc data status crcLen candidate buffer
          let computed ← load crc.1.bytes 0 crcLen
          let stored ← load data candidate crcLen
          searchCrcFrom data len status crcLen pos rounds (i + 1)
            (if computed = stored then candidate else found) crc.2

/-- `nxpsc_search_crc_pos` on the first `len` bytes of an array. -/
def searchCrcPos (data : Bytes) (len : Nat) (status : UInt8) (crcLen : Nat) :
    Run σ Nat :=
  if len < crcLen then pure 0
  else do
    let last ← minus len 1
    let pos ← skipZeros data last
    if pos + 1 < crcLen then pure 0
    else
      searchCrcFrom data len status crcLen (pos + 1) (crcLen + 2) 0 0 (.zero _)

/-- `iso9797_m2_len`. -/
def iso9797M2Len (data : Bytes) : Nat → Run σ Nat
  | 0 => pure 0
  | i + 1 => do
      let b ← byteAt data i
      if b = 0x80 then pure i
      else if b ≠ 0x00 then pure 0
      else iso9797M2Len data i

def copyOutput (dst : Buf cap) (src : Bytes) (len : Nat) :
    Run σ (Buf cap × Nat) :=
  if cap < len then raise .length
  else do
    let out ← load src 0 len
    let dst ← store dst 0 out
    pure (dst, len)

section

variable [BlockCipher]

/-- `nxpsc_ev2_fill_iv`. -/
def ev2FillIv (card : Card) (forCommand : Bool) (iv : Buf aesBlock) :
    Run σ (Buf aesBlock) := do
  let buf ← store (.zero aesBlock) 0
    (if forCommand then [0xA5, 0x5A] else [0x5A, 0xA5])
  let buf ← store buf 2 card.ti.bytes
  let buf ← store buf 6 (putU16 card.cmdCtr)
  let out ← store buf 0
    (ecbEncryptBlock .aes128 card.sessionEnc.bytes buf.bytes)
  store iv 0 out.bytes

/-- `nxpsc_ev2_cmac`, over the first `len` bytes of an array. -/
def ev2Cmac (card : Card) (cmd : UInt8) (data : Bytes) (len : Nat)
    (mac8 : Buf 8) : Run σ (Buf 8) := do
  let total := 7 + len
  let buf ← store (.zero total) 0 [cmd]
  let buf ← store buf 1 (putU16 card.cmdCtr)
  let buf ← store buf 3 card.ti.bytes
  let front ← load data 0 len
  let buf ← store buf 7 front
  if card.channel = .lrp then
    lrpCmac8 (lrpInit card.sessionMac.bytes 0 true) buf.bytes total mac8
  else do
    let full ← cmac .aes128 card.sessionMac.bytes (.zero maxBlock) buf.bytes
      total 0 (.zero maxBlock)
    truncateMac full.1.bytes mac8

/-! ## Encoding -/

/-- `encode_d40` behind the copy of the payload. -/
def encodeD40Body (cmd : UInt8) (src : Bytes) (hdr : Nat) (dst : Buf cap)
    (card : Card) : Run Card (Buf cap × Nat) :=
  let bs := blockLen card
  if card.mode = .mac ∨ (card.mode = .enc ∧ src.length ≤ hdr) then
    if src.length = 0 then pure (dst, src.length)
    else do
      let rest ← minus src.length hdr
      let plen := paddedLen rest bs
      if plen = 0 then pure (dst, src.length)
      else do
        let body ← load src hdr rest
        let buf ← store (.zero plen) 0 body
        let done ← cbcCryptEx card.keyType card.sessionMac.bytes
          (.zero maxBlock) buf.bytes 0 plen buf 0 true true
        if transmitsMac card cmd then
          if cap < src.length + macLength card then raise .length
          else do
            let mac ← load done.2.bytes 0 (macLength card)
            let dst ← store dst src.length mac
            pure (dst, src.length + macLength card)
        else pure (dst, src.length)
  else if card.mode = .enc ∨ card.mode = .encPadded then
    if src.length ≤ hdr then pure (dst, src.length)
    else do
      let pad := if card.mode = .encPadded then 1 else 0
      let grown ← minus (src.length + 2 + pad) hdr
      let plen := paddedLen grown bs
      if cap < hdr + plen then raise .length
      else do
        let rest ← minus src.length hdr
        let body ← load src hdr rest
        let buf ← store (.zero plen) 0 body
        let covered ← load buf.bytes 0 rest
        let buf ← store buf rest (crc16 covered)
        let buf ← (if 0 < pad then store buf (rest + 2) [0x80] else pure buf)
        let head ← load src 0 hdr
        let dst ← store dst 0 head
        let done ← cbcCryptEx card.keyType card.sessionEnc.bytes
          (.zero maxBlock) buf.bytes 0 plen dst hdr true false
        pure (done.1, hdr + plen)
  else if card.mode = .encPlain then
    if src.length ≤ hdr then pure (dst, src.length)
    else do
      let rest ← minus src.length hdr
      let plen := paddedLen rest bs
      if cap < hdr + plen then raise .length
      else do
        let body ← load src hdr rest
        let buf ← store (.zero plen) 0 body
        let head ← load src 0 hdr
        let dst ← store dst 0 head
        let done ← cbcCryptEx card.keyType card.sessionEnc.bytes
          (.zero maxBlock) buf.bytes 0 plen dst hdr true false
        Checked.modify fun card => { card with mode := .enc }
        pure (done.1, hdr + plen)
  else pure (dst, src.length)

/-- `encode_ev1` behind the copy of the payload. -/
def encodeEv1Body (cmd : UInt8) (src : Bytes) (hdr : Nat) (dst : Buf cap)
    (card : Card) : Run Card (Buf cap × Nat) :=
  let bs := blockLen card
  if card.mode = .plain ∨ card.mode = .mac ∨
      (card.mode = .enc ∧ src.length ≤ hdr) then do
    let buf ← store (.zero (src.length + 1)) 0 [cmd]
    let body ← load src 0 src.length
    let buf ← store buf 1 body
    let done ← cmac card.keyType card.sessionMac.bytes card.iv buf.bytes
      (src.length + 1) 0 (.zero maxBlock)
    Checked.modify fun card => { card with iv := done.2 }
    if card.mode = .mac ∧ transmitsMac card cmd = true then
      if cap < src.length + macLength card then raise .length
      else do
        let mac ← load done.1.bytes 0 (macLength card)
        let dst ← store dst src.length mac
        pure (dst, src.length + macLength card)
    else pure (dst, src.length)
  else if card.mode = .enc ∨ card.mode = .encPadded then do
    let pad := if card.mode = .encPadded then 1 else 0
    let grown ← minus (src.length + 4 + pad) hdr
    let plen := paddedLen grown bs
    if cap < hdr + plen then raise .length
    else do
      let buf ← store (.zero (plen + hdr + 8)) 0 [cmd]
      let body ← load src 0 src.length
      let buf ← store buf 1 body
      let covered ← load buf.bytes 0 (src.length + 1)
      let buf ← store buf (src.length + 1) (crc32 covered)
      let buf ← (if 0 < pad then store buf (src.length + 1 + 4) [0x80]
        else pure buf)
      let head ← load src 0 hdr
      let dst ← store dst 0 head
      let done ← cbcCrypt card.keyType card.sessionEnc.bytes card.iv buf.bytes
        (1 + hdr) plen dst hdr true
      Checked.modify fun card => { card with iv := done.2, mode := .enc }
      pure (done.1, hdr + plen)
  else if card.mode = .encPlain then
    if src.length ≤ hdr then pure (dst, src.length)
    else do
      let rest ← minus src.length hdr
      let plen := paddedLen rest bs
      if cap < hdr + plen then raise .length
      else do
        let body ← load src hdr rest
        let buf ← store (.zero plen) 0 body
        let head ← load src 0 hdr
        let dst ← store dst 0 head
        let done ← cbcCrypt card.keyType card.sessionEnc.bytes card.iv
          buf.bytes 0 plen dst hdr true
        Checked.modify fun card => { card with iv := done.2, mode := .enc }
        pure (done.1, hdr + plen)
  else pure (dst, src.length)

/-- The enciphering step of `encode_ev2`, into the destination behind the
header. -/
def ev2Encipher (buf : Bytes) (plen : Nat) (dst : Buf cap) (hdr : Nat)
    (card : Card) : Run Card (Buf cap) :=
  if card.channel = .lrp then do
    let room ← minus cap hdr
    let done ← lrpEncode (lrpSetCounter
      (lrpInit card.sessionEnc.bytes 1 false) card.iv.bytes (4 * 2)) buf plen
      dst hdr room
    let counter ← load done.2.counter.bytes 0 4
    let iv ← store card.iv 0 counter
    Checked.modify fun card => { card with iv := iv }
    match done.1 with
    | .error e => raise e
    | .ok out => pure out.1
  else do
    let iv ← ev2FillIv card true (.zero aesBlock)
    let done ← cbcCrypt .aes128 card.sessionEnc.bytes iv buf 0 plen dst hdr true
    pure done.1

/-- `encode_ev2` behind the copy of the payload. -/
def encodeEv2Body (cmd : UInt8) (src : Bytes) (hdr : Nat) (dst : Buf cap)
    (card : Card) : Run Card (Buf cap × Nat) :=
  let macLen := macLength card
  if card.mode = .mac then do
    let mac ← ev2Cmac card cmd src src.length (.zero 8)
    if cap < src.length + macLen then raise .length
    else do
      let mac ← load mac.bytes 0 macLen
      let dst ← store dst src.length mac
      pure (dst, src.length + macLen)
  else if card.mode = .enc ∨ card.mode = .encPadded ∨ card.mode = .encPlain
  then do
    let head ← load src 0 hdr
    let dst ← store dst 0 head
    if hdr < src.length then do
      let grown ← minus (src.length + 1) hdr
      let plen := paddedLen grown aesBlock
      if cap < hdr + plen + macLen then raise .length
      else do
        let rest ← minus src.length hdr
        let body ← load src hdr rest
        let buf ← store (.zero plen) 0 body
        let buf ← store buf rest [0x80]
        let dst ← ev2Encipher buf.bytes plen dst hdr card
        finish plen macLen dst
    else finish 0 macLen dst
  else pure (dst, src.length)
where
  /-- The MAC over what the destination holds by now. -/
  finish (plen macLen : Nat) (dst : Buf cap) : Run Card (Buf cap × Nat) := do
    let card ← Checked.get
    let mac ← ev2Cmac card cmd dst.bytes (hdr + plen) (.zero 8)
    if cap < hdr + plen + macLen then raise .length
    else do
      let mac ← load mac.bytes 0 macLen
      let dst ← store dst (hdr + plen) mac
      Checked.modify fun card => { card with mode := .enc }
      pure (dst, hdr + plen + macLen)

/-- What the three encoders begin with: the header, and the payload in the
destination. -/
def encodeWith (body : UInt8 → Bytes → Nat → Buf cap → Card →
    Run Card (Buf cap × Nat)) (cmd : UInt8) (src : Bytes) (dst : Buf cap) :
    Run Card (Buf cap × Nat) := do
  let card ← Checked.get
  let hdr := min (cmdHeaderLen cmd src.length) src.length
  if cap < src.length then raise .length
  else do
    let payload ← load src 0 src.length
    let dst ← store dst 0 payload
    body cmd src hdr dst card

def encodeD40 (cmd : UInt8) (src : Bytes) (dst : Buf cap) :
    Run Card (Buf cap × Nat) := encodeWith encodeD40Body cmd src dst

def encodeEv1 (cmd : UInt8) (src : Bytes) (dst : Buf cap) :
    Run Card (Buf cap × Nat) := encodeWith encodeEv1Body cmd src dst

/-- `encode_ev2`, also on LRP. -/
def encodeEv2 (cmd : UInt8) (src : Bytes) (dst : Buf cap) :
    Run Card (Buf cap × Nat) := encodeWith encodeEv2Body cmd src dst

def channelEncode (cmd : UInt8) (src : Bytes) (dst : Buf cap) :
    Run Card (Buf cap × Nat) := do
  Checked.modify fun card =>
    { card with
      lastCmd := cmd
      lastRequestZeroLen := decide (src.length ≤ cmdHeaderLen cmd src.length) }
  let card ← Checked.get
  match card.channel with
  | .d40 => encodeD40 cmd src dst
  | .ev1 => encodeEv1 cmd src dst
  | .ev2 | .lrp => encodeEv2 cmd src dst
  | .auto => copyOutput dst src src.length

/-! ## Decoding -/

def decodeD40 (src : Bytes) (status : UInt8) (dst : Buf cap) :
    Run Card (Buf cap × Nat) := do
  let card ← Checked.get
  let bs := blockLen card
  if card.mode = .mac then
    let macLen := macLength card
    if receivesMac card card.lastCmd = false then copyOutput dst src src.length
    else if src.length ≤ macLen then raise .length
    else do
      let dataLen ← minus src.length macLen
      let plen := paddedLen dataLen bs
      let data ← load src 0 dataLen
      let buf ← store (.zero plen) 0 data
      let done ← cbcCryptEx card.keyType card.sessionMac.bytes (.zero maxBlock)
        buf.bytes 0 plen buf 0 true true
      let mac ← load done.2.bytes 0 macLen
      let sent ← load src dataLen macLen
      if mac ≠ sent then do
        Checked.modify fun card => { card with macMismatch := true }
        raise .crypto
      else copyOutput dst src dataLen
  else if card.mode = .enc ∨ card.mode = .encPadded then
    if src.length < bs then copyOutput dst src src.length
    else do
      let done ← cbcCryptEx card.keyType card.sessionEnc.bytes (.zero maxBlock)
        src 0 src.length (.zero maxResponse) 0 false false
      let two ← searchCrcPos done.1.bytes src.length status 2
      let found ← (if two = 0 ∧ card.type ≠ .desfireMf3icd40 then
        searchCrcPos done.1.bytes src.length status 4 else pure two)
      if found = 0 then raise .crypto
      else copyOutput dst done.1.bytes found
  else copyOutput dst src src.length

def decodeEv1 (src : Bytes) (status : UInt8) (dst : Buf cap) :
    Run Card (Buf cap × Nat) := do
  let card ← Checked.get
  let macLen := macLength card
  if card.mode = .plain ∨ card.mode = .mac ∨
      (card.mode = .enc ∧ card.lastRequestZeroLen = false) then
    if src.length < macLen then raise .length
    else do
      let dataLen ← minus src.length macLen
      let data ← load src 0 dataLen
      let buf ← store (.zero (dataLen + 1)) 0 data
      let buf ← store buf dataLen [status]
      let done ← cmac card.keyType card.sessionMac.bytes card.iv buf.bytes
        (dataLen + 1) 0 (.zero maxBlock)
      Checked.modify fun card => { card with iv := done.2 }
      let sent ← load src dataLen macLen
      let mac ← load done.1.bytes 0 macLen
      if sent ≠ mac then do
        Checked.modify fun card => { card with macMismatch := true }
        raise .crypto
      else copyOutput dst src dataLen
  else if card.mode = .enc ∨ card.mode = .encPadded then
    if src.length < blockLen card then copyOutput dst src src.length
    else do
      -- the chaining runs on a copy of the IV
      let done ← cbcCrypt card.keyType card.sessionEnc.bytes card.iv src 0
        src.length (.zero maxResponse) 0 false
      let found ← searchCrcPos done.1.bytes src.length status 4
      if found = 0 then raise .crypto
      else copyOutput dst done.1.bytes found
  else copyOutput dst src src.length

/-- The deciphering step of `decode_ev2`, into an array of fixed size. -/
def ev2Decipher (src : Bytes) (dataLen : Nat) (card : Card) :
    Run Card (Buf maxResponse) :=
  if card.channel = .lrp then do
    let done ← lrpDecode (lrpSetCounter
      (lrpInit card.sessionEnc.bytes 1 false) card.iv.bytes (4 * 2)) src
      dataLen (.zero maxResponse)
    let counter ← load done.2.counter.bytes 0 4
    let iv ← store card.iv 0 counter
    Checked.modify fun card => { card with iv := iv }
    match done.1 with
    | .error e => raise e
    | .ok out => pure out.1
  else do
    let iv ← ev2FillIv card false (.zero aesBlock)
    let done ← cbcCrypt .aes128 card.sessionEnc.bytes iv src 0 dataLen
      (.zero maxResponse) 0 false
    pure done.1

/-- `decode_ev2`, also on LRP. -/
def decodeEv2 (src : Bytes) (dst : Buf cap) : Run Card (Buf cap × Nat) := do
  let card ← Checked.get
  let macLen := macLength card
  if card.mode ≠ .mac ∧ card.mode ≠ .enc ∧ card.mode ≠ .encPadded then
    copyOutput dst src src.length
  else if src.length < macLen then raise .length
  else do
    let dataLen ← minus src.length macLen
    let mac ← ev2Cmac card 0x00 src dataLen (.zero 8)
    let sent ← load src dataLen macLen
    let mac ← load mac.bytes 0 macLen
    if sent ≠ mac then do
      Checked.modify fun card => { card with macMismatch := true }
      raise .crypto
    else if card.mode = .mac ∨ dataLen < aesBlock then
      copyOutput dst src dataLen
    else do
      let plain ← ev2Decipher src dataLen card
      let found ← iso9797M2Len plain.bytes dataLen
      if found = 0 then raise .crypto
      else copyOutput dst plain.bytes found

def channelDecode (src : Bytes) (status : UInt8) (dst : Buf cap) :
    Run Card (Buf cap × Nat) := do
  let card ← Checked.get
  match card.channel with
  | .d40 => decodeD40 src status dst
  | .ev1 => decodeEv1 src status dst
  | .ev2 | .lrp => decodeEv2 src dst
  | .auto => copyOutput dst src src.length

end

end Nxpsc.InMemory
