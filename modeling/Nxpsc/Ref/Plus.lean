import Nxpsc.Ref.Auth

/-!
# `nxpsc_plus.c`: MIFARE Plus, security level 3

Plus frames are sent as they are, with no native framing, no chaining and no
exchange around them: the handle's session fields are shared, the checks in
front of them are not.
-/

namespace Nxpsc

open Dialogue

def mfpBlockSize : Nat := 16

inductive PlusMac where
  | readCmd
  | readResp
  | writeCmd
  | writeResp
  deriving DecidableEq

/-- The answer half of `plus_transceive`. -/
def plusAnswer (cap : Nat) (answer : Answer) (card : Card) :
    Except Err Bytes × Card :=
  match answer with
  | .error _ => (.error .transport, card)
  | .ok rx =>
      let rx := rx.take cap
      if rx.length < 1 then (.error .length, card)
      else
        let card := { card with lastStatus := rx.headD 0 }
        if rx.headD 0 ≠ 0x90 then (.error .card, card) else (.ok rx, card)

def plusTransceive (tx : Bytes) (cap : Nat) : Api Bytes := do
  let answer ← Prog.ask (.plus tx)
  Prog.act (plusAnswer cap answer)

/-- What `plus_mac` covers. -/
def plusMacInput (card : Card) (type : PlusMac) (block : UInt16)
    (count : UInt8) (data : Bytes) : Bytes :=
  let ctr := if type = .writeCmd ∨ type = .writeResp then card.plusWCtr
    else card.plusRCtr
  let head := data.headD 0 :: (putU16 ctr ++ card.ti.bytes)
  match type with
  | .readCmd | .writeCmd => head ++ data.drop 1
  | .readResp => head ++ putU16 block ++ count :: data.drop 1
  | .writeResp => head

section

variable [BlockCipher]

def plusMac (card : Card) (type : PlusMac) (block : UInt16) (count : UInt8)
    (data : Bytes) : Except Err Bytes :=
  if card.authenticated = false ∨ data.length < 1 then .error .auth
  else if (type = .readCmd ∨ type = .writeCmd) ∧
      maxResponse + 16 - 7 < data.length - 1 then .error .length
  else if type = .readResp ∧ maxResponse + 16 - 10 < data.length - 1 then
    .error .length
  else
    match cmac .aes128 card.sessionMac.bytes (Bytes.zeros aesBlock)
      (plusMacInput card type block count data) 0 with
    | .error e => .error e
    | .ok full => .ok (truncateMac full)

end

/-- `plus_data_iv`: the counters are interleaved differently per
direction. -/
def plusDataIv (card : Card) (read : Bool) : Bytes :=
  if read then
    let ctr := card.plusRCtr.toUInt8
    [ctr, 0, 0, 0, ctr, 0, 0, 0, ctr, 0, 0, 0] ++ card.ti.bytes
  else
    let ctr := card.plusWCtr.toUInt8
    card.ti.bytes ++ [0, 0, 0, ctr, 0, 0, 0, ctr, 0, 0, 0, ctr]

/-! ## Authentication -/

/-- The opening frame. -/
def plusAuthFrame (keyBlock : UInt16) (first : Bool) : Bytes :=
  (if first then mfpAuthFirst else mfpAuthNonfirst) ::
    (putU16 keyBlock ++ (if first then [0x00] else []))

/-- A session key vector: five bytes of each random number from `hi`, five
mixed ones from `lo`, and the constant. -/
def plusSessionVector (rndA rndB : Bytes) (hi lo : Nat) (constant : UInt8) :
    Bytes :=
  (rndA.drop hi).take 5 ++ (rndB.drop hi).take 5 ++
    Bytes.xor ((rndA.drop lo).take 5) ((rndB.drop lo).take 5) ++ [constant]

section

variable [BlockCipher]

/-- The second frame and RndB, from the card's first answer. -/
def plusToken (key : Key) (ivRead ivWrite rndA resp : Bytes) :
    Except Err (Bytes × Bytes) := do
  let (rndB, _) ← cbcCrypt .aes128 key.data.bytes ivRead
    ((resp.drop 1).take 16) false
  let (token, _) ← cbcCrypt .aes128 key.data.bytes ivWrite
    (rndA ++ rndB.drop 1 ++ rndB.take 1) true
  return (dfAdditionalFrame :: token, rndB)

/-- The card's proof and the session. -/
def plusAccept (keyBlock : UInt16) (key : Key) (first : Bool)
    (ivRead rndA rndB resp : Bytes) (card : Card) : Except Err Unit × Card :=
  if resp.length ≠ (if first then 33 else 17) then (.error .length, card)
  else
    match cbcCrypt .aes128 key.data.bytes ivRead (resp.drop 1) false with
    | .error e => (.error e, card)
    | .ok (raw, _) =>
        if rndA ≠ ev2ReturnedRndA raw first then (.error .auth, card)
        else
          let card :=
            { card with
              sessionEnc := card.sessionEnc.put
                (ecbEncryptBlock .aes128 key.data.bytes
                  (plusSessionVector rndA rndB 11 4 0x11))
              sessionMac := card.sessionMac.put
                (ecbEncryptBlock .aes128 key.data.bytes
                  (plusSessionVector rndA rndB 7 0 0x22)) }
          let card := if first then
              { card with
                ti := card.ti.put (raw.take 4)
                plusRCtr := 0
                plusWCtr := 0 }
            else card
          (.ok (),
            { card with
              key := card.key.put (key.data.bytes.take 16)
              keyType := .aes128
              keyNo := keyBlock.toUInt8
              channel := .ev2
              authenticated := true })

/-- `nxpsc_plus_authenticate`. The non first form runs under the counters of
whatever session there is. -/
def plusAuthenticate (rng : Rng) (keyBlock : UInt16) (key : Option Key)
    (first : Bool) : Api Unit :=
  match key with
  | none => Prog.fail .param
  | some key =>
      if key.type ≠ .aes128 then Prog.fail .unsupported
      else do
        Prog.modify fun card => if first then resetChannel card else card
        let resp ← plusTransceive (plusAuthFrame keyBlock first) 64
        if resp.length < 17 then Prog.fail .length
        else
          let card ← Prog.get
          let ivRead :=
            if first then Bytes.zeros 16 else plusDataIv card true
          let ivWrite :=
            if first then Bytes.zeros 16 else plusDataIv card false
          let rndA ← Prog.ofExcept (randomBytes rng 16)
          let token ← Prog.ofExcept (plusToken key ivRead ivWrite rndA resp)
          let proof ← plusTransceive token.1 64
          Prog.act (plusAccept keyBlock key first ivRead rndA token.2 proof)

/-! ## Reading -/

/-- The opcode: bit 0 clears the response MAC, bit 1 disables enciphering. -/
def plusReadOpcode (encrypted maced : Bool) : UInt8 :=
  let opcode : UInt8 := if maced then 0x31 else 0x31 ^^^ 0x01
  if encrypted then opcode else opcode ^^^ 0x02

/-- The answer of `nxpsc_plus_read`. The mismatch flag is the handle's: an
answer read without a MAC leaves it as it was. -/
def plusReadAnswer (block : UInt16) (count : UInt8) (encrypted maced : Bool)
    (resp : Bytes) (card : Card) : Except Err Bytes × Card :=
  let payload := count.toNat * mfpBlockSize
  let body := (resp.drop 1).take payload
  if resp.length < payload + 1 then (.error .length, card)
  else
    let plain := if encrypted then
        (cbcCrypt .aes128 card.sessionEnc.bytes (plusDataIv card true) body
          false).map Prod.fst
      else .ok body
    match plain with
    | .error e => (.error e, card)
    | .ok out =>
        let checked : Except Err Bool :=
          if maced = false then .ok card.macMismatch
          else if resp.length < payload + 9 then .error .length
          else
            (plusMac card .readResp block count (resp.take (payload + 1))).map
              fun expected =>
                decide (expected ≠ (resp.drop (1 + payload)).take 8)
        match checked with
        | .error e => (.error e, card)
        | .ok mismatch =>
            let card :=
              { card with
                macMismatch := mismatch
                plusRCtr := card.plusRCtr + 1 }
            if mismatch then (.error .crypto, card) else (.ok out, card)

def plusRead (block : UInt16) (count : UInt8) (encrypted maced : Bool)
    (cap : Nat) : Api Bytes :=
  if count = 0 then Prog.fail .param
  else do
    let card ← Prog.get
    if card.authenticated = false then Prog.fail .auth
    else if cap < count.toNat * mfpBlockSize then Prog.fail .length
    else
      let cmd := plusReadOpcode encrypted maced :: (putU16 block ++ [count])
      let mac ← Prog.ofExcept (plusMac card .readCmd block count cmd)
      let resp ← plusTransceive (cmd ++ mac) maxResponse
      Prog.act (plusReadAnswer block count encrypted maced resp)

/-! ## Writing -/

/-- The commands that end in a MAC and advance the write counter: the frame
is `cmd` and its MAC. -/
def plusMaced (block : UInt16) (cmd : Bytes) : Api Unit := do
  let card ← Prog.get
  let mac ← Prog.ofExcept (plusMac card .writeCmd block 1 cmd)
  let _ ← plusTransceive (cmd ++ mac) 32
  Prog.modify fun card => { card with plusWCtr := card.plusWCtr + 1 }

def plusWriteBlock (opcode : UInt8) (block : UInt16) (data : Bytes)
    (encrypted : Bool) : Api Unit :=
  if data.length ≠ mfpBlockSize then Prog.fail .param
  else do
    let card ← Prog.get
    if card.authenticated = false then Prog.fail .auth
    else
      let body ← Prog.ofExcept
        (if encrypted then
          (cbcCrypt .aes128 card.sessionEnc.bytes (plusDataIv card false) data
            true).map Prod.fst
        else .ok data)
      plusMaced block (opcode :: (putU16 block ++ body))

def plusWrite (block : UInt16) (data : Bytes) (encrypted : Bool) : Api Unit :=
  plusWriteBlock (if encrypted then mfpWriteEnc else mfpWritePlain) block data
    encrypted

/-- A value as a full block, the upper 12 bytes zero. -/
def plusValue (delta : Int32) : Bytes :=
  putU32 delta.toUInt32 ++ Bytes.zeros 12

/-- The value commands: the opcode without bit 1 when enciphered. -/
def plusValueCmd (credit debit : UInt8) (block : UInt16) (delta : Int32)
    (isCredit encrypted : Bool) : Api Unit := do
  let card ← Prog.get
  if card.authenticated = false then Prog.fail .auth
  else
    let opcode := if isCredit then credit else debit
    plusWriteBlock (if encrypted then opcode else opcode ^^^ 0x02) block
      (plusValue delta) encrypted

def plusValueOp (block : UInt16) (delta : Int32) (credit encrypted : Bool) :
    Api Unit :=
  plusValueCmd mfpIncrementEnc mfpDecrementEnc block delta credit encrypted

def plusValueTransfer (block : UInt16) (delta : Int32)
    (credit encrypted : Bool) : Api Unit :=
  plusValueCmd mfpIncrementTransferEnc mfpDecrementTransferEnc block delta
    credit encrypted

/-- The commands that take a block and no data. -/
def plusBlockCmd (opcode : UInt8) (block : UInt16) : Api Unit := do
  let card ← Prog.get
  if card.authenticated = false then Prog.fail .auth
  else plusMaced block (opcode :: putU16 block)

def plusRestore (block : UInt16) : Api Unit := plusBlockCmd mfpRestore block

def plusTransfer (block : UInt16) : Api Unit := plusBlockCmd mfpTransfer block

end

/-! ## Outside a session -/

/-- `nxpsc_plus_write_perso`: personalisation runs before any session. -/
def plusWritePerso (block : UInt16) (data : Bytes) : Api Unit :=
  if data.length ≠ mfpBlockSize then Prog.fail .param
  else (plusTransceive (mfpWritePerso :: (putU16 block ++ data)) 16).ignore

def plusCommitPerso : Api Unit := (plusTransceive [mfpCommitPerso] 16).ignore

/-- `nxpsc_plus_reset_auth`: the card drops the session either way. -/
def plusResetAuth : Api Unit := do
  let rc ← Prog.attempt (plusTransceive [mfpResetAuth] 16)
  Prog.modify resetChannel
  Prog.ofExcept (rc.map fun _ => ())

def plusSetConfigSl1 (data : Bytes) : Api Unit :=
  if data.length = 0 ∨ 32 < data.length then Prog.fail .param
  else (plusTransceive (mfpSetConfigSl1 :: data) 16).ignore

def plusPersonalizeUid (uidType : UInt8) : Api Unit :=
  (plusTransceive [mfpPersonalizeUidUsage, uidType] 16).ignore

def plusVcSupportLastIsoL3 (cap : Nat) : Api Bytes :=
  plusTransceive [mfpVcSupportLastIsoL3] cap

end Nxpsc
