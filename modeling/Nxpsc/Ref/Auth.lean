import Nxpsc.Ref.Core

/-!
# `nxpsc_channel.c`: authentication

Every handshake is two raw exchanges with a computation after each: the
first opens it and fetches RndB, the second sends the token and fetches the
proof. The computations are functions of their own, so a handshake reads as
the conversation it is; the last one, `…Accept`, checks the card's proof and
is the only place where a session is set up.
-/

namespace Nxpsc

open Dialogue

/-- `rol`: the first byte goes to the end. -/
def rol : Bytes → Bytes
  | [] => []
  | x :: rest => rest ++ [x]

def pickChannel (card : Card) (key : Key) : Channel :=
  match card.type with
  | .desfireMf3icd40 => .d40
  | .desfireEv2 | .desfireEv2Xl | .desfireEv3 =>
      -- these still hold (2K3)DES keys, the factory PICC master key is one
      if key.type = .des ∨ key.type = .k2k3des then .d40
      else if key.type = .k3k3des then .ev1
      else .ev2
  | .desfireLight | .ntag424 | .duox => .ev2
  | .desfireEv1 | .ntag413dna =>
      if key.type = .des ∨ key.type = .k2k3des then .d40 else .ev1
  | .unknown | .plusEv1 | .plusEv2 => if key.type = .des then .d40 else .ev1

/-! ## D40 and EV1 -/

/-- The length of the random numbers. -/
def legacyRndLen (key : Key) : Nat :=
  if key.type = .aes128 ∨ key.type = .aes256 ∨ key.type = .k3k3des then 16
  else 8

/-- The opening opcode. -/
def legacyCmd (key : Key) (channel : Channel) : UInt8 :=
  if channel = .ev1 then
    if key.type = .aes128 ∨ key.type = .aes256 then dfAuthenticateAes
    else dfAuthenticateIso
  else dfAuthenticate

/-- What the second pass needs of the first: the token to send, RndB, and the
IV the proof continues from. -/
structure LegacyToken where
  both : Bytes
  rndB : Bytes
  iv : Bytes

section

variable [BlockCipher]

/-- The token of `auth_legacy` from the card's first answer. -/
def legacyToken (key : Key) (channel : Channel) (rndA resp : Bytes) :
    Except Err LegacyToken := do
  let data := key.data.bytes
  let (rndB, iv) ←
    cbcCryptEx key.type data (Bytes.zeros maxBlock) resp false false
  if channel = .d40 then
    -- MF3ICD40 can only encrypt, the reader side runs the decrypt primitive
    let (encA, _) ←
      cbcCryptEx key.type data (Bytes.zeros maxBlock) rndA true false
    let (encB, iv) ← cbcCryptEx key.type data (Bytes.zeros maxBlock)
      (Bytes.xor (rol rndB) encA) true false
    return ⟨encA ++ encB, rndB, iv⟩
  else
    -- the IV carries on from deciphering RndB
    let (both, iv) ← cbcCryptEx key.type data iv (rndA ++ rol rndB) true true
    return ⟨both, rndB, iv⟩

/-- The session key of `auth_legacy`: a 2TDEA key with equal halves is a
single DES key and gets the single DES session key, duplicated. -/
def legacySession (key : Key) (rndA rndB : Bytes) : Bytes :=
  if key.type = .k2k3des ∧
      key.data.bytes.take 8 = (key.data.bytes.drop 8).take 8 then
    let session := sessionKeyD40 rndA rndB .des
    session ++ session
  else sessionKeyD40 rndA rndB key.type

/-- The end of `auth_legacy`: the card's proof, and the session. -/
def legacyAccept (keyNo : UInt8) (key : Key) (channel : Channel)
    (rndA : Bytes) (token : LegacyToken) (resp : Bytes) (card : Card) :
    Except Err Unit × Card :=
  let iv := if channel = .d40 then Bytes.zeros maxBlock else token.iv
  match cbcCryptEx key.type key.data.bytes iv resp false false with
  | .error e => (.error e, card)
  | .ok (encRndA, _) =>
      if rol rndA ≠ encRndA then (.error .auth, card)
      else
        let size := keySize key.type
        let session :=
          (Bytes.fit maxKeySize (legacySession key rndA token.rndB)).take size
        (.ok (),
          { card with
            channel := channel
            keyType := key.type
            keyNo := keyNo
            key := card.key.put (key.data.bytes.take size)
            sessionEnc := card.sessionEnc.put session
            sessionMac := card.sessionMac.put session
            iv := .zero 16
            authenticated := true })

end

def authLegacy [BlockCipher] (rng : Rng) (keyNo : UInt8) (key : Key)
    (channel : Channel) : Api Unit := do
  let rndLen := legacyRndLen key
  let first ← rawExchangeEx (legacyCmd key channel) [keyNo] 64 false
  if first.1 ≠ dfSAdditionalFrame ∨ first.2.length ≠ rndLen then
    Prog.fail .auth
  else
    let rndA ← Prog.ofExcept (randomBytes rng rndLen)
    let token ← Prog.ofExcept (legacyToken key channel rndA first.2)
    let second ← rawExchangeEx dfAdditionalFrame token.both 64 false
    if second.1 ≠ dfSOk ∨ second.2.length ≠ rndLen then Prog.fail .auth
    else Prog.act (legacyAccept keyNo key channel rndA token second.2)

/-! ## EV2 -/

/-- The first answer of `auth_ev2`: RndB enciphered, perhaps after a mode
byte. -/
def ev2Challenge (resp : Bytes) : Except Err Bytes :=
  if resp.length = aesBlock + 1 then
    if resp.headD 0 ≠ 0x00 then .error .auth else .ok (resp.drop 1)
  else if resp.length ≠ aesBlock then .error .length
  else .ok resp

section

variable [BlockCipher]

/-- The token of `auth_ev2` and RndB. -/
def ev2Token (key : Key) (rndA challenge : Bytes) :
    Except Err (Bytes × Bytes) := do
  let (rndB, _) ← cbcCrypt .aes128 key.data.bytes (Bytes.zeros aesBlock)
    challenge false
  let (both, _) ← cbcCrypt .aes128 key.data.bytes (Bytes.zeros aesBlock)
    (rndA ++ rol rndB) true
  return (both, rndB)

/-- The rotated RndA in the proof, rotated back. -/
def ev2ReturnedRndA (data : Bytes) (first : Bool) : Bytes :=
  if first then data.getD 19 0 :: (data.drop 4).take (aesBlock - 1)
  else data.getD 15 0 :: data.take (aesBlock - 1)

/-- A session key of `nxpsc_session_key_ev2`, written into its buffer. -/
def putSessionKeyEv2 (buf : Buf 32) (key rndA rndB : Bytes) (encKey : Bool) :
    Buf 32 :=
  match sessionKeyEv2 key rndA rndB encKey with
  | .error _ => buf
  | .ok session => buf.put session

/-- The end of `auth_ev2`. -/
def ev2Accept (keyNo : UInt8) (key : Key) (first : Bool) (rndA rndB : Bytes)
    (resp : Bytes) (card : Card) : Except Err Unit × Card :=
  if resp.length ≠ (if first then aesBlock * 2 else aesBlock) then
    (.error .length, card)
  else
    match cbcCrypt .aes128 key.data.bytes (Bytes.zeros aesBlock) resp false with
    | .error e => (.error e, card)
    | .ok (data, _) =>
        if rndA ≠ ev2ReturnedRndA data first then (.error .auth, card)
        else
          let card := if first then
              { card with cmdCtr := 0, ti := card.ti.put (data.take 4) }
            else card
          let keyData := key.data.bytes
          (.ok (),
            { card with
              iv := .zero 16
              sessionEnc :=
                putSessionKeyEv2 card.sessionEnc keyData rndA rndB true
              sessionMac :=
                putSessionKeyEv2 card.sessionMac keyData rndA rndB false
              channel := .ev2
              keyType := key.type
              keyNo := keyNo
              key := card.key.put (keyData.take (keySize key.type))
              authenticated := true })

end

def authEv2 [BlockCipher] (rng : Rng) (keyNo : UInt8) (key : Key)
    (first : Bool) : Api Unit := do
  let cmd := if first then dfAuthenticateEv2f else dfAuthenticateEv2nf
  let opening ← rawExchangeEx cmd (if first then [keyNo, 0x00] else [keyNo])
    64 false
  if opening.1 ≠ dfSAdditionalFrame then Prog.fail .auth
  else
    let challenge ← Prog.ofExcept (ev2Challenge opening.2)
    let rndA ← Prog.ofExcept (randomBytes rng aesBlock)
    let token ← Prog.ofExcept (ev2Token key rndA challenge)
    let proof ← rawExchangeEx dfAdditionalFrame token.1 64 false
    if proof.1 ≠ dfSOk then Prog.fail .auth
    else Prog.act (ev2Accept keyNo key first rndA token.2 proof.2)

/-! ## LRP -/

section

variable [BlockCipher]

/-- The end of `auth_lrp`. The IV is cleared before the proof is looked at. -/
def lrpAccept (keyNo : UInt8) (key : Key) (first : Bool)
    (rndA rndB session resp : Bytes) (card : Card) : Except Err Unit × Card :=
  let card := { card with iv := .zero 16 }
  let ctx := lrpInit session 0 true
  let cmac := lrpCmac ctx
    (rndB ++ rndA ++ (if first then resp.take aesBlock else []))
  let received := (resp.drop (if first then aesBlock else 0)).take aesBlock
  if resp.length < (if first then aesBlock * 2 else aesBlock) then
    (.error .length, card)
  else if received ≠ cmac then (.error .auth, card)
  else
    let card := if first then
        let done := lrpDecode
          (lrpSetCounter (lrpInit session 1 false) card.iv.bytes (4 * 2))
          (resp.take aesBlock) aesBlock
        let data := match done.1 with
          | .error _ => Bytes.zeros aesBlock
          | .ok (out, _) => out
        { card with
          iv := card.iv.put (done.2.counter.bytes.take 4)
          cmdCtr := 0
          ti := card.ti.put (data.take 4) }
      else card
    (.ok (),
      { card with
        sessionEnc := card.sessionEnc.put (session.take aesBlock)
        sessionMac := card.sessionMac.put (session.take aesBlock)
        channel := .lrp
        keyType := key.type
        keyNo := keyNo
        key := card.key.put (key.data.bytes.take (keySize key.type))
        authenticated := true })

end

/-- `auth_lrp`. The PICC returns RndB in the clear. -/
def authLrp [BlockCipher] (rng : Rng) (keyNo : UInt8) (key : Key)
    (first : Bool) : Api Unit := do
  let cmd := if first then dfAuthenticateEv2f else dfAuthenticateEv2nf
  let opening ← rawExchangeEx cmd
    (if first then [keyNo, 0x01, 0x02] else [keyNo]) 64 false
  if opening.1 ≠ dfSAdditionalFrame ∨ opening.2.length ≠ aesBlock + 1 ∨
      opening.2.headD 0 ≠ 0x01 then Prog.fail .auth
  else
    let rndA ← Prog.ofExcept (randomBytes rng aesBlock)
    let rndB := opening.2.drop 1
    let session := sessionKeyLrp key.data.bytes rndA rndB
    let cmac := lrpCmac (lrpInit session 0 true) (rndA ++ rndB)
    let proof ← rawExchangeEx dfAdditionalFrame (rndA ++ cmac) 64 false
    if proof.1 ≠ dfSOk ∨ proof.2.length < aesBlock then Prog.fail .auth
    else Prog.act (lrpAccept keyNo key first rndA rndB session proof.2)

/-! ## The public entry points -/

/-- `nxpsc_authenticate` after the session was reset. -/
def authenticateOn [BlockCipher] (rng : Rng) (keyNo : UInt8) (key : Key)
    (chan : Channel) : Api Unit :=
  if (chan = .ev2 ∨ chan = .lrp) ∧ key.type ≠ .aes128 then
    Prog.fail .unsupported
  else
    match chan with
    | .d40 | .ev1 => authLegacy rng keyNo key chan
    | .ev2 => authEv2 rng keyNo key true
    | .lrp => authLrp rng keyNo key true
    | .auto => Prog.fail .param

def authenticate [BlockCipher] (rng : Rng) (keyNo : UInt8) (key : Option Key)
    (channel : Channel) : Api Unit :=
  match key with
  | none => Prog.fail .param
  | some key => do
      Prog.modify resetChannel
      let card ← Prog.get
      authenticateOn rng keyNo key
        (if channel = .auto then pickChannel card key else channel)

def authenticateNonfirst [BlockCipher] (rng : Rng) (keyNo : UInt8)
    (key : Option Key) : Api Unit :=
  match key with
  | none => Prog.fail .param
  | some key => do
      let card ← Prog.get
      if card.authenticated = false then Prog.fail .auth
      else if card.channel = .lrp then authLrp rng keyNo key false
      else if card.channel = .ev2 then authEv2 rng keyNo key false
      else Prog.fail .unsupported

end Nxpsc
