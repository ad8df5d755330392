import Nxpsc.Lib.Dialogue
import Nxpsc.Ref.Channel

/-!
# `nxpsc_core.c`: framing, chaining, the exchange, identification

The transport is the party the library talks to: a query is a frame, an
answer is what `transceive` reported, an error of its own or the bytes it
wrote to `rx`. Nothing restricts the answers, so a run over every script is
a run against every card and every fault of the link.

The library's return code is the `Except` of a program; the output
parameters are its value. Everything is written through the handle, so an
exit that leaves the handle in another state than it found it shows.
-/

namespace Nxpsc

open Dialogue

/-- What goes on the wire. The framing of a native command depends on the
command set of the handle; `apdu` and `plus` frames are sent as they are. -/
inductive Frame where
  | native (cmd : UInt8) (data : Bytes)
  | wrapped (cmd : UInt8) (data : Bytes)
  | apdu (bytes : Bytes)
  | plus (bytes : Bytes)
  deriving DecidableEq

/-- The octets of a frame. -/
def Frame.bytes : Frame → Bytes
  | .native cmd data => cmd :: data
  | .wrapped cmd data =>
      [isoClaWrap, cmd, 0x00, 0x00] ++
        (if data.length = 0 then [] else UInt8.ofNat data.length :: data) ++
        [0x00]
  | .apdu bytes => bytes
  | .plus bytes => bytes

/-- What `transceive` reports. -/
abbrev Answer := Except Err Bytes

/-- A call of the library. -/
abbrev Api (α : Type) := Prog Card Frame Answer Err α

/-! ## Framing -/

/-- The static `transceive`: an empty answer is a fault of the transport.
`rxCap` is the size of the receive buffer. -/
def transceived (rxCap : Nat) (answer : Answer) : Except Err Bytes :=
  match answer with
  | .error e => .error e
  | .ok rx =>
      if (rx.take rxCap).length = 0 then .error .transport
      else .ok (rx.take rxCap)

/-- The request half of `frame_exchange`. -/
def frameRequest (cmd : UInt8) (data : Bytes) (card : Card) :
    Except Err Frame :=
  if maxApdu - 6 < data.length then .error .length
  else if card.cmdset = .nativeIso ∨ card.cmdset = .iso then
    .ok (.wrapped cmd data)
  else .ok (.native cmd data)

/-- The answer half of `frame_exchange`: the status and the data. -/
def frameResponse (card : Card) (cap : Nat) (answer : Answer) :
    Except Err (UInt8 × Bytes) :=
  match transceived maxApdu answer with
  | .error e => .error e
  | .ok rx =>
      if card.cmdset = .nativeIso ∨ card.cmdset = .iso then
        if rx.length < 2 then .error .length
        -- 91 XX carries the native status in SW2
        else if rx.getD (rx.length - 2) 0 ≠ 0x91 then .error .card
        else if cap < rx.length - 2 then .error .length
        else .ok (rx.getD (rx.length - 1) 0, rx.take (rx.length - 2))
      else if cap < rx.length - 1 then .error .length
      else .ok (rx.headD 0, rx.drop 1)

/-! ## Chaining -/

/-- What is left to send: the opcode of the next frame and the bytes from
there on. -/
structure Pending where
  cmd : UInt8
  rest : Bytes

/-- The next frame of a chained request. -/
def Pending.request (p : Pending) (card : Card) : Except Err Frame :=
  frameRequest p.cmd (p.rest.take txFrameMax) card

/-- One round of the outbound loop. The card acknowledges every intermediate
frame with 0xAF; the answer to the last one leaves the loop. -/
def Pending.react (cap : Nat) (p : Pending) (answer : Answer) (card : Card) :
    Except Err (Pending ⊕ UInt8 × Bytes) × Card :=
  match frameResponse card maxApdu answer with
  | .error e => (.error e, card)
  | .ok (status, got) =>
      if txFrameMax < p.rest.length then
        if status ≠ dfSAdditionalFrame then
          (.error .card, { card with lastStatus := status })
        else
          (.ok (.inl ⟨dfAdditionalFrame, p.rest.drop txFrameMax⟩), card)
      else if cap < got.length then (.error .length, card)
      else (.ok (.inr (status, got)), card)

/-- The outbound loop of `nxpsc_raw_exchange_ex`. -/
def sendRequest (cmd : UInt8) (data : Bytes) (cap : Nat) :
    Api (UInt8 × Bytes) :=
  Prog.converse Pending.request (Pending.react cap) ⟨cmd, data⟩

/-- One round of the inbound loop, on what was received so far. -/
def collectReact (cap : Nat) (resp : Bytes) (answer : Answer) (card : Card) :
    Except Err (Bytes ⊕ UInt8 × Bytes) × Card :=
  match frameResponse card maxApdu answer with
  | .error e => (.error e, card)
  | .ok (status, got) =>
      if cap < resp.length + got.length then (.error .length, card)
      else if status = dfSAdditionalFrame then
        (.ok (.inl (resp ++ got)), card)
      else (.ok (.inr (status, resp ++ got)), card)

/-- The inbound loop of `nxpsc_raw_exchange_ex`. -/
def collect (cap : Nat) (followAf : Bool) (status : UInt8) (resp : Bytes) :
    Api (UInt8 × Bytes) :=
  if followAf = true ∧ status = dfSAdditionalFrame then
    Prog.converse (fun _ card => frameRequest dfAdditionalFrame [] card)
      (collectReact cap) resp
  else pure (status, resp)

/-- `nxpsc_raw_exchange_ex`: the last status and the data of all frames. -/
def rawExchangeEx (cmd : UInt8) (data : Bytes) (cap : Nat) (followAf : Bool) :
    Api (UInt8 × Bytes) := do
  let first ← sendRequest cmd data cap
  let last ← collect cap followAf first.1 first.2
  Prog.modify fun card => { card with lastStatus := last.1 }
  pure last

def rawExchange (cmd : UInt8) (data : Bytes) (cap : Nat) :
    Api (UInt8 × Bytes) :=
  rawExchangeEx cmd data cap true

/-! ## The exchange -/

section

variable [BlockCipher]

/-- `nxpsc_exchange` up to the wire: the mode, the refusal after a lost
session, the encoding. -/
def exchangeRequest (cmd : UInt8) (data : Bytes) (txMode rxMode : Mode)
    (card : Card) : Except Err Bytes × Card :=
  -- the card dropped the session under us, a MACed or enciphered frame would
  -- only be read as trailing garbage
  if card.sessionLost = true ∧ (txMode ≠ .plain ∨ rxMode ≠ .plain) then
    (.error .auth, { card with mode := txMode, macMismatch := false })
  else
    channelEncode cmd data maxResponse
      { card with mode := txMode, macMismatch := false }

/-- `nxpsc_exchange` once the whole answer is in. -/
def exchangeAnswer (rxMode : Mode) (cap : Nat) (status : UInt8) (raw : Bytes)
    (card : Card) : Except Err Bytes × Card :=
  if statusEndsSession status then
    (.error .card,
      if card.authenticated then
        { resetChannel card with sessionLost := true }
      else card)
  else
    -- only a command the PICC carried out advances the counter, and the
    -- response MAC is computed over the advanced value
    let card := if status ≠ dfSAdditionalFrame ∧ card.authenticated = true ∧
        (card.channel = .ev2 ∨ card.channel = .lrp) then
        { card with cmdCtr := card.cmdCtr + 1 }
      else card
    channelDecode raw status cap { card with mode := rxMode }

def exchange (cmd : UInt8) (data : Bytes) (txMode rxMode : Mode)
    (cap : Nat) : Api Bytes := do
  let wrapped ← Prog.act (exchangeRequest cmd data txMode rxMode)
  let answer ← rawExchange cmd wrapped maxResponse
  Prog.act (exchangeAnswer rxMode cap answer.1 answer.2)

def command (cmd : UInt8) (data : Bytes) (txMode rxMode : CommMode)
    (cap : Nat) : Api Bytes :=
  exchange cmd data (modeFromPublic txMode) (modeFromPublic rxMode) cap

end

/-! ## ISO 7816-4 APDUs -/

/-- The request half of `nxpsc_iso_exchange`. -/
def isoRequest (cla ins p1 p2 : UInt8) (data : Bytes) (lePresent : Bool)
    (le : Nat) : Except Err Frame :=
  if 255 < data.length ∨ 256 < le then .error .length
  else
    .ok (.apdu ([cla, ins, p1, p2] ++
      (if data.length = 0 then [] else UInt8.ofNat data.length :: data) ++
      (if lePresent then [if le = 256 then 0x00 else UInt8.ofNat le]
        else [])))

/-- The statuses `nxpsc_iso_exchange` does not take for an error. -/
def isoSwOk (sw1 sw2 : UInt8) : Bool :=
  decide ((sw1 = 0x90 ∧ sw2 = 0x00) ∨ sw1 = 0x91 ∨ sw1 = 0x61)

/-- The answer half of `nxpsc_iso_exchange`: the data and the status word. -/
def isoAnswer (cap : Nat) (answer : Answer) (card : Card) :
    Except Err (Bytes × UInt8 × UInt8) × Card :=
  match transceived maxApdu answer with
  | .error e => (.error e, card)
  | .ok rx =>
      if rx.length < 2 then (.error .length, card)
      else
        let sw1 := rx.getD (rx.length - 2) 0
        let sw2 := rx.getD (rx.length - 1) 0
        let card := { card with lastStatus := sw2 }
        if cap < rx.length - 2 then (.error .length, card)
        else if isoSwOk sw1 sw2 then
          (.ok (rx.take (rx.length - 2), sw1, sw2), card)
        else (.error .card, card)

def isoExchange (cla ins p1 p2 : UInt8) (data : Bytes) (lePresent : Bool)
    (le cap : Nat) : Api (Bytes × UInt8 × UInt8) := do
  let frame ← Prog.ofExcept (isoRequest cla ins p1 p2 data lePresent le)
  let answer ← Prog.ask frame
  Prog.act (isoAnswer cap answer)

/-! ## Calls that are one exchange

Most of the public API checks its arguments, makes one `nxpsc_exchange` and
reads the answer. Such a call is its request, a function of the handle, and
what it does with the answer. -/

/-- The arguments of one `nxpsc_exchange`. -/
structure Request where
  cmd : UInt8
  data : Bytes
  txMode : Mode
  rxMode : Mode
  cap : Nat

/-- A public call that makes one exchange. -/
def dataCall [BlockCipher] {α : Type} (request : Card → Except Err Request)
    (finish : Bytes → Card → Except Err α × Card) : Api α := do
  let card ← Prog.get
  let req ← Prog.ofExcept (request card)
  let resp ← exchange req.cmd req.data req.txMode req.rxMode req.cap
  Prog.act (finish resp)

/-- An answer nothing is read from. -/
def noAnswer (_ : Bytes) (card : Card) : Except Err Unit × Card :=
  (.ok (), card)

/-! ## Identification -/

def cardTypeFromVersion (type major minor : UInt8) : CardType :=
  if type = 0x01 ∧ major = 0x00 ∧ minor = 0x02 then .desfireMf3icd40
  else if type = 0x01 ∧ major = 0x01 ∧ minor = 0x00 then .desfireEv1
  else if type = 0x01 ∧ major = 0x12 ∧ minor = 0x00 then .desfireEv2
  else if type = 0x01 ∧ major = 0x22 ∧ minor = 0x00 then .desfireEv2Xl
  else if type = 0x01 ∧ major = 0x33 ∧ minor = 0x00 then .desfireEv3
  else if type = 0x81 ∧ major = 0x43 ∧ minor = 0x01 then .desfireEv3
  else if type = 0x01 ∧ major = 0xA0 ∧ minor = 0x00 then .duox
  else if type = 0x08 ∧ major = 0x30 ∧ minor = 0x00 then .desfireLight
  -- combo card DESFire / EMV
  else if type = 0x81 ∧ major = 0x42 ∧ minor = 0x00 then .desfireEv2
  -- Apple wallet DESFire applet
  else if type = 0x91 ∧ major = 0x62 ∧ (minor = 0x01 ∨ minor = 0x00) then
    .desfireEv2
  else if type = 0x02 ∧ major = 0x11 ∧ minor = 0x00 then .plusEv1
  else if type = 0x02 ∧ major = 0x22 ∧ minor = 0x00 then .plusEv2
  else if major = 0x10 ∧ minor = 0x00 then .ntag413dna
  else if type = 0x04 ∧ major = 0x30 ∧ minor = 0x00 then .ntag424
  else .unknown

/-- The answer mode of the commands that are MACed once there is a session:
`card->authenticated ? MODE_MAC : MODE_PLAIN`. -/
def macIfAuthenticated (card : Card) : Mode :=
  if card.authenticated then .mac else .plain

def getVersionRequest (card : Card) : Except Err Request :=
  .ok ⟨dfGetVersion, [], .plain, macIfAuthenticated card, 64⟩

/-- The fields of `nxpsc_version_t` in the order the card sends them. -/
def parseVersion (resp : Bytes) : Version where
  hwVendor := resp.getD 0 0
  hwType := resp.getD 1 0
  hwSubtype := resp.getD 2 0
  hwMajor := resp.getD 3 0
  hwMinor := resp.getD 4 0
  hwStorage := resp.getD 5 0
  hwProtocol := resp.getD 6 0
  swVendor := resp.getD 7 0
  swType := resp.getD 8 0
  swSubtype := resp.getD 9 0
  swMajor := resp.getD 10 0
  swMinor := resp.getD 11 0
  swStorage := resp.getD 12 0
  swProtocol := resp.getD 13 0
  uid := .of 7 (resp.drop 14)
  batch := .of 5 (resp.drop 21)
  week := resp.getD 26 0
  year := resp.getD 27 0
  hasBatchExtra := decide (30 ≤ resp.length)

def getVersionAnswer (resp : Bytes) (card : Card) :
    Except Err Version × Card :=
  if resp.length < 28 then (.error .length, card)
  else
    let v := parseVersion resp
    let card :=
      { card with
        version := v
        versionRead := true
        type := cardTypeFromVersion v.hwType v.hwMajor v.hwMinor }
    (.ok v,
      if card.uidLen = 0 then
        { card with uid := card.uid.put v.uid.bytes, uidLen := 7 }
      else card)

def getVersion [BlockCipher] : Api Version :=
  dataCall getVersionRequest getVersionAnswer

/-- `nxpsc_identify`: the version is read once. -/
def identify [BlockCipher] : Api CardType := do
  let card ← Prog.get
  if card.versionRead = false then
    let _ ← getVersion
    let card ← Prog.get
    pure card.type
  else pure card.type

/-- `nxpsc_get_card_uid` without a session: the UID the transport reported. -/
def transportUid (cap : Nat) (card : Card) : Except Err Bytes :=
  if card.uidLen = 0 then .error .auth
  else if cap < card.uidLen then .error .length
  else .ok (card.uid.bytes.take card.uidLen)

/-- On EV2 and LRP a command carries its MAC even with no data. -/
def getCardUidRequest (card : Card) : Except Err Request :=
  .ok ⟨dfGetCardUid, [],
    if card.channel = .ev2 ∨ card.channel = .lrp then .mac else .plain,
    .enc, 32⟩

def getCardUidAnswer (cap : Nat) (resp : Bytes) (card : Card) :
    Except Err Bytes × Card :=
  if resp.length < 7 then (.error .length, card)
  else if cap < 7 then (.error .length, card)
  else
    (.ok (resp.take 7),
      { card with uid := card.uid.put (resp.take 7), uidLen := 7 })

def getCardUid [BlockCipher] (cap : Nat) : Api Bytes := do
  let card ← Prog.get
  if card.authenticated = false then Prog.ofExcept (transportUid cap card)
  else dataCall getCardUidRequest (getCardUidAnswer cap)

/-- A little endian value of three bytes, `get_u24`. -/
def getU24 (data : Bytes) (off : Nat) : UInt32 :=
  (data.getD off 0).toUInt32 ||| ((data.getD (off + 1) 0).toUInt32 <<< 8) |||
    ((data.getD (off + 2) 0).toUInt32 <<< 16)

def getFreeMemoryRequest (card : Card) : Except Err Request :=
  .ok ⟨dfGetFreeMemory, [], .plain, macIfAuthenticated card, 16⟩

def getFreeMemoryAnswer (resp : Bytes) (card : Card) :
    Except Err UInt32 × Card :=
  if resp.length < 3 then (.error .length, card)
  else (.ok (getU24 resp 0), card)

def getFreeMemory [BlockCipher] : Api UInt32 :=
  dataCall getFreeMemoryRequest getFreeMemoryAnswer

def getSignatureRequest (card : Card) : Except Err Request :=
  .ok ⟨dfReadSig, [0x00], .plain, macIfAuthenticated card, 128⟩

/-- An answer handed to the caller as it is, when it fits. -/
def copyAnswer (cap : Nat) (resp : Bytes) (card : Card) :
    Except Err Bytes × Card :=
  if cap < resp.length then (.error .length, card) else (.ok resp, card)

def getSignature [BlockCipher] (cap : Nat) : Api Bytes :=
  dataCall getSignatureRequest (copyAnswer cap)

end Nxpsc
