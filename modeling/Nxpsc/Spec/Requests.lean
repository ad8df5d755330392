import Nxpsc.Spec.Peer
import Nxpsc.Spec.Reply
import Nxpsc.Spec.Steps

/-!
# What becomes of a request

How a payload leaves the library: which part of it stays in the clear, which
part is enciphered, whether there is a MAC behind it, and how all that is cut
into frames. A call is tied to the exchange it makes, so that a statement
about its frames can speak of the modes it asked for.
-/

namespace Nxpsc

open Dialogue

/-! ## The shape of a request -/

structure RequestShape where
  clear : Bytes
  enciphered : Bytes
  maced : Bool
  deriving DecidableEq

/-- A request with nothing enciphered. -/
def RequestShape.open (src : Bytes) (maced : Bool) : RequestShape :=
  ⟨src, [], maced⟩

/-- A request whose header stays in the clear. -/
def RequestShape.closed (hdr : Nat) (src : Bytes) (maced : Bool) :
    RequestShape :=
  ⟨src.take hdr, src.drop hdr, maced⟩

/-- The handle remembers which request it is encoding. -/
def remember (cmd : UInt8) (src : Bytes) (card : Card) : Card :=
  { card with
    lastCmd := cmd
    lastRequestZeroLen := decide (src.length ≤ cmdHeaderLen cmd src.length) }

/-- What `nxpsc_channel_encode` makes of a payload. -/
def requestShape (cmd : UInt8) (src : Bytes) (card : Card) : RequestShape :=
  let hdr := min (cmdHeaderLen cmd src.length) src.length
  match card.channel with
  | .d40 =>
      if card.mode = .mac ∨ (card.mode = .enc ∧ src.length ≤ hdr) then
        .open src (decide (hdr < src.length) && transmitsMac card cmd)
      else if card.mode = .plain then .open src false
      else .closed hdr src false
  | .ev1 =>
      if card.mode = .plain ∨ card.mode = .mac ∨
          (card.mode = .enc ∧ src.length ≤ hdr) then
        .open src (decide (card.mode = .mac) && transmitsMac card cmd)
      else .closed hdr src false
  | .ev2 | .lrp =>
      if card.mode = .mac then .open src true
      else if card.mode = .plain then .open src false
      else .closed hdr src true
  | .auto => .open src false

section

variable [BlockCipher]

/-- `cipher` is what the channel enciphers `plain` to. -/
def EnciphersRequest (card : Card) (plain cipher : Bytes) : Prop :=
  match card.channel with
  | .d40 =>
      ∃ last, cbcCryptEx card.keyType card.sessionEnc.bytes
        (Bytes.zeros maxBlock) plain true false = .ok (cipher, last)
  | .ev1 =>
      ∃ last, cbcCrypt card.keyType card.sessionEnc.bytes card.iv.bytes plain
        true = .ok (cipher, last)
  | .ev2 | .lrp =>
      ∃ room after, ev2Encipher plain room card = (.ok cipher, after)
  | .auto => False

/-- `mac` is the channel's MAC of a request: on D40 over what follows the
header, on EV1 over the opcode and the payload, on EV2 and LRP over the opcode
and what is sent. -/
def MacsRequest (card : Card) (cmd : UInt8) (src sent mac : Bytes) : Prop :=
  let body := src.drop (min (cmdHeaderLen cmd src.length) src.length)
  match card.channel with
  | .d40 =>
      ∃ cipher last, cbcCryptEx card.keyType card.sessionMac.bytes
          (Bytes.zeros maxBlock)
          (Bytes.fit (paddedLen body.length (blockLen card)) body) true true =
          .ok (cipher, last) ∧
        mac = last.take 4
  | .ev1 =>
      ∃ full, cmac card.keyType card.sessionMac.bytes card.iv.bytes
          (cmd :: src) 0 = .ok full ∧
        mac = full.take 8
  | .ev2 | .lrp => ev2Cmac card cmd sent = .ok mac
  | .auto => False

/-- The bytes on the wire are the clear part, the enciphered part with what is
padded behind it, and the MAC. -/
def Sends (card : Card) (cmd : UInt8) (src : Bytes) (shape : RequestShape)
    (out : Bytes) : Prop :=
  src = shape.clear ++ shape.enciphered ∧
    ∃ cipher mac, out = shape.clear ++ cipher ++ mac ∧
      ((shape.enciphered = [] ∧ cipher = []) ∨
        ∃ pad, EnciphersRequest card (shape.enciphered ++ pad) cipher) ∧
      if shape.maced = true then
        MacsRequest card cmd src (shape.clear ++ cipher) mac
      else mac = []

/-! ## An encoder that fails -/

/-- What the handle and the card must agree on. -/
structure CryptoIntact (card card' : Card) : Prop where
  iv : card'.iv = card.iv
  cmdCtr : card'.cmdCtr = card.cmdCtr
  ti : card'.ti = card.ti
  sessionEnc : card'.sessionEnc = card.sessionEnc
  sessionMac : card'.sessionMac = card.sessionMac
  authenticated : card'.authenticated = card.authenticated
  channel : card'.channel = card.channel

/-- An EV1 request whose payload fits the destination, and whose MAC, which
it carries, does not. -/
def MacOutgrows (card : Card) (cmd : UInt8) (len cap : Nat) : Prop :=
  card.channel = .ev1 ∧ card.mode = .mac ∧ transmitsMac card cmd = true ∧
    len ≤ cap ∧ cap < len + 8

/-- The CMAC that EV1 chains over a request leads back to the IV it started
from. -/
def CmacFixesIv (card : Card) (cmd : UInt8) (src : Bytes) : Prop :=
  ∀ mac, cmac card.keyType card.sessionMac.bytes card.iv.bytes (cmd :: src) 0 =
    .ok mac → card.iv.put mac = card.iv

end

/-! ## On the wire -/

/-- The pieces a request is sent in. -/
def requestPieces (data : Bytes) : List Bytes :=
  Bytes.chunks txFrameMax (intermediateFrames data.length + 1) data

/-- The call ended in an error before anything was sent. -/
def Unsent {α : Type} (o : Outcome Card Frame Answer Err α) : Prop :=
  ∃ e card' rest, o = .done [] (.error e) card' rest

section

variable [BlockCipher]

/-- The handle a request is encoded on. -/
def encodesOn (before : Card) (req : Request) : Card :=
  remember req.cmd req.data
    { before with mode := req.txMode, macMismatch := false }

/-- The frames carry the request as far as the conversation came: what the
session makes of the payload, in pieces, and behind them what asks for the
rest of an answer. -/
def Conveys (before : Card) (req : Request) (frames : List Frame) : Prop :=
  ∃ wrapped m,
    Sends (encodesOn before req) req.cmd req.data
      (requestShape req.cmd req.data (encodesOn before req)) wrapped ∧
    frames <+: pieceFrames before.wraps req.cmd (requestPieces wrapped) ++
      List.replicate m (goOn before.wraps)

/-! ## The exchange of a call -/

/-- The exchange a call makes on a handle, and the handle it makes it on. -/
def Call.Exchanges (call : Call) (card before : Card) (req : Request) : Prop :=
  match call with
  | .selectApplication aid =>
      before = Nxpsc.resetChannel card ∧ fitsU24 aid = true ∧
        selectApplicationRequest aid before = .ok req
  | call =>
      before = card ∧ call.skips card = false ∧
        ∃ request, call.request = some request ∧ request card = .ok req

/-- The modes are the caller's. -/
def Call.generic : Call → Bool
  | .data (.command ..) => true
  | _ => false

/-- The calls that ask for a plain request and a verified answer. -/
def Call.sendsBare (call : Call) (card : Card) : Bool :=
  match call with
  | .data .getVersion | .data .getFreeMemory | .data (.getSignature _) => true
  | .identify => !card.versionRead
  | _ => false

/-- A frame with eight bytes of MAC at its end, over the command, the counter,
the TI and what stands before them. -/
def EndsInMac (card : Card) (cmd : UInt8) (frame : Bytes) : Prop :=
  ∃ body mac, frame = body ++ mac ∧ mac.length = 8 ∧
    peerMac card.onLrp card.peer cmd body = mac

/-- These are the pieces of a frame that ends in its MAC, as far as they go,
and behind them what asks for the rest of the answer. -/
def PutMaced (card : Card) (cmd : UInt8) (frames : List Frame) : Prop :=
  ∃ frame m, EndsInMac card cmd frame ∧
    frames <+: pieceFrames card.wraps cmd (requestPieces frame) ++
      List.replicate m (goOn card.wraps)

/-- Where the answer to the call is verified, it sends nothing and fails, or
what it sends carries a MAC. -/
def Call.MacsItself (call : Call) (card : Card) : Prop :=
  ∀ before req, call.Exchanges card before req →
    req.rxMode = .mac ∨ req.rxMode = .enc →
    ∀ script, Unsent (call.run card script) ∨
      PutMaced before req.cmd (call.run card script).queries

end

end Nxpsc
