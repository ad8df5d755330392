import Nxpsc.Lib.Counting
import Nxpsc.Ref.Api
import Nxpsc.Spec.CardProof

/-!
# The counters an LRP session key was used with

Counter mode enciphers or deciphers a block under a session key and a counter
of four bytes. This file says which counters those are, block by block: for an
operation, for the two halves of an exchange, for a call of a run, and for all
calls while the handle holds one key. Each definition goes the way of the
operation it watches, and looks at the counter where that one spends it.
-/

namespace Nxpsc

open Dialogue

/-! ## The value of a counter -/

/-- The first half bytes of a string, as a number. -/
def nibblesValue : Nat → Bytes → Nat
  | 0, _ => 0
  | i + 1, bytes => nibblesValue i bytes * 16 + (nibbleAt bytes i).toNat

/-- A counter of four bytes, most significant first. -/
def counterValue (counter : Bytes) : Nat := nibblesValue (4 * 2) counter

/-! ## Operations -/

/-- The counters of a list of blocks. -/
def lrpUsed (ctx : LrpCtx) : List Bytes → List Bytes
  | [] => []
  | _ :: rest => ctx.counter.bytes.take 4 :: lrpUsed ctx.next rest

def lrpEncodeUsed (ctx : LrpCtx) (data : Bytes) (cap : Nat) : List Bytes :=
  let dlen :=
    paddedLen (data.length + (if ctx.bitPadding then 1 else 0)) aesBlock
  if dlen = 0 then []
  else if cap < dlen then []
  else
    let buf := Bytes.fit dlen
      (data ++ (if ctx.bitPadding then [0x80] else []))
    lrpUsed ctx (Bytes.chunks aesBlock (dlen / aesBlock) buf)

def lrpDecodeUsed (ctx : LrpCtx) (data : Bytes) (cap : Nat) : List Bytes :=
  if data.length = 0 ∨ data.length % aesBlock ≠ 0 then []
  else if cap < data.length then []
  else lrpUsed ctx (Bytes.chunks aesBlock (data.length / aesBlock) data)

section

variable [BlockCipher]

/-! ## The two halves of an exchange -/

/-- The context of the session key, at the counter of the handle. -/
def sessionLrp (card : Card) : LrpCtx :=
  lrpSetCounter (lrpInit card.sessionEnc.bytes 1 false) card.iv.bytes (4 * 2)

def encodeEv2Used (cmd : UInt8) (src : Bytes) (cap : Nat) (card : Card) :
    List Bytes :=
  let hdr := min (cmdHeaderLen cmd src.length) src.length
  let plen := paddedLen (src.length + 1 - hdr) aesBlock
  if cap < src.length ∨ card.mode = .plain ∨ card.mode = .mac then []
  else if src.length ≤ hdr ∨ cap < hdr + plen + macLength card then []
  else
    lrpEncodeUsed (sessionLrp card) (Bytes.fit plen (src.drop hdr ++ [0x80]))
      (cap - hdr)

def decodeEv2Used (src : Bytes) (card : Card) : List Bytes :=
  let dataLen := src.length - macLength card
  if card.mode ≠ .enc ∧ card.mode ≠ .encPadded then []
  else if src.length < macLength card ∨ dataLen < aesBlock ∨
      ev2Cmac card 0x00 (src.take dataLen) ≠ .ok (src.drop dataLen) then []
  else lrpDecodeUsed (sessionLrp card) (src.take dataLen) maxResponse

def exchangeRequestUsed (cmd : UInt8) (data : Bytes) (txMode rxMode : Mode)
    (card : Card) : List Bytes :=
  if card.channel ≠ .lrp ∨
      card.sessionLost = true ∧ (txMode ≠ .plain ∨ rxMode ≠ .plain) then []
  else
    encodeEv2Used cmd data maxResponse
      { card with
        mode := txMode, macMismatch := false, lastCmd := cmd
        lastRequestZeroLen :=
          decide (data.length ≤ cmdHeaderLen cmd data.length) }

def exchangeAnswerUsed (rxMode : Mode) (status : UInt8) (raw : Bytes)
    (card : Card) : List Bytes :=
  if card.channel ≠ .lrp ∨ statusEndsSession status = true then []
  else
    decodeEv2Used raw
      { card with
        mode := rxMode
        cmdCtr := if status ≠ dfSAdditionalFrame ∧ card.authenticated = true
          then card.cmdCtr + 1 else card.cmdCtr }

/-- The counters of `nxpsc_exchange`, by what the card answered. -/
def exchangeUsed (cmd : UInt8) (data : Bytes) (txMode rxMode : Mode)
    (card : Card) (answers : List Answer) : List Bytes :=
  exchangeRequestUsed cmd data txMode rxMode card ++
    match exchangeRequest cmd data txMode rxMode card with
    | (.error _, _) => []
    | (.ok wrapped, card) =>
        match rawExchange cmd wrapped maxResponse card answers with
        | .done _ (.ok (status, raw)) card _ =>
            exchangeAnswerUsed rxMode status raw card
        | _ => []

/-! ## Calls and runs -/

/-- The exchange a call makes in a state. `nxpsc_select_application` is not
among them: it makes its own without a session. -/
def Call.sends (call : Call) (card : Card) : Option Request :=
  match call.request with
  | none => none
  | some request =>
      if call.skips card = true then none else (request card).toOption

/-- The block of the TI, at the counter a First authentication starts from. -/
def tiUsed (card : Card) : List Bytes :=
  lrpDecodeUsed
    (lrpSetCounter (lrpInit card.sessionEnc.bytes 1 false) (Bytes.zeros 16)
      (4 * 2)) (Bytes.zeros aesBlock) aesBlock

/-- A call that sets up a session of its own, from a handle it resets. -/
def Call.opens : Call → Bool
  | .authenticate _ _ (some _) _ => true
  | _ => false

/-- The counters of one call. -/
def callUsed (st : ApiStep) : List Bytes :=
  if st.call.opens = true then
    match st.result, st.after.channel with
    | .ok (), .lrp => tiUsed st.after
    | _, _ => []
  else
    match st.call.sends st.before with
    | none => []
    | some req =>
        exchangeUsed req.cmd req.data req.txMode req.rxMode st.before
          (st.said.map Prod.snd)

end

/-- The LRP session key the handle holds. -/
def Card.lrpKey (card : Card) : Option Bytes :=
  if card.channel = .lrp then some (card.sessionEnc.bytes.take aesBlock)
  else none

section

variable [BlockCipher]

/-- All counters used under the key that the blocks of the step are under:
those of the step come last. -/
def usedUnderKey (used : List Bytes) (st : ApiStep) : List Bytes :=
  if st.call.opens = true then callUsed st else used ++ callUsed st

/-- What was used under the key the handle holds after the step. -/
def keyLog (used : List Bytes) (st : ApiStep) : List Bytes :=
  if st.call.opens = true ∨ st.after.lrpKey = st.before.lrpKey then
    usedUnderKey used st
  else []

/-- A non first authentication in an LRP session whose counter has moved, that
clears the counter and leaves the key: the card's answers have the form of a
handshake, and they do not prove another key. -/
def ClearsCounter (st : ApiStep) : Prop :=
  match st.call with
  | .authenticateNonfirst rng _ (some key) =>
      st.before.authenticated = true ∧ st.before.channel = .lrp ∧
        counterValue st.before.iv.bytes ≠ 0 ∧
        ∃ rnd d₁ d₂, rng = .ok rnd ∧
          TwoAnswers st.before.wraps (st.said.map Prod.snd) d₁ d₂ ∧
          d₁.length = 17 ∧ d₁.headD 0 = 0x01 ∧
          16 ≤ d₂.length ∧ d₂.length ≤ 64 ∧
          (LrpProof key false (Bytes.fit 16 rnd) d₁ d₂ →
            st.before.lrpKey = some
              (sessionKeyLrp key.data.bytes (Bytes.fit 16 rnd) (d₁.drop 1)))
  | _ => False

/-- A call of MIFARE Plus that runs blocks under the session key in CBC, where
they have no counter: a write that passes its checks, or a read whose answer is
long enough. -/
def Call.inCbc (call : Call) (card : Card) (answers : List Answer) : Prop :=
  card.authenticated = true ∧
    match call with
    | .plusRead _ count true _ cap =>
        count ≠ 0 ∧ count.toNat * mfpBlockSize ≤ cap ∧
          ∃ rx, answers = [.ok rx] ∧ rx.headD 0 = 0x90 ∧
            count.toNat * mfpBlockSize < (rx.take maxResponse).length
    | .plusWrite _ bytes true => bytes.length = mfpBlockSize
    | .plusValueOp _ _ _ true | .plusValueTransfer _ _ _ true => True
    | _ => False

/-- A step that takes the counter out of the hands of the LRP session. -/
def LeavesCounter (st : ApiStep) : Prop :=
  ClearsCounter st ∨
    st.before.channel = .lrp ∧
      st.call.inCbc st.before (st.said.map Prod.snd)

/-- The blocks of a step under an LRP key, `used` being the counters that key
was used with before: each has a counter, the first of the key is zero, and
none comes twice as long as there are no more blocks than counters. -/
structure FreshBlocks (used : List Bytes) (st : ApiStep) : Prop where
  counted : st.before.channel = .lrp →
    ¬ st.call.inCbc st.before (st.said.map Prod.snd)
  starts : ∀ counter ∈ (usedUnderKey used st).head?, counterValue counter = 0
  fresh : (usedUnderKey used st).length ≤ 2 ^ 32 →
    (usedUnderKey used st).Nodup

end

/-! ## The counter of the handle -/

/-- The counter of the handle. -/
def Card.counter (card : Card) : Nat := counterValue card.iv.bytes

/-- `used` are the counters from the value `v` on, and `v'` is the next. -/
structure Spent (v v' : Nat) (used : List Bytes) : Prop where
  values : used.map counterValue = Counting.values (2 ^ 32) v used.length
  next : v' = (v + used.length) % 2 ^ 32

/-- What a stretch of the code does with the counter, the blocks in `used`
being its own: in an LRP session it goes on from where it was, and what is
left of the session has the counter next to come. -/
structure Counts (card : Card) (used : List Bytes) (card' : Card) : Prop where
  live : card.channel = .lrp → ∃ v, Spent card.counter v used ∧
    (card'.channel = .lrp → card'.counter = v ∧ card'.lrpKey = card.lrpKey)
  idle : card.channel ≠ .lrp → used = [] ∧ card'.channel ≠ .lrp

end Nxpsc
