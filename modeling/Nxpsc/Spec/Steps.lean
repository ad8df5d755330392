import Nxpsc.Ref.Api
import Nxpsc.Spec.Session

/-!
# Steps of a run

What can be said of a completed exchange or call before anything is proved of
it: how many frames its request takes, how many of the answers bring nothing,
whether it gives up the session of the handle, whether the card ended the
session under it. The conditions under which a run keeps its promises are put
together from these.
-/

namespace Nxpsc

open Dialogue

/-! ## The frames of a request -/

/-- The encoded length of `n` bytes of payload, by channel and mode. -/
def wireLength (card : Card) (cmd : UInt8) (n : Nat) : Nat :=
  let hdr := min (cmdHeaderLen cmd n) n
  let bs := blockLen card
  match card.channel, card.mode with
  | .auto, _ => n
  | _, .plain => n
  | .d40, .mac => if hdr < n ∧ transmitsMac card cmd = true then n + 4 else n
  | .d40, .enc => if n ≤ hdr then n else hdr + paddedLen (n + 2 - hdr) bs
  | .d40, .encPadded =>
      if n ≤ hdr then n else hdr + paddedLen (n + 3 - hdr) bs
  | .ev1, .mac => if transmitsMac card cmd = true then n + 8 else n
  | .ev1, .enc => if n ≤ hdr then n else hdr + paddedLen (n + 4 - hdr) bs
  | .ev1, .encPadded => hdr + paddedLen (n + 5 - hdr) bs
  | .d40, .encPlain => if n ≤ hdr then n else hdr + paddedLen (n - hdr) bs
  | .ev1, .encPlain => if n ≤ hdr then n else hdr + paddedLen (n - hdr) bs
  | .ev2, .mac => n + 8
  | .lrp, .mac => n + 8
  | _, _ =>
      hdr + (if hdr < n then paddedLen (n + 1 - hdr) aesBlock else 0) + 8

/-- The frames a request of `n` bytes takes before its last one. -/
def intermediateFrames (n : Nat) : Nat := (n - 1) / txFrameMax

/-- The frames a command takes before the last one of its request. -/
def requestFrames (card : Card) (cmd : UInt8) (n : Nat) (txMode : Mode) :
    Nat :=
  intermediateFrames (wireLength { card with mode := txMode } cmd n)

/-! ## Answers that make no progress -/

/-- The 0xAF answers without data among those a call follows: the first `acks`
answers acknowledge a frame of the request, the others count against the room
that is left for data. -/
def stalls (sw : Bool) : Nat → Nat → List Answer → Nat
  | _, _, [] => 0
  | acks, room, a :: rest =>
      if answerStatus sw a = some dfSAdditionalFrame then
        match acks with
        | k + 1 => stalls sw k room rest
        | 0 =>
            if room < (answerData sw a).length then 0
            else
              (if answerData sw a = [] then 1 else 0) +
                stalls sw 0 (room - (answerData sw a).length) rest
      else 0

/-- The stalls of the script in an exchange: of a request that is neither
refused nor too long for the buffer, in the frames it takes on the wire. -/
def exchangeStalls (cmd : UInt8) (data : Bytes) (txMode rxMode : Mode)
    (card : Card) (script : List Answer) : Nat :=
  let n := wireLength { card with mode := txMode, macMismatch := false } cmd
    data.length
  if card.sessionLost = true ∧ (txMode ≠ .plain ∨ rxMode ≠ .plain) ∨
      maxResponse < n then 0
  else stalls card.wraps (intermediateFrames n) maxResponse script

/-- The 0xAF answers that `nxpsc_get_df_names` follows. -/
def dfChain (sw : Bool) : List Answer → Nat
  | [] => 0
  | a :: rest =>
      if answerStatus sw a = some dfSAdditionalFrame ∧
          (answerData sw a).length ≤ 64 then 1 + dfChain sw rest
      else 0

/-- At least `low` of them and at most `spare` more. -/
def Between (low spare n : Nat) : Prop := low ≤ n ∧ n ≤ low + spare

/-! ## A completed exchange -/

section

variable [BlockCipher]

/-- One `nxpsc_exchange` of a run. -/
def exchangeOf (req : Request) : Api Unit :=
  (exchange req.cmd req.data req.txMode req.rxMode req.cap).ignore

end

/-- A completed exchange of a run. -/
abbrev ExchangeStep := Step Card Frame Answer Err Request

/-- The answers the card gave to a step. -/
def answersOf (st : ExchangeStep) : List Answer := st.said.map Prod.snd

/-- The frames before the last one of the step's request. -/
def framesOf (st : ExchangeStep) : Nat :=
  requestFrames st.before st.call.cmd st.call.data.length st.call.txMode

/-- The card's counter after a step: one more when it answered with a
success. -/
def cardCounter (n : UInt16) (st : ExchangeStep) : UInt16 :=
  if st.said.any fun qa => cardSuccess qa.1 qa.2 then n + 1 else n

/-- The answer is read as an acknowledgement. -/
def IsAck (card : Card) (a : Answer) : Prop :=
  ∃ got, frameResponse card maxApdu a = .ok (dfSAdditionalFrame, got)

/-- The script of a card that acknowledges the frames of a request and then
answers 0x00 with no data and no MAC. -/
def BareOk (card : Card) (req : Request) (script rest : List Answer) : Prop :=
  ∃ acks a, script = acks ++ a :: rest ∧
    acks.length = requestFrames card req.cmd req.data.length req.txMode ∧
    (∀ b ∈ acks, IsAck card b) ∧
    frameResponse card maxApdu a = .ok (dfSOk, [])

/-! ## Calls -/

/-- The calls with which a caller starts anew. -/
def Call.startsAnew : Call → Bool
  | .authenticate .. | .resetChannel | .selectApplication _
  | .ntag424Select => true
  | _ => false

/-- The calls that drop the session of the handle before they put a frame. -/
def Call.dropsFirst : Call → Bool
  | .authenticate .. | .resetChannel | .selectApplication _ => true
  | .plusAuthenticate _ _ _ first => first
  | _ => false

/-- The handle drops its session behind the exchange, whatever came back. -/
def Call.givesUp (call : Call) (card : Card) : Prop :=
  match call with
  | .changeKey keyNo oldKey newKey =>
      (∃ req, changeKeyRequest false 0 keyNo oldKey newKey card = .ok req) ∧
        changeEndsSession card false 0 keyNo = true
  | .changeKeyEv2 keySet keyNo oldKey newKey =>
      (∃ req, changeKeyRequest true keySet keyNo oldKey newKey card =
          .ok req) ∧
        changeEndsSession card true keySet keyNo = true
  | .rollKeySet _ => True
  | _ => False

/-- The call comes back with success and leaves no session. -/
def EndsOk (m : Api Unit) (card : Card) (script rest : List Answer) : Prop :=
  ∃ said card', m card script = .done said (.ok ()) card' rest ∧
    NoSession card'

/-- The frames of the first command of a conversation. -/
def firstCommand : Said → Said
  | [] => []
  | qa :: rest =>
      if cardStatus qa.1 qa.2 = some dfSAdditionalFrame then
        qa :: firstCommand rest
      else [qa]

/-- PreparePC was answered with a success that lacks the options. -/
def ShortPrepare (said : Said) : Prop :=
  pcOptions (saidData (firstCommand said)) = none ∧
    ∃ pre q a, firstCommand said = pre ++ [(q, a)] ∧ cardSuccess q a = true

/-- The card answered no frame with a native error status. -/
def NoErrorStatus (said : Said) : Prop :=
  ∀ qa ∈ said, ∀ status, cardStatus qa.1 qa.2 = some status →
    statusEndsSession status = false

/-! ## A session that was lost -/

/-- The card answered a command sent in a session with an error. -/
def Draws (st : ApiStep) : Bool :=
  !st.call.dropsFirst && st.before.authenticated &&
    st.said.any fun qa => cardError qa.1 qa.2

/-- The channel of the session that was lost, until the caller starts anew. -/
def lostStep (g : Option Channel) (st : ApiStep) : Option Channel :=
  if Draws st then some st.before.channel
  else if st.call.startsAnew then none
  else g

/-- The handle, were the session still there. -/
def Card.live (card : Card) (channel : Channel) : Card :=
  { card with authenticated := true, sessionLost := false, channel := channel }

/-- In a live session the request would be MACed or enciphered. -/
def Call.Protected (call : Call) (card : Card) (channel : Channel) : Prop :=
  ∃ request req, call.request = some request ∧
    request (card.live channel) = .ok req ∧ req.txMode ≠ .plain

/-- The calls that do not ask whether a session was lost: `eff_mode` of
`nxpsc_advanced.c` is plain without a session, and the UID of the transport
is handed out instead of the card's. -/
def Call.bypasses (call : Call) (card : Card) : Prop :=
  card.authenticated = false ∧
    match call with
    | .data (.restrictMfcUpdate _) | .data .notifyTransactionSuccess => True
    | .getCardUid _ => card.uidLen ≠ 0
    | _ => False

/-- The error was the end of an exchange, which saw it. -/
def Notices (st : ApiStep) : Prop :=
  ∃ request, st.call.request = some request ∧
    ∀ req, request st.before = .ok req →
      ¬ ErrorEscapes st.before.wraps
        (requestFrames st.before req.cmd req.data.length req.txMode)
        (st.said.map Prod.snd)

/-- The call is none of those that reset the handle on their own. -/
def KeepsFlag (st : ApiStep) : Prop :=
  match st.call with
  | .changeKey .. | .changeKeyEv2 .. | .rollKeySet _ =>
      ¬ st.call.givesUp st.before
  | .plusResetAuth => False
  | .plusAuthenticate _ _ key first =>
      first = false ∨ ∀ k, key = some k → k.type ≠ .aes128
  | .proximityCheck .. =>
      NoErrorStatus st.said ∧ ¬ ShortPrepare st.said
  | .ntag424Select => st.result ≠ .ok ()
  | _ => True

/-- As long as a session counts as lost: an error of the card in a session is
noticed, and the handle is not reset. -/
def KeepsLost (g : Option Channel) (st : ApiStep) : Prop :=
  lostStep g st ≠ none →
    (Draws st = true → st.before.sessionLost = true ∨ Notices st) ∧
      KeepsFlag st

end Nxpsc
