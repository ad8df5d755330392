import Nxpsc.Spec.Steps

/-!
# The IV chain of an EV1 session, as the card has it

A session on EV1 is one long chain: every request and every answer continues
from the last block of what came before it. What is enciphered leaves the last
block of its ciphertext, and whatever is not enciphered is MACed, whether the
MAC is sent or not, and leaves its CMAC. The card goes by what it is sent and by
what it answers, and not by what the handle does with either.
-/

namespace Nxpsc

open Dialogue

section

variable [BlockCipher]

/-- The last block of a ciphertext. -/
def lastBlock (type : KeyType) (cipher : Bytes) : Bytes :=
  cipher.drop (cipher.length - blockSize type)

/-- The CMAC of a message, from a given point of the chain. -/
def chainMac (type : KeyType) (key iv message : Bytes) : Bytes :=
  match cmac type key iv message 0 with
  | .error _ => iv
  | .ok mac => mac

/-- Something of the request is enciphered: what stands behind the header, and
in the padded mode the checksum even where there is nothing. -/
def requestEnciphered (clear : Bool) : Mode → Bool
  | .plain | .mac => false
  | .enc | .encPlain => !clear
  | .encPadded => true

/-- The chain after a request: `data` is its payload, `sent` what went over
the wire. -/
def requestIv (type : KeyType) (key iv : Bytes) (cmd : UInt8)
    (data sent : Bytes) (clear : Bool) (mode : Mode) : Bytes :=
  if requestEnciphered clear mode then lastBlock type sent
  else chainMac type key iv (cmd :: data)

/-- The answer is to be enciphered: in the enciphered mode only the answer to a
request without a body is. -/
def answerEnciphered (clear : Bool) : Mode → Bool
  | .enc => clear
  | .encPadded => true
  | .plain | .mac | .encPlain => false

/-- The chain after an answer. What is shorter than a block is no ciphertext:
a command without data to answer with is answered with a MAC alone. -/
def answerIv (type : KeyType) (key iv : Bytes) (clear : Bool) (mode : Mode)
    (raw : Bytes) (status : UInt8) : Bytes :=
  if answerEnciphered clear mode = true ∧ blockSize type ≤ raw.length then
    lastBlock type raw
  else chainMac type key iv (raw.take (raw.length - 8) ++ [status])

end

/-! ## A step -/

/-- The IV a handle holds: one block of its buffer. -/
def Card.chainIv (card : Card) : Bytes :=
  card.iv.bytes.take (blockSize card.keyType)

/-- The request as it went out. -/
def sentOf [BlockCipher] (st : ExchangeStep) : Bytes :=
  match (exchangeRequest st.call.cmd st.call.data st.call.txMode
    st.call.rxMode st.before).1 with
  | .error _ => []
  | .ok sent => sent

/-- The answer as it came in. -/
def rawOf (st : ExchangeStep) : Bytes := saidData (st.said.drop (framesOf st))

def statusOf (st : ExchangeStep) : UInt8 :=
  match st.said.getLast? with
  | none => 0
  | some (q, a) => (cardStatus q a).getD 0

/-- The request had nothing after its header. -/
def clearOf (st : ExchangeStep) : Bool :=
  decide (st.call.data.length ≤
    cmdHeaderLen st.call.cmd st.call.data.length)

section

variable [BlockCipher]

/-- The card's chain after the request of a step. -/
def cardRequestIv (iv : Bytes) (st : ExchangeStep) : Bytes :=
  requestIv st.before.keyType st.before.sessionMac.bytes iv st.call.cmd
    st.call.data (sentOf st) (clearOf st) st.call.txMode

/-- The card's chain after a step. -/
def cardIv (iv : Bytes) (st : ExchangeStep) : Bytes :=
  answerIv st.before.keyType st.before.sessionMac.bytes (cardRequestIv iv st)
    (clearOf st) st.call.rxMode (rawOf st) (statusOf st)

/-- The handle holds the card's IV after the request and after the answer. -/
def ChainInStep (iv : Bytes) (st : ExchangeStep) : Prop :=
  (exchangeRequest st.call.cmd st.call.data st.call.txMode st.call.rxMode
      st.before).2.chainIv = cardRequestIv iv st ∧
    st.after.chainIv = cardIv iv st

end

/-- The handle does something with the request in every mode but one, which has
nothing to encipher and makes no MAC. -/
def MovesByRequest (clear : Bool) (mode : Mode) : Prop :=
  mode = .encPlain → clear = false

/-- It checks a MAC over the answer. -/
def MovesByAnswer (clear : Bool) (mode : Mode) : Prop :=
  mode = .plain ∨ mode = .mac ∨ (mode = .enc ∧ clear = false)

/-- Request and answer of the step are such that the handle's chain moves. -/
def MovesChain (st : ExchangeStep) : Prop :=
  MovesByRequest (clearOf st) st.call.txMode ∧
    MovesByAnswer (clearOf st) st.call.rxMode

end Nxpsc
