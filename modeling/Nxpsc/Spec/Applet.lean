import Nxpsc.Lib.Refine
import Nxpsc.Spec.Carrier
import Nxpsc.Spec.Peer

/-!
# An applet behind an EV2 or LRP session

An `Applet` is what a card does with commands, and nothing of how they reach it.
`Applet.secured` puts secure messaging in front of it, as the data sheets have
it, `Applet.carrier` the framing, and the two together are a card on the air.

What the calls of the library come to on such a card is `Applet.service`. It has
no frames, no MACs and no counters in it.
-/

namespace Nxpsc

open Dialogue

/-- As much data as an answer can have: enciphered and MACed it fills the
buffer of the library. -/
def answerMax : Nat := 4079

structure AppletAnswer where
  status : UInt8
  data : Bytes
  final : status ≠ dfSAdditionalFrame
  fits : data.length ≤ answerMax

/-- How a request and its answer travel, and how long the payload is going to
be, the card takes from the opcode and the first bytes of the frame. -/
structure Applet (A : Type) where
  comm : A → UInt8 → Bytes → CommMode × CommMode
  length : A → UInt8 → Bytes → Nat
  /-- Inside a session or outside of it. -/
  run : Bool → A → UInt8 → Bytes → AppletAnswer × A

/-- `PICC_INTEGRITY_ERROR`. -/
def dfSIntegrityError : UInt8 := 0x1E

/-! ## The card -/

/-- The session when one more command is counted. -/
def Shared.counted (s : Shared) : Shared := { s with cmdCtr := s.cmdCtr + 1 }

section

variable [BlockCipher]

/-- What the card takes out of a frame. -/
def takes (lrp : Bool) (s : Shared) (comm : CommMode) (cmd : UInt8)
    (frame : Bytes) : Option (Bytes × Shared) :=
  match comm with
  | .plain => some (frame, s)
  | .mac => peerReads lrp s false cmd frame
  | .full => peerReads lrp s true cmd frame

/-- What it makes of an answer. Where there are no data nothing is
enciphered. -/
def gives (lrp : Bool) (s : Shared) (comm : CommMode) (data : Bytes) :
    Bytes × Shared :=
  match comm with
  | .plain => (data, s)
  | .mac => peerAnswers lrp s false data
  | .full => peerAnswers lrp s (!data.isEmpty) data

variable {A : Type}

/-- The card inside a session, and outside of one after an error. -/
def Applet.secured (app : Applet A) (lrp : Bool) : Interpreter (Option Shared × A)
  | (none, a), cmd, frame =>
      let out := app.run false a cmd frame
      ((out.1.status, out.1.data), none, out.2)
  | (some s, a), cmd, frame =>
      let comm := app.comm a cmd frame
      match takes lrp s comm.1 cmd frame with
      | none => ((dfSIntegrityError, []), none, a)
      | some (payload, s) =>
          let out := app.run true a cmd payload
          if statusEndsSession out.1.status then
            ((out.1.status, []), none, out.2)
          else
            let given := gives lrp s.counted comm.2 out.1.data
            ((out.1.status, given.1), some given.2, out.2)

end

/-- The length of the frame a payload of `n` bytes comes in. -/
def sentLength (comm : CommMode) (cmd : UInt8) (n : Nat) : Nat :=
  let hdr := cmdHeaderLen cmd n
  match comm with
  | .plain => n
  | .mac => n + 8
  | .full =>
      if hdr < n then hdr + ((n - hdr) / aesBlock + 1) * aesBlock + 8
      else n + 8

variable {A : Type}

/-- The card's framing: it knows from the first frame how long the request
is, and may cut its answers as it likes. -/
def Applet.carrier (app : Applet A) (cut : Option Shared × A → Bytes → List Part)
    (joined_cut : ∀ s data, joined (cut s data) = data) :
    Carrier (Option Shared × A) where
  expects s cmd first :=
    match s.1 with
    | none => app.length s.2 cmd first
    | some _ =>
        sentLength (app.comm s.2 cmd first).1 cmd (app.length s.2 cmd first)
  cut := cut
  joined_cut := joined_cut

/-! ## What a caller sees -/

/-- The calls of `nxpsc_exchange` on an applet, inside a session or after
one was lost. A card error ends the session, and without it nothing that is
MACed or enciphered is sent. -/
def Applet.service (app : Applet A) :
    Service (Bool × A) Request (Except Err Bytes) := fun t req =>
  if t.1 = false ∧ (req.txMode ≠ .plain ∨ req.rxMode ≠ .plain) then
    (.error .auth, t)
  else
    let out := app.run t.1 t.2 req.cmd req.data
    if statusEndsSession out.1.status then (.error .card, false, out.2)
    else (copyOutput req.cap out.1.data, t.1, out.2)

/-- How the encoder of EV2 and LRP sends in a mode. -/
def Mode.sends : Mode → CommMode
  | .plain => .plain
  | .mac => .mac
  | .enc | .encPadded | .encPlain => .full

/-- The bytes of a request that are in the clear in its first frame. -/
def Request.clear (req : Request) : Bytes :=
  (if req.txMode.sends = .full then
    req.data.take (cmdHeaderLen req.cmd req.data.length)
  else req.data).take txFrameMax

/-- The caller and the card agree on how the request travels, and the card
can tell from its first frame. -/
structure Applet.Speaks (app : Applet A) (t : Bool × A) (req : Request) : Prop where
  opcode : req.cmd ≠ dfAdditionalFrame
  room : sentLength (if t.1 then req.txMode.sends else .plain) req.cmd
    req.data.length ≤ maxResponse
  answer : req.rxMode = .plain ∨ req.rxMode = .mac ∨ req.rxMode = .enc
  comm : t.1 = true → ∀ tail, app.comm t.2 req.cmd (req.clear ++ tail) =
    (req.txMode.sends, req.rxMode.sends)
  length : ∀ tail,
    app.length t.2 req.cmd (req.clear ++ tail) = req.data.length

def sessionChannel (lrp : Bool) : Channel := if lrp then .lrp else .ev2

/-- The handle is in a session of the channel. -/
structure InSession (lrp : Bool) (card : Card) : Prop where
  authenticated : card.authenticated = true
  channel : card.channel = sessionChannel lrp
  kept : card.sessionLost = false

/-- The handle has lost its session. -/
structure LostSession (card : Card) : Prop where
  authenticated : card.authenticated = false
  channel : card.channel = .auto
  lost : card.sessionLost = true

/-- Handle, card and service are in the same place. -/
inductive Together (lrp : Bool) (cmdset : CmdSet) :
    Card → Transfer × Option Shared × A → Bool × A → Prop where
  | live {card : Card} {phase : Transfer} {a : A} :
      card.cmdset = cmdset → InSession lrp card →
      Together lrp cmdset card (phase, some card.peer, a) (true, a)
  | lost {card : Card} {phase : Transfer} {a : A} :
      card.cmdset = cmdset → LostSession card →
      Together lrp cmdset card (phase, none, a) (false, a)

/-- One exchange, as a call. -/
def Request.exchanged [BlockCipher] (req : Request) : Api Bytes :=
  exchange req.cmd req.data req.txMode req.rxMode req.cap

/-! ## From the authentication on -/

/-- The session a handshake opened, as the messages of the session use it. -/
def Shared.opened (s : Shared) : Shared := { s with iv := s.iv.take 4 }

/-- Where a card is when its handshake is in a phase. -/
def handedOver (a : A) : Phase → Phase ⊕ Transfer × Option Shared × A
  | .opened s => .inr (.idle, some s.opened, a)
  | p => .inl p

/-- The card from its reset on: it follows the handshake, and behind the
session that opens is the applet. -/
def fromReset (h : Handshake) (d : Device (Transfer × Option Shared × A))
    (a : A) : Device (Phase ⊕ Transfer × Option Shared × A)
  | .inl p, cmd, data =>
      ((h.device p cmd data).1, handedOver a (h.device p cmd data).2)
  | .inr p, cmd, data => ((d p cmd data).1, .inr (d p cmd data).2)

section

variable [BlockCipher] {A : Type} (applet : Applet A)
  (cut : Option Shared × A → Bytes → List Part)
  (joined_cut : ∀ s data, joined (cut s data) = data)

/-- The card behind its framing. -/
def Applet.onAir (lrp : Bool) (cmdset : CmdSet) :
    Transfer × Option Shared × A → Frame →
      Answer × Transfer × Option Shared × A :=
  ((applet.carrier cut joined_cut).device (applet.secured lrp)).party cmdset

/-- The card with its key, waiting for the authentication, and behind it the
applet. -/
def Applet.locked (lrp : Bool) (key : Key) (keyNo : UInt8)
    (rndB ti caps : Bytes) (a : A) :
    Device (Phase ⊕ Transfer × Option Shared × A) :=
  fromReset (firstHandshake (sessionChannel lrp) key.type key.stored keyNo
      rndB ti caps)
    ((applet.carrier cut joined_cut).device (applet.secured lrp)) a

end

/-- A session of a caller: the authentication, and exchanges. -/
def sessionCall [BlockCipher] (rng : Rng) (keyNo : UInt8) (key : Key)
    (channel : Channel) : Option Request → Api Bytes
  | none => do
      authenticate rng keyNo (some key) channel
      pure []
  | some req => req.exchanged

/-- The calls of a session: the authentication first. -/
def sessionCalls (reqs : List Request) : List (Option Request) :=
  none :: reqs.map some

end Nxpsc
