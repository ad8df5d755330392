import Nxpsc.Lib.Machine
import Nxpsc.Spec.Applet

/-!
# Somebody else on the air

Library and card in a session, with everything between them in the hands of an
intruder. It sees every frame, keeps some of them back, gives the card what it
likes, and makes up what the library hears. There is one thing it may not be
able to do, which is `Forged`: to come up with a right MAC over something
that neither of the two has MACed.

An exchange of the library is two events here. Its request is made in `call`;
in `complete` it talks to the intruder and looks at the answer. In
between, before and after it the card can be talked to.
-/

namespace Nxpsc

open Dialogue

/-! ## What is MACed -/

/-- A frame without its MAC. -/
def macBody (frame : Bytes) : Bytes := frame.take (frame.length - 8)

/-- What a MAC of the session is made over. -/
def Shared.macInput (s : Shared) (op : UInt8) (body : Bytes) : Bytes :=
  op :: (putU16 s.cmdCtr ++ s.ti ++ body)

/-- The session when `i` more commands are counted. -/
def Shared.ahead (s : Shared) (i : Nat) : Shared :=
  { s with cmdCtr := s.cmdCtr + UInt16.ofNat i }

section

variable [BlockCipher]

/-- The frame ends in the MAC over the rest of it. -/
def Shared.Maced (lrp : Bool) (s : Shared) (op : UInt8) (frame : Bytes) : Prop :=
  8 ≤ frame.length ∧ peerMac lrp s op (macBody frame) =
    frame.drop (frame.length - 8)

/-- An exchange once its request is made. -/
def Request.finish (req : Request) (frame : Bytes) : Api Bytes := do
  let answer ← rawExchange req.cmd frame maxResponse
  Prog.act (exchangeAnswer req.rxMode req.cap answer.1 answer.2)

end

/-! ## The world -/

structure Air (A : Type) where
  card : Card
  /-- The request that was made and not answered yet. -/
  waits : Option (Request × Bytes)
  picc : Option Shared × A
  /-- What library and card have made MACs over. -/
  maced : List Bytes
  called : List Request
  came : List (Except Err Bytes)
  /-- The commands the card carried out inside the session. -/
  ran : List (UInt8 × Bytes)

inductive AirEvent where
  | call (req : Request)
  | deliver (cmd : UInt8) (frame : Bytes)
  | complete (script : List Answer)

section

variable [BlockCipher] {A : Type}

/-- The library makes a request. -/
def Air.call (st : Air A) (req : Request) : Air A :=
  match exchangeRequest req.cmd req.data req.txMode req.rxMode st.card with
  | (.error e, card) =>
      { st with
        card := card
        called := st.called ++ [req]
        came := st.came ++ [.error e] }
  | (.ok frame, card) =>
      { st with
        card := card
        waits := some (req, frame)
        called := st.called ++ [req]
        maced := st.maced ++
          if req.txMode = .plain then []
          else [card.peer.macInput req.cmd (macBody frame)] }

/-- What the card makes a MAC over in an answer. -/
def answerInputs (lrp : Bool) (s : Shared) (comm : CommMode) (data : Bytes) :
    List Bytes :=
  if comm = .plain then []
  else [s.macInput 0x00 (macBody (gives lrp s comm data).1)]

/-- The card gets a request. -/
def Applet.receive (app : Applet A) (lrp : Bool) (st : Air A) (cmd : UInt8)
    (frame : Bytes) : Air A :=
  let after := { st with picc := (app.secured lrp st.picc cmd frame).2 }
  match st.picc with
  | (none, _) => after
  | (some s, a) =>
      let comm := app.comm a cmd frame
      match takes lrp s comm.1 cmd frame with
      | none => after
      | some (payload, s) =>
          let out := app.run true a cmd payload
          if statusEndsSession out.1.status then after
          else
            { after with
              ran := st.ran ++ [(cmd, payload)]
              maced := st.maced ++
                answerInputs lrp s.counted comm.2 out.1.data }

/-- A call of the library is made when the one before it is through. -/
def Applet.air (app : Applet A) (lrp : Bool) (st : Air A) :
    AirEvent → Option (Air A)
  | .call req =>
      match st.waits with
      | none => some (st.call req)
      | some _ => none
  | .deliver cmd frame => some (app.receive lrp st cmd frame)
  | .complete script =>
      match st.waits with
      | none => none
      | some (req, frame) =>
          match req.finish frame st.card script with
          | .waiting .. => none
          | .done _ r card _ =>
              some { st with
                card := card
                waits := none
                came := st.came ++ [r] }

/-- A right MAC over something nobody has MACed. -/
def Air.Unheard (lrp : Bool) (st : Air A) (s : Shared) (op : UInt8)
    (frame : Bytes) : Prop :=
  s.Maced lrp op frame ∧ s.macInput op (macBody frame) ∉ st.maced

/-- The intruder has found one: the card is given it, or the library in an
answer. -/
def Air.Forged (lrp : Bool) (st : Air A) : AirEvent → Prop
  | .call _ => False
  | .deliver cmd frame =>
      ∃ s, st.picc.1 = some s ∧ st.Unheard lrp s cmd frame
  | .complete script =>
      ∃ req frame said status raw card rest,
        st.waits = some (req, frame) ∧
        rawExchange req.cmd frame maxResponse st.card script =
          .done said (.ok (status, raw)) card rest ∧
        st.Unheard lrp st.card.peer.counted 0x00 raw

end

/-! ## What is asked of card and caller -/

/-- Inside a session every command comes with a MAC, and 0x00 is none. -/
structure Applet.Guarded {A : Type} (app : Applet A) : Prop where
  maced : ∀ a cmd frame, (app.comm a cmd frame).1 ≠ .plain
  noCommand : ∀ a data,
    statusEndsSession (app.run true a 0x00 data).1.status = true

/-- The caller asks for a MAC in both directions. -/
structure Applet.SpeaksMaced {A : Type} (app : Applet A) (t : Bool × A)
    (req : Request) : Prop extends app.Speaks t req where
  command : req.cmd ≠ 0x00
  sent : req.txMode ≠ .plain
  received : req.rxMode ≠ .plain

/-- The caller has made no more than `n` calls, as the card expects them, and
none after one that failed. -/
structure Applet.Orderly {A : Type} (app : Applet A) (a₀ : A) (n : Nat)
    (st : Air A) : Prop where
  short : st.called.length ≤ n
  speaks : app.service.Admits app.SpeaksMaced (true, a₀) st.called
  stops : ∀ i, i + 1 < st.called.length → ∃ d, st.came[i]? = some (.ok d)

/-- Of the MACs there are already none has a counter still to come in it,
except those of the last answer. -/
def Unspoken (k : Nat) (s : Shared) (maced : List Bytes) : Prop :=
  ∀ i op body, i ≤ k → (s.ahead i).macInput op body ∈ maced →
    op = 0x00 ∧ i = 0

/-- Library and card are in one session, and nothing has happened. -/
structure Air.Begins {A : Type} (lrp : Bool) (n : Nat) (a₀ : A) (st : Air A) : Prop where
  session : InSession lrp st.card
  picc : st.picc = (some st.card.peer, a₀)
  waits : st.waits = none
  called : st.called = []
  came : st.came = []
  ran : st.ran = []
  quiet : Unspoken (n + 1) st.card.peer st.maced

/-- A request as the card sees it. -/
def Request.command (req : Request) : UInt8 × Bytes := (req.cmd, req.data)

end Nxpsc
