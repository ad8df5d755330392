import Nxpsc.Spec.Transcript

/-!
# A chained command and the reply to it

How long data go out and come back, said of the bytes alone: the pieces a
request is cut into and the frames that carry them, and what a card's answers
add up to, up to the first that does not ask to go on.
-/

namespace Nxpsc

/-- The frames a request of `n` bytes takes: one for every 54 bytes begun, and
one where there are none. -/
def frameCount (n : Nat) : Nat := max 1 ((n + 53) / 54)

/-- The handle frames these bytes under this opcode. -/
def nativeFrame (wraps : Bool) (cmd : UInt8) (data : Bytes) : Frame :=
  if wraps then .wrapped cmd data else .native cmd data

/-- The first piece goes out under the opcode, the others under 0xAF. -/
def pieceFrames (wraps : Bool) (cmd : UInt8) : List Bytes → List Frame
  | [] => []
  | piece :: pieces =>
      nativeFrame wraps cmd piece :: pieces.map (nativeFrame wraps 0xAF)

/-- The frame that asks for the next part of a reply. -/
def goOn (wraps : Bool) : Frame := nativeFrame wraps 0xAF []

/-- The reply in a script of answers: the data of every answer up to the first
whose status is not 0xAF, with that status, and the answers behind it. There
is none when an answer cannot be read or the data outgrow `cap`. -/
def cardReply (sw : Bool) (cap : Nat) (got : Bytes) :
    List Answer → Option ((UInt8 × Bytes) × List Answer)
  | [] => none
  | a :: rest =>
      match answerStatus sw a with
      | none => none
      | some status =>
          if cap < (got ++ answerData sw a).length then none
          else if status = 0xAF then
            cardReply sw cap (got ++ answerData sw a) rest
          else some ((status, got ++ answerData sw a), rest)

/-- The conversation of a chained command: the request in pieces, every piece
but the last acknowledged, then a reply of which every answer but the last is
followed by a frame that asks to go on. -/
structure ChainedRequest (wraps : Bool) (cmd : UInt8) (data : Bytes)
    (follow : Bool) (said : Said) (pieces : List Bytes) (acks reply : Said)
    (last : Frame × Answer) : Prop where
  said_eq : said = acks ++ reply ++ [last]
  pieces_count : pieces.length = frameCount data.length
  pieces_short : ∀ piece ∈ pieces, piece.length ≤ 54
  pieces_data : pieces.flatten = data
  acks_count : acks.length + 1 = frameCount data.length
  frames : said.map Prod.fst = pieceFrames wraps cmd pieces ++
    List.replicate reply.length (goOn wraps)
  continued : ∀ qa ∈ reply, cardStatus qa.1 qa.2 = some 0xAF
  not_followed : follow = false → reply = []

/-- What is handed to the caller: everything the reply carried, or nothing. -/
structure ChainedReply (cap : Nat) (follow : Bool) (reply : Said)
    (last : Frame × Answer) (r : Except Err (UInt8 × Bytes)) (card' : Card) :
    Prop where
  ok : ∀ status resp, r = .ok (status, resp) →
    resp = saidData (reply ++ [last]) ∧ resp.length ≤ cap ∧
      cardStatus last.1 last.2 = some status ∧ card'.lastStatus = status ∧
      (follow = true → status ≠ 0xAF)
  fits : ∀ status, cardStatus last.1 last.2 = some status →
    (saidData (reply ++ [last])).length ≤ cap → ∃ resp, r = .ok (status, resp)
  tooLong : ∀ status, cardStatus last.1 last.2 = some status →
    cap < (saidData (reply ++ [last])).length → r = .error .length

end Nxpsc
