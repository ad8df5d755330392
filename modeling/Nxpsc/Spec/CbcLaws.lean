import Nxpsc.Ref.CryptoMemory

/-!
# What chaining promises

The laws the channel relies on when it picks a direction and a primitive: the
other direction with the other primitive gives the message back, a message in
pieces is the message at once, and the output may be the input. They are said
of the function on its arrays, for whatever arrays and places.
-/

namespace Nxpsc.InMemory

open Checked

section

variable [BlockCipher]

/-- What is sent with one primitive is received with the other one, from the
same IV, and both leave the last block that was sent. -/
def ComesBack (type : KeyType) (key : Bytes) (iv : Buf maxBlock)
    (input : Bytes) (inAt len : Nat) (encode : Bool) : Prop :=
  ∀ {n m : Nat} (out : Buf n) (outAt : Nat) (back : Buf m) (backAt : Nat),
    outAt + len ≤ n → backAt + len ≤ m →
    ∃ sent received last,
      (cbcCryptEx type key iv input inAt len out outAt true encode :
        Run Unit _) = pure (sent, last) ∧
      (cbcCryptEx type key iv sent.bytes outAt len back backAt false
        (!encode) : Run Unit _) = pure (received, last) ∧
      (received.bytes.drop backAt).take len = (input.drop inAt).take len ∧
      last.bytes.take (blockSize type) =
        (sent.bytes.drop (outAt + len - blockSize type)).take (blockSize type)

/-- A call for every piece, each with the IV the one before it left. -/
def cbcPieces {n : Nat} (type : KeyType) (key : Bytes) (input : Bytes)
    (dirToSend encode : Bool) :
    List Nat → Nat → Nat → Buf maxBlock → Buf n →
      Run Unit (Buf n × Buf maxBlock)
  | [], _, _, iv, out => pure (out, iv)
  | len :: rest, inAt, outAt, iv, out => do
      let done ← cbcCryptEx type key iv input inAt len out outAt dirToSend
        encode
      cbcPieces type key input dirToSend encode rest (inAt + len)
        (outAt + len) done.2 done.1

/-- The pieces of a message, of whole blocks each, come to one call. -/
def AddsUp (type : KeyType) (key : Bytes) (iv : Buf maxBlock)
    (input : Bytes) (inAt len : Nat) (dirToSend encode : Bool) : Prop :=
  ∀ {n : Nat} (out : Buf n) (outAt : Nat) (lens : List Nat),
    outAt + len ≤ n → lens.sum = len →
    (∀ l ∈ lens, 0 < l ∧ l % blockSize type = 0) →
    cbcPieces type key input dirToSend encode lens inAt outAt iv out =
      cbcCryptEx type key iv input inAt len out outAt dirToSend encode

/-- In place the output and the IV are those of a call between two arrays. -/
def MayAlias {n : Nat} (type : KeyType) (key : Bytes) (iv : Buf maxBlock)
    (buf : Buf n) (start len : Nat) (dirToSend encode : Bool) : Prop :=
  ∀ {m : Nat} (out : Buf m) (outAt : Nat), outAt + len ≤ m →
    ∃ text last,
      (cbcCryptEx type key iv buf.bytes start len out outAt dirToSend encode :
        Run Unit _) = pure (out.patch outAt text, last) ∧
      (cbcCryptExInPlace type key iv buf start len dirToSend encode :
        Run Unit _) = pure (buf.patch start text, last) ∧
      text.length = len

end

end Nxpsc.InMemory
