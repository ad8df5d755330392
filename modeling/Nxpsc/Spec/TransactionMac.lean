import Nxpsc.Lib.Parser
import Nxpsc.Ref.Advanced
import Nxpsc.Spec.Cmac
import Nxpsc.Spec.Requests

/-!
# The transaction MAC

A back office recomputes the MAC of a transaction from what it knows of it:
the counter goes into the session key, and the input is rebuilt from the
operations. Both have to be the ones of the card, and the input has to say
which operations they were.
-/

namespace Nxpsc

/-! ## The value -/

/-- No two of a counter, a UID and a purpose have a session vector in
common. -/
def TransVectorsDiffer : Prop :=
  ∀ c₁ c₂ u₁ u₂ m₁ m₂, u₁.length = 7 → u₂.length = 7 →
    transSessionVector c₁ u₁ m₁ = transSessionVector c₂ u₂ m₂ →
      c₁ = c₂ ∧ u₁ = u₂ ∧ m₁ = m₂

section

variable [BlockCipher]

/-- The reported counter `tmc` and the counter before it lead to one value. -/
structure TmacAgrees (key : Key) (uid tmc tmi : Bytes) (counter : UInt32) :
    Prop where
  session : ∀ forMac, transSessionKeyEv2 key.data.bytes counter uid forMac =
    .ok (nistCmac .aes128 key.data.bytes
      (transSessionVector counter uid forMac))
  value : ∃ sessionKey,
    transSessionKeyEv2 key.data.bytes counter uid true = .ok sessionKey ∧
      tmacCompute key uid tmc tmi =
        .ok (oddBytes (nistCmac .aes128 sessionKey tmi))

end

/-! ## The input -/

/-- A WriteRecord of a transaction. -/
structure RecordWrite where
  fileNo : UInt8
  offset : UInt32
  data : Bytes
  placed : offset.toNat < 2 ^ 24
  filled : data ≠ []
  sized : data.length < 2 ^ 24

namespace RecordWrite

/-- What is read back of it. -/
def fields (op : RecordWrite) : UInt8 × Nat × Bytes :=
  (op.fileNo, op.offset.toNat, op.data)

/-- The builder makes the block of it, in a buffer of some size. -/
def Adds (op : RecordWrite) (block : Bytes) : Prop :=
  ∃ cap, tmacTmiWriteRecord op.fileNo op.offset op.data cap = .ok block

end RecordWrite

/-- A block, read by its layout. -/
def tmiBlock : Parser UInt8 (UInt8 × Nat × Bytes) := do
  let _ ← Parser.item
  let fileNo ← Parser.item
  let offset ← Parser.number 3
  let length ← Parser.number 3
  let _ ← Parser.take 8
  let data ← Parser.take length
  let _ ← Parser.take ((length + 15) / 16 * 16 - length)
  pure (fileNo, offset, data)

section

variable [BlockCipher]

/-- The block and the first frame of the call begin with the same bytes: the
call sends nothing, or it sends that frame first. -/
def RecordWrite.SentAs (op : RecordWrite) (block : Bytes) (card : Card)
    (comm : CommMode) : Prop :=
  ∀ script,
    Unsent (writeRecord op.fileNo op.offset op.data comm card script) ∨
      ∃ piece frames,
        (writeRecord op.fileNo op.offset op.data comm card script).queries =
          nativeFrame card.wraps dfWriteRecord piece :: frames ∧
        block.take 8 = dfWriteRecord :: piece.take 7

/-- What a transaction MAC is computed over says which operations there were:
there is a block for every one, whole, and the data in it; the blocks of two
lists that run together are those of one; and a block begins as the frame of
the card does. -/
structure TmiDetermines : Prop where
  built : ∀ op : RecordWrite, ∃ block, op.Adds block
  unique : ∀ ops₁ ops₂ blocks₁ blocks₂,
    List.Forall₂ RecordWrite.Adds ops₁ blocks₁ →
    List.Forall₂ RecordWrite.Adds ops₂ blocks₂ →
    blocks₁.flatten = blocks₂.flatten → ops₁ = ops₂
  whole : ∀ op block, RecordWrite.Adds op block → block.length % 16 = 0
  data : ∀ op block, RecordWrite.Adds op block →
    ∃ n, block.drop 16 = op.data ++ Bytes.zeros n
  header : ∀ op block, RecordWrite.Adds op block → ∀ card comm,
    card.isoChaining = false → op.SentAs block card comm

end

end Nxpsc
