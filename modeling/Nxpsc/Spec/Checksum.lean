import Mathlib.Data.List.DropRight
import Nxpsc.Lib.Crc
import Nxpsc.Ref.Channel

/-!
# What the checksums are, and where one stands

The two checksums as registers that take a message bit by bit, the low bit of
a byte first, and what it is for two messages to differ in one stretch of
bits only. And the place of a checksum in a deciphered answer, which says
nothing of its own length.
-/

namespace Nxpsc

/-! ## Checksums -/

def byteBits (b : UInt8) : List Bool :=
  (List.range 8).map b.toBitVec.getLsbD

def messageBits (m : Bytes) : List Bool := m.flatMap byteBits

/-- The CRC of ISO 14443-3 type A: x^16 + x^12 + x^5 + 1, reflected. -/
def crc16Register (m : Bytes) : BitVec 16 :=
  Crc.register 0x8408#16 0x6363#16 (messageBits m)

/-- The CRC of IEEE 802.3, reflected, without the final inversion. -/
def crc32Register (m : Bytes) : BitVec 32 :=
  Crc.register 0xEDB88320#32 0xFFFFFFFF#32 (messageBits m)

/-- Two messages of one length, and `n` bits behind each other outside of which
they are the same. -/
def DifferWithin (n : Nat) (m m' : Bytes) : Prop :=
  m ≠ m' ∧ m.length = m'.length ∧
    ∃ k, ∀ i, i < k ∨ k + n ≤ i → (messageBits m)[i]? = (messageBits m')[i]?

/-! ## The place of a checksum -/

/-- The checksum of so many bytes over a payload; the long one covers the
status as well. -/
def checksumOf (status : UInt8) (crcLen : Nat) (payload : Bytes) : Bytes :=
  if crcLen = 4 then crc32 (payload ++ [status]) else crc16 payload

/-- Everything before the position is a payload: its checksum follows, and
behind that at most one byte that is not zero, the mark of the padding. -/
structure CrcPosition (data : Bytes) (status : UInt8) (crcLen r : Nat) :
    Prop where
  room : r + crcLen ≤ data.length
  checks : checksumOf status crcLen (data.take r) =
    (data.drop r).take crcLen
  padding : ∀ i, r + crcLen + 1 ≤ i → data.getD i 0 = 0

/-- One past the last byte that is not zero; 1 where all are. -/
def contentEnd (data : Bytes) : Nat :=
  max 1 (data.rdropWhile (· == 0)).length

/-- The positions a search looks at, 0 being its answer for none. -/
def Plausible (data : Bytes) (crcLen c : Nat) : Prop :=
  0 < c ∧ contentEnd data ≤ c + (crcLen + 1) ∧ c ≤ contentEnd data

/-- `r` is the first of these positions, and 0 only where there is none. -/
structure CrcSearched (data : Bytes) (status : UInt8) (crcLen r : Nat) :
    Prop where
  hit : r ≠ 0 → CrcPosition data status crcLen r
  first : r ≠ 0 → Plausible data crcLen r ∧
    ∀ c, Plausible data crcLen c → CrcPosition data status crcLen c → r ≤ c
  found : (∃ c, Plausible data crcLen c ∧
    CrcPosition data status crcLen c) → r ≠ 0

/-- The one content that is shorter than its checksum: three bytes 0xFF and
zeros behind them, under the status 0xFF. -/
def EndsInChecksum (data : Bytes) (status : UInt8) (crcLen : Nat) : Prop :=
  crcLen = 4 ∧ status = 0xFF ∧
    ∃ n, 2 ≤ n ∧ data = [0xFF, 0xFF, 0xFF] ++ Bytes.zeros n

/-! ## The search as it goes -/

/-- Where the search starts. -/
def crcSearchStart (data : Bytes) : Nat := skipZeros data (data.length - 1) + 1

/-- A position inside the window with no checksum at a shorter one. -/
def FirstHit (data : Bytes) (status : UInt8) (crcLen n : Nat) : Prop :=
  crcLen ≤ crcSearchStart data ∧ n ≤ crcSearchStart data ∧
    ∀ c, 0 < c → c < n → crcSearchStart data < c + crcLen + 2 →
      crcMatches data status crcLen c = false

instance (data : Bytes) (status : UInt8) (crcLen n : Nat) :
    Decidable (FirstHit data status crcLen n) :=
  decidable_of_iff
    (crcLen ≤ crcSearchStart data ∧ n ≤ crcSearchStart data ∧
      ∀ c < n, 0 < c → crcSearchStart data < c + crcLen + 2 →
        crcMatches data status crcLen c = false)
    ⟨fun ⟨h₁, h₂, h₃⟩ => ⟨h₁, h₂, fun c hpos hlt => h₃ c hlt hpos⟩,
      fun ⟨h₁, h₂, h₃⟩ => ⟨h₁, h₂, fun c hlt hpos => h₃ c hpos hlt⟩⟩

end Nxpsc
