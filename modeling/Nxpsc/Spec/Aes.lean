import Nxpsc.Lib.Bytes

/-!
# AES, as FIPS 197 has it

Bytes are elements of the field of 256 elements, a state is four columns of
four bytes, and nothing is looked up in a table. The key schedule is the list
of words of the standard, for a key of `nk` words.
-/

namespace Nxpsc.Fips197

abbrev Byte := BitVec 8

/-! ## The field -/

/-- A byte times `x`, modulo `x⁸ + x⁴ + x³ + x + 1`. -/
def xtimes (b : Byte) : Byte := (b <<< 1) ^^^ bif b.msb then 0x1B else 0x00

def mulBits : Nat → Byte → Byte → Byte
  | 0, _, _ => 0
  | n + 1, c, b =>
      (bif c.getLsbD 0 then b else 0) ^^^ mulBits n (c >>> 1) (xtimes b)

/-- The product. -/
def mul (c b : Byte) : Byte := mulBits 8 c b

/-- The square, its square and so on, multiplied. -/
def invFrom : Nat → Byte → Byte
  | 0, _ => 1
  | n + 1, b => mul (mul b b) (invFrom n (mul b b))

/-- `b` to the power 254: its inverse, and 0 for 0. -/
def inv (b : Byte) : Byte := invFrom 7 b

/-! ## The layers of a round -/

def sbox (b : Byte) : Byte :=
  let i := inv b
  i ^^^ i.rotateLeft 1 ^^^ i.rotateLeft 2 ^^^ i.rotateLeft 3 ^^^
    i.rotateLeft 4 ^^^ 0x63

/-- A column of the state, which is also a word of the key schedule. -/
@[ext] structure Column where
  b0 : Byte
  b1 : Byte
  b2 : Byte
  b3 : Byte
  deriving DecidableEq

structure State where
  c0 : Column
  c1 : Column
  c2 : Column
  c3 : Column
  deriving DecidableEq

def Column.map (f : Byte → Byte) (w : Column) : Column :=
  ⟨f w.b0, f w.b1, f w.b2, f w.b3⟩

def State.map (f : Column → Column) (s : State) : State :=
  ⟨f s.c0, f s.c1, f s.c2, f s.c3⟩

def xorWord (v w : Column) : Column :=
  ⟨v.b0 ^^^ w.b0, v.b1 ^^^ w.b1, v.b2 ^^^ w.b2, v.b3 ^^^ w.b3⟩

def addRoundKey (s k : State) : State :=
  ⟨xorWord s.c0 k.c0, xorWord s.c1 k.c1, xorWord s.c2 k.c2, xorWord s.c3 k.c3⟩

def subBytes : State → State := State.map (Column.map sbox)

/-- Row `r` moves `r` columns to the left. -/
def shiftRows (s : State) : State :=
  ⟨⟨s.c0.b0, s.c1.b1, s.c2.b2, s.c3.b3⟩, ⟨s.c1.b0, s.c2.b1, s.c3.b2, s.c0.b3⟩,
    ⟨s.c2.b0, s.c3.b1, s.c0.b2, s.c1.b3⟩, ⟨s.c3.b0, s.c0.b1, s.c1.b2, s.c2.b3⟩⟩

def invShiftRows (s : State) : State :=
  ⟨⟨s.c0.b0, s.c3.b1, s.c2.b2, s.c1.b3⟩, ⟨s.c1.b0, s.c0.b1, s.c3.b2, s.c2.b3⟩,
    ⟨s.c2.b0, s.c1.b1, s.c0.b2, s.c3.b3⟩, ⟨s.c3.b0, s.c2.b1, s.c1.b2, s.c0.b3⟩⟩

/-- A row of the matrix times a column. -/
def dot (row w : Column) : Byte :=
  mul row.b0 w.b0 ^^^ mul row.b1 w.b1 ^^^ mul row.b2 w.b2 ^^^ mul row.b3 w.b3

/-- The row below, which is the same one turned right. -/
def turned (row : Column) : Column := ⟨row.b3, row.b0, row.b1, row.b2⟩

/-- The matrix with the first row `row` times a column. -/
def mulMatrix (row w : Column) : Column :=
  ⟨dot row w, dot (turned row) w, dot (turned (turned row)) w,
    dot (turned (turned (turned row))) w⟩

def mixRow : Column := ⟨0x02, 0x03, 0x01, 0x01⟩

def invMixRow : Column := ⟨0x0E, 0x0B, 0x0D, 0x09⟩

def mixColumns : State → State := State.map (mulMatrix mixRow)

def invMixColumns : State → State := State.map (mulMatrix invMixRow)

/-! ## The key schedule -/

def zeroWord : Column := ⟨0, 0, 0, 0⟩

def rotWord (w : Column) : Column := ⟨w.b1, w.b2, w.b3, w.b0⟩

def subWord : Column → Column := Column.map sbox

/-- The round constant `x` to the power `j - 1`, in the first byte. -/
def rcon (j : Nat) : Column := ⟨Nat.repeat xtimes (j - 1) 1, 0, 0, 0⟩

/-- What is added to `w[i - nk]`, made of `w[i - 1]`. -/
def temp (nk i : Nat) (w : Column) : Column :=
  if i % nk = 0 then xorWord (subWord (rotWord w)) (rcon (i / nk))
  else if 6 < nk ∧ i % nk = 4 then subWord w
  else w

/-- The word that comes next in a schedule. -/
def nextWord (nk : Nat) (ws : List Column) : Column :=
  xorWord (ws.getD (ws.length - nk) zeroWord)
    (temp nk ws.length (ws.getD (ws.length - 1) zeroWord))

/-- The key and `n` words after it. -/
def expandKey (nk : Nat) (key : List Column) : Nat → List Column
  | 0 => key
  | n + 1 =>
      let ws := expandKey nk key n
      ws ++ [nextWord nk ws]

/-- The key of a round, out of the schedule. -/
def roundKey (ws : List Column) (round : Nat) : State :=
  ⟨ws.getD (4 * round) zeroWord, ws.getD (4 * round + 1) zeroWord,
    ws.getD (4 * round + 2) zeroWord, ws.getD (4 * round + 3) zeroWord⟩

/-! ## The cipher -/

/-- The number of rounds for a key of `nk` words. -/
def rounds (nk : Nat) : Nat := nk + 6

def schedule (nk : Nat) (key : List Column) : List Column :=
  expandKey nk key (4 * (rounds nk + 1) - nk)

/-- The keys of the rounds between the first addition and the last round. -/
def middleKeys (nk : Nat) (ws : List Column) : List State :=
  (List.range (rounds nk - 1)).map fun i => roundKey ws (i + 1)

def cipher (nk : Nat) (key : List Column) (input : State) : State :=
  let ws := schedule nk key
  let state := (middleKeys nk ws).foldl
    (fun s k => addRoundKey (mixColumns (shiftRows (subBytes s))) k)
    (addRoundKey input (roundKey ws 0))
  addRoundKey (shiftRows (subBytes state)) (roundKey ws (rounds nk))

/-! ## Strings -/

/-- The word that begins at a position of a string. -/
def wordAt (input : Bytes) (i : Nat) : Column :=
  ⟨(input.getD i 0).toBitVec, (input.getD (i + 1) 0).toBitVec,
    (input.getD (i + 2) 0).toBitVec, (input.getD (i + 3) 0).toBitVec⟩

def Column.bytes (w : Column) : Bytes :=
  [.ofBitVec w.b0, .ofBitVec w.b1, .ofBitVec w.b2, .ofBitVec w.b3]

def ofBytes (input : Bytes) : State :=
  ⟨wordAt input 0, wordAt input 4, wordAt input 8, wordAt input 12⟩

def State.bytes (s : State) : Bytes :=
  s.c0.bytes ++ s.c1.bytes ++ s.c2.bytes ++ s.c3.bytes

/-- The words of a key. -/
def keyWords (nk : Nat) (key : Bytes) : List Column :=
  (List.range nk).map fun i => wordAt key (4 * i)

end Nxpsc.Fips197
