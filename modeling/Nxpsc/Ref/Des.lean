import Nxpsc.Ref.Aes

/-!
# `des.c` of mbedtls

DES and triple DES. The two words of a subkey are one entry of the schedule,
so that `SK` runs over the entries.
-/

namespace Nxpsc.Mbedtls

/-! ## Tables -/

/-- Expanded DES S-boxes. -/
def sb1 : List Word := [
  0x01010400, 0x00000000, 0x00010000, 0x01010404, 0x01010004, 0x00010404,
  0x00000004, 0x00010000, 0x00000400, 0x01010400, 0x01010404, 0x00000400,
  0x01000404, 0x01010004, 0x01000000, 0x00000004, 0x00000404, 0x01000400,
  0x01000400, 0x00010400, 0x00010400, 0x01010000, 0x01010000, 0x01000404,
  0x00010004, 0x01000004, 0x01000004, 0x00010004, 0x00000000, 0x00000404,
  0x00010404, 0x01000000, 0x00010000, 0x01010404, 0x00000004, 0x01010000,
  0x01010400, 0x01000000, 0x01000000, 0x00000400, 0x01010004, 0x00010000,
  0x00010400, 0x01000004, 0x00000400, 0x00000004, 0x01000404, 0x00010404,
  0x01010404, 0x00010004, 0x01010000, 0x01000404, 0x01000004, 0x00000404,
  0x00010404, 0x01010400, 0x00000404, 0x01000400, 0x01000400, 0x00000000,
  0x00010004, 0x00010400, 0x00000000, 0x01010004]

def sb2 : List Word := [
  0x80108020, 0x80008000, 0x00008000, 0x00108020, 0x00100000, 0x00000020,
  0x80100020, 0x80008020, 0x80000020, 0x80108020, 0x80108000, 0x80000000,
  0x80008000, 0x00100000, 0x00000020, 0x80100020, 0x00108000, 0x00100020,
  0x80008020, 0x00000000, 0x80000000, 0x00008000, 0x00108020, 0x80100000,
  0x00100020, 0x80000020, 0x00000000, 0x00108000, 0x00008020, 0x80108000,
  0x80100000, 0x00008020, 0x00000000, 0x00108020, 0x80100020, 0x00100000,
  0x80008020, 0x80100000, 0x80108000, 0x00008000, 0x80100000, 0x80008000,
  0x00000020, 0x80108020, 0x00108020, 0x00000020, 0x00008000, 0x80000000,
  0x00008020, 0x80108000, 0x00100000, 0x80000020, 0x00100020, 0x80008020,
  0x80000020, 0x00100020, 0x00108000, 0x00000000, 0x80008000, 0x00008020,
  0x80000000, 0x80100020, 0x80108020, 0x00108000]

def sb3 : List Word := [
  0x00000208, 0x08020200, 0x00000000, 0x08020008, 0x08000200, 0x00000000,
  0x00020208, 0x08000200, 0x00020008, 0x08000008, 0x08000008, 0x00020000,
  0x08020208, 0x00020008, 0x08020000, 0x00000208, 0x08000000, 0x00000008,
  0x08020200, 0x00000200, 0x00020200, 0x08020000, 0x08020008, 0x00020208,
  0x08000208, 0x00020200, 0x00020000, 0x08000208, 0x00000008, 0x08020208,
  0x00000200, 0x08000000, 0x08020200, 0x08000000, 0x00020008, 0x00000208,
  0x00020000, 0x08020200, 0x08000200, 0x00000000, 0x00000200, 0x00020008,
  0x08020208, 0x08000200, 0x08000008, 0x00000200, 0x00000000, 0x08020008,
  0x08000208, 0x00020000, 0x08000000, 0x08020208, 0x00000008, 0x00020208,
  0x00020200, 0x08000008, 0x08020000, 0x08000208, 0x00000208, 0x08020000,
  0x00020208, 0x00000008, 0x08020008, 0x00020200]

def sb4 : List Word := [
  0x00802001, 0x00002081, 0x00002081, 0x00000080, 0x00802080, 0x00800081,
  0x00800001, 0x00002001, 0x00000000, 0x00802000, 0x00802000, 0x00802081,
  0x00000081, 0x00000000, 0x00800080, 0x00800001, 0x00000001, 0x00002000,
  0x00800000, 0x00802001, 0x00000080, 0x00800000, 0x00002001, 0x00002080,
  0x00800081, 0x00000001, 0x00002080, 0x00800080, 0x00002000, 0x00802080,
  0x00802081, 0x00000081, 0x00800080, 0x00800001, 0x00802000, 0x00802081,
  0x00000081, 0x00000000, 0x00000000, 0x00802000, 0x00002080, 0x00800080,
  0x00800081, 0x00000001, 0x00802001, 0x00002081, 0x00002081, 0x00000080,
  0x00802081, 0x00000081, 0x00000001, 0x00002000, 0x00800001, 0x00002001,
  0x00802080, 0x00800081, 0x00002001, 0x00002080, 0x00800000, 0x00802001,
  0x00000080, 0x00800000, 0x00002000, 0x00802080]

def sb5 : List Word := [
  0x00000100, 0x02080100, 0x02080000, 0x42000100, 0x00080000, 0x00000100,
  0x40000000, 0x02080000, 0x40080100, 0x00080000, 0x02000100, 0x40080100,
  0x42000100, 0x42080000, 0x00080100, 0x40000000, 0x02000000, 0x40080000,
  0x40080000, 0x00000000, 0x40000100, 0x42080100, 0x42080100, 0x02000100,
  0x42080000, 0x40000100, 0x00000000, 0x42000000, 0x02080100, 0x02000000,
  0x42000000, 0x00080100, 0x00080000, 0x42000100, 0x00000100, 0x02000000,
  0x40000000, 0x02080000, 0x42000100, 0x40080100, 0x02000100, 0x40000000,
  0x42080000, 0x02080100, 0x40080100, 0x00000100, 0x02000000, 0x42080000,
  0x42080100, 0x00080100, 0x42000000, 0x42080100, 0x02080000, 0x00000000,
  0x40080000, 0x42000000, 0x00080100, 0x02000100, 0x40000100, 0x00080000,
  0x00000000, 0x40080000, 0x02080100, 0x40000100]

def sb6 : List Word := [
  0x20000010, 0x20400000, 0x00004000, 0x20404010, 0x20400000, 0x00000010,
  0x20404010, 0x00400000, 0x20004000, 0x00404010, 0x00400000, 0x20000010,
  0x00400010, 0x20004000, 0x20000000, 0x00004010, 0x00000000, 0x00400010,
  0x20004010, 0x00004000, 0x00404000, 0x20004010, 0x00000010, 0x20400010,
  0x20400010, 0x00000000, 0x00404010, 0x20404000, 0x00004010, 0x00404000,
  0x20404000, 0x20000000, 0x20004000, 0x00000010, 0x20400010, 0x00404000,
  0x20404010, 0x00400000, 0x00004010, 0x20000010, 0x00400000, 0x20004000,
  0x20000000, 0x00004010, 0x20000010, 0x20404010, 0x00404000, 0x20400000,
  0x00404010, 0x20404000, 0x00000000, 0x20400010, 0x00000010, 0x00004000,
  0x20400000, 0x00404010, 0x00004000, 0x00400010, 0x20004010, 0x00000000,
  0x20404000, 0x20000000, 0x00400010, 0x20004010]

def sb7 : List Word := [
  0x00200000, 0x04200002, 0x04000802, 0x00000000, 0x00000800, 0x04000802,
  0x00200802, 0x04200800, 0x04200802, 0x00200000, 0x00000000, 0x04000002,
  0x00000002, 0x04000000, 0x04200002, 0x00000802, 0x04000800, 0x00200802,
  0x00200002, 0x04000800, 0x04000002, 0x04200000, 0x04200800, 0x00200002,
  0x04200000, 0x00000800, 0x00000802, 0x04200802, 0x00200800, 0x00000002,
  0x04000000, 0x00200800, 0x04000000, 0x00200800, 0x00200000, 0x04000802,
  0x04000802, 0x04200002, 0x04200002, 0x00000002, 0x00200002, 0x04000000,
  0x04000800, 0x00200000, 0x04200800, 0x00000802, 0x00200802, 0x04200800,
  0x00000802, 0x04000002, 0x04200802, 0x04200000, 0x00200800, 0x00000000,
  0x00000002, 0x04200802, 0x00000000, 0x00200802, 0x04200000, 0x00000800,
  0x04000002, 0x04000800, 0x00000800, 0x00200002]

def sb8 : List Word := [
  0x10001040, 0x00001000, 0x00040000, 0x10041040, 0x10000000, 0x10001040,
  0x00000040, 0x10000000, 0x00040040, 0x10040000, 0x10041040, 0x00041000,
  0x10041000, 0x00041040, 0x00001000, 0x00000040, 0x10040000, 0x10000040,
  0x10001000, 0x00001040, 0x00041000, 0x00040040, 0x10040040, 0x10041000,
  0x00001040, 0x00000000, 0x00000000, 0x10040040, 0x10000040, 0x10001000,
  0x00041040, 0x00040000, 0x00041040, 0x00040000, 0x10041000, 0x00001000,
  0x00000040, 0x10040040, 0x00001000, 0x00041040, 0x10001000, 0x00000040,
  0x10000040, 0x10040000, 0x10040040, 0x10000000, 0x00040000, 0x10001040,
  0x00000000, 0x10041040, 0x00040040, 0x10000040, 0x10040000, 0x10001000,
  0x10001040, 0x00000000, 0x10041040, 0x00041000, 0x00041000, 0x00001040,
  0x00001040, 0x00040040, 0x10000000, 0x10041000]

/-- PC1: left and right halves bit-swap. -/
def lhs : List Word := [
  0x00000000, 0x00000001, 0x00000100, 0x00000101, 0x00010000, 0x00010001,
  0x00010100, 0x00010101, 0x01000000, 0x01000001, 0x01000100, 0x01000101,
  0x01010000, 0x01010001, 0x01010100, 0x01010101]

def rhs : List Word := [
  0x00000000, 0x01000000, 0x00010000, 0x01010000, 0x00000100, 0x01000100,
  0x00010100, 0x01010100, 0x00000001, 0x01000001, 0x00010001, 0x01010001,
  0x00000101, 0x01000101, 0x00010101, 0x01010101]

/-! ## Words -/

/-- `GET_UINT32_BE`. -/
def getUint32Be (b : Bytes) (i : Nat) : Word :=
  ((b.getD i 0).toBitVec.setWidth 32 <<< 24) |||
    ((b.getD (i + 1) 0).toBitVec.setWidth 32 <<< 16) |||
    ((b.getD (i + 2) 0).toBitVec.setWidth 32 <<< 8) |||
    (b.getD (i + 3) 0).toBitVec.setWidth 32

/-- `PUT_UINT32_BE`. -/
def putUint32Be (n : Word) : Bytes :=
  [.ofBitVec ((n >>> 24).setWidth 8), .ofBitVec ((n >>> 16).setWidth 8),
    .ofBitVec ((n >>> 8).setWidth 8), .ofBitVec (n.setWidth 8)]

/-- `T = ((X >> s) ^ Y) & mask; Y ^= T; X ^= (T << s)`, the step that the
permutations are made of. -/
def exchange (s : Nat) (mask : Word) (h : Word × Word) : Word × Word :=
  let t := ((h.1 >>> s) ^^^ h.2) &&& mask
  (h.1 ^^^ (t <<< s), h.2 ^^^ t)

/-- `DES_IP(X, Y)`. -/
def desIp (h : Word × Word) : Word × Word :=
  let h := exchange 4 0x0F0F0F0F h
  let h := exchange 16 0x0000FFFF h
  let h := (exchange 2 0x33333333 h.swap).swap
  let h := (exchange 8 0x00FF00FF h.swap).swap
  let h := (h.1, ((h.2 <<< 1) ||| (h.2 >>> 31)) &&& 0xFFFFFFFF)
  let h := exchange 0 0xAAAAAAAA h
  (((h.1 <<< 1) ||| (h.1 >>> 31)) &&& 0xFFFFFFFF, h.2)

/-- `DES_FP(X, Y)`. -/
def desFp (h : Word × Word) : Word × Word :=
  let h := (((h.1 <<< 31) ||| (h.1 >>> 1)) &&& 0xFFFFFFFF, h.2)
  let h := exchange 0 0xAAAAAAAA h
  let h := (h.1, ((h.2 <<< 31) ||| (h.2 >>> 1)) &&& 0xFFFFFFFF)
  let h := (exchange 8 0x00FF00FF h.swap).swap
  let h := (exchange 2 0x33333333 h.swap).swap
  let h := exchange 16 0x0000FFFF h
  exchange 4 0x0F0F0F0F h

/-- `(w >> s) & 0x3F`, as an index. -/
def sixOf (w : Word) (s : Nat) : Nat := ((w >>> s) &&& 0x3F).toNat

/-- What `DES_ROUND(X, Y)` makes of the subkey and `X` and adds to `Y`. -/
def desRound (sk : Word × Word) (x : Word) : Word :=
  let t := sk.1 ^^^ x
  let u := sk.2 ^^^ ((x <<< 28) ||| (x >>> 4))
  (sb8.getD (sixOf t 0) 0 ^^^ sb6.getD (sixOf t 8) 0 ^^^
      sb4.getD (sixOf t 16) 0 ^^^ sb2.getD (sixOf t 24) 0) ^^^
    (sb7.getD (sixOf u 0) 0 ^^^ sb5.getD (sixOf u 8) 0 ^^^
      sb3.getD (sixOf u 16) 0 ^^^ sb1.getD (sixOf u 24) 0)

/-! ## The key schedule -/

/-- `(LHs[(X >> r) & 0xF] << l) | ...`, a pair `(r, l)` for each term. -/
def lookUp (table : List Word) (terms : List (Nat × Nat)) (x : Word) : Word :=
  terms.foldl (fun acc t =>
    acc ||| (table.getD ((x >>> t.1) &&& 0xF).toNat 0 <<< t.2)) 0

/-- Permuted choice 1. -/
def permutedChoice (h : Word × Word) : Word × Word :=
  let h := (exchange 4 0x0F0F0F0F h.swap).swap
  let h := (exchange 0 0x10101010 h.swap).swap
  let x := lookUp lhs [(0, 3), (8, 2), (16, 1), (24, 0),
    (5, 7), (13, 6), (21, 5), (29, 4)] h.1
  let y := lookUp rhs [(1, 3), (9, 2), (17, 1), (25, 0),
    (4, 7), (12, 6), (20, 5), (28, 4)] h.2
  (x &&& 0x0FFFFFFF, y &&& 0x0FFFFFFF)

/-- The halves turn by one bit or by two. -/
def turnHalf (i : Nat) (x : Word) : Word :=
  if i < 2 ∨ i = 8 ∨ i = 15 then ((x <<< 1) ||| (x >>> 27)) &&& 0x0FFFFFFF
  else ((x <<< 2) ||| (x >>> 26)) &&& 0x0FFFFFFF

inductive Half
  | x
  | y

inductive Shift
  | left (n : Nat)
  | right (n : Nat)

/-- A term `((X << n) & mask)` of a subkey. -/
structure Term where
  half : Half
  shift : Shift
  mask : Word

def Half.of : Half → Word × Word → Word
  | .x, h => h.1
  | .y, h => h.2

def Shift.apply : Shift → Word → Word
  | .left n, w => w <<< n
  | .right n, w => w >>> n

def Term.value (t : Term) (h : Word × Word) : Word :=
  t.shift.apply (t.half.of h) &&& t.mask

/-- The terms of the first word of a subkey. -/
def subkeyTerms0 : List Term := [
  ⟨.x, .left 4, 0x24000000⟩, ⟨.x, .left 28, 0x10000000⟩,
  ⟨.x, .left 14, 0x08000000⟩, ⟨.x, .left 18, 0x02080000⟩,
  ⟨.x, .left 6, 0x01000000⟩, ⟨.x, .left 9, 0x00200000⟩,
  ⟨.x, .right 1, 0x00100000⟩, ⟨.x, .left 10, 0x00040000⟩,
  ⟨.x, .left 2, 0x00020000⟩, ⟨.x, .right 10, 0x00010000⟩,
  ⟨.y, .right 13, 0x00002000⟩, ⟨.y, .right 4, 0x00001000⟩,
  ⟨.y, .left 6, 0x00000800⟩, ⟨.y, .right 1, 0x00000400⟩,
  ⟨.y, .right 14, 0x00000200⟩, ⟨.y, .left 0, 0x00000100⟩,
  ⟨.y, .right 5, 0x00000020⟩, ⟨.y, .right 10, 0x00000010⟩,
  ⟨.y, .right 3, 0x00000008⟩, ⟨.y, .right 18, 0x00000004⟩,
  ⟨.y, .right 26, 0x00000002⟩, ⟨.y, .right 24, 0x00000001⟩]

/-- The terms of the second one. -/
def subkeyTerms1 : List Term := [
  ⟨.x, .left 15, 0x20000000⟩, ⟨.x, .left 17, 0x10000000⟩,
  ⟨.x, .left 10, 0x08000000⟩, ⟨.x, .left 22, 0x04000000⟩,
  ⟨.x, .right 2, 0x02000000⟩, ⟨.x, .left 1, 0x01000000⟩,
  ⟨.x, .left 16, 0x00200000⟩, ⟨.x, .left 11, 0x00100000⟩,
  ⟨.x, .left 3, 0x00080000⟩, ⟨.x, .right 6, 0x00040000⟩,
  ⟨.x, .left 15, 0x00020000⟩, ⟨.x, .right 4, 0x00010000⟩,
  ⟨.y, .right 2, 0x00002000⟩, ⟨.y, .left 8, 0x00001000⟩,
  ⟨.y, .right 14, 0x00000808⟩, ⟨.y, .right 9, 0x00000400⟩,
  ⟨.y, .left 0, 0x00000200⟩, ⟨.y, .left 7, 0x00000100⟩,
  ⟨.y, .right 7, 0x00000020⟩, ⟨.y, .right 3, 0x00000011⟩,
  ⟨.y, .left 2, 0x00000004⟩, ⟨.y, .right 21, 0x00000002⟩]

/-- The terms of a word, with `|` between them. -/
def orTerms (terms : List Term) (h : Word × Word) : Word :=
  terms.foldl (fun acc t => acc ||| t.value h) 0

/-- The two words of a subkey. -/
def subkey (h : Word × Word) : Word × Word :=
  (orTerms subkeyTerms0 h, orTerms subkeyTerms1 h)

/-- `for (; i < 16; i++)`: `n` subkeys that are left. -/
def subkeys : Nat → Nat → Word × Word → List (Word × Word)
  | 0, _, _ => []
  | n + 1, i, h =>
      let h := (turnHalf i h.1, turnHalf i h.2)
      subkey h :: subkeys n (i + 1) h

/-- `mbedtls_des_setkey`. -/
def desSetkey (key : Bytes) : List (Word × Word) :=
  subkeys 16 0 (permutedChoice (getUint32Be key 0, getUint32Be key 4))

/-- `mbedtls_des_setkey_enc`. -/
def desSetkeyEnc (key : Bytes) : List (Word × Word) := desSetkey key

/-- `SWAP` on both words of two entries. -/
def swapEntries (sk : List (Word × Word)) (i j : Nat) : List (Word × Word) :=
  (sk.set i (sk.getD j (0, 0))).set j (sk.getD i (0, 0))

/-- `mbedtls_des_setkey_dec`. -/
def desSetkeyDec (key : Bytes) : List (Word × Word) :=
  (List.range 8).foldl (fun sk i => swapEntries sk i (15 - i)) (desSetkey key)

/-- `dsk[i] = esk[30 - i], dsk[i + 1] = esk[31 - i]` for one key. -/
def backwards (sk : List (Word × Word)) : List (Word × Word) :=
  (List.range 16).map fun i => sk.getD (15 - i) (0, 0)

/-- `des3_set3key`: the schedules for encryption and for decryption. -/
def des3Set3key (key : Bytes) : List (Word × Word) × List (Word × Word) :=
  let first := desSetkey key
  let second := desSetkey (key.drop 8)
  let third := desSetkey (key.drop 16)
  (first ++ backwards second ++ third,
    backwards third ++ second ++ backwards first)

/-- `mbedtls_des3_set3key_enc`. -/
def des3Set3keyEnc (key : Bytes) : List (Word × Word) := (des3Set3key key).1

/-- `mbedtls_des3_set3key_dec`. -/
def des3Set3keyDec (key : Bytes) : List (Word × Word) := (des3Set3key key).2

/-! ## One block -/

/-- `n` times `DES_ROUND(Y, X); DES_ROUND(X, Y)`, with the halves and `SK`
that are left. -/
def desRounds : Nat → List (Word × Word) → Word × Word →
    (Word × Word) × List (Word × Word)
  | 0, sk, h => (h, sk)
  | n + 1, sk, (x, y) =>
      let x := x ^^^ desRound (sk.getD 0 (0, 0)) y
      let y := y ^^^ desRound (sk.getD 1 (0, 0)) x
      desRounds n (sk.drop 2) (x, y)

def getHalves (input : Bytes) : Word × Word :=
  (getUint32Be input 0, getUint32Be input 4)

/-- `PUT_UINT32_BE(Y, output, 0); PUT_UINT32_BE(X, output, 4)`, with `Y`
first. -/
def putHalves (h : Word × Word) : Bytes := putUint32Be h.1 ++ putUint32Be h.2

/-- `mbedtls_des_crypt_ecb`. -/
def desCryptEcb (sk : List (Word × Word)) (input : Bytes) : Bytes :=
  let h := (desRounds 8 sk (desIp (getHalves input))).1
  putHalves (desFp h.swap)

/-- `mbedtls_des3_crypt_ecb`. -/
def des3CryptEcb (sk : List (Word × Word)) (input : Bytes) : Bytes :=
  let first := desRounds 8 sk (desIp (getHalves input))
  -- `DES_ROUND(X, Y); DES_ROUND(Y, X)`: the halves have changed places
  let second := desRounds 8 first.2 first.1.swap
  let third := desRounds 8 second.2 second.1.swap
  putHalves (desFp third.1.swap)

end Nxpsc.Mbedtls
