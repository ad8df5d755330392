import Nxpsc.Ref.Crypto

/-!
# The leakage resilient primitive of `nxpsc_crypto.c`

The context a session key expands to, the evaluation over a string of
nibbles, the counter mode built on it and its MAC. A context is set up anew
for every use; only the counter survives a call, in the first four bytes of
the handle's IV.
-/

namespace Nxpsc

def lrpPlaintexts : Nat := 16
def lrpUpdatedKeys : Nat := 4
def lrpMaxCounter : Nat := aesBlock * 4

/-- `nxpsc_lrp_ctx_t`; the two tables carry their own counts. -/
structure LrpCtx where
  key : Bytes
  plaintexts : List Bytes
  updatedKeys : List Bytes
  useUpdatedKey : Nat
  bitPadding : Bool
  counter : Buf 64
  counterLenNibbles : Nat

def lrpConstAa : Bytes := List.replicate 16 0xAA
def lrpConst55 : Bytes := List.replicate 16 0x55
def lrpConst00 : Bytes := Bytes.zeros 16

/-! ## The counter -/

def lrpSetCounter (ctx : LrpCtx) (counter : Bytes) (lenNibbles : Nat) :
    LrpCtx :=
  if lrpMaxCounter < lenNibbles / 2 then ctx
  else
    { ctx with
      counter := .of 64 (counter.take ((lenNibbles + 1) / 2))
      counterLenNibbles := lenNibbles }

/-- A set counter does not change how the context pads. -/
theorem lrpSetCounter_bitPadding (ctx : LrpCtx) (counter : Bytes) (n : Nat) :
    (lrpSetCounter ctx counter n).bitPadding = ctx.bitPadding := by
  rw [lrpSetCounter]
  split <;> rfl

theorem lrpSetCounter_key (ctx : LrpCtx) (counter : Bytes)
    (lenNibbles : Nat) :
    (lrpSetCounter ctx counter lenNibbles).key = ctx.key := by
  rw [lrpSetCounter]
  split <;> rfl

/-- Four bytes of a counter are set. -/
theorem lrpSetCounter_congr (ctx : LrpCtx) {counter counter' : Bytes}
    (h : counter.take 4 = counter'.take 4) :
    lrpSetCounter ctx counter (4 * 2) = lrpSetCounter ctx counter' 8 := by
  simp only [lrpSetCounter]
  rw [show (4 * 2 + 1) / 2 = 4 from rfl, h]

/-- The `i`th half byte, high half first. -/
def nibbleAt (bytes : Bytes) (i : Nat) : UInt8 :=
  if i % 2 = 1 then bytes.getD (i / 2) 0 &&& 0x0F
  else (bytes.getD (i / 2) 0 >>> 4) &&& 0x0F

/-- Writes the `i`th half byte. -/
def setNibble (bytes : Bytes) (i : Nat) (v : UInt8) : Bytes :=
  bytes.modify (i / 2) fun b =>
    if i % 2 = 1 then (b &&& (0xF0 : UInt8)) ||| (v &&& 0x0F)
    else (b &&& (0x0F : UInt8)) ||| ((v <<< 4) &&& (0xF0 : UInt8))

@[simp] theorem length_setNibble (bytes : Bytes) (i : Nat) (v : UInt8) :
    (setNibble bytes i v).length = bytes.length := by
  rw [setNibble, List.length_modify]

/-- `nxpsc_lrp_inc_counter`: from the last half byte to the first, until
nothing is carried. -/
def lrpIncCounter : Nat → Bytes → Bytes
  | 0, counter => counter
  | i + 1, counter =>
      let nibble := nibbleAt counter i + 1
      let counter := setNibble counter i nibble
      if 0x0F < nibble then lrpIncCounter i counter else counter

theorem length_lrpIncCounter (n : Nat) (counter : Bytes) :
    (lrpIncCounter n counter).length = counter.length := by
  induction n generalizing counter with
  | zero => rfl
  | succ i ih =>
      simp only [lrpIncCounter]
      split
      · rw [ih, length_setNibble]
      · rw [length_setNibble]

/-- The counter step between two blocks. -/
def LrpCtx.next (ctx : LrpCtx) : LrpCtx :=
  { ctx with
    counter := ⟨lrpIncCounter ctx.counterLenNibbles ctx.counter.bytes, by
      rw [length_lrpIncCounter, ctx.counter.size]⟩ }

/-! ## Evaluation, counter mode and MAC -/

section

variable [BlockCipher]

/-- The plaintext table: `h` steps on the one constant, an entry is read off
with the other. -/
def lrpPlaintextTable (h : Bytes) : Nat → List Bytes
  | 0 => []
  | n + 1 =>
      let h := ecbEncryptBlock .aes128 h lrpConst55
      ecbEncryptBlock .aes128 h lrpConstAa :: lrpPlaintextTable h n

/-- The updated keys, read off before `h` steps. -/
def lrpUpdatedKeyTable (h : Bytes) : Nat → List Bytes
  | 0 => []
  | n + 1 =>
      ecbEncryptBlock .aes128 h lrpConstAa ::
        lrpUpdatedKeyTable (ecbEncryptBlock .aes128 h lrpConst55) n

/-- `nxpsc_lrp_init`, `lrp_generate_tables` included. -/
def lrpInit (key : Bytes) (updatedKey : Nat) (bitPadding : Bool) : LrpCtx where
  key := key.take aesBlock
  plaintexts := lrpPlaintextTable (key.take aesBlock) lrpPlaintexts
  updatedKeys :=
    lrpUpdatedKeyTable
      (ecbEncryptBlock .aes128 (key.take aesBlock) lrpConstAa) lrpUpdatedKeys
  useUpdatedKey := updatedKey
  bitPadding := bitPadding
  counter := .zero 64
  counterLenNibbles := aesBlock

def lrpEval (ctx : LrpCtx) (iv : Bytes) (ivLenNibbles : Nat) (final : Bool) :
    Bytes :=
  let ry := (List.range ivLenNibbles).foldl
    (fun ry i => ecbEncryptBlock .aes128 ry
      (ctx.plaintexts.getD (nibbleAt iv i).toNat []))
    (ctx.updatedKeys.getD ctx.useUpdatedKey [])
  if final then ecbEncryptBlock .aes128 ry lrpConst00 else ry

/-- The counter mode over a list of blocks, and the context afterwards. -/
def lrpBlocks (prim : Bytes → Bytes → Bytes) (ctx : LrpCtx) :
    List Bytes → List Bytes × LrpCtx
  | [] => ([], ctx)
  | block :: rest =>
      let y := lrpEval ctx ctx.counter.bytes ctx.counterLenNibbles true
      let tail := lrpBlocks prim ctx.next rest
      (prim y block :: tail.1, tail.2)

def lrpEncode (ctx : LrpCtx) (data : Bytes) (cap : Nat) :
    Except Err Bytes × LrpCtx :=
  let dlen :=
    paddedLen (data.length + (if ctx.bitPadding then 1 else 0)) aesBlock
  if dlen = 0 then (.ok [], ctx)
  else if cap < dlen then (.error .length, ctx)
  else
    let buf := Bytes.fit dlen
      (data ++ (if ctx.bitPadding then [0x80] else []))
    let done := lrpBlocks (fun y b => ecbEncryptBlock .aes128 y b) ctx
      (Bytes.chunks aesBlock (dlen / aesBlock) buf)
    (.ok done.1.flatten, done.2)

/-- How much of a deciphered string the bit padding leaves: the scan looks
back over one block at most. -/
def lrpUnpadded (out : Bytes) : Nat → Nat → Nat
  | 0, _ => out.length
  | _ + 1, 0 => out.length
  | rounds + 1, i + 1 =>
      if out.getD i 0 = 0x80 then i
      else if out.getD i 0 ≠ 0x00 then out.length
      else lrpUnpadded out rounds i

/-- `nxpsc_lrp_decode`: the blocks written to `out`, and `out_len`. -/
def lrpDecode (ctx : LrpCtx) (data : Bytes) (cap : Nat) :
    Except Err (Bytes × Nat) × LrpCtx :=
  if data.length = 0 ∨ data.length % aesBlock ≠ 0 then (.error .length, ctx)
  else if cap < data.length then (.error .length, ctx)
  else
    let done := lrpBlocks (fun y b => ecbDecryptBlock .aes128 y b) ctx
      (Bytes.chunks aesBlock (data.length / aesBlock) data)
    let out := done.1.flatten
    (.ok (out, if ctx.bitPadding then lrpUnpadded out aesBlock out.length
      else out.length), done.2)

def lrpMulPolyX (data : Bytes) : Bytes :=
  if data.headD 0 &&& 0x80 ≠ 0 then xorLast 0x87 (shiftLeft data)
  else shiftLeft data

def lrpSubkeys (key : Bytes) : Bytes × Bytes :=
  let y := lrpEval (lrpInit key 0 true) lrpConst00 (aesBlock * 2) true
  let sk1 := lrpMulPolyX y
  (sk1, lrpMulPolyX sk1)

/-- The absorbing loop of `nxpsc_lrp_cmac`: every block but the last. -/
def lrpAbsorb (ctx : LrpCtx) : Nat → Bytes → Bytes → Bytes × Bytes
  | 0, y, data => (y, data)
  | n + 1, y, data =>
      lrpAbsorb ctx n
        (lrpEval ctx (Bytes.xor y (data.take aesBlock)) (aesBlock * 2) true)
        (data.drop aesBlock)

def lrpCmac (ctx : LrpCtx) (data : Bytes) : Bytes :=
  let sk := lrpSubkeys ctx.key
  let state := lrpAbsorb ctx ((data.length - 1) / aesBlock) lrpConst00 data
  let y := if state.2.length = aesBlock then
      Bytes.xor (Bytes.xor state.1 state.2) sk.1
    else
      Bytes.xor (Bytes.xor state.1 (Bytes.fit aesBlock (state.2 ++ [0x80])))
        sk.2
  lrpEval ctx y (aesBlock * 2) true

def lrpCmac8 (ctx : LrpCtx) (data : Bytes) : Bytes :=
  truncateMac (lrpCmac ctx data)

/-- `nxpsc_session_key_lrp`; both session keys come from the same vector. -/
def sessionKeyLrp (key rndA rndB : Bytes) : Bytes :=
  lrpCmac (lrpInit key 0 true)
    ([0x00, 0x01, 0x00, 0x80] ++ sessionVector rndA rndB ++ [0x96, 0x69])

/-! ## What the operations return -/

/-- A block to encipher under a round key is not needed to know the length:
the last step of a final evaluation is on the zero block. -/
theorem lrpEval_length (ctx : LrpCtx) (iv : Bytes) (n : Nat) :
    (lrpEval ctx iv n true).length = aesBlock := by
  simp only [lrpEval, if_true]
  have hzero : lrpConst00.length = blockSize .aes128 := rfl
  exact ecbEncryptBlock_length hzero

theorem lrpCmac_length (ctx : LrpCtx) (data : Bytes) :
    (lrpCmac ctx data).length = aesBlock := lrpEval_length _ _ _

@[simp] theorem lrpCmac8_length (ctx : LrpCtx) (data : Bytes) :
    (lrpCmac8 ctx data).length = 8 := by
  rw [lrpCmac8, length_truncateMac, lrpCmac_length]
  rfl

@[simp] theorem lrpBlocks_count (prim : Bytes → Bytes → Bytes) (ctx : LrpCtx)
    (blocks : List Bytes) :
    (lrpBlocks prim ctx blocks).1.length = blocks.length := by
  induction blocks generalizing ctx with
  | nil => rfl
  | cons b rest ih => simp [lrpBlocks, ih]

theorem lrpBlocks_length {prim : Bytes → Bytes → Bytes}
    (hprim : ∀ y b, IsBlock .aes128 b → IsBlock .aes128 (prim y b)) :
    ∀ {ctx : LrpCtx} {blocks : List Bytes},
      (∀ b ∈ blocks, IsBlock .aes128 b) →
        ∀ c ∈ (lrpBlocks prim ctx blocks).1, IsBlock .aes128 c := by
  intro ctx blocks
  induction blocks generalizing ctx with
  | nil => intro _ c hc; cases hc
  | cons b rest ih =>
      intro hall c hc
      rcases List.mem_cons.mp hc with rfl | hc
      · exact hprim _ _ (hall b (by simp))
      · exact ih (fun x hx => hall x (by simp [hx])) c hc

/-- Counter mode over whole blocks keeps the length. -/
theorem lrpBlocks_flatten {prim : Bytes → Bytes → Bytes}
    (hprim : ∀ y b, IsBlock .aes128 b → IsBlock .aes128 (prim y b))
    {ctx : LrpCtx} {data : Bytes} {count : Nat}
    (hlen : data.length = count * aesBlock) :
    (lrpBlocks prim ctx (Bytes.chunks aesBlock count data)).1.flatten.length
      = data.length := by
  have hin : ∀ b ∈ Bytes.chunks aesBlock count data, IsBlock .aes128 b :=
    Bytes.length_of_mem_chunks hlen
  have hout : ∀ c ∈ (lrpBlocks prim ctx (Bytes.chunks aesBlock count data)).1,
      c.length = aesBlock := lrpBlocks_length hprim hin
  rw [Bytes.length_flatten hout, lrpBlocks_count, Bytes.length_chunks, hlen]

/-- Without bit padding whole blocks are enciphered as they are. -/
theorem lrpEncode_isOk {ctx : LrpCtx} {data : Bytes} {cap : Nat}
    (hbits : ctx.bitPadding = false) (hpos : 0 < data.length)
    (hmod : data.length % aesBlock = 0) (hcap : data.length ≤ cap) :
    ∃ out, (lrpEncode ctx data cap).1 = .ok out ∧
      out.length = data.length := by
  have hfit : Bytes.fit data.length (data ++ []) = data := by
    rw [List.append_nil, Bytes.fit_self rfl]
  have hcount : data.length = data.length / aesBlock * aesBlock :=
    (Nat.div_mul_cancel (Nat.dvd_of_mod_eq_zero hmod)).symm
  simp only [lrpEncode, hbits, Bool.false_eq_true, if_false, Nat.add_zero,
    paddedLen_of_mod hmod, hfit]
  rw [if_neg (by omega), if_neg (by omega)]
  exact ⟨_, rfl,
    lrpBlocks_flatten (fun y b hb => ecbEncryptBlock_length hb) hcount⟩

end

end Nxpsc
