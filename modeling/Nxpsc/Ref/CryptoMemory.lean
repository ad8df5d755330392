import Nxpsc.Lib.Memory
import Nxpsc.Ref.Channel

/-!
# `nxpsc_crypto.c` on its arrays

The functions the channel hands its buffers to, once more, with the arrays
they read and write: an input is the array, where to begin in it and how many
bytes to take, an output the array and where to begin. What a function does to
the context of the leakage resilient primitive and to single blocks is taken
from the functions on byte strings, which this file shares its names with.
-/

namespace Nxpsc.InMemory

open Checked

/-- A function of the library on its arrays. -/
abbrev Run (σ α : Type) := Checked σ Err α

variable {σ : Type} {n : Nat}

section

variable [BlockCipher]

/-! ## Chaining -/

/-- The loop of `nxpsc_cbc_crypt_ex`, from `off` on. -/
def cbcBlocks (prim : Bytes → Bytes) (bs : Nat) (dirToSend : Bool)
    (input : Bytes) (inAt outAt : Nat) :
    Nat → Nat → Bytes → Buf n → Run σ (Buf n × Bytes)
  | 0, _, civ, out => pure (out, civ)
  | rounds + 1, off, civ, out => do
      -- in and out may be one array: a block is read before it is written
      let src ← load input (inAt + off) bs
      let dst := if dirToSend then prim (Bytes.xor src civ)
        else Bytes.xor (prim src) civ
      let out ← store out (outAt + off) dst
      cbcBlocks prim bs dirToSend input inAt outAt rounds (off + bs)
        (if dirToSend then dst else src) out

/-- `nxpsc_cbc_crypt_ex`: the output and the IV. -/
def cbcCryptEx (type : KeyType) (key : Bytes) (iv : Buf maxBlock)
    (input : Bytes) (inAt len : Nat) (out : Buf n) (outAt : Nat)
    (dirToSend encode : Bool) : Run σ (Buf n × Buf maxBlock) :=
  let bs := blockSize type
  if len = 0 ∨ len % bs ≠ 0 then raise .length
  else do
    let civ ← load iv.bytes 0 bs
    let prim := if encode then ecbEncryptBlock type key
      else ecbDecryptBlock type key
    let done ← cbcBlocks prim bs dirToSend input inAt outAt (len / bs) 0 civ out
    let iv ← store iv 0 done.2
    pure (done.1, iv)

/-- The loop where the input is the output: a block is read from the array as
the rounds before it left it. -/
def cbcBlocksInPlace (prim : Bytes → Bytes) (bs : Nat) (dirToSend : Bool)
    (start : Nat) : Nat → Nat → Bytes → Buf n → Run σ (Buf n × Bytes)
  | 0, _, civ, buf => pure (buf, civ)
  | rounds + 1, off, civ, buf => do
      let src ← load buf.bytes (start + off) bs
      let dst := if dirToSend then prim (Bytes.xor src civ)
        else Bytes.xor (prim src) civ
      let buf ← store buf (start + off) dst
      cbcBlocksInPlace prim bs dirToSend start rounds (off + bs)
        (if dirToSend then dst else src) buf

/-- `nxpsc_cbc_crypt_ex` with `out` equal to `in`. -/
def cbcCryptExInPlace (type : KeyType) (key : Bytes) (iv : Buf maxBlock)
    (buf : Buf n) (start len : Nat) (dirToSend encode : Bool) :
    Run σ (Buf n × Buf maxBlock) :=
  let bs := blockSize type
  if len = 0 ∨ len % bs ≠ 0 then raise .length
  else do
    let civ ← load iv.bytes 0 bs
    let prim := if encode then ecbEncryptBlock type key
      else ecbDecryptBlock type key
    let done ← cbcBlocksInPlace prim bs dirToSend start (len / bs) 0 civ buf
    let iv ← store iv 0 done.2
    pure (done.1, iv)

/-- `nxpsc_cbc_crypt`. -/
def cbcCrypt (type : KeyType) (key : Bytes) (iv : Buf maxBlock)
    (input : Bytes) (inAt len : Nat) (out : Buf n) (outAt : Nat)
    (encrypt : Bool) : Run σ (Buf n × Buf maxBlock) :=
  cbcCryptEx type key iv input inAt len out outAt encrypt encrypt

/-! ## CMAC -/

/-- The loop that pads with zeros to whole blocks and to `minLen`. -/
def cmacPad (bs minLen : Nat) :
    Nat → Nat → Buf n → Run σ (Buf n × Nat)
  | 0, _, _ => fault
  | fuel + 1, mlen, buffer =>
      if mlen % bs ≠ 0 ∨ mlen < minLen then do
        let buffer ← store buffer mlen [0x00]
        cmacPad bs minLen fuel (mlen + 1) buffer
      else pure (buffer, mlen)

/-- The end of `nxpsc_cmac`: the subkey on the last block of a message of
`mlen` bytes, and the chaining. -/
def cmacChain (type : KeyType) (key : Bytes) (iv mac : Buf maxBlock)
    (buffer : Buf n) (mlen : Nat) (subkey : Bytes) :
    Run σ (Buf maxBlock × Buf maxBlock) := do
  let bs := blockSize type
  let last ← minus mlen bs
  let block ← load buffer.bytes last bs
  let buffer ← store buffer last (Bytes.xor block subkey)
  let done ← cbcCrypt type key iv buffer.bytes 0 mlen buffer 0 true
  let out ← load done.2.bytes 0 bs
  let mac ← store mac 0 out
  pure (mac, done.2)

/-- `nxpsc_cmac` with a buffer of `buflen` bytes: the MAC and the IV. -/
def cmacIn (type : KeyType) (key : Bytes) (iv : Buf maxBlock) (data : Bytes)
    (len minLen : Nat) (mac : Buf maxBlock) (buflen : Nat) :
    Run σ (Buf maxBlock × Buf maxBlock) := do
  let bs := blockSize type
  let sk := cmacSubkeys type key
  let front ← load data 0 len
  let buffer ← store (.zero buflen) 0 front
  if len = 0 ∨ len % bs ≠ 0 ∨ len < minLen then do
    let buffer ← store buffer len [0x80]
    let padded ← cmacPad bs minLen (buflen + 1) (len + 1) buffer
    cmacChain type key iv mac padded.1 padded.2 sk.2
  else cmacChain type key iv mac buffer len sk.1

/-- `nxpsc_cmac` on lengths that are far from the end of `size_t`. -/
def cmac (type : KeyType) (key : Bytes) (iv : Buf maxBlock) (data : Bytes)
    (len minLen : Nat) (mac : Buf maxBlock) :
    Run σ (Buf maxBlock × Buf maxBlock) :=
  let bs := blockSize type
  let want := max minLen len
  -- room for the padding byte
  cmacIn type key iv data len minLen mac ((want + 1 + bs - 1) / bs * bs)

/-- The size of the buffer for `want` bytes, computed in `size_t`. -/
def cmacBuflen (bs want : Nat) : Nat :=
  let buflen := (want + 1 + bs - 1) % 2 ^ 64 / bs * bs
  if buflen = 0 then bs else buflen

/-- `nxpsc_cmac` on any lengths. -/
def cmacSized (type : KeyType) (key : Bytes) (iv : Buf maxBlock)
    (data : Bytes) (len minLen : Nat) (mac : Buf maxBlock) :
    Run σ (Buf maxBlock × Buf maxBlock) :=
  cmacIn type key iv data len minLen mac
    (cmacBuflen (blockSize type) (max minLen len))

/-! ## Key diversification -/

/-- `kdf_block`: one round, written to the key under construction. -/
def kdfBlock (master : Key) (constant : UInt8) (divInput : Bytes)
    (len minLen : Nat) (out : Buf 32) (outAt : Nat) : Run σ (Buf 32) := do
  let buffer ← store (.zero 64) 0 [constant]
  let front ← load divInput 0 len
  let buffer ← store buffer 1 front
  let done ← cmacSized master.type master.data.bytes (.zero maxBlock)
    buffer.bytes (len + 1) minLen (.zero maxBlock)
  let mac ← load done.1.bytes 0 (blockSize master.type)
  store out outAt mac

/-- `nxpsc_kdf_an10922`. -/
def kdfAn10922 (master : Option Key) (divInput : Bytes) (len : Nat) :
    Run σ Key :=
  match master with
  | none => raise .param
  | some master =>
      if len < 1 ∨ 31 < len then raise .length
      else
        let bs := blockSize master.type
        let minLen := bs * 2
        let derived (data : Buf 32) : Key :=
          { type := master.type, data := data, version := master.version }
        match master.type with
        | .aes128 => do
            let data ← kdfBlock master 0x01 divInput len minLen (.zero 32) 0
            pure (derived data)
        | .aes256 => do
            let data ← kdfBlock master 0x41 divInput len minLen (.zero 32) 0
            let data ← kdfBlock master 0x42 divInput len minLen data bs
            pure (derived data)
        | .k2k3des => do
            let data ← kdfBlock master 0x21 divInput len minLen (.zero 32) 0
            let data ← kdfBlock master 0x22 divInput len minLen data bs
            pure (derived data)
        | .k3k3des => do
            let data ← kdfBlock master 0x31 divInput len minLen (.zero 32) 0
            let data ← kdfBlock master 0x32 divInput len minLen data bs
            let data ← kdfBlock master 0x33 divInput len minLen data (bs * 2)
            pure (derived data)
        | .des => raise .unsupported

/-- `nxpsc_truncate_mac`. -/
def truncateMac (mac16 : Bytes) (mac8 : Buf 8) : Run σ (Buf 8) := do
  let full ← load mac16 0 aesBlock
  store mac8 0 (Nxpsc.truncateMac full)

/-! ## The leakage resilient primitive -/

/-- `nxpsc_lrp_set_counter`: the check divides by two where the copy rounds
up. -/
def setCounter (ctx : LrpCtx) (counter : Bytes) (lenNibbles : Nat) :
    Run σ LrpCtx :=
  if lrpMaxCounter < lenNibbles / 2 then pure ctx
  else do
    let front ← load counter 0 ((lenNibbles + 1) / 2)
    let counter ← store (.zero 64) 0 front
    pure { ctx with counter := counter, counterLenNibbles := lenNibbles }

/-- `nxpsc_lrp_inc_counter`. -/
def incCounter : Nat → Buf n → Run σ (Buf n)
  | 0, counter => pure counter
  | i + 1, counter => do
      let b ← byteAt counter.bytes (i / 2)
      let nibble : UInt8 :=
        (if i % 2 = 1 then b &&& 0x0F else (b >>> 4) &&& 0x0F) + 1
      let counter ← store counter (i / 2)
        [if i % 2 = 1 then (b &&& (0xF0 : UInt8)) ||| (nibble &&& 0x0F)
          else (b &&& (0x0F : UInt8)) ||| ((nibble <<< 4) &&& (0xF0 : UInt8))]
      if 0x0F < nibble then incCounter i counter else pure counter

/-- The loops of `nxpsc_lrp_encode` and `nxpsc_lrp_decode`. -/
def lrpBlocks (prim : Bytes → Bytes → Bytes) (input : Bytes) (outAt : Nat) :
    Nat → Nat → LrpCtx → Buf n → Run σ (Buf n × LrpCtx)
  | 0, _, ctx, out => pure (out, ctx)
  | rounds + 1, off, ctx, out => do
      let y := lrpEval ctx ctx.counter.bytes ctx.counterLenNibbles true
      let block ← load input off aesBlock
      let out ← store out (outAt + off) (prim y block)
      lrpBlocks prim input outAt rounds (off + aesBlock) ctx.next out

/-- `nxpsc_lrp_encode`: the output and its length. The context counts on
whatever is returned. -/
def lrpEncode (ctx : LrpCtx) (data : Bytes) (len : Nat) (out : Buf n)
    (outAt cap : Nat) : Run σ (Except Err (Buf n × Nat) × LrpCtx) :=
  let dlen := paddedLen (len + (if ctx.bitPadding then 1 else 0)) aesBlock
  if dlen = 0 then pure (.ok (out, 0), ctx)
  else if cap < dlen then pure (.error .length, ctx)
  else do
    let front ← load data 0 len
    let buf ← store (.zero dlen) 0 front
    let buf ← (if ctx.bitPadding then store buf len [0x80] else pure buf)
    let done ← lrpBlocks (fun y b => ecbEncryptBlock .aes128 y b) buf.bytes
      outAt (dlen / aesBlock) 0 ctx out
    pure (.ok (done.1, dlen), done.2)

/-- `(int)` of a size. -/
def asInt (x : Nat) : Int := Int.bmod x (2 ^ 32)

/-- The scan of `nxpsc_lrp_decode` for the bit padding, down from `i`. The
bound it runs to is taken from `out_len`, and where that changes it stops. -/
def lrpScan (out : Bytes) (outLen : Nat) : Nat → Int → Run σ Nat
  | 0, _ => pure outLen
  | rounds + 1, i =>
      if i < 0 then fault
      else do
        let b ← byteAt out i.toNat
        if b = 0x80 then pure i.toNat
        else if b ≠ 0x00 then pure outLen
        else lrpScan out outLen rounds (i - 1)

/-- The index of that scan is an `int`, from `len - 1` down to the first byte
of the last block. -/
def lrpUnpadded (out : Bytes) (len : Nat) : Run σ Nat :=
  -- there is no int below the least
  if asInt len = -2 ^ 31 then fault
  else
    lrpScan out len (asInt len - asInt (len - aesBlock)).toNat (asInt len - 1)

/-- `nxpsc_lrp_decode`, to the front of an array. -/
def lrpDecode (ctx : LrpCtx) (data : Bytes) (len : Nat) (out : Buf n) :
    Run σ (Except Err (Buf n × Nat) × LrpCtx) :=
  if len = 0 ∨ len % aesBlock ≠ 0 then pure (.error .length, ctx)
  else if n < len then pure (.error .length, ctx)
  else do
    let done ← lrpBlocks (fun y b => ecbDecryptBlock .aes128 y b) data 0
      (len / aesBlock) 0 ctx out
    let outLen ← (if ctx.bitPadding then
      lrpUnpadded done.1.bytes len else pure len)
    pure (.ok (done.1, outLen), done.2)

/-- The absorbing loop of `nxpsc_lrp_cmac`: how much is done, and the state. -/
def lrpAbsorb (ctx : LrpCtx) (data : Bytes) (len : Nat) :
    Nat → Nat → Bytes → Run σ (Nat × Bytes)
  | 0, _, _ => fault
  | fuel + 1, done, y => do
      let left ← minus len done
      if aesBlock < left then do
        let block ← load data done aesBlock
        lrpAbsorb ctx data len fuel (done + aesBlock)
          (lrpEval ctx (Bytes.xor y block) (aesBlock * 2) true)
      else pure (done, y)

/-- `nxpsc_lrp_cmac`. -/
def lrpCmac (ctx : LrpCtx) (data : Bytes) (len : Nat) (mac : Buf aesBlock) :
    Run σ (Buf aesBlock) := do
  let sk := lrpSubkeys ctx.key
  let state ← lrpAbsorb ctx data len (len + 1) 0 lrpConst00
  let last ← minus len state.1
  let tail ← load data state.1 last
  let bl ← store (.zero aesBlock) 0 tail
  if last = aesBlock then
    store mac 0 (lrpEval ctx (Bytes.xor (Bytes.xor state.2 bl.bytes) sk.1)
      (aesBlock * 2) true)
  else do
    let bl ← store bl last [0x80]
    store mac 0 (lrpEval ctx (Bytes.xor (Bytes.xor state.2 bl.bytes) sk.2)
      (aesBlock * 2) true)

/-- `nxpsc_lrp_cmac8`. -/
def lrpCmac8 (ctx : LrpCtx) (data : Bytes) (len : Nat) (mac : Buf 8) :
    Run σ (Buf 8) := do
  let full ← lrpCmac ctx data len (.zero aesBlock)
  truncateMac full.bytes mac

end

end Nxpsc.InMemory
