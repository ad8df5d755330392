import Nxpsc.Ref.ChannelMemory

/-!
# The crypto functions stay inside their arrays

Given an input that is as long as it says and an output with room for it, each
function of `Ref/CryptoMemory` is the function on byte strings of the same
name, its result written over the output. The loops are the recursions over
blocks, one array access a round.
-/

namespace Nxpsc.InMemory

open Checked

variable {σ : Type} {n : Nat}

/-! ## Chaining -/

/-- The blocks and the last one, in either direction. -/
def cbcPure (prim : Bytes → Bytes) (dirToSend : Bool) (civ : Bytes)
    (blocks : List Bytes) : List Bytes × Bytes :=
  if dirToSend then Cbc.send prim Bytes.xor civ blocks
  else Cbc.receive prim Bytes.xor civ blocks

theorem cbcPure_cons (prim : Bytes → Bytes) (dirToSend : Bool)
    (civ src : Bytes) (blocks : List Bytes) :
    cbcPure prim dirToSend civ (src :: blocks) =
      let dst := if dirToSend then prim (Bytes.xor src civ)
        else Bytes.xor (prim src) civ
      let tail := cbcPure prim dirToSend (if dirToSend then dst else src) blocks
      (dst :: tail.1, tail.2) := by
  cases dirToSend
  · rfl
  · rfl

theorem cbcPure_blocks {prim : Bytes → Bytes} {bs : Nat} (dirToSend : Bool)
    {civ : Bytes} {blocks : List Bytes}
    (hprim : ∀ b, b.length = bs → (prim b).length = bs)
    (hciv : civ.length = bs) (hblocks : ∀ b ∈ blocks, b.length = bs) :
    (cbcPure prim dirToSend civ blocks).1.flatten.length =
      blocks.length * bs := by
  have hmix : ∀ a b : Bytes, a.length = bs → b.length = bs →
      (Bytes.xor a b).length = bs := by
    intro a b ha hb
    rw [Bytes.length_xor, ha, hb, Nat.min_self]
  cases dirToSend with
  | true =>
      rw [cbcPure, if_pos rfl, Bytes.length_flatten
        (Cbc.send_ok hprim hmix hciv hblocks).1, Cbc.length_send]
  | false =>
      rw [cbcPure, if_neg Bool.false_ne_true, Bytes.length_flatten
        (Cbc.receive_ok hprim hmix hciv hblocks).1, Cbc.length_receive]

/-- A block comes out as long as it went in. -/
theorem length_cbcRound {prim : Bytes → Bytes} {bs : Nat} (dirToSend : Bool)
    {src civ : Bytes} (hprim : ∀ b, b.length = bs → (prim b).length = bs)
    (hsrc : src.length = bs) (hciv : civ.length = bs) :
    (if dirToSend then prim (Bytes.xor src civ)
      else Bytes.xor (prim src) civ).length = bs := by
  split
  · exact hprim _ (by rw [Bytes.length_xor, hsrc, hciv, Nat.min_self])
  · rw [Bytes.length_xor, hprim _ hsrc, hciv, Nat.min_self]

theorem cbcBlocks_eq {prim : Bytes → Bytes} {bs : Nat} {dirToSend : Bool}
    {input : Bytes} {inAt outAt : Nat}
    (hprim : ∀ b, b.length = bs → (prim b).length = bs) :
    ∀ (rounds off : Nat) {civ : Bytes} (out : Buf n), civ.length = bs →
      inAt + off + rounds * bs ≤ input.length →
      outAt + off + rounds * bs ≤ n →
      (cbcBlocks prim bs dirToSend input inAt outAt rounds off civ out :
        Run σ _) =
        let done := cbcPure prim dirToSend civ
          (Bytes.chunks bs rounds (input.drop (inAt + off)))
        pure (out.patch (outAt + off) done.1.flatten, done.2) := by
  intro rounds
  induction rounds with
  | zero =>
      intro off civ out _ _ hout
      have hnil : cbcPure prim dirToSend civ [] = ([], civ) := by
        cases dirToSend <;> rfl
      simp only [cbcBlocks, Bytes.chunks, hnil, List.flatten_nil]
      rw [Buf.patch_nil out (by omega)]
  | succ rounds ih =>
      intro off civ out hciv hin hout
      rw [Nat.succ_mul] at hin hout
      have hsrc : ((input.drop (inAt + off)).take bs).length = bs :=
        Bytes.length_part (by omega)
      have hnext : inAt + (off + bs) = inAt + off + bs := by omega
      have hchunks : Bytes.chunks bs (rounds + 1)
          (input.drop (inAt + off)) = (input.drop (inAt + off)).take bs ::
            Bytes.chunks bs rounds (input.drop (inAt + (off + bs))) := by
        rw [Bytes.chunks, List.drop_drop, hnext]
      have hdst := length_cbcRound dirToSend hprim hsrc hciv
      rw [hchunks, cbcPure_cons]
      simp only [cbcBlocks]
      rw [load_eq (by omega), pure_bind']
      generalize (if dirToSend = true then
        prim (Bytes.xor ((input.drop (inAt + off)).take bs) civ)
        else Bytes.xor (prim ((input.drop (inAt + off)).take bs)) civ) = dst
        at hdst ⊢
      have hcarry : (if dirToSend = true then dst
          else (input.drop (inAt + off)).take bs).length = bs := by
        split
        · exact hdst
        · exact hsrc
      have hrest := cbcPure_blocks dirToSend hprim hcarry
        (@Bytes.length_of_mem_chunks bs rounds
          ((input.drop (inAt + (off + bs))).take (rounds * bs)) (by
            rw [List.length_take, List.length_drop]
            omega))
      rw [Bytes.chunks_take, Bytes.length_chunks] at hrest
      rw [store_eq (by rw [hdst]; omega), pure_bind',
        ih (off + bs) _ hcarry (by omega) (by omega)]
      have hat : outAt + (off + bs) = outAt + off + dst.length := by omega
      dsimp only
      rw [List.flatten_cons, ← Buf.patch_patch out (by rw [hdst, hrest]; omega),
        hat]

theorem blockSize_le_iv (type : KeyType) (iv : Buf maxBlock) :
    blockSize type ≤ iv.bytes.length := by
  rw [iv.size]
  exact blockSize_le type

/-- What an array operation makes of the result on byte strings. -/
def cbcResult (iv : Buf maxBlock) (out : Buf n) (outAt : Nat) :
    Except Err (Bytes × Bytes) → Run σ (Buf n × Buf maxBlock)
  | .error e => raise e
  | .ok (data, last) => pure (out.patch outAt data, iv.put last)

theorem cmacPad_eq {bs minLen mlen : Nat} {xs : Bytes} (hroom : mlen ≤ n)
    (hdone : mlen % bs = 0 ∧ minLen ≤ mlen) :
    ∀ (fuel pos : Nat), xs.length ≤ pos → pos ≤ mlen → mlen - pos < fuel →
      (∀ m, pos ≤ m → m < mlen → m % bs ≠ 0 ∨ m < minLen) →
      (cmacPad bs minLen fuel pos (Buf.of n xs) : Run σ _) =
        pure (Buf.of n xs, mlen) := by
  intro fuel
  induction fuel with
  | zero =>
      intro pos _ _ hfuel _
      omega
  | succ fuel ih =>
      intro pos hxs hle hfuel hbelow
      rw [cmacPad]
      rcases Nat.lt_or_ge pos mlen with hlt | hge
      · rw [if_pos (hbelow pos (Nat.le_refl _) hlt), store_eq (by
            show pos + 1 ≤ n
            omega), pure_bind', Buf.of_patch_zero hxs (by omega)]
        exact ih (pos + 1) (by omega) (by omega) (by omega) fun m hm hlt =>
          hbelow m (by omega) hlt
      · have heq : pos = mlen := by omega
        rw [heq, if_neg]
        exact not_or.mpr ⟨not_not.mpr hdone.1, Nat.not_lt.mpr hdone.2⟩

theorem truncateMac_eq {mac16 : Bytes} (mac8 : Buf 8)
    (h : mac16.length = aesBlock) :
    (truncateMac mac16 mac8 : Run σ _) =
      pure (mac8.put (Nxpsc.truncateMac mac16)) := by
  have hlen : (Nxpsc.truncateMac mac16).length = 8 := by
    rw [length_truncateMac, h]
    rfl
  rw [truncateMac, load_front (Nat.le_of_eq h.symm), pure_bind',
    List.take_of_length_le (Nat.le_of_eq h), store_put (Nat.le_of_eq hlen)]

/-- A single byte of the part that counts. -/
theorem asInt_eq {x : Nat} (h : x < 2 ^ 31) : asInt x = x :=
  Int.bmod_eq_of_le_mul_two (by omega) (by omega)

theorem lrpScan_eq {out : Bytes} {len : Nat} (hlen : len ≤ out.length) :
    ∀ {rounds i : Nat}, i ≤ len → rounds ≤ i →
      (lrpScan out len rounds ((i : Int) - 1) : Run σ _) =
        pure (Nxpsc.lrpUnpadded (out.take len) rounds i) := by
  have htake : (out.take len).length = len := by
    rw [List.length_take]
    omega
  intro rounds
  induction rounds with
  | zero =>
      intro i _ _
      rw [lrpScan, Nxpsc.lrpUnpadded, htake]
  | succ rounds ih =>
      intro i hi hrounds
      cases i with
      | zero => omega
      | succ i =>
          have hat : ((i + 1 : Nat) : Int) - 1 = (i : Int) := by omega
          rw [lrpScan, Nxpsc.lrpUnpadded, Bytes.getD_take (by omega), hat,
            if_neg (by omega), Int.toNat_natCast, byteAt_eq (by omega),
            pure_bind', htake, ih (by omega) (by omega)]
          split
          · rfl
          · split <;> rfl

theorem lrpUnpadded_eq {out : Bytes} {len : Nat} (hlen : len ≤ out.length)
    (hblock : aesBlock ≤ len) (hint : len < 2 ^ 31) :
    (lrpUnpadded out len : Run σ _) =
      pure (Nxpsc.lrpUnpadded (out.take len) aesBlock len) := by
  have hrounds : ((len : Int) - ((len - aesBlock : Nat) : Int)).toNat =
      aesBlock := by omega
  rw [lrpUnpadded, asInt_eq hint, asInt_eq (by omega), if_neg (by omega),
    hrounds, lrpScan_eq hlen (Nat.le_refl len) hblock]

section

variable [BlockCipher]

/-- The primitive of a direction. -/
def blockPrim (type : KeyType) (key : Bytes) (encode : Bool) :
    Bytes → Bytes :=
  if encode then ecbEncryptBlock type key else ecbDecryptBlock type key

theorem cbcCryptEx_pure (type : KeyType) (key iv input : Bytes)
    (dirToSend encode : Bool) :
    Nxpsc.cbcCryptEx type key iv input dirToSend encode =
      if input.length = 0 ∨ input.length % blockSize type ≠ 0 then
        .error .length
      else
        let done := cbcPure (blockPrim type key encode) dirToSend
          (iv.take (blockSize type)) (Bytes.chunks (blockSize type)
            (input.length / blockSize type) input)
        .ok (done.1.flatten, done.2) := rfl

theorem cbcCryptEx_eq {type : KeyType} {key : Bytes} {iv : Buf maxBlock}
    {input : Bytes} {inAt len : Nat} {out : Buf n} {outAt : Nat}
    (dirToSend encode : Bool) (hin : inAt + len ≤ input.length)
    (hout : outAt + len ≤ n) :
    (cbcCryptEx type key iv input inAt len out outAt dirToSend encode :
      Run σ _) =
      cbcResult iv out outAt (Nxpsc.cbcCryptEx type key iv.bytes
        ((input.drop inAt).take len) dirToSend encode) := by
  have hiv := blockSize_le_iv type iv
  have hlen : ((input.drop inAt).take len).length = len :=
    Bytes.length_part (by omega)
  cases hdone : Nxpsc.cbcCryptEx type key iv.bytes
    ((input.drop inAt).take len) dirToSend encode with
  | error e =>
      rw [cbcCryptEx_pure, hlen] at hdone
      split at hdone
      · next hbad =>
          cases hdone
          rw [cbcCryptEx, if_pos hbad]
          rfl
      · cases hdone
  | ok done =>
  obtain ⟨data, last⟩ := done
  have hlast : last.length ≤ maxBlock := by
    rw [(cbcCryptEx_ok hiv hdone).2.2.2]
    exact blockSize_le type
  rw [cbcCryptEx_pure, hlen] at hdone
  split at hdone
  · cases hdone
  next hgood =>
  have hcount : len / blockSize type * blockSize type = len :=
    Nat.div_mul_cancel (Nat.dvd_of_mod_eq_zero (by omega))
  have hciv : (iv.bytes.take (blockSize type)).length = blockSize type := by
    rw [List.length_take, Nat.min_eq_left hiv]
  have hblocks := @Bytes.chunks_take (blockSize type) (len / blockSize type)
    (input.drop inAt)
  rw [hcount] at hblocks
  rw [hblocks] at hdone
  obtain ⟨rfl, rfl⟩ := Prod.mk.inj (Except.ok.inj hdone)
  have hloop := @cbcBlocks_eq σ n (blockPrim type key encode) (blockSize type)
    dirToSend input inAt outAt (isBlock_prim type key encode)
    (len / blockSize type) 0 _ out hciv (by omega) (by omega)
  rw [cbcCryptEx, if_neg hgood]
  dsimp only
  rw [load_front hiv, pure_bind']
  have hprim : (if encode = true then ecbEncryptBlock type key
      else ecbDecryptBlock type key) = blockPrim type key encode := rfl
  rw [hprim, hloop]
  dsimp only [Nat.add_zero]
  rw [pure_bind', store_put hlast, pure_bind']
  rfl

/-! ## CMAC -/

/-- The last steps, on an array filled with `xs` and zeros up to `mlen`. -/
theorem cmacChain_eq {type : KeyType} {key : Bytes} {iv mac : Buf maxBlock}
    {xs subkey out last : Bytes} {mlen : Nat} (hblock : blockSize type ≤ mlen)
    (hroom : mlen ≤ n) (hsk : subkey.length = blockSize type)
    (hdone : Nxpsc.cbcCrypt type key iv.bytes
      (xorTail (Bytes.fit mlen xs) subkey) true = .ok (out, last)) :
    (cmacChain type key iv mac (Buf.of n xs) mlen subkey : Run σ _) =
      pure (mac.put last, iv.put last) := by
  have hbs := blockSize_le type
  have hfit : ((Buf.of n xs).bytes.drop (mlen - blockSize type)).take
      (blockSize type) =
        (Bytes.fit mlen xs).drop (mlen - blockSize type) := by
    have hall : (Bytes.fit mlen xs) = (Bytes.fit n xs).take mlen :=
      (Bytes.take_fit hroom xs).symm
    rw [hall, List.drop_take]
    congr 1
    omega
  have hxor : (Bytes.xor ((Bytes.fit mlen xs).drop (mlen - blockSize type))
      subkey).length = blockSize type := by
    rw [Bytes.length_xor, List.length_drop, Bytes.length_fit, hsk]
    omega
  have hwritten : (((Buf.of n xs).patch (mlen - blockSize type)
      (Bytes.xor ((Bytes.fit mlen xs).drop (mlen - blockSize type))
        subkey)).bytes.drop 0).take mlen =
        xorTail (Bytes.fit mlen xs) subkey := by
    have hfront : (Buf.of n xs).bytes.take (mlen - blockSize type) =
        (Bytes.fit mlen xs).take (mlen - blockSize type) := by
      rw [Bytes.take_fit (by omega)]
      exact Bytes.take_fit (by omega) xs
    rw [List.drop_zero, xorTail, hsk, Bytes.length_fit, ← hfront]
    exact Buf.take_patch (by rw [hxor]; omega) hroom
  simp only [cmacChain]
  rw [minus_eq hblock, pure_bind', load_eq (by rw [Buf.bytes_length]; omega),
    pure_bind', hfit, store_eq (by rw [hxor]; omega), pure_bind', cbcCrypt,
    cbcCryptEx_eq true true (by rw [Buf.bytes_length]; omega) (by omega),
    hwritten]
  have hlast := (cbcCryptEx_ok (blockSize_le_iv type iv) hdone).2.2.2
  have hput : (iv.put last).bytes.take (blockSize type) = last :=
    Buf.put_take_eq hlast hbs
  rw [Nxpsc.cbcCrypt] at hdone
  simp only [hdone, cbcResult]
  rw [pure_bind', load_front (blockSize_le_iv type _), pure_bind', hput,
    store_put (by rw [hlast]; exact hbs), pure_bind']

theorem cmac_eq (type : KeyType) (key : Bytes) (iv mac : Buf maxBlock)
    {data : Bytes} {len : Nat} (minLen : Nat) (hdata : len ≤ data.length) :
    ∃ full, Nxpsc.cmac type key iv.bytes (data.take len) minLen = .ok full ∧
      full.length = blockSize type ∧
      (cmac type key iv data len minLen mac : Run σ _) =
        pure (mac.put full, iv.put full) := by
  obtain ⟨full, hfull, hblock⟩ := @cmac_isOk _ type key iv.bytes
    (data.take len) minLen (blockSize_le_iv type iv)
  refine ⟨full, hfull, hblock, ?_⟩
  have hbs := blockSize_pos type
  have hlen : (data.take len).length = len := by
    rw [List.length_take]
    omega
  have hmod : ((max minLen len + 1 + blockSize type - 1) / blockSize type *
      blockSize type) % blockSize type = 0 := Nat.mul_mod_left _ _
  have hroom : max minLen len + 1 ≤
      (max minLen len + 1 + blockSize type - 1) / blockSize type *
        blockSize type := by
    have hdm := Nat.div_add_mod (max minLen len + 1 + blockSize type - 1)
      (blockSize type)
    have hlt := Nat.mod_lt (max minLen len + 1 + blockSize type - 1) hbs
    rw [Nat.mul_comm] at hdm
    omega
  simp only [cmac, cmacIn]
  generalize (max minLen len + 1 + blockSize type - 1) / blockSize type *
    blockSize type = buflen at hmod hroom ⊢
  rw [load_front hdata, pure_bind', store_zero (by rw [hlen]; omega),
    pure_bind']
  obtain ⟨hsk1, hsk2⟩ := cmacSubkeys_length type key
  obtain ⟨out, hdone⟩ : ∃ out, Nxpsc.cbcCrypt type key iv.bytes
      (cmacInput type key (data.take len) minLen) true = .ok (out, full) := by
    rw [Nxpsc.cmac] at hfull
    split at hfull
    · cases hfull
    · next hdone =>
        cases hfull
        exact ⟨_, hdone⟩
  rw [cmacInput, hlen] at hdone
  split
  · next hpad =>
      rw [if_pos hpad] at hdone
      have hle : max (len + 1) minLen ≤ buflen := by omega
      have htarget := paddedLen_le hbs hle hmod
      have hgrow := @le_paddedLen (max (len + 1) minLen) _ hbs
      have hmul := @paddedLen_mod (max (len + 1) minLen) _ hbs
      have hwhole : blockSize type ≤
          paddedLen (max (len + 1) minLen) (blockSize type) :=
        Nat.le_of_dvd (by omega) (Nat.dvd_of_mod_eq_zero hmul)
      rw [store_of hlen (by
          show len + 1 ≤ buflen
          omega), pure_bind',
        @cmacPad_eq σ buflen (blockSize type) minLen _ _ htarget
          ⟨hmul, by omega⟩ (buflen + 1) (len + 1)
          (by
            rw [List.length_append, hlen]
            exact Nat.le_refl _) (by omega) (by omega) fun m hm hlt => ?_,
        pure_bind', cmacChain_eq hwhole htarget hsk2 hdone]
      -- no shorter length has whole blocks and the minimum
      by_cases hmin : m < minLen
      · exact .inr hmin
      · refine .inl fun hzero => ?_
        have := @paddedLen_le (max (len + 1) minLen) _ m hbs (by omega) hzero
        omega
  · next hwhole =>
      rw [if_neg hwhole] at hdone
      have hmul : len % blockSize type = 0 := by omega
      have hblocks : blockSize type ≤ len :=
        Nat.le_of_dvd (by omega) (Nat.dvd_of_mod_eq_zero hmul)
      rw [← @Bytes.fit_self len _ hlen] at hdone
      exact cmacChain_eq hblocks (by omega) hsk1 hdone

/-! ## The leakage resilient primitive -/

theorem lrpBlocks_eq {prim : Bytes → Bytes → Bytes} {input : Bytes}
    {outAt : Nat}
    (hprim : ∀ y b, IsBlock .aes128 b → IsBlock .aes128 (prim y b)) :
    ∀ (rounds off : Nat) (ctx : LrpCtx) (out : Buf n),
      off + rounds * aesBlock ≤ input.length →
      outAt + off + rounds * aesBlock ≤ n →
      (lrpBlocks prim input outAt rounds off ctx out : Run σ _) =
        let done := Nxpsc.lrpBlocks prim ctx
          (Bytes.chunks aesBlock rounds (input.drop off))
        pure (out.patch (outAt + off) done.1.flatten, done.2) := by
  intro rounds
  induction rounds with
  | zero =>
      intro off ctx out _ hout
      simp only [lrpBlocks, Bytes.chunks, Nxpsc.lrpBlocks, List.flatten_nil]
      rw [Buf.patch_nil out (by omega)]
  | succ rounds ih =>
      intro off ctx out hin hout
      rw [Nat.succ_mul] at hin hout
      have hblock : ((input.drop off).take aesBlock).length = aesBlock :=
        Bytes.length_part (by omega)
      have hout' : (prim (lrpEval ctx ctx.counter.bytes
          ctx.counterLenNibbles true)
          ((input.drop off).take aesBlock)).length = aesBlock :=
        hprim _ _ hblock
      have hrest := @lrpBlocks_flatten _ prim hprim ctx.next
        ((input.drop (off + aesBlock)).take (rounds * aesBlock)) rounds (by
          rw [List.length_take, List.length_drop]
          omega)
      rw [Bytes.chunks_take, List.length_take, List.length_drop] at hrest
      simp only [lrpBlocks, Bytes.chunks, Nxpsc.lrpBlocks, List.drop_drop]
      rw [load_eq (by omega), pure_bind', store_eq (by rw [hout']; omega),
        pure_bind', ih (off + aesBlock) _ _ (by omega) (by omega)]
      generalize prim (lrpEval ctx ctx.counter.bytes ctx.counterLenNibbles
        true) ((input.drop off).take aesBlock) = block at hout' ⊢
      have hat : outAt + (off + aesBlock) = outAt + off + block.length := by
        omega
      dsimp only
      rw [List.flatten_cons, ← Buf.patch_patch out (by omega), hat]

theorem lrpEncode_eq {ctx : LrpCtx} {data : Bytes} {len : Nat} {out : Buf n}
    {outAt cap : Nat} (hdata : len ≤ data.length) (hcap : outAt + cap ≤ n) :
    (lrpEncode ctx data len out outAt cap : Run σ _) =
      pure ((Nxpsc.lrpEncode ctx (data.take len) cap).1.map fun o =>
        (out.patch outAt o, o.length),
        (Nxpsc.lrpEncode ctx (data.take len) cap).2) := by
  have hlen : (data.take len).length = len := by
    rw [List.length_take]
    omega
  simp only [lrpEncode, Nxpsc.lrpEncode, hlen]
  have hgrow := @le_paddedLen (len + (if ctx.bitPadding = true then 1 else 0))
    aesBlock (by decide)
  have hmod := @paddedLen_mod (len + (if ctx.bitPadding = true then 1 else 0))
    aesBlock (by decide)
  generalize hdlen : paddedLen
    (len + (if ctx.bitPadding = true then 1 else 0)) aesBlock = dlen
    at hgrow hmod ⊢
  split
  · rw [Except.map, Buf.patch_nil out (by omega), List.length_nil]
  split
  · rfl
  have hcount : dlen / aesBlock * aesBlock = dlen :=
    Nat.div_mul_cancel (Nat.dvd_of_mod_eq_zero hmod)
  have hfilled : (if ctx.bitPadding = true then
      store (Buf.of dlen (data.take len)) len [0x80]
      else pure (Buf.of dlen (data.take len)) : Run σ _) =
      pure (Buf.of dlen (data.take len ++
        (if ctx.bitPadding = true then [0x80] else []))) := by
    cases hbits : ctx.bitPadding with
    | false => simp only [Bool.false_eq_true, if_false, List.append_nil]
    | true =>
        rw [hbits, if_pos rfl] at hgrow
        rw [if_pos rfl, if_pos rfl, store_of hlen (by
          rw [List.length_singleton]
          omega)]
  have hbody : (Buf.of dlen (data.take len ++
      (if ctx.bitPadding = true then [0x80] else []))).bytes =
      Bytes.fit dlen (data.take len ++
        (if ctx.bitPadding = true then [0x80] else [])) := rfl
  have hflat := @lrpBlocks_flatten _ (fun y b => ecbEncryptBlock .aes128 y b)
    (fun y b hb => ecbEncryptBlock_length hb) ctx (Bytes.fit dlen
      (data.take len ++ (if ctx.bitPadding = true then [0x80] else [])))
    (dlen / aesBlock) (by rw [Bytes.length_fit, hcount])
  rw [load_front hdata, pure_bind', store_zero (by rw [hlen]; omega),
    pure_bind', hfilled, pure_bind',
    lrpBlocks_eq (fun y b hb => ecbEncryptBlock_length hb) _ _ _ _
      (by rw [Buf.bytes_length]; omega) (by omega), hbody, List.drop_zero]
  dsimp only
  rw [pure_bind', Except.map, hflat, Bytes.length_fit, Nat.add_zero]

/-- What `nxpsc_lrp_decode` runs on whole blocks there is room for: the
blocks, and the scan over what they are deciphered to. -/
theorem lrpDecode_run {ctx : LrpCtx} {data : Bytes} {len : Nat} {out : Buf n}
    (hdata : len ≤ data.length) (hgood : ¬ (len = 0 ∨ len % aesBlock ≠ 0))
    (hroom : len ≤ n) :
    let done := Nxpsc.lrpBlocks (fun y b => ecbDecryptBlock .aes128 y b) ctx
      (Bytes.chunks aesBlock (len / aesBlock) (data.take len))
    (lrpDecode ctx data len out : Run σ _) =
      (if ctx.bitPadding then
        lrpUnpadded (out.patch 0 done.1.flatten).bytes len
        else pure len) >>= fun outLen =>
      pure (.ok (out.patch 0 done.1.flatten, outLen), done.2) := by
  have hcount : len / aesBlock * aesBlock = len :=
    Nat.div_mul_cancel (Nat.dvd_of_mod_eq_zero (by omega))
  have hchunks := @Bytes.chunks_take aesBlock (len / aesBlock) data
  rw [hcount] at hchunks
  rw [lrpDecode, if_neg hgood, if_neg (by omega),
    lrpBlocks_eq (fun y b hb => ecbDecryptBlock_length hb) _ _ _ _
      (by omega) (by omega), List.drop_zero, hchunks]
  rfl

theorem lrpDecode_eq {ctx : LrpCtx} {data : Bytes} {len : Nat} {out : Buf n}
    (hdata : len ≤ data.length) (hint : len < 2 ^ 31) :
    (lrpDecode ctx data len out : Run σ _) =
      pure ((Nxpsc.lrpDecode ctx (data.take len) n).1.map fun o =>
        (out.patch 0 o.1, o.2),
        (Nxpsc.lrpDecode ctx (data.take len) n).2) := by
  have hlen : (data.take len).length = len := by
    rw [List.length_take]
    omega
  by_cases hgood : len = 0 ∨ len % aesBlock ≠ 0
  · rw [lrpDecode, Nxpsc.lrpDecode, hlen, if_pos hgood, if_pos hgood]
    rfl
  by_cases hroom : len ≤ n
  swap
  · rw [lrpDecode, Nxpsc.lrpDecode, hlen, if_neg hgood, if_neg hgood,
      if_pos (by omega), if_pos (by omega)]
    rfl
  have hcount : len / aesBlock * aesBlock = len :=
    Nat.div_mul_cancel (Nat.dvd_of_mod_eq_zero (by omega))
  have hblock : aesBlock ≤ len :=
    Nat.le_of_dvd (by omega) (Nat.dvd_of_mod_eq_zero (by omega))
  have hflat := @lrpBlocks_flatten _ (fun y b => ecbDecryptBlock .aes128 y b)
    (fun y b hb => ecbDecryptBlock_length hb) ctx (data.take len)
    (len / aesBlock) (by rw [hlen, hcount])
  have hrun := @lrpDecode_run σ n _ ctx data len out hdata hgood hroom
  rw [hlen] at hflat
  rw [Nxpsc.lrpDecode, hlen, if_neg hgood, if_neg (by omega)]
  dsimp only at hrun ⊢
  rw [hrun]
  generalize Nxpsc.lrpBlocks (fun y b => ecbDecryptBlock .aes128 y b) ctx
    (Bytes.chunks aesBlock (len / aesBlock) (data.take len)) = done at hflat ⊢
  have hfront : (out.patch 0 done.1.flatten).bytes.take len =
      done.1.flatten := by
    rw [Buf.take_patch (by omega) hroom, List.take_zero, List.nil_append]
  rw [lrpUnpadded_eq (by rw [Buf.bytes_length]; omega) hblock hint, hfront,
    hflat]
  cases ctx.bitPadding <;> rfl

/-- The absorbing loop stops in front of the last block. -/
theorem lrpAbsorb_eq {ctx : LrpCtx} {data : Bytes} {len : Nat}
    (hdata : len ≤ data.length) :
    ∀ (fuel done : Nat) (y : Bytes), done ≤ len → len - done < fuel →
      (lrpAbsorb ctx data len fuel done y : Run σ _) =
        pure (done + (len - done - 1) / aesBlock * aesBlock,
          (Nxpsc.lrpAbsorb ctx ((len - done - 1) / aesBlock) y
            ((data.take len).drop done)).1) := by
  intro fuel
  induction fuel with
  | zero =>
      intro done _ _ hfuel
      omega
  | succ fuel ih =>
      intro done y hdone hfuel
      rw [lrpAbsorb, minus_eq hdone, pure_bind']
      split
      · next hmore =>
          have hpos : 0 < aesBlock := by decide
          have hcount : (len - done - 1) / aesBlock =
              (len - (done + aesBlock) - 1) / aesBlock + 1 := by
            rw [← Nat.add_div_right _ hpos]
            congr 1
            omega
          have hblock : (data.drop done).take aesBlock =
              ((data.take len).drop done).take aesBlock := by
            rw [List.drop_take, List.take_take, Nat.min_eq_left (by omega)]
          rw [load_eq (by omega), pure_bind', ih _ _ (by omega) (by omega),
            hcount, Nxpsc.lrpAbsorb, hblock, List.drop_drop, Nat.succ_mul,
            Nat.add_assoc done, Nat.add_comm aesBlock (_ * _)]
      · next hlast =>
          have hcount : (len - done - 1) / aesBlock = 0 :=
            Nat.div_eq_of_lt (by
              have hpos : 0 < aesBlock := by decide
              omega)
          rw [hcount, Nat.zero_mul, Nat.add_zero, Nxpsc.lrpAbsorb]

theorem lrpAbsorb_rest (ctx : LrpCtx) (count : Nat) (y data : Bytes) :
    (Nxpsc.lrpAbsorb ctx count y data).2 = data.drop (count * aesBlock) := by
  induction count generalizing y data with
  | zero => rw [Nxpsc.lrpAbsorb, Nat.zero_mul, List.drop_zero]
  | succ count ih =>
      rw [Nxpsc.lrpAbsorb, ih, List.drop_drop, Nat.succ_mul, Nat.add_comm]

theorem lrpCmac_eq {ctx : LrpCtx} {data : Bytes} {len : Nat}
    (mac : Buf aesBlock) (hdata : len ≤ data.length) :
    (lrpCmac ctx data len mac : Run σ _) =
      pure (mac.put (Nxpsc.lrpCmac ctx (data.take len))) := by
  have hlen : (data.take len).length = len := by
    rw [List.length_take]
    omega
  have hend : (len - 1) / aesBlock * aesBlock ≤ len ∧
      len - (len - 1) / aesBlock * aesBlock ≤ aesBlock := by
    have hdm := Nat.div_add_mod (len - 1) aesBlock
    have hlt := Nat.mod_lt (len - 1) (by decide : aesBlock > 0)
    rw [Nat.mul_comm] at hdm
    omega
  have hmac : ∀ y, (store mac 0 (lrpEval ctx y (aesBlock * 2) true) :
      Run σ _) = pure (mac.put (lrpEval ctx y (aesBlock * 2) true)) := by
    intro y
    exact store_put (Nat.le_of_eq (lrpEval_length ctx y (aesBlock * 2)))
  simp only [lrpCmac, Nxpsc.lrpCmac, lrpAbsorb_rest, hlen]
  rw [lrpAbsorb_eq hdata _ _ _ (Nat.zero_le _) (by omega), pure_bind']
  dsimp only
  rw [Nat.sub_zero, Nat.zero_add, List.drop_zero]
  generalize (len - 1) / aesBlock = count at hend ⊢
  have htail : (data.drop (count * aesBlock)).take
      (len - count * aesBlock) = (data.take len).drop (count * aesBlock) :=
    List.drop_take.symm
  have hrest : ((data.take len).drop (count * aesBlock)).length =
      len - count * aesBlock := by rw [List.length_drop, hlen]
  rw [minus_eq hend.1, pure_bind', load_eq (by omega), pure_bind', htail]
  generalize (data.take len).drop (count * aesBlock) = last at hrest ⊢
  rw [← hrest] at hend ⊢
  rw [store_zero hend.2, pure_bind']
  split
  · next hwhole =>
      have hbytes : (Buf.of aesBlock last).bytes = last :=
        Bytes.fit_self hwhole
      rw [hmac, hbytes]
  · next hshort =>
      rw [store_of rfl (by
          rw [List.length_singleton]
          omega), pure_bind', hmac]
      rfl

theorem lrpCmac8_eq {ctx : LrpCtx} {data : Bytes} {len : Nat} (mac : Buf 8)
    (hdata : len ≤ data.length) :
    (lrpCmac8 ctx data len mac : Run σ _) =
      pure (mac.put (Nxpsc.lrpCmac8 ctx (data.take len))) := by
  have hlen := lrpCmac_length ctx (data.take len)
  have hbytes : ((Buf.zero aesBlock).put
      (Nxpsc.lrpCmac ctx (data.take len))).bytes =
        Nxpsc.lrpCmac ctx (data.take len) := by
    rw [← Buf.patch_put (Nat.le_of_eq hlen),
      Buf.zero_patch (Nat.le_of_eq hlen)]
    exact Bytes.fit_self hlen
  rw [lrpCmac8, lrpCmac_eq _ hdata, pure_bind', hbytes,
    truncateMac_eq mac hlen, Nxpsc.lrpCmac8]

end

end Nxpsc.InMemory
