import Nxpsc.Proofs.CryptoMemory
import Nxpsc.Proofs.LrpCounting
import Nxpsc.Proofs.RoundTrip

/-!
# Deciphering undoes enciphering

The counter mode of the leakage resilient primitive between two arrays. The
blocks are undone one by one under the same counters, so what is left is the
padding, which the scan from the end takes off again. The scan runs on an
`int`: in a string of 2^31 bytes and more it looks in another place, or
before the array.
-/

namespace Nxpsc.InMemory

open Checked

variable {n m : Nat}

/-! ## The scan for the padding -/

/-- It steps over the zeros and stops at the mark. -/
theorem lrpUnpadded_zeros (xs : Bytes) (k rest : Nat) {count : Nat}
    (hk : k ≤ count) :
    Nxpsc.lrpUnpadded (xs ++ Bytes.padMark :: Bytes.zeros count)
      (k + 1 + rest) (xs.length + 1 + k) = xs.length := by
  have hbehind : ∀ i, (xs ++ Bytes.padMark :: Bytes.zeros count).getD
      (xs.length + i) 0 = (Bytes.padMark :: Bytes.zeros count).getD i 0 := by
    intro i
    rw [List.getD_append_right _ _ _ _ (Nat.le_add_right _ i),
      Nat.add_sub_cancel_left]
  induction k with
  | zero =>
      have hmark := hbehind 0
      rw [Nat.add_right_comm, Nxpsc.lrpUnpadded]
      exact if_pos hmark
  | succ k ih =>
      have hzero : (xs ++ Bytes.padMark :: Bytes.zeros count).getD
          (xs.length + 1 + k) 0 = 0 := by
        rw [Nat.add_assoc, Nat.add_comm 1 k, hbehind, List.getD_cons_succ,
          Bytes.zeros]
        exact List.getD_replicate _ (by omega)
      rw [Nat.add_right_comm, ← Nat.add_assoc, Nxpsc.lrpUnpadded, hzero,
        if_neg (by decide), if_neg fun h => h rfl]
      exact ih (by omega)

theorem lrpUnpadded_pad (data : Bytes) :
    Nxpsc.lrpUnpadded (Bytes.pad aesBlock data) aesBlock
      (Bytes.pad aesBlock data).length = data.length := by
  have hrounds : aesBlock = aesBlock - 1 - data.length % aesBlock + 1 +
      data.length % aesBlock := by
    have hlt := Nat.mod_lt data.length (by decide : 0 < aesBlock)
    omega
  have hscan := lrpUnpadded_zeros data
    (aesBlock - 1 - data.length % aesBlock) (data.length % aesBlock)
    (Nat.le_refl _)
  rw [← hrounds] at hscan
  rw [Bytes.length_pad]
  exact hscan

/-- What it finds is where it began or below, or nothing. -/
theorem lrpScan_le {out : Bytes} {outLen rounds r : Nat} {i : Int}
    (h : (lrpScan out outLen rounds i : Run Unit _) = pure r) :
    r = outLen ∨ (r : Int) ≤ i := by
  induction rounds generalizing i with
  | zero => exact .inl (pure_inj h).symm
  | succ rounds ih =>
      rw [lrpScan] at h
      split at h
      · exact absurd h (fault_ne_pure r)
      rw [byteAt] at h
      split at h
      swap
      · exact absurd h (fault_ne_pure r)
      rw [pure_bind'] at h
      split at h
      · have hfound := pure_inj h
        omega
      split at h
      · exact .inl (pure_inj h).symm
      · rcases ih h with hnone | hlow
        · exact .inl hnone
        · exact .inr (by omega)

/-- A message that is padded to 2^31 bytes or more is not found again. -/
theorem lrpUnpadded_long {out data : Bytes} {len : Nat}
    (hmod : len % aesBlock = 0) (hlen : data.length < len)
    (hpad : len ≤ data.length + aesBlock)
    (h : 2 ^ 31 ≤ data.length + aesBlock) :
    (lrpUnpadded out len : Run Unit _) ≠ pure data.length := by
  intro hrun
  have haes : aesBlock = 16 := rfl
  rw [haes] at hmod
  have hlong : 2 ^ 31 ≤ len := by omega
  rw [lrpUnpadded] at hrun
  split at hrun
  · exact fault_ne_pure _ hrun
  next hleast =>
  have htop : asInt len < 2 ^ 31 := Int.bmod_lt (by decide)
  rcases lrpScan_le hrun with hnone | hlow
  · omega
  · -- the length found is an int, so the string had 2^31 bytes
    have heq : len = 2 ^ 31 := by omega
    rw [heq] at hleast
    exact hleast (by decide)

/-! ## Enciphering -/

/-- The blocks that are enciphered. -/
def lrpPadded (bits : Bool) (data : Bytes) : Bytes :=
  Bytes.fit (paddedLen (data.length + (if bits then 1 else 0)) aesBlock)
    (data ++ (if bits then [0x80] else []))

theorem length_lrpPadded (bits : Bool) (data : Bytes) :
    (lrpPadded bits data).length =
      paddedLen (data.length + (if bits then 1 else 0)) aesBlock :=
  Bytes.length_fit _ _

theorem lrpPadded_mod (bits : Bool) (data : Bytes) :
    (lrpPadded bits data).length % aesBlock = 0 := by
  rw [length_lrpPadded]
  exact paddedLen_mod (by decide)

theorem lrpPadded_bits (data : Bytes) :
    lrpPadded true data = Bytes.pad aesBlock data :=
  fit_pad (by decide) data

theorem length_lrpPadded_le (data : Bytes) :
    (lrpPadded true data).length ≤ data.length + aesBlock := by
  have haes : aesBlock = 16 := rfl
  rw [lrpPadded_bits, Bytes.length_pad]
  omega

theorem lrpPadded_whole {data : Bytes} (h : data.length % aesBlock = 0) :
    lrpPadded false data = data := by
  have hlen : paddedLen (data.length + 0) aesBlock = data.length :=
    paddedLen_of_mod h
  rw [lrpPadded, if_neg Bool.false_ne_true, if_neg Bool.false_ne_true, hlen,
    List.append_nil, Bytes.fit_self rfl]

/-- The message is the front of what is enciphered. -/
theorem lrpPadded_take (bits : Bool) (data : Bytes) :
    (lrpPadded bits data).take data.length = data := by
  have hgrow := @le_paddedLen (data.length + (if bits = true then 1 else 0))
    aesBlock (by decide)
  rw [lrpPadded, Bytes.take_fit (by omega), Bytes.fit, List.take_left,
    List.length_append, Nat.sub_add_eq, Nat.sub_self, Nat.zero_sub,
    Bytes.zeros, List.replicate_zero, List.append_nil]

theorem le_length_lrpPadded (bits : Bool) (data : Bytes) :
    data.length + (if bits then 1 else 0) ≤ (lrpPadded bits data).length := by
  rw [length_lrpPadded]
  exact le_paddedLen (by decide)

theorem lrpPadded_front {bits : Bool} {data : Bytes} (back : Buf m)
    (hroom : (lrpPadded bits data).length ≤ m) :
    (back.patch 0 (lrpPadded bits data)).bytes.take data.length = data := by
  have hgrow := le_length_lrpPadded bits data
  calc (back.patch 0 (lrpPadded bits data)).bytes.take data.length
      = ((back.patch 0 (lrpPadded bits data)).bytes.take
          (lrpPadded bits data).length).take data.length := by
        rw [List.take_take, Nat.min_eq_left (by omega)]
    _ = (lrpPadded bits data).take data.length := by
        rw [Buf.take_patch (Nat.zero_add _) hroom, List.take_zero,
          List.nil_append]
    _ = data := lrpPadded_take bits data

/-- The padding is taken off where the scan finds it. -/
theorem lrpUnpadded_short {data : Bytes} (back : Buf m)
    (hroom : (lrpPadded true data).length ≤ m)
    (h : data.length + aesBlock < 2 ^ 31) :
    (lrpUnpadded (back.patch 0 (lrpPadded true data)).bytes
      (lrpPadded true data).length : Run Unit _) = pure data.length := by
  have hfront : (back.patch 0 (lrpPadded true data)).bytes.take
      (lrpPadded true data).length = lrpPadded true data := by
    rw [Buf.take_patch (by omega) hroom, List.take_zero, List.nil_append]
  have hmod := lrpPadded_mod true data
  have haes : aesBlock = 16 := rfl
  have hlen := Bytes.length_pad aesBlock data
  rw [← lrpPadded_bits] at hlen
  have hblock : aesBlock ≤ (lrpPadded true data).length :=
    Nat.le_of_dvd (by omega) (Nat.dvd_of_mod_eq_zero hmod)
  rw [lrpUnpadded_eq (by rw [Buf.bytes_length]; exact hroom) hblock (by omega),
    hfront, lrpPadded_bits, lrpUnpadded_pad]

section

variable [c : BlockCipher]

/-- Enciphering and deciphering of whole blocks, as many as there are. -/
def sentBlocks (ctx : LrpCtx) (padded : Bytes) : List Bytes × LrpCtx :=
  Nxpsc.lrpBlocks (fun y b => ecbEncryptBlock .aes128 y b) ctx
    (Bytes.chunks aesBlock (padded.length / aesBlock) padded)

theorem length_sentBlocks (ctx : LrpCtx) {padded : Bytes}
    (hmod : padded.length % aesBlock = 0) :
    (sentBlocks ctx padded).1.flatten.length = padded.length :=
  lrpBlocks_flatten (fun _ _ hb => ecbEncryptBlock_length hb)
    (Nat.div_mul_cancel (Nat.dvd_of_mod_eq_zero hmod)).symm

theorem lrpEncode_sentBlocks {ctx : LrpCtx} {data : Bytes} (out : Buf n)
    (hpos : 0 < (lrpPadded ctx.bitPadding data).length)
    (hcap : (lrpPadded ctx.bitPadding data).length ≤ n) :
    (lrpEncode ctx data data.length out 0 n : Run Unit _) =
      pure (.ok (out.patch 0 (sentBlocks ctx
          (lrpPadded ctx.bitPadding data)).1.flatten,
        (lrpPadded ctx.bitPadding data).length),
        (sentBlocks ctx (lrpPadded ctx.bitPadding data)).2) := by
  have hlen := length_sentBlocks ctx (lrpPadded_mod ctx.bitPadding data)
  have hencode : Nxpsc.lrpEncode ctx data n =
      (.ok (sentBlocks ctx (lrpPadded ctx.bitPadding data)).1.flatten,
        (sentBlocks ctx (lrpPadded ctx.bitPadding data)).2) := by
    rw [length_lrpPadded] at hpos hcap
    simp only [Nxpsc.lrpEncode]
    rw [if_neg (by omega), if_neg (by omega), sentBlocks, length_lrpPadded]
    rfl
  rw [lrpEncode_eq (Nat.le_refl _) (by omega), List.take_length, hencode,
    ← hlen]
  rfl

/-! ## Deciphering -/

/-- The blocks come back, and what is left is the scan. -/
theorem lrpDecode_sentBlocks (hinv : DecryptInverts c) {ctx : LrpCtx}
    {padded : Bytes} (out : Buf n) (back : Buf m) (hpos : 0 < padded.length)
    (hmod : padded.length % aesBlock = 0) (hcap : padded.length ≤ n)
    (hroom : padded.length ≤ m) :
    (lrpDecode ctx
        (out.patch 0 (sentBlocks ctx padded).1.flatten).bytes
        padded.length back : Run Unit _) =
      (if ctx.bitPadding then
        lrpUnpadded (back.patch 0 padded).bytes padded.length
        else pure padded.length) >>= fun outLen =>
      pure (.ok (back.patch 0 padded, outLen), (sentBlocks ctx padded).2) := by
  have hlen := length_sentBlocks ctx hmod
  have hfront : (out.patch 0 (sentBlocks ctx padded).1.flatten).bytes.take
      padded.length = (sentBlocks ctx padded).1.flatten := by
    rw [Buf.take_patch (by omega) hcap, List.take_zero, List.nil_append]
  have hback := lrpBlocks_sent hinv ctx hmod
  have hcount : padded.length = padded.length / aesBlock * aesBlock :=
    (Nat.div_mul_cancel (Nat.dvd_of_mod_eq_zero hmod)).symm
  have hrun := @lrpDecode_run Unit m _ ctx
    (out.patch 0 (sentBlocks ctx padded).1.flatten).bytes padded.length back
    (by rw [Buf.bytes_length]; exact hcap) (by omega) hroom
  rw [hfront, sentBlocks, hback] at hrun
  dsimp only at hrun
  rw [Bytes.flatten_chunks hcount] at hrun
  exact hrun

/-! ## The counters -/

/-- So many blocks count as so many calls. -/
theorem increments_blocks (prim : Bytes → Bytes → Bytes) {ctx : LrpCtx}
    (blocks : List Bytes)
    (h : ctx.counterLenNibbles ≤ 2 * lrpMaxCounter) :
    (increments blocks.length ctx : Run Unit _) =
      pure (Nxpsc.lrpBlocks prim ctx blocks).2 := by
  induction blocks generalizing ctx with
  | nil => rfl
  | cons block rest ih =>
      rw [List.length_cons, increments_succ h]
      exact @ih ctx.next h

/-- The context that is left has counted the blocks. -/
theorem sentBlocks_counted {set : LrpCtx} {lenNibbles v : Nat}
    {padded : Bytes} (hnibbles : set.counterLenNibbles = lenNibbles)
    (hsize : lenNibbles ≤ 2 * lrpMaxCounter)
    (hv : nibblesValue lenNibbles set.counter.bytes = v) :
    CountedTo set (sentBlocks set padded).2 lenNibbles
      ((v + padded.length / aesBlock) % 16 ^ lenNibbles) := by
  obtain ⟨after, hrun, hcounted⟩ := @increments_counted Unit set lenNibbles v
    hnibbles hsize hv (padded.length / aesBlock)
  have hblocks := @increments_blocks _
    (fun y b => ecbEncryptBlock .aes128 y b) set
    (Bytes.chunks aesBlock (padded.length / aesBlock) padded)
    (hnibbles ▸ hsize)
  rw [Bytes.length_chunks, hrun] at hblocks
  rw [sentBlocks, ← pure_inj hblocks]
  exact hcounted

/-! ## There and back -/

variable {ctx : LrpCtx} {counter data : Bytes} {lenNibbles : Nat}
  {out : Buf n} {back : Buf m}

/-- The counter was in its array. -/
theorem ThereAndBack.fits (haccepts : lenNibbles / 2 ≤ lrpMaxCounter)
    (hcounter : (lenNibbles + 1) / 2 ≤ counter.length)
    (h : ThereAndBack ctx counter lenNibbles data out back) :
    lenNibbles ≤ 2 * lrpMaxCounter := by
  obtain ⟨set, -, -, -, -, hset, -⟩ := h
  refine Nat.le_of_not_lt fun hlong => ?_
  rw [setCounter_fault _ haccepts hcounter hlong] at hset
  exact fault_ne_pure set hset

/-- A counter in its array leaves one question, the length that is found. -/
theorem thereAndBack_iff_found (hinv : DecryptInverts c)
    (hfits : lenNibbles ≤ 2 * lrpMaxCounter)
    (hcounter : (lenNibbles + 1) / 2 ≤ counter.length)
    (hpos : 0 < (lrpPadded ctx.bitPadding data).length)
    (hcap : (lrpPadded ctx.bitPadding data).length ≤ n)
    (hroom : (lrpPadded ctx.bitPadding data).length ≤ m) :
    ThereAndBack ctx counter lenNibbles data out back ↔
      (if ctx.bitPadding then
        lrpUnpadded (back.patch 0 (lrpPadded ctx.bitPadding data)).bytes
          (lrpPadded ctx.bitPadding data).length
        else pure (lrpPadded ctx.bitPadding data).length : Run Unit Nat) =
          pure data.length := by
  have hset := @setCounter_eq Unit ctx counter lenNibbles hfits hcounter
  have hbits := lrpSetCounter_bitPadding ctx counter lenNibbles
  have hnibbles : (lrpSetCounter ctx counter lenNibbles).counterLenNibbles =
      lenNibbles := by
    have hmax : lrpMaxCounter = 64 := rfl
    rw [lrpSetCounter, if_neg (by omega)]
  have hvalue := nibblesValue_set ctx hfits hcounter
  generalize lrpSetCounter ctx counter lenNibbles = start
    at hset hbits hnibbles hvalue
  rw [← hbits] at hpos hcap hroom ⊢
  have hsent := lrpEncode_sentBlocks out hpos hcap
  have hback := @lrpDecode_sentBlocks n m c hinv start _ out back hpos
    (lrpPadded_mod start.bitPadding data) hcap hroom
  constructor
  · rintro ⟨set, o, sent, p, received, hset', hsent', hback', hlen, -, -, -⟩
    obtain rfl := pure_inj (hset.symm.trans hset')
    obtain ⟨hout, rfl⟩ := Prod.mk.inj (pure_inj (hsent.symm.trans hsent'))
    obtain rfl := Except.ok.inj hout
    obtain ⟨found, hfound, hp⟩ :=
      eq_pure_of_bind (hback.symm.trans hback')
    obtain ⟨hresult, -⟩ := Prod.mk.inj hp
    obtain rfl := Except.ok.inj hresult
    rw [hfound, ← hlen]
  · intro hfound
    rw [hfound, pure_bind'] at hback
    exact ⟨start, _, _, _, _, hset, hsent, hback, rfl,
      lrpPadded_front back hroom, rfl,
      sentBlocks_counted hnibbles hfits hvalue⟩

/-- The message comes back, if the counter is in its array and the padded
message is indexed by an `int`. -/
theorem lrp_there_and_back_iff (hinv : DecryptInverts c) (key : Bytes)
    (updatedKey : Fin lrpUpdatedKeys) (bits : Bool)
    (haccepts : lenNibbles / 2 ≤ lrpMaxCounter)
    (hcounter : (lenNibbles + 1) / 2 ≤ counter.length)
    (hpayload : bits = false → 0 < data.length ∧ data.length % aesBlock = 0)
    (hcap : paddedLen (data.length + (if bits then 1 else 0)) aesBlock ≤ n)
    (hroom : paddedLen (data.length + (if bits then 1 else 0)) aesBlock ≤ m) :
    ThereAndBack (lrpInit key updatedKey bits) counter lenNibbles data out
        back ↔
      lenNibbles ≤ 2 * lrpMaxCounter ∧
        (bits = true → data.length + aesBlock < 2 ^ 31) := by
  have hbits : (lrpInit key updatedKey bits).bitPadding = bits := rfl
  rw [← length_lrpPadded] at hcap hroom
  generalize lrpInit key updatedKey bits = ctx at hbits ⊢
  subst hbits
  have hgrow := le_length_lrpPadded ctx.bitPadding data
  have hpos : 0 < (lrpPadded ctx.bitPadding data).length := by
    cases hpadding : ctx.bitPadding with
    | true =>
        rw [hpadding, if_pos rfl] at hgrow
        omega
    | false =>
        rw [hpadding] at hgrow
        exact Nat.lt_of_lt_of_le (hpayload hpadding).1 hgrow
  constructor
  · intro h
    have hfits := h.fits haccepts hcounter
    refine ⟨hfits, fun hpadding => Nat.lt_of_not_le fun hlong => ?_⟩
    have hfound :=
      (thereAndBack_iff_found hinv hfits hcounter hpos hcap hroom).mp h
    rw [hpadding, if_pos rfl] at hfound
    rw [hpadding, if_pos rfl] at hgrow
    exact lrpUnpadded_long (lrpPadded_mod true data)
      (Nat.lt_of_succ_le hgrow) (length_lrpPadded_le data) hlong hfound
  · rintro ⟨hfits, hint⟩
    refine (thereAndBack_iff_found hinv hfits hcounter hpos hcap hroom).mpr ?_
    cases hpadding : ctx.bitPadding with
    | true =>
        rw [hpadding] at hroom
        rw [if_pos rfl]
        exact lrpUnpadded_short back hroom (hint hpadding)
    | false =>
        rw [if_neg Bool.false_ne_true, lrpPadded_whole (hpayload hpadding).2]

end

theorem lrp_there_and_back_odd :
    @ThereAndBack .identity 32 48 (@lrpInit .identity (Bytes.zeros 16) 1 true)
      [0xFF, 0xF0] 3 [0x80, 0x00] (.zero 32) (.zero 48) :=
  (@lrp_there_and_back_iff 32 48 .identity [0xFF, 0xF0] [0x80, 0x00] 3 _ _
    decryptInverts_identity (Bytes.zeros 16) ⟨1, by decide⟩ true (by decide)
    (by decide) (by decide) (by decide) (by decide)).mpr
      ⟨by decide, fun _ => by decide⟩

/-- One half byte more than the counter has room for is accepted. -/
theorem lrp_there_and_back_too_long :
    129 / 2 ≤ lrpMaxCounter ∧
      ¬ @ThereAndBack .identity 16 16
        (@lrpInit .identity (Bytes.zeros 16) 0 false) (Bytes.zeros 65) 129
        (Bytes.zeros 16) (.zero 16) (.zero 16) := by
  refine ⟨by decide, fun h => ?_⟩
  have hfits := @ThereAndBack.fits _ _ .identity _ _ _ _ _ _ (by decide)
    (by decide) h
  exact absurd hfits (by decide)

end Nxpsc.InMemory
