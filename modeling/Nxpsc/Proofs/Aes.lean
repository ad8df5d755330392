import Nxpsc.Proofs.AesLayers

/-!
# The AES of `aes.c` is the one of the standard

The source looks a whole column up in a table and takes four bytes from four
words of the state, so that one exclusive or does the work of three layers.
Decryption has a schedule of its own. Both come out as the network of
`Rounds.Layers` and its inverse.
-/

namespace Nxpsc

open Fips197

/-! ## Words of four bytes -/

namespace Mbedtls

/-- The bytes of a word, the low one in the first row. -/
def column (w : Word) : Column :=
  ⟨w.extractLsb' 0 8, w.extractLsb' 8 8, w.extractLsb' 16 8,
    w.extractLsb' 24 8⟩

def Quad.state (x : Quad) : State :=
  ⟨column x.x0, column x.x1, column x.x2, column x.x3⟩

theorem extract_xor (v w : Word) (i : Nat) : (v ^^^ w).extractLsb' i 8 =
    v.extractLsb' i 8 ^^^ w.extractLsb' i 8 :=
  XorLinear.id.extract i 8 v w

theorem column_xor (v w : Word) :
    column (v ^^^ w) = xorWord (column v) (column w) := by
  simp only [column, xorWord, extract_xor]

theorem state_xor (x y : Quad) :
    (x.xor y).state = addRoundKey x.state y.state := by
  simp only [Quad.state, Quad.xor, addRoundKey, column_xor]

/-- A byte in its place of a word. -/
theorem extract_placed {a i : Nat} (ha : a < 4) (hi : i < 4)
    (b : Fips197.Byte) : ((b.setWidth 32) <<< (8 * a)).extractLsb' (8 * i) 8 =
      if i = a then b else 0 := by
  have hall : ∀ a < 4, ∀ i < 4, ∀ b < 256,
      (((BitVec.ofNat 8 b).setWidth 32) <<< (8 * a)).extractLsb' (8 * i) 8 =
        if i = a then BitVec.ofNat 8 b else 0 := by decide +kernel
  have hb := hall a ha i hi b.toNat b.isLt
  rwa [BitVec.ofNat_toNat, BitVec.setWidth_eq] at hb

theorem extract_or (v w : Word) (i : Nat) : (v ||| w).extractLsb' i 8 =
    v.extractLsb' i 8 ||| w.extractLsb' i 8 := by
  refine BitVec.eq_of_getLsbD_eq fun j hj => ?_
  simp [hj]

theorem column_getUint32Le (b : Bytes) (i : Nat) :
    column (getUint32Le b i) = wordAt b i := by
  have hfour : ∀ p q r s : Fips197.Byte,
      column (p.setWidth 32 ||| (q.setWidth 32 <<< 8) |||
        (r.setWidth 32 <<< 16) ||| (s.setWidth 32 <<< 24)) = ⟨p, q, r, s⟩ := by
    intro p q r s
    have hp : p.setWidth 32 = p.setWidth 32 <<< (8 * 0) :=
      (BitVec.shiftLeft_zero _).symm
    have hbyte : ∀ i < 4, (p.setWidth 32 ||| (q.setWidth 32 <<< (8 * 1)) |||
        (r.setWidth 32 <<< (8 * 2)) ||| (s.setWidth 32 <<< (8 * 3))).extractLsb'
          (8 * i) 8 = (if i = 0 then p else 0) ||| (if i = 1 then q else 0) |||
            (if i = 2 then r else 0) ||| (if i = 3 then s else 0) := by
      intro i hi
      rw [hp, extract_or, extract_or, extract_or,
        extract_placed (by decide) hi, extract_placed (by decide) hi,
        extract_placed (by decide) hi, extract_placed (by decide) hi]
    refine Column.ext ((hbyte 0 (by decide)).trans ?_)
      ((hbyte 1 (by decide)).trans ?_) ((hbyte 2 (by decide)).trans ?_)
      ((hbyte 3 (by decide)).trans ?_) <;> simp
  exact hfour _ _ _ _

theorem bytes_column (w : Word) : (column w).bytes = putUint32Le w := by
  have hbyte : ∀ s, (w >>> s).setWidth 8 = w.extractLsb' s 8 := by
    intro s
    refine BitVec.eq_of_getLsbD_eq fun j hj => ?_
    simp [hj]
  have hzero : w.setWidth 8 = w.extractLsb' 0 8 := hbyte 0
  rw [putUint32Le, hbyte, hbyte, hbyte, hzero]
  rfl

/-! ## Table entries -/

theorem byteOf_eq (w : Word) (i : Nat) :
    byteOf w i = (w.extractLsb' i 8).toNat := by
  rw [byteOf, BitVec.toNat_and, BitVec.extractLsb'_toNat,
    BitVec.toNat_ushiftRight]
  exact Nat.and_two_pow_sub_one_eq_mod _ 8

theorem fsbAt_byteOf (w : Word) (i : Nat) :
    fsbAt (byteOf w i) = (sbox (w.extractLsb' i 8)).setWidth 32 := by
  rw [fsbAt, byteOf_eq, fsb_sbox]

theorem rsbAt_byteOf (w : Word) (i : Nat) :
    rsbAt (byteOf w i) = (invSbox (w.extractLsb' i 8)).setWidth 32 := by
  rw [rsbAt, byteOf_eq]
  rfl

/-- A rotation is the sum of two shifts that have no bit in common. -/
theorem shift_sum (w : Word) (i : Nat) :
    (w <<< i) + (w >>> (32 - i)) = (w <<< i) ||| (w >>> (32 - i)) := by
  refine BitVec.add_eq_or_of_and_eq_zero _ _ ?_
  refine BitVec.eq_of_getLsbD_eq fun j hj => ?_
  simp [hj]
  grind

theorem column_rotl8 (w : Word) : column (rotl8 w) = turned (column w) := by
  rw [rotl8, shift_sum w 8]
  simp only [column, turned, Column.mk.injEq]
  have hpart : ∀ i j, i + 8 = j → j ≤ 24 →
      (w <<< 8 ||| w >>> 24).extractLsb' j 8 = w.extractLsb' i 8 := by
    intro i j hij hj
    refine BitVec.eq_of_getLsbD_eq fun k hk => ?_
    simp [hk]
    grind
  refine ⟨?_, hpart 0 8 rfl (by decide), hpart 8 16 rfl (by decide),
    hpart 16 24 rfl (by decide)⟩
  refine BitVec.eq_of_getLsbD_eq fun k hk => ?_
  simp [hk]

theorem rotl16_eq (w : Word) : rotl16 w = rotl8 (rotl8 w) := by
  rw [rotl16, rotl8, rotl8, shift_sum _ 8, shift_sum _ 8, shift_sum _ 16]
  refine BitVec.eq_of_getLsbD_eq fun j hj => ?_
  simp [hj]
  grind

theorem rotl24_eq (w : Word) : rotl24 w = rotl8 (rotl16 w) := by
  rw [rotl16, rotl8, rotl24, shift_sum _ 8, shift_sum _ 16, shift_sum _ 24]
  refine BitVec.eq_of_getLsbD_eq fun j hj => ?_
  simp [hj]
  grind

/-- What a table has at a byte, one matrix and one S-box before it. -/
structure TableOf (t : Nat → Word) (row : Column)
    (f : Fips197.Byte → Fips197.Byte) : Prop where
  entry : ∀ b : Fips197.Byte,
    column (t b.toNat) = mulMatrix row (Column.lane (f b))

theorem ft0_table : TableOf aesFt0 mixRow sbox where
  entry b := by
    have hall : ∀ i < 256, column (ft0.getD i 0) =
        ⟨xtimes (fsb.getD i 0), fsb.getD i 0, fsb.getD i 0,
          xtimes (fsb.getD i 0) ^^^ fsb.getD i 0⟩ := by decide +kernel
    rw [Column.mix_lane, ← fsb_sbox]
    exact hall b.toNat b.isLt

theorem rt0_table : TableOf aesRt0 invMixRow invSbox where
  entry b := by
    have hall : ∀ i < 256, column (rt0.getD i 0) =
        ⟨mul 0x0E (rsb.getD i 0), mul 0x09 (rsb.getD i 0),
          mul 0x0D (rsb.getD i 0), mul 0x0B (rsb.getD i 0)⟩ := by
      decide +kernel
    rw [Column.invMix_lane]
    exact hall b.toNat b.isLt

/-- Four entries, one from each table. -/
theorem TableOf.column_four {t : Nat → Word} {row : Column}
    {f : Fips197.Byte → Fips197.Byte} (h : TableOf t row f) (v w x y : Word) :
    column (t (byteOf v 0) ^^^ rotl8 (t (byteOf w 8)) ^^^
      rotl16 (t (byteOf x 16)) ^^^ rotl24 (t (byteOf y 24))) =
      mulMatrix row (Column.map f ⟨v.extractLsb' 0 8, w.extractLsb' 8 8,
        x.extractLsb' 16 8, y.extractLsb' 24 8⟩) := by
  rw [column_xor, column_xor, column_xor, rotl24_eq, rotl16_eq, rotl16_eq,
    column_rotl8, column_rotl8, column_rotl8, column_rotl8, column_rotl8,
    column_rotl8, byteOf_eq, byteOf_eq, byteOf_eq, byteOf_eq,
    h.entry (v.extractLsb' 0 8), h.entry (w.extractLsb' 8 8),
    h.entry (x.extractLsb' 16 8), h.entry (y.extractLsb' 24 8)]
  exact (Column.mulMatrix_lanes row ⟨f (v.extractLsb' 0 8),
    f (w.extractLsb' 8 8), f (x.extractLsb' 16 8), f (y.extractLsb' 24 8)⟩).symm

/-- Four bytes in their places. -/
theorem column_placed (p q r s : Fips197.Byte) :
    column (p.setWidth 32 ^^^ (q.setWidth 32 <<< 8) ^^^
      (r.setWidth 32 <<< 16) ^^^ (s.setWidth 32 <<< 24)) = ⟨p, q, r, s⟩ := by
  have hp : p.setWidth 32 = p.setWidth 32 <<< (8 * 0) :=
    (BitVec.shiftLeft_zero _).symm
  have hbyte : ∀ i < 4, (p.setWidth 32 ^^^ (q.setWidth 32 <<< (8 * 1)) ^^^
      (r.setWidth 32 <<< (8 * 2)) ^^^ (s.setWidth 32 <<< (8 * 3))).extractLsb'
        (8 * i) 8 = (if i = 0 then p else 0) ^^^ (if i = 1 then q else 0) ^^^
          (if i = 2 then r else 0) ^^^ (if i = 3 then s else 0) := by
    intro i hi
    rw [hp, extract_xor, extract_xor, extract_xor,
      extract_placed (by decide) hi, extract_placed (by decide) hi,
      extract_placed (by decide) hi, extract_placed (by decide) hi]
  refine Column.ext ((hbyte 0 (by decide)).trans ?_)
    ((hbyte 1 (by decide)).trans ?_) ((hbyte 2 (by decide)).trans ?_)
    ((hbyte 3 (by decide)).trans ?_) <;> simp

/-! ## Rounds -/

theorem addRoundKey_comm (s k : State) :
    addRoundKey s k = addRoundKey k s := by
  simp only [addRoundKey, xorWord, BitVec.xor_comm]

theorem state_aesFround (rk : List Word) (y : Quad) :
    (aesFround rk y).state = aesLayers.round y.state (quad rk).state := by
  rw [aesFround, state_xor, addRoundKey_comm]
  simp only [Quad.state, aesFt1, aesFt2, aesFt3, ft0_table.column_four]
  rfl

theorem state_aesRround (rk : List Word) (y : Quad) :
    (aesRround rk y).state = aesLayers.unround y.state (quad rk).state := by
  rw [aesRround, state_xor, addRoundKey_comm]
  simp only [Quad.state, aesRt1, aesRt2, aesRt3, rt0_table.column_four]
  rfl

theorem state_lastFround (rk : List Word) (y : Quad) :
    (lastFround rk y).state =
      aesLayers.add (aesLayers.confuse y.state) (quad rk).state := by
  rw [lastFround, state_xor, addRoundKey_comm]
  simp only [Quad.state, fsbAt_byteOf, column_placed]
  rfl

theorem state_lastRround (rk : List Word) (y : Quad) :
    (lastRround rk y).state =
      aesLayers.add (aesLayers.unconfuse y.state) (quad rk).state := by
  rw [lastRround, state_xor, addRoundKey_comm]
  simp only [Quad.state, rsbAt_byteOf, column_placed]
  rfl

/-! ## All the rounds -/

/-- The keys of `n` rounds from `RK` on. -/
def roundKeys (rk : List Word) (n : Nat) : List State :=
  (List.range n).map fun i => (quad (rk.drop (4 * i))).state

theorem roundKeys_succ (rk : List Word) (n : Nat) :
    roundKeys rk (n + 1) = (quad rk).state :: roundKeys (rk.drop 4) n := by
  rw [roundKeys, List.range_succ_eq_map, List.map_cons, List.map_map]
  refine congrArg (List.cons _) (List.map_congr_left fun i _ => ?_)
  show (quad (rk.drop (4 * (i + 1)))).state = _
  rw [List.drop_drop, Nat.mul_add_one, Nat.add_comm]

theorem roundKeys_concat (rk : List Word) (n : Nat) :
    roundKeys rk (n + 1) =
      roundKeys rk n ++ [(quad (rk.drop (4 * n))).state] := by
  rw [roundKeys, List.range_succ, List.map_append]
  rfl

theorem roundPairs_state {round : List Word → Quad → Quad}
    {step : State → State → State}
    (h : ∀ rk y, (round rk y).state = step y.state (quad rk).state)
    (n : Nat) (rk : List Word) (x : Quad) :
    (roundPairs round n rk x).1.state =
        (roundKeys rk (2 * n)).foldl step x.state ∧
      (roundPairs round n rk x).2 = rk.drop (8 * n) := by
  induction n generalizing rk x with
  | zero => exact ⟨rfl, rfl⟩
  | succ n ih =>
      obtain ⟨hstate, hrest⟩ := ih (rk.drop 8) (round (rk.drop 4) (round rk x))
      refine ⟨hstate.trans ?_, hrest.trans ?_⟩
      · rw [Nat.mul_succ, roundKeys_succ, roundKeys_succ, List.drop_drop,
          List.foldl_cons, List.foldl_cons, h, h]
      · rw [List.drop_drop]
        congr 1
        omega

theorem putBlock_state (x : Quad) : putBlock x = x.state.bytes := by
  simp only [putBlock, State.bytes, Quad.state, bytes_column]

theorem state_getBlock (input : Bytes) :
    (getBlock input).state = ofBytes input := by
  simp only [getBlock, Quad.state, ofBytes, column_getUint32Le]

/-- One block, over rounds that are known to do what `step` and `final` do. -/
theorem internalAes_eq {round last : List Word → Quad → Quad}
    {step final : State → State → State}
    (hround : ∀ rk y, (round rk y).state = step y.state (quad rk).state)
    (hlast : ∀ rk y, (last rk y).state = final y.state (quad rk).state)
    {n : Nat} (rk : List Word) (input : Bytes) :
    internalAes round last ⟨2 * (n + 1), rk⟩ input =
      (final ((roundKeys (rk.drop 4) (2 * n + 1)).foldl step
        (addRoundKey (ofBytes input) (quad rk).state))
        (quad (rk.drop (8 * (n + 1)))).state).bytes := by
  have hn : 2 * (n + 1) / 2 - 1 = n := by omega
  obtain ⟨hstate, hrest⟩ := roundPairs_state hround n (rk.drop 4)
    ((getBlock input).xor (quad rk))
  have hkeys := roundKeys_concat (rk.drop 4) (2 * n)
  rw [← Nat.mul_assoc] at hkeys
  have hdrop : ((rk.drop 4).drop (8 * n)).drop 4 = rk.drop (8 * (n + 1)) := by
    rw [List.drop_drop, List.drop_drop]
    congr 1
    omega
  rw [internalAes, hn, putBlock_state]
  simp only [hlast, hround, hstate, hrest, state_xor, state_getBlock]
  rw [hkeys, List.foldl_append, List.foldl_cons, List.foldl_nil, hdrop]

end Mbedtls
end Nxpsc
