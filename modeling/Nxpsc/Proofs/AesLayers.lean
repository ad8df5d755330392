import Mathlib.Data.Fintype.EquivFin
import Nxpsc.Lib.Rounds
import Nxpsc.Lib.XorLinear
import Nxpsc.Ref.Aes
import Nxpsc.Spec.Aes

/-!
# The layers of AES

The S-box of `aes.c` is the one of the standard, and its other table is the
inverse. Of the matrix of `mixColumns` two things are used. It is circulant:
what it makes of a byte in another row is what it makes of it in the first,
turned. And it is linear, so that a column is the sum of its four bytes and a
fact about all columns is one about the eight bits of a byte.

With that the layers are an instance of `Rounds.Layers`.
-/

namespace Nxpsc

open Fips197

/-! ## Bytes, one by one -/

theorem xorLinear_xtimes : XorLinear xtimes := by
  refine XorLinear.xor (XorLinear.id.shiftLeft 1) fun x y => ?_
  rw [BitVec.msb_xor]
  cases x.msb <;> cases y.msb <;> rfl

theorem xorLinear_mulBits (n : Nat) (c : Fips197.Byte) :
    XorLinear (mulBits n c) := by
  induction n generalizing c with
  | zero => exact XorLinear.const_zero
  | succ n ih =>
      refine XorLinear.xor (f := fun b => bif c.getLsbD 0 then b else 0) ?_
        ((ih (c >>> 1)).comp xorLinear_xtimes)
      intro x y
      cases c.getLsbD 0
      · exact BitVec.xor_self.symm
      · rfl

theorem xorLinear_mul (c : Fips197.Byte) : XorLinear (mul c) :=
  xorLinear_mulBits 8 c

/-- The table is the S-box of the standard. -/
theorem fsb_sbox : ∀ b : Fips197.Byte, Mbedtls.fsb.getD b.toNat 0 = sbox b := by
  have hall : ∀ i < 256, Mbedtls.fsb.getD i 0 = sbox (BitVec.ofNat 8 i) := by
    decide +kernel
  intro b
  rw [hall b.toNat b.isLt, BitVec.ofNat_toNat, BitVec.setWidth_eq]

/-- The inverse S-box, as the source has it. -/
def invSbox (b : Fips197.Byte) : Fips197.Byte := Mbedtls.rsb.getD b.toNat 0

theorem sbox_invSbox (b : Fips197.Byte) : sbox (invSbox b) = b := by
  have hall : ∀ i < 256, Mbedtls.fsb.getD (Mbedtls.rsb.getD i 0).toNat 0 =
      BitVec.ofNat 8 i := by decide +kernel
  rw [← fsb_sbox, invSbox, hall b.toNat b.isLt, BitVec.ofNat_toNat,
    BitVec.setWidth_eq]

/-- There are as many bytes on either side. -/
theorem invSbox_sbox (b : Fips197.Byte) : invSbox (sbox b) = b := by
  have hfinite : Finite Fips197.Byte :=
    Finite.of_injective BitVec.toFin fun x y h => BitVec.eq_of_toFin_eq h
  have hsurj : Function.Surjective sbox := fun y => ⟨invSbox y, sbox_invSbox y⟩
  exact Finite.injective_iff_surjective.mpr hsurj (sbox_invSbox (sbox b))

/-! ## Columns -/

namespace Fips197.Column

/-- A byte in the first row. -/
def lane (b : Fips197.Byte) : Column := ⟨b, 0, 0, 0⟩

theorem lanes (w : Column) :
    w = xorWord (xorWord (xorWord (lane w.b0) (turned (lane w.b1)))
      (turned (turned (lane w.b2)))) (turned (turned (turned (lane w.b3)))) := by
  simp [lane, turned, xorWord]

theorem dot_xor (row v w : Column) :
    dot row (xorWord v w) = dot row v ^^^ dot row w := by
  simp only [dot, xorWord, xorLinear_mul _ _ _]
  ac_rfl

theorem mulMatrix_xor (row v w : Column) :
    mulMatrix row (xorWord v w) =
      xorWord (mulMatrix row v) (mulMatrix row w) := by
  simp only [mulMatrix, dot_xor]
  rfl

theorem dot_turned (row w : Column) :
    dot (turned row) (turned w) = dot row w := by
  simp only [dot, turned]
  ac_rfl

theorem turned_four (row : Column) :
    turned (turned (turned (turned row))) = row := rfl

/-- The matrix is circulant. -/
theorem mulMatrix_turned (row w : Column) :
    mulMatrix row (turned w) = turned (mulMatrix row w) := by
  have hlast : dot row (turned w) = dot (turned (turned (turned row))) w := by
    rw [← dot_turned (turned (turned (turned row))), turned_four]
  simp only [mulMatrix, dot_turned, hlast]
  rfl

/-- The sum of what the matrix makes of the four bytes. -/
theorem mulMatrix_lanes (row w : Column) :
    mulMatrix row w =
      xorWord (xorWord (xorWord (mulMatrix row (lane w.b0))
        (turned (mulMatrix row (lane w.b1))))
        (turned (turned (mulMatrix row (lane w.b2)))))
        (turned (turned (turned (mulMatrix row (lane w.b3))))) := by
  conv => lhs; rw [lanes w]
  simp only [mulMatrix_xor, mulMatrix_turned]

/-- Additive maps that agree on the bytes of one bit agree. -/
theorem agree {f g : Fips197.Byte → Column}
    (hf : ∀ x y, f (x ^^^ y) = xorWord (f x) (f y))
    (hg : ∀ x y, g (x ^^^ y) = xorWord (g x) (g y))
    (h : ∀ i < 8, f (BitVec.twoPow 8 i) = g (BitVec.twoPow 8 i))
    (b : Fips197.Byte) : f b = g b := by
  have hpart : ∀ part : Column → Fips197.Byte,
      (∀ v w, part (xorWord v w) = part v ^^^ part w) →
      part (f b) = part (g b) := by
    intro part hpart
    refine XorLinear.agree (f := fun b => part (f b)) (g := fun b => part (g b))
      (fun x y => ?_) (fun x y => ?_) (fun i hi => congrArg part (h i hi)) b
    · simp only [hf, hpart]
    · simp only [hg, hpart]
  exact Column.ext (hpart _ fun _ _ => rfl) (hpart _ fun _ _ => rfl)
    (hpart _ fun _ _ => rfl) (hpart _ fun _ _ => rfl)

theorem lane_xor (x y : Fips197.Byte) :
    lane (x ^^^ y) = xorWord (lane x) (lane y) := by
  simp [lane, xorWord]

theorem mulMatrix_lane_xor (row : Column) (x y : Fips197.Byte) :
    mulMatrix row (lane (x ^^^ y)) =
      xorWord (mulMatrix row (lane x)) (mulMatrix row (lane y)) := by
  rw [lane_xor, mulMatrix_xor]

theorem mulMatrix_inverse {row row' : Column}
    (h : ∀ i < 8, mulMatrix row' (mulMatrix row (lane (BitVec.twoPow 8 i))) =
      lane (BitVec.twoPow 8 i)) (w : Column) :
    mulMatrix row' (mulMatrix row w) = w := by
  have hlane : ∀ b, mulMatrix row' (mulMatrix row (lane b)) = lane b :=
    agree (fun x y => by rw [mulMatrix_lane_xor, mulMatrix_xor]) lane_xor h
  rw [mulMatrix_lanes row w]
  simp only [mulMatrix_xor, mulMatrix_turned, hlane]
  exact (lanes w).symm

theorem invMix_mix (w : Column) :
    mulMatrix invMixRow (mulMatrix mixRow w) = w :=
  mulMatrix_inverse (by decide +kernel) w

theorem mix_invMix (w : Column) :
    mulMatrix mixRow (mulMatrix invMixRow w) = w :=
  mulMatrix_inverse (by decide +kernel) w

/-- What one byte adds to a column. -/
theorem mix_lane (b : Fips197.Byte) :
    mulMatrix mixRow (lane b) = ⟨xtimes b, b, b, xtimes b ^^^ b⟩ :=
  agree (f := fun b => mulMatrix mixRow (lane b))
    (g := fun b => ⟨xtimes b, b, b, xtimes b ^^^ b⟩)
    (mulMatrix_lane_xor mixRow)
    (fun x y => by
      simp only [xorWord, xorLinear_xtimes x y, Column.mk.injEq, true_and]
      ac_rfl)
    (by decide +kernel) b

theorem invMix_lane (b : Fips197.Byte) : mulMatrix invMixRow (lane b) =
    ⟨mul 0x0E b, mul 0x09 b, mul 0x0D b, mul 0x0B b⟩ :=
  agree (f := fun b => mulMatrix invMixRow (lane b))
    (g := fun b => ⟨mul 0x0E b, mul 0x09 b, mul 0x0D b, mul 0x0B b⟩)
    (mulMatrix_lane_xor invMixRow)
    (fun x y => by simp only [xorWord, xorLinear_mul _ x y])
    (by decide +kernel) b

theorem xorWord_xorWord (v w : Column) : xorWord (xorWord v w) w = v := by
  simp only [xorWord, BitVec.xor_assoc, BitVec.xor_self, BitVec.xor_zero]

end Fips197.Column

/-! ## The layers -/

/-- The layers of AES. -/
def aesLayers : Rounds.Layers State where
  add := addRoundKey
  confuse s := shiftRows (subBytes s)
  unconfuse s := (invShiftRows s).map (Column.map invSbox)
  diffuse := mixColumns
  undiffuse := invMixColumns
  add_add s k := by
    simp only [addRoundKey, Column.xorWord_xorWord]
  unconfuse_confuse s := by
    simp only [shiftRows, subBytes, invShiftRows, State.map,
      Column.map, invSbox_sbox]
  confuse_unconfuse s := by
    simp only [shiftRows, subBytes, invShiftRows, State.map,
      Column.map, sbox_invSbox]
  undiffuse_diffuse s := by
    simp only [mixColumns, invMixColumns, State.map, Column.invMix_mix]
  diffuse_undiffuse s := by
    simp only [mixColumns, invMixColumns, State.map, Column.mix_invMix]
  undiffuse_add s k := by
    simp only [invMixColumns, addRoundKey, State.map, Column.mulMatrix_xor]

end Nxpsc
