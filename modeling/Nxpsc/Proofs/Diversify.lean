import Nxpsc.Proofs.Cmac
import Nxpsc.Spec.Diversify

/-!
# Diversified keys

A padded message is found again by taking the padding off, and one that was
long enough is itself; which of the two it was is what the subkey tells. The
rest is the run of the rounds on their arrays.
-/

namespace Nxpsc

/-! ## Messages -/

/-- The message of a CMAC and the choice of its subkey give it away. -/
theorem cmacMessage_injective {type : KeyType} {minLen : Nat} {m₁ m₂ : Bytes}
    (h : cmacMessage type m₁ minLen = cmacMessage type m₂ minLen) :
    m₁ = m₂ := by
  have hpadded : ∀ m : Bytes,
      Bytes.unpad (Bytes.fit (paddedLen (max (m.length + 1) minLen)
        (blockSize type)) (m ++ [0x80])) = some m := by
    intro m
    have hgrow := @le_paddedLen (max (m.length + 1) minLen) _
      (blockSize_pos type)
    have hlen : (m ++ [(0x80 : UInt8)]).length = m.length + 1 := by
      rw [List.length_append]
      rfl
    rw [Bytes.fit_of_le (by omega), List.append_assoc]
    exact Bytes.unpad_mark m _
  rw [cmacMessage, cmacMessage] at h
  split at h
  · split at h
    · have hsame := congrArg (fun p => Bytes.unpad p.1) h
      dsimp only at hsame
      rw [hpadded, hpadded] at hsame
      exact Option.some.inj hsame
    · cases (Prod.mk.inj h).2
  · split at h
    · cases (Prod.mk.inj h).2
    · exact (Prod.mk.inj h).1

theorem kdfMessage_blocks (type : KeyType) (constant : UInt8)
    (divInput : Bytes) :
    blockSize type * 2 ≤ (kdfMessage type constant divInput).1.length ∧
      (kdfMessage type constant divInput).1.length % blockSize type = 0 := by
  have hbs := blockSize_pos type
  rw [kdfMessage, cmacMessage]
  split
  · have hgrow := @le_paddedLen (max ((constant :: divInput).length + 1)
      (blockSize type * 2)) _ hbs
    refine ⟨?_, ?_⟩
    · rw [Bytes.length_fit]
      omega
    · rw [Bytes.length_fit]
      exact paddedLen_mod hbs
  · exact ⟨by dsimp only; omega, by dsimp only; omega⟩

section

variable [BlockCipher]

/-! ## Rounds -/

theorem cmacInput_message (type : KeyType) (key msg : Bytes) (minLen : Nat) :
    cmacInput type key msg minLen =
      xorTail (cmacMessage type msg minLen).1
        (if (cmacMessage type msg minLen).2 then (cmacSubkeys type key).2
          else (cmacSubkeys type key).1) := by
  rw [cmacInput, cmacMessage]
  split <;> rfl

theorem cmac_kdfMac (master : Key) (constant : UInt8) (divInput : Bytes) :
    Nxpsc.cmac master.type master.data.bytes (Buf.zero maxBlock).bytes
      (constant :: divInput) (blockSize master.type * 2) =
        .ok (kdfMac master constant divInput) := by
  rw [cmac_send _ _ _ _ (InMemory.take_zeroIv master.type), cmacInput_message]
  rfl

theorem length_kdfMac (master : Key) (constant : UInt8) (divInput : Bytes) :
    (kdfMac master constant divInput).length = blockSize master.type := by
  obtain ⟨mac, hmac, hlen⟩ := @cmac_isOk _ master.type master.data.bytes
    (Buf.zero maxBlock).bytes (constant :: divInput)
    (blockSize master.type * 2) (InMemory.blockSize_le_iv master.type _)
  rw [cmac_kdfMac] at hmac
  rw [Except.ok.inj hmac]
  exact hlen

namespace InMemory

open Checked

variable {σ : Type}

/-- A round writes its block. -/
theorem kdfBlock_eq (master : Key) (constant : UInt8) {divInput : Bytes}
    {len : Nat} (hlen : len ≤ 31) (hinput : len ≤ divInput.length)
    (out : Buf 32) {outAt : Nat}
    (hroom : outAt + blockSize master.type ≤ 32) :
    (kdfBlock master constant divInput len (blockSize master.type * 2) out
      outAt : Run σ _) =
        pure (out.patch outAt
          (kdfMac master constant (divInput.take len))) := by
  have hbs := blockSize_le master.type
  have hmax : maxBlock = 16 := rfl
  have hfront : (divInput.take len).length = len := by
    rw [List.length_take, Nat.min_eq_left hinput]
  have hone : [constant].length = 1 := rfl
  have hmessage : ([constant] ++ divInput.take len).length = len + 1 := by
    rw [List.length_append, hfront, Nat.add_comm]
    rfl
  obtain ⟨full, hfull, hblock, hrun⟩ := @cmac_eq σ _ master.type
    master.data.bytes (.zero maxBlock) (.zero maxBlock)
    (Buf.of 64 ([constant] ++ divInput.take len)).bytes (len + 1)
    (blockSize master.type * 2) (by rw [Buf.bytes_length]; omega)
  rw [Buf.of_front hmessage (by omega), List.singleton_append,
    cmac_kdfMac] at hfull
  have hput : ((Buf.zero maxBlock).put full).bytes.take
      (blockSize master.type) = full := Buf.put_take_eq hblock hbs
  rw [kdfBlock, store_zero (by rw [List.length_singleton]; omega), pure_bind',
    load_front hinput, pure_bind', store_of hone (by omega), pure_bind',
    cmacSized_eq _ _ (by omega), hrun, pure_bind', load_front (by
      rw [Buf.bytes_length]
      exact hbs), pure_bind', hput, store_eq (by rw [hblock]; exact hroom),
    Except.ok.inj hfull]

/-- The first round of a key, and one that goes on. -/
theorem kdfBlock_first (master : Key) (constant : UInt8) {divInput : Bytes}
    {len : Nat} (hlen : len ≤ 31) (hinput : len ≤ divInput.length) :
    (kdfBlock master constant divInput len (blockSize master.type * 2)
      (.zero 32) 0 : Run σ _) =
        pure (.of 32 (kdfMac master constant (divInput.take len))) := by
  have hbs := blockSize_le master.type
  have hmax : maxBlock = 16 := rfl
  rw [kdfBlock_eq master constant hlen hinput _ (by omega),
    Buf.zero_patch (by rw [length_kdfMac]; omega)]

theorem kdfBlock_next (master : Key) (constant : UInt8) {divInput : Bytes}
    {len : Nat} (hlen : len ≤ 31) (hinput : len ≤ divInput.length)
    {xs : Bytes} {outAt : Nat} (hxs : xs.length = outAt)
    (hroom : outAt + blockSize master.type ≤ 32) :
    (kdfBlock master constant divInput len (blockSize master.type * 2)
      (.of 32 xs) outAt : Run σ _) =
        pure (.of 32 (xs ++
          kdfMac master constant (divInput.take len))) := by
  subst hxs
  rw [kdfBlock_eq master constant hlen hinput _ hroom,
    Buf.of_patch (by rw [length_kdfMac]; exact hroom)]

/-! ## A derivation -/

theorem kdfAn10922_fills (master : Key) (hsupported : master.type ≠ .des)
    {divInput : Bytes} {len : Nat} (hpos : 1 ≤ len) (hlen : len ≤ 31)
    (hinput : len ≤ divInput.length) :
    (kdfAn10922 (some master) divInput len : Run σ _) = pure
      { type := master.type
        data := .of 32 (kdfFilled master (divInput.take len))
        version := master.version } := by
  have hfirst := fun c => @kdfBlock_first _ σ master c divInput len hlen hinput
  have hnext := fun c => @kdfBlock_next _ σ master c divInput len hlen hinput
  have hmac := fun c => length_kdfMac master c (divInput.take len)
  rw [kdfAn10922]
  dsimp only
  rw [if_neg (by omega), kdfFilled]
  cases htype : master.type with
  | des => exact absurd htype hsupported
  | aes128 =>
      rw [htype] at hfirst
      dsimp only
      rw [hfirst, pure_bind', kdfConstants, List.flatMap_singleton]
  | aes256 =>
      rw [htype] at hfirst hnext hmac
      dsimp only
      rw [hfirst, pure_bind', hnext _ (hmac _) (by decide), pure_bind',
        kdfConstants, List.flatMap_cons, List.flatMap_singleton]
  | k2k3des =>
      rw [htype] at hfirst hnext hmac
      dsimp only
      rw [hfirst, pure_bind', hnext _ (hmac _) (by decide), pure_bind',
        kdfConstants, List.flatMap_cons, List.flatMap_singleton]
  | k3k3des =>
      have htwo : ∀ c₁ c₂, (kdfMac master c₁ (divInput.take len) ++
          kdfMac master c₂ (divInput.take len)).length =
            blockSize master.type * 2 := by
        intro c₁ c₂
        rw [List.length_append, hmac, hmac, Nat.mul_two]
      rw [htype] at hfirst hnext hmac htwo
      dsimp only
      rw [hfirst, pure_bind', hnext _ (hmac _) (by decide), pure_bind',
        hnext _ (htwo _ _) (by decide), pure_bind', kdfConstants,
        List.flatMap_cons, List.flatMap_cons, List.flatMap_singleton,
        List.append_assoc]

end InMemory

theorem length_kdfFilled (master : Key) (hsupported : master.type ≠ .des)
    (divInput : Bytes) :
    (kdfFilled master divInput).length = keySize master.type := by
  have hsum : ∀ constants : List UInt8, (constants.flatMap fun constant =>
      kdfMac master constant divInput).length =
        constants.length * blockSize master.type := by
    intro constants
    induction constants with
    | nil => rw [List.flatMap_nil, List.length_nil, Nat.zero_mul]
    | cons c rest ih =>
        rw [List.flatMap_cons, List.length_append, ih, length_kdfMac,
          List.length_cons, Nat.succ_mul, Nat.add_comm]
  rw [kdfFilled, hsum]
  cases htype : master.type with
  | des => exact absurd htype hsupported
  | aes128 => rfl
  | aes256 => rfl
  | k2k3des => rfl
  | k3k3des => rfl

/-- Derivation is sound for every type there is one for. -/
theorem kdf_diversifies (master : Key) (hsupported : master.type ≠ .des) :
    Diversifies master where
  fills _ _ hpos hlen hinput :=
    InMemory.kdfAn10922_fills master hsupported hpos hlen hinput
  full divInput := length_kdfFilled master hsupported divInput
  blocks constant divInput :=
    kdfMessage_blocks master.type constant divInput
  separates _ _ _ _ _ _ _ _ h := List.cons.inj (cmacMessage_injective h)

end

theorem kdf_diversifies_aes :
    @Diversifies .identity
      { type := .aes128, data := .zero 32, version := 0 } :=
  @kdf_diversifies .identity _ (by decide)

end Nxpsc
