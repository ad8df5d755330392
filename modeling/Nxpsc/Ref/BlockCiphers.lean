import Nxpsc.Ref.Crypto
import Nxpsc.Ref.Des

/-!
# The block operations of `nxpsc_crypto.c`, over mbedtls

What `nxpsc_ecb_encrypt_block` and `nxpsc_ecb_decrypt_block` make of the
ciphers of `aes.c` and `des.c`: the instance of `BlockCipher` that the library
is built with.
-/

namespace Nxpsc

open Mbedtls

/-- The key of three parts that `des_setkey` makes of one of two. -/
def threeParts (key : Bytes) : Bytes := Bytes.fit 16 key ++ Bytes.fit 8 key

/-- A block under a schedule, nothing where there is none. -/
def withContext (crypt : AesContext → Bytes → Bytes) (ctx : Option AesContext)
    (block : Bytes) : Bytes :=
  match ctx with
  | some ctx => crypt ctx block
  | none => Bytes.zeros aesBlock

/-- `nxpsc_ecb_encrypt_block`, with the schedule that `des_setkey` makes. -/
def mbedtlsEncrypt : KeyType → Bytes → Bytes → Bytes
  | .des, key, block => desCryptEcb (desSetkeyEnc key) block
  | .k2k3des, key, block => des3CryptEcb (des3Set3keyEnc (threeParts key)) block
  | .k3k3des, key, block => des3CryptEcb (des3Set3keyEnc key) block
  | .aes128, key, block =>
      withContext internalAesEncrypt (aesSetkeyEnc key 128) block
  | .aes256, key, block =>
      withContext internalAesEncrypt (aesSetkeyEnc key 256) block

/-- `nxpsc_ecb_decrypt_block`. -/
def mbedtlsDecrypt : KeyType → Bytes → Bytes → Bytes
  | .des, key, block => desCryptEcb (desSetkeyDec key) block
  | .k2k3des, key, block => des3CryptEcb (des3Set3keyDec (threeParts key)) block
  | .k3k3des, key, block => des3CryptEcb (des3Set3keyDec key) block
  | .aes128, key, block =>
      withContext internalAesDecrypt (aesSetkeyDec key 128) block
  | .aes256, key, block =>
      withContext internalAesDecrypt (aesSetkeyDec key 256) block

theorem length_withContext {crypt : AesContext → Bytes → Bytes}
    (hcrypt : ∀ ctx block, (crypt ctx block).length = aesBlock)
    (ctx : Option AesContext) (block : Bytes) :
    (withContext crypt ctx block).length = aesBlock := by
  cases ctx with
  | some ctx => exact hcrypt ctx block
  | none => rfl

theorem length_internalAesEncrypt (ctx : AesContext) (block : Bytes) :
    (internalAesEncrypt ctx block).length = aesBlock := rfl

theorem length_internalAesDecrypt (ctx : AesContext) (block : Bytes) :
    (internalAesDecrypt ctx block).length = aesBlock := rfl

/-- The ciphers the library is built with. -/
@[reducible] def BlockCipher.mbedtls : BlockCipher where
  encrypt := mbedtlsEncrypt
  decrypt := mbedtlsDecrypt
  encrypt_length type key block _ := by
    cases type with
    | des | k2k3des | k3k3des => rfl
    | aes128 | aes256 =>
        rw [mbedtlsEncrypt, length_withContext length_internalAesEncrypt]
        rfl
  decrypt_length type key block _ := by
    cases type with
    | des | k2k3des | k3k3des => rfl
    | aes128 | aes256 =>
        rw [mbedtlsDecrypt, length_withContext length_internalAesDecrypt]
        rfl

end Nxpsc
