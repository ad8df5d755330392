import Nxpsc.Proofs.Chaining
import Nxpsc.Proofs.Cmac

/-!
# The session keys on both sides

The card has its session keys from the data sheets: pieces of the two random
numbers, or the standard's CMAC over a vector of numbered bytes. The library
copies bytes to offsets and runs its own CMAC. Both come to the same keys, with
the key of the card known by what it enciphers to.
-/

namespace Nxpsc

theorem sessionKeyD40_pieces (rndA rndB : Bytes) (type : KeyType) :
    sessionKeyD40 rndA rndB type = rndPieces type rndA rndB := by
  cases type <;> simp [sessionKeyD40, rndPieces, pieceStarts]

theorem sessionVector_context (rndA rndB : Bytes) :
    sessionVector rndA rndB = rndContext rndA rndB := rfl

section

variable [BlockCipher]

/-- What the card's key and the caller's derive is one key. -/
theorem SameCipher.sessionKeyEv2 {stored key : Bytes}
    (hsame : SameCipher .aes128 stored key) (rndA rndB : Bytes)
    (encKey : Bool) :
    sessionKeyEv2 key rndA rndB encKey = .ok (piccEv2Key
      (if encKey then [0xA5, 0x5A] else [0x5A, 0xA5]) stored rndA rndB) := by
  rw [Nxpsc.sessionKeyEv2, cmac_zero, sessionVector_context, piccEv2Key,
    nistCmac, nistCmac, hsame.encrypt]
  rfl

theorem length_piccEv2Key (label stored rndA rndB : Bytes) :
    (piccEv2Key label stored rndA rndB).length = 16 := length_nistCmac _ _

theorem lrpInit_take (key : Bytes) (n : Nat) (bits : Bool) :
    lrpInit (key.take aesBlock) n bits = lrpInit key n bits := by
  simp only [lrpInit, List.take_take, Nat.min_self]

theorem sessionKeyLrp_picc (key rndA rndB : Bytes) :
    sessionKeyLrp key rndA rndB = piccLrpKey key rndA rndB := by
  rw [sessionKeyLrp, lrpCmac_nist, sessionVector_context, piccLrpKey,
    derivedBits]

/-- The card goes by the first 16 bytes of the key. -/
theorem piccLrpKey_take (key rndA rndB : Bytes) :
    piccLrpKey (key.take aesBlock) rndA rndB = sessionKeyLrp key rndA rndB := by
  rw [sessionKeyLrp_picc, piccLrpKey, nistLrpCmac, lrpInit_take, piccLrpKey,
    nistLrpCmac]

theorem sessionKeyLrp_length (key rndA rndB : Bytes) :
    (sessionKeyLrp key rndA rndB).length = 16 := lrpCmac_length _ _

end

end Nxpsc
