import Nxpsc.Lib.Cmac
import Nxpsc.Ref.CryptoMemory

/-!
# The MACs against their standard

Both MACs of the library are the one mode of SP 800-38B, the first over the
block cipher of a key type, the second over the evaluation of the leakage
resilient primitive on a whole block. The functions run on their arrays, with
lengths that fit a `size_t`.
-/

namespace Nxpsc

/-- The bytes in the odd places of a MAC. -/
def oddBytes (full : Bytes) : Bytes :=
  (List.range 8).map fun i => full.getD (2 * i + 1) 0

section

variable [BlockCipher]

/-- The constant of a block size. -/
def cmacConstant (type : KeyType) : UInt8 :=
  if blockSize type = desBlock then 0x1B else 0x87

/-- The CMAC under a key. -/
def nistCmac (type : KeyType) (key msg : Bytes) : Bytes :=
  Cmac.mac (blockSize type) (cmacConstant type).toNat
    (ecbEncryptBlock type key) msg

/-- `nxpsc_lrp_eval` on a whole block, with the final step. -/
def lrpBlock (ctx : LrpCtx) (block : Bytes) : Bytes :=
  lrpEval ctx block (aesBlock * 2) true

/-- The MAC of the leakage resilient primitive under a key, at its first updated
key. -/
def nistLrpCmac (key msg : Bytes) : Bytes :=
  Cmac.mac aesBlock 0x87 (lrpBlock (lrpInit key 0 true)) msg

/-- The eight bytes of MAC that are sent, under an AES key. -/
def cardMac (key msg : Bytes) : Bytes := oddBytes (nistCmac .aes128 key msg)

/-- Those of the leakage resilient primitive. -/
def cardLrpMac (key msg : Bytes) : Bytes := oddBytes (nistLrpCmac key msg)

/-- The subkeys of the primitive, at its first updated key. -/
def lrpCmacKeys (key : Bytes) : Bytes × Bytes :=
  Cmac.subkeys aesBlock 0x87 (lrpBlock (lrpInit key 0 true))

namespace InMemory

/-- `nxpsc_cmac` keeps to its arrays and leaves the MAC in the IV; with an IV
of zeros and no minimum length it is the CMAC of the message. -/
def IsCmac (type : KeyType) (key data : Bytes) (len minLen : Nat) : Prop :=
  ∀ iv mac, ∃ full,
    (cmacSized type key iv data len minLen mac : Run Unit _) =
      pure (mac.put full, iv.put full) ∧
    full.length = blockSize type ∧
    (iv = .zero maxBlock → minLen = 0 →
      full = nistCmac type key (data.take len))

/-- `nxpsc_lrp_cmac` keeps to its arrays. Its subkeys are those of the first
updated key, and in a context of that key it is the CMAC of the message. -/
structure LrpIsCmac (key data : Bytes) (len : Nat) : Prop where
  keyed : ∀ updatedKey bits counter lenNibbles mac,
    let ctx := lrpSetCounter (lrpInit key updatedKey bits) counter lenNibbles
    (lrpCmac ctx data len mac : Run Unit _) =
      pure (mac.put (Cmac.tag aesBlock (lrpCmacKeys key) (lrpBlock ctx)
        (data.take len)))
  nist : ∀ bits counter lenNibbles mac,
    let ctx := lrpSetCounter (lrpInit key 0 bits) counter lenNibbles
    (lrpCmac ctx data len mac : Run Unit _) =
      pure (mac.put (Cmac.mac aesBlock 0x87 (lrpBlock ctx) (data.take len)))

end InMemory

end

end Nxpsc
