import Nxpsc.Ref.CryptoMemory

/-!
# What a diversified key is made of

A key is filled block by block, each from a round of its own, and a round is a
MAC over its constant and the diversification input. Two rounds that hand the
MAC the same thing give one block to two keys: what the MAC is handed is the
padded message and the choice of its subkey.
-/

namespace Nxpsc

/-- What CMAC chains over before the subkey is added, and whether it is the
second subkey that will be. -/
def cmacMessage (type : KeyType) (msg : Bytes) (minLen : Nat) : Bytes × Bool :=
  if msg.length = 0 ∨ msg.length % blockSize type ≠ 0 ∨ msg.length < minLen then
    (Bytes.fit (paddedLen (max (msg.length + 1) minLen) (blockSize type))
      (msg ++ [0x80]), true)
  else (msg, false)

/-- What a round hands to the MAC. -/
def kdfMessage (type : KeyType) (constant : UInt8) (divInput : Bytes) :
    Bytes × Bool :=
  cmacMessage type (constant :: divInput) (blockSize type * 2)

/-- The constants of the rounds; there are none where there is no derivation. -/
def kdfConstants : KeyType → List UInt8
  | .des => []
  | .k2k3des => [0x21, 0x22]
  | .k3k3des => [0x31, 0x32, 0x33]
  | .aes128 => [0x01]
  | .aes256 => [0x41, 0x42]

section

variable [BlockCipher]

/-- The block of a round: the message with the chosen subkey on its last
block, chained from zero. -/
def kdfMac (master : Key) (constant : UInt8) (divInput : Bytes) : Bytes :=
  let message := kdfMessage master.type constant divInput
  let sk := cmacSubkeys master.type master.data.bytes
  let input := xorTail message.1 (if message.2 then sk.2 else sk.1)
  let bs := blockSize master.type
  (Cbc.send (ecbEncryptBlock master.type master.data.bytes) Bytes.xor
    (Bytes.zeros bs) (Bytes.chunks bs (input.length / bs) input)).2

/-- All blocks of a derived key. -/
def kdfFilled (master : Key) (divInput : Bytes) : Bytes :=
  (kdfConstants master.type).flatMap fun constant =>
    kdfMac master constant divInput

/-- A derivation keeps to its arrays and fills the key with a block a round,
and no two rounds of any input hand one thing to the MAC. -/
structure Diversifies (master : Key) : Prop where
  fills : ∀ divInput len, 1 ≤ len → len ≤ 31 → len ≤ divInput.length →
    (InMemory.kdfAn10922 (some master) divInput len :
      InMemory.Run Unit _) = pure
        { type := master.type
          data := .of 32 (kdfFilled master (divInput.take len))
          version := master.version }
  full : ∀ divInput,
    (kdfFilled master divInput).length = keySize master.type
  blocks : ∀ constant divInput,
    blockSize master.type * 2 ≤
        (kdfMessage master.type constant divInput).1.length ∧
      (kdfMessage master.type constant divInput).1.length %
        blockSize master.type = 0
  separates : ∀ c₁ c₂ d₁ d₂, 1 ≤ d₁.length → d₁.length ≤ 31 →
    1 ≤ d₂.length → d₂.length ≤ 31 →
    kdfMessage master.type c₁ d₁ = kdfMessage master.type c₂ d₂ →
    c₁ = c₂ ∧ d₁ = d₂

end

end Nxpsc
