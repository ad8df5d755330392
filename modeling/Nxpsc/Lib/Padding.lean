import Nxpsc.Lib.Bytes

/-!
# Padding to whole blocks

Method 2 of ISO 9797-1: a mark and zeros up to the end of the block. There is
always a mark, so the message is found again from the end whatever it ends in,
a mark or zeros of its own included.
-/

namespace Bytes

/-- The mark. -/
def padMark : UInt8 := 0x80

def pad (block : Nat) (xs : Bytes) : Bytes :=
  xs ++ padMark :: zeros (block - 1 - xs.length % block)

/-- What stands before the last mark, when only zeros follow it. -/
def unpad (xs : Bytes) : Option Bytes :=
  match xs.reverse.dropWhile (· == 0) with
  | [] => none
  | b :: rest => if b = padMark then some rest.reverse else none

theorem dropWhile_zeros (n : Nat) (xs : Bytes) :
    (zeros n ++ xs).dropWhile (· == 0) = xs.dropWhile (· == 0) := by
  induction n with
  | zero => rfl
  | succ n ih => exact ih

/-- However many zeros follow the mark. -/
theorem unpad_mark (xs : Bytes) (n : Nat) :
    unpad (xs ++ padMark :: zeros n) = some xs := by
  have hreverse : (xs ++ padMark :: zeros n).reverse =
      zeros n ++ padMark :: xs.reverse := by
    rw [List.reverse_append, List.reverse_cons, zeros,
      List.reverse_replicate, List.append_assoc, List.singleton_append]
  rw [unpad, hreverse, dropWhile_zeros, List.dropWhile_cons_of_neg (by decide)]
  dsimp only
  rw [if_pos rfl, List.reverse_reverse]

theorem unpad_pad (block : Nat) (xs : Bytes) :
    unpad (pad block xs) = some xs := unpad_mark xs _

theorem length_pad (block : Nat) (xs : Bytes) :
    (pad block xs).length =
      xs.length + 1 + (block - 1 - xs.length % block) := by
  rw [pad, List.length_append, List.length_cons, length_zeros]
  omega

theorem length_pad_mod {block : Nat} (hb : 0 < block) (xs : Bytes) :
    (pad block xs).length % block = 0 := by
  have hlt := Nat.mod_lt xs.length hb
  have hdiv := Nat.div_add_mod xs.length block
  have hlen : (pad block xs).length =
      block * (xs.length / block) + block := by
    rw [length_pad]
    omega
  rw [hlen, Nat.mul_add_mod, Nat.mod_self]

end Bytes
