import Nxpsc.Lib.Cbc
import Nxpsc.Lib.Padding

/-!
# CMAC over a block function

The mode of SP 800-38B as its text has it: the message in blocks, the last one
whole and mixed with the first subkey, or padded and mixed with the second; an
empty message is one padded block. The subkeys are the function's value at
zero, doubled once and twice, a block being a number with its first byte on
top.
-/

namespace Cmac

open Bytes

/-- A block as a number, its first byte on top. -/
def number : Bytes → Nat
  | [] => 0
  | b :: rest => b.toNat * 256 ^ rest.length + number rest

/-- The block of so many bytes a number is written as. -/
def block : Nat → Nat → Bytes
  | 0, _ => []
  | n + 1, v => UInt8.ofNat (v / 256 ^ n) :: block n (v % 256 ^ n)

/-- Up by one bit, with the constant added if one was lost. -/
def double (size r v : Nat) : Nat :=
  if 256 ^ size ≤ 2 * v then (2 * v % 256 ^ size) ^^^ r
  else 2 * v % 256 ^ size

/-- The two subkeys of a block function. -/
def subkeys (size r : Nat) (e : Bytes → Bytes) : Bytes × Bytes :=
  let l := number (e (zeros size))
  (block size (double size r l), block size (double size r (double size r l)))

def chain (e : Bytes → Bytes) (iv : Bytes) (blocks : List Bytes) : Bytes :=
  blocks.foldl (fun c m => e (xor m c)) iv

/-- The last block of a message, which may be short. -/
def finalBlock (size : Nat) (k : Bytes × Bytes) (last : Bytes) : Bytes :=
  if last.length = size then xor last k.1 else xor (pad size last) k.2

/-- The MAC under given subkeys. -/
def tag (size : Nat) (k : Bytes × Bytes) (e : Bytes → Bytes) (msg : Bytes) :
    Bytes :=
  -- as many blocks as stand before the last one
  let n := (msg.length - 1) / size
  chain e (zeros size)
    (chunks size n msg ++ [finalBlock size k (msg.drop (n * size))])

/-- The MAC of a message over a block function. -/
def mac (size r : Nat) (e : Bytes → Bytes) (msg : Bytes) : Bytes :=
  tag size (subkeys size r e) e msg

/-! ## Numbers and blocks -/

theorem number_lt (xs : Bytes) : number xs < 256 ^ xs.length := by
  induction xs with
  | nil => exact Nat.one_pos
  | cons b rest ih =>
      have hb := b.toNat_lt
      have hstep : (b.toNat + 1) * 256 ^ rest.length ≤
          256 * 256 ^ rest.length := Nat.mul_le_mul_right _ hb
      rw [Nat.succ_mul] at hstep
      rw [number, List.length_cons, Nat.pow_succ, Nat.mul_comm (256 ^ _) 256]
      omega

theorem block_number (xs : Bytes) : block xs.length (number xs) = xs := by
  induction xs with
  | nil => rfl
  | cons b rest ih =>
      have hrest := number_lt rest
      have hpos : 0 < 256 ^ rest.length := Nat.lt_of_le_of_lt (Nat.zero_le _)
        hrest
      rw [List.length_cons, block, number, Nat.mul_comm,
        Nat.mul_add_div hpos, Nat.div_eq_of_lt hrest, Nat.add_zero,
        Nat.mul_add_mod, Nat.mod_eq_of_lt hrest, ih, UInt8.ofNat_toNat]

/-- Two blocks of one size are one if they are one number. -/
theorem eq_block {size v : Nat} {xs : Bytes} (hlen : xs.length = size)
    (h : number xs = v) : xs = block size v := by
  subst hlen h
  exact (block_number xs).symm

/-! ## A bit up -/

/-- What is lost when a number of several bytes goes up by a bit. -/
theorem lost_bit (y : UInt8) (rest : Bytes) :
    2 * number (y :: rest) / 256 ^ (rest.length + 1) = y.toNat / 128 := by
  have hrest := number_lt rest
  have hpos : 0 < 256 ^ rest.length := Nat.lt_of_le_of_lt (Nat.zero_le _) hrest
  have hlow : 2 * number rest / 256 ^ rest.length ≤ 1 := by
    refine Nat.le_of_lt_succ (Nat.div_lt_of_lt_mul ?_)
    omega
  have hsum : 2 * number (y :: rest) =
      256 ^ rest.length * (2 * y.toNat) + 2 * number rest := by
    rw [number, Nat.mul_add, Nat.mul_comm y.toNat, Nat.mul_left_comm]
  rw [Nat.pow_succ, ← Nat.div_div_eq_div_mul, hsum, Nat.mul_add_div hpos]
  generalize 2 * number rest / 256 ^ rest.length = bit at hlow
  omega

/-- A remainder stays below what is added in steps of its bound. -/
theorem mod_above {q v : Nat} (h : v < q) (a m : Nat) :
    (q * a + v) % (q * m) = a % m * q + v := by
  rw [Nat.mod_mul, Nat.mul_add_mod, Nat.mod_eq_of_lt h,
    Nat.mul_add_div (Nat.lt_of_le_of_lt (Nat.zero_le _) h),
    Nat.div_eq_of_lt h, Nat.add_zero, Nat.add_comm, Nat.mul_comm]

/-- A constant below the step changes nothing above it. -/
theorem low_xor (a : Nat) {v r k : Nat} (hv : v < 2 ^ k) (hr : r < 2 ^ k) :
    a * 2 ^ k + (v ^^^ r) = (a * 2 ^ k + v) ^^^ r := by
  have hpos : 0 < 2 ^ k := Nat.two_pow_pos k
  have hdiv : ((a * 2 ^ k + v) ^^^ r) / 2 ^ k = a := by
    rw [Nat.xor_div_two_pow, Nat.mul_comm, Nat.mul_add_div hpos,
      Nat.div_eq_of_lt hv, Nat.div_eq_of_lt hr, Nat.add_zero, Nat.xor_zero]
  have hmod : ((a * 2 ^ k + v) ^^^ r) % 2 ^ k = v ^^^ r := by
    rw [Nat.xor_mod_two_pow, Nat.mul_comm, Nat.mul_add_mod,
      Nat.mod_eq_of_lt hv, Nat.mod_eq_of_lt hr]
  have hdm := Nat.div_add_mod ((a * 2 ^ k + v) ^^^ r) (2 ^ k)
  rw [hdiv, hmod, Nat.mul_comm] at hdm
  exact hdm

/-! ## The chain -/

theorem chain_append (e : Bytes → Bytes) (iv : Bytes) (xs : List Bytes)
    (last : Bytes) :
    chain e iv (xs ++ [last]) = e (xor last (chain e iv xs)) := by
  rw [chain, List.foldl_append]
  rfl

/-- A sender of cipher block chaining ends with it. -/
theorem send_chain (e : Bytes → Bytes) (iv : Bytes) (blocks : List Bytes) :
    (Cbc.send e xor iv blocks).2 = chain e iv blocks := by
  induction blocks generalizing iv with
  | nil => rfl
  | cons b rest ih => exact ih (e (xor b iv))

/-! ## The last block -/

/-- Where the last block begins: it is never longer than a block, and only an
empty message has none. -/
theorem length_front {size : Nat} (hsize : 0 < size) (msg : Bytes) :
    (msg.length - 1) / size * size ≤ msg.length ∧
      msg.length - (msg.length - 1) / size * size ≤ size ∧
      (0 < msg.length → (msg.length - 1) / size * size < msg.length) := by
  have hdm := Nat.div_add_mod (msg.length - 1) size
  have hlt := Nat.mod_lt (msg.length - 1) hsize
  rw [Nat.mul_comm] at hdm
  omega

/-- A padding behind whole blocks is the padding of what stands behind them. -/
theorem pad_append {size n : Nat} {front : Bytes}
    (h : front.length = n * size) (last : Bytes) :
    pad size (front ++ last) = front ++ pad size last := by
  rw [pad, pad, List.length_append, h, Nat.mul_comm, Nat.mul_add_mod,
    List.append_assoc]

theorem length_pad_short {size : Nat} {last : Bytes} (h : last.length < size) :
    (pad size last).length = size := by
  rw [length_pad, Nat.mod_eq_of_lt h]
  omega

theorem length_finalBlock {size : Nat} {k : Bytes × Bytes} {last : Bytes}
    (hk : k.1.length = size ∧ k.2.length = size) (h : last.length ≤ size) :
    (finalBlock size k last).length = size := by
  rw [finalBlock]
  split
  · next hwhole => rw [length_xor, hwhole, hk.1, Nat.min_self]
  · next hpart =>
      rw [length_xor, length_pad_short (by omega), hk.2, Nat.min_self]

end Cmac
