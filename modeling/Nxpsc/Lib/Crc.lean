import Mathlib.Data.BitVec
import Mathlib.Logic.Function.Iterate

/-!
# Cyclic redundancy checks, a bit at a time

The reflected form: the register moves down a place for every bit of the
message, and what falls out at the low end, mixed with that bit, decides
whether the polynomial is added. A move on its own is linear, and it loses
nothing when the polynomial has its top bit. A message no longer than the
register can be mixed in at once, its first bit lowest, before the moves are
made; so messages that differ in one such stretch end in different registers,
whatever stands around it.
-/

namespace Crc

variable {w : Nat}

/-- A move of the register. -/
def shift (poly c : BitVec w) : BitVec w :=
  if c.getLsbD 0 then (c >>> 1) ^^^ poly else c >>> 1

/-- A move with a bit of the message. -/
def step (poly c : BitVec w) (b : Bool) : BitVec w :=
  if c.getLsbD 0 ^^ b then (c >>> 1) ^^^ poly else c >>> 1

/-- The register behind a message. -/
def register (poly init : BitVec w) (bits : List Bool) : BitVec w :=
  bits.foldl (step poly) init

/-- The bits of a message side by side, the first one lowest. -/
def word (w : Nat) : List Bool → BitVec w
  | [] => 0
  | b :: bits => (word w bits <<< 1) ^^^ (BitVec.ofBool b).setWidth w

/-! ## Moves -/

theorem getLsbD_shift (poly c : BitVec w) (i : Nat) :
    (shift poly c).getLsbD i =
      (c.getLsbD (1 + i) ^^ (c.getLsbD 0 && poly.getLsbD i)) := by
  rw [shift]
  cases c.getLsbD 0 <;> simp

theorem shift_xor (poly a b : BitVec w) :
    shift poly (a ^^^ b) = shift poly a ^^^ shift poly b := by
  refine BitVec.eq_of_getLsbD_eq fun i _ => ?_
  simp only [getLsbD_shift, BitVec.getLsbD_xor]
  cases a.getLsbD 0 <;> cases b.getLsbD 0 <;> cases a.getLsbD (1 + i) <;>
    cases b.getLsbD (1 + i) <;> cases poly.getLsbD i <;> rfl

theorem iterate_shift_xor (poly : BitVec w) (n : Nat) (a b : BitVec w) :
    (shift poly)^[n] (a ^^^ b) =
      (shift poly)^[n] a ^^^ (shift poly)^[n] b := by
  induction n generalizing a b with
  | zero => rfl
  | succ n ih =>
      rw [Function.iterate_succ_apply, shift_xor, ih]
      rfl

theorem iterate_shift_zero (poly : BitVec w) (n : Nat) :
    (shift poly)^[n] 0#w = 0#w := by
  have hzero : shift poly 0#w = 0#w := by simp [shift]
  exact Function.iterate_fixed hzero n

/-- A word with a free place at the top is moved up and comes back. -/
theorem shift_shiftLeft {poly x : BitVec w} (h : x.getLsbD (w - 1) = false) :
    shift poly (x <<< 1) = x := by
  refine BitVec.eq_of_getLsbD_eq fun i hi => ?_
  rw [getLsbD_shift, BitVec.getLsbD_shiftLeft, BitVec.getLsbD_shiftLeft]
  rcases Nat.lt_or_ge (1 + i) w with hlt | hge
  · simp only [hlt, Nat.add_sub_cancel_left]
    simp
  · have htop : i = w - 1 := by omega
    rw [htop, h]
    simp [h]

theorem iterate_shift_shiftLeft {poly x : BitVec w} {n : Nat}
    (h : ∀ i, w ≤ i + n → x.getLsbD i = false) :
    (shift poly)^[n] (x <<< n) = x := by
  induction n with
  | zero => rw [Function.iterate_zero_apply, BitVec.shiftLeft_zero]
  | succ n ih =>
      have htop : (x <<< n).getLsbD (w - 1) = false := by
        rw [BitVec.getLsbD_shiftLeft]
        by_cases hn : w - 1 < n
        · simp [hn]
        · rw [h (w - 1 - n) (by omega), Bool.and_false]
      rw [Function.iterate_succ_apply, BitVec.shiftLeft_add,
        shift_shiftLeft htop, ih fun i hi => h i (by omega)]

theorem shift_injective {poly : BitVec w}
    (hpoly : poly.getLsbD (w - 1) = true) :
    Function.Injective (shift poly) := by
  intro a b h
  have hbit := fun i => congrArg (BitVec.getLsbD · i) h
  simp only [getLsbD_shift] at hbit
  -- the top bit of the result is the one that fell out
  have hlow : a.getLsbD 0 = b.getLsbD 0 := by
    have htop := hbit (w - 1)
    rw [hpoly, BitVec.getLsbD_of_ge a _ (by omega),
      BitVec.getLsbD_of_ge b _ (by omega)] at htop
    simpa using htop
  refine BitVec.eq_of_getLsbD_eq fun i _ => ?_
  cases i with
  | zero => exact hlow
  | succ i =>
      have hnext := hbit i
      rw [hlow, Nat.add_comm] at hnext
      exact Bool.xor_left_inj.mp hnext

/-! ## Messages -/

/-- The bit of the message is mixed in before the move. -/
theorem step_eq (poly c : BitVec w) (b : Bool) :
    step poly c b = shift poly (c ^^^ (BitVec.ofBool b).setWidth w) := by
  refine BitVec.eq_of_getLsbD_eq fun i hi => ?_
  have hw : 0 < w := Nat.zero_lt_of_lt hi
  have hhigh : ((BitVec.ofBool b).setWidth w).getLsbD (1 + i) = false := by
    simp [Nat.add_comm 1 i]
  have hlow : ((BitVec.ofBool b).setWidth w).getLsbD 0 = b := by
    simp [hw]
  rw [getLsbD_shift, BitVec.getLsbD_xor, BitVec.getLsbD_xor, hhigh, hlow,
    Bool.xor_false, step]
  cases c.getLsbD 0 ^^ b <;> simp

theorem register_append (poly c : BitVec w) (xs ys : List Bool) :
    register poly c (xs ++ ys) = register poly (register poly c xs) ys :=
  List.foldl_append

theorem getLsbD_word (bits : List Bool) (i : Nat) :
    (word w bits).getLsbD i = (decide (i < w) && bits.getD i false) := by
  induction bits generalizing i with
  | nil => simp [word]
  | cons b bits ih =>
      cases i with
      | zero => simp [word]
      | succ i =>
          rw [word, BitVec.getLsbD_xor, BitVec.getLsbD_shiftLeft,
            Nat.add_sub_cancel, ih]
          by_cases hi : i + 1 < w
          · simp [hi, Nat.lt_of_succ_lt hi]
          · simp [hi]

/-- All bits of a short message can be mixed in before the moves. -/
theorem register_eq (poly c : BitVec w) {bits : List Bool}
    (h : bits.length ≤ w) :
    register poly c bits =
      (shift poly)^[bits.length] (c ^^^ word w bits) := by
  induction bits generalizing c with
  | nil => simp [register, word]
  | cons b bits ih =>
      have htop : (word w bits).getLsbD (w - 1) = false := by
        rw [List.length_cons] at h
        rw [getLsbD_word, List.getD_eq_getElem?_getD,
          List.getElem?_eq_none (by omega), Option.getD_none, Bool.and_false]
      calc register poly c (b :: bits)
          = register poly (step poly c b) bits := rfl
        _ = (shift poly)^[bits.length] (step poly c b ^^^ word w bits) :=
            ih _ (Nat.le_of_succ_le h)
        _ = (shift poly)^[bits.length]
              (shift poly (c ^^^ word w (b :: bits))) := by
            rw [word, ← BitVec.xor_assoc, BitVec.xor_assoc c,
              BitVec.xor_comm (word w bits <<< 1), ← BitVec.xor_assoc,
              shift_xor, shift_shiftLeft htop, step_eq]

/-- What the register holds, sent behind the message, empties it. -/
theorem register_self (poly c : BitVec w) {bits : List Bool}
    (h : bits.length ≤ w) (hbits : word w bits = c) :
    register poly c bits = 0#w := by
  rw [register_eq poly c h, hbits, BitVec.xor_self, iterate_shift_zero]

/-- An empty register stays empty over a message of zeros. -/
theorem register_zeros (poly : BitVec w) (n : Nat) :
    register poly 0#w (List.replicate n false) = 0#w := by
  induction n with
  | zero => rfl
  | succ n ih =>
      have hstep : step poly 0#w false = 0#w := by simp [step]
      rw [List.replicate_succ, register, List.foldl_cons, hstep]
      exact ih

/-! ## Bursts -/

theorem word_injective {xs ys : List Bool} (hlen : xs.length = ys.length)
    (hle : xs.length ≤ w) (h : word w xs = word w ys) : xs = ys := by
  refine List.ext_getElem hlen fun i hx hy => ?_
  have hbit := congrArg (BitVec.getLsbD · i) h
  simp only [getLsbD_word, List.getD_eq_getElem?_getD,
    List.getElem?_eq_getElem hx, List.getElem?_eq_getElem hy,
    Option.getD_some, decide_eq_true (Nat.lt_of_lt_of_le hx hle),
    Bool.true_and] at hbit
  exact hbit

variable {poly : BitVec w}

theorem register_injective (hpoly : poly.getLsbD (w - 1) = true)
    (bits : List Bool) :
    Function.Injective fun c => register poly c bits := by
  induction bits with
  | nil => exact fun _ _ h => h
  | cons b bits ih =>
      intro c d h
      have hstep : step poly c b = step poly d b := ih h
      rw [step_eq, step_eq] at hstep
      exact (BitVec.xor_left_inj _).mp (shift_injective hpoly hstep)

/-- Two messages that differ in a stretch no longer than the register. -/
theorem register_burst (hpoly : poly.getLsbD (w - 1) = true) (c : BitVec w)
    (front back : List Bool) {xs ys : List Bool}
    (hlen : xs.length = ys.length) (hle : xs.length ≤ w) (hne : xs ≠ ys) :
    register poly c (front ++ xs ++ back) ≠
      register poly c (front ++ ys ++ back) := by
  intro h
  simp only [register_append] at h
  have hmid := register_injective hpoly back h
  rw [register_eq poly _ hle, register_eq poly _ (Nat.le_trans
    (Nat.le_of_eq hlen.symm) hle), ← hlen] at hmid
  have hmixed := (shift_injective hpoly).iterate _ hmid
  exact hne (word_injective hlen hle ((BitVec.xor_right_inj _).mp hmixed))

end Crc
