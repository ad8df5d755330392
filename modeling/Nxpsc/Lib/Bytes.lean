import Mathlib.Data.List.Basic
import Mathlib.Data.UInt

/-!
# Byte strings, and buffers of a fixed size

`Bytes` is a list of octets. `Buf n` is a C array of `n` octets: the length
is a field of the value, so no operation has to be told that a buffer still
has its size. Writing to a buffer is `put`, a copy to its front, which keeps
what lies behind the copied part, as `memcpy` does.
-/

abbrev Bytes := List UInt8

namespace Bytes

def zeros (n : Nat) : Bytes := List.replicate n 0

/-- The exclusive or of two strings, as long as the shorter one. -/
def xor (xs ys : Bytes) : Bytes := List.zipWith (· ^^^ ·) xs ys

/-- The first `n` bytes, with zeros where the string is shorter: what a
zeroed array of `n` bytes holds after the string was copied into it. -/
def fit (n : Nat) (xs : Bytes) : Bytes := xs.take n ++ zeros (n - xs.length)

/-- The string cut into `count` pieces of `size` bytes. -/
def chunks (size : Nat) : Nat → Bytes → List Bytes
  | 0, _ => []
  | count + 1, xs => xs.take size :: chunks size count (xs.drop size)

@[simp] theorem length_zeros (n : Nat) : (zeros n).length = n := by
  simp [zeros]

@[simp] theorem length_xor (xs ys : Bytes) :
    (xor xs ys).length = min xs.length ys.length := by simp [xor]

@[simp] theorem length_fit (n : Nat) (xs : Bytes) : (fit n xs).length = n := by
  simp only [fit, List.length_append, List.length_take, length_zeros]
  omega

theorem fit_of_le {n : Nat} {xs : Bytes} (h : xs.length ≤ n) :
    fit n xs = xs ++ zeros (n - xs.length) := by
  rw [fit, List.take_of_length_le h]

theorem fit_self {n : Nat} {xs : Bytes} (h : xs.length = n) :
    fit n xs = xs := by
  rw [fit_of_le (Nat.le_of_eq h), h, Nat.sub_self]
  simp [zeros]

theorem take_fit {n m : Nat} (h : n ≤ m) (xs : Bytes) :
    (fit m xs).take n = fit n xs := by
  rw [fit, fit, List.take_append, List.take_take, Nat.min_eq_left h, zeros,
    List.take_replicate, List.length_take, zeros]
  congr 2
  omega

theorem xor_comm (xs ys : Bytes) : xor xs ys = xor ys xs :=
  List.zipWith_comm_of_comm UInt8.xor_comm

theorem xor_assoc : ∀ xs ys zs : Bytes,
    xor (xor xs ys) zs = xor xs (xor ys zs)
  | [], _, _ => rfl
  | _ :: _, [], _ => rfl
  | _ :: _, _ :: _, [] => rfl
  | x :: xs, y :: ys, z :: zs => by
      show (x ^^^ y ^^^ z) :: xor (xor xs ys) zs =
        (x ^^^ (y ^^^ z)) :: xor xs (xor ys zs)
      rw [UInt8.xor_assoc, xor_assoc xs ys zs]

theorem xor_cancel : ∀ {xs ys : Bytes}, xs.length = ys.length →
    xor (xor xs ys) ys = xs
  | [], _, _ => rfl
  | x :: xs, [], h => by simp at h
  | x :: xs, y :: ys, h => by
      have ih : xor (xor xs ys) ys = xs := xor_cancel (by simpa using h)
      simp only [xor, List.zipWith_cons_cons] at ih ⊢
      rw [ih, UInt8.xor_assoc, UInt8.xor_self, UInt8.xor_zero]

theorem xor_eq_self_iff : ∀ {xs ys : Bytes}, xs.length = ys.length →
    (xor xs ys = xs ↔ ys = zeros xs.length)
  | [], [], _ => by simp [xor, zeros]
  | x :: xs, y :: ys, h => by
      have ih : xor xs ys = xs ↔ ys = zeros xs.length :=
        xor_eq_self_iff (Nat.succ.inj h)
      have hbyte : x ^^^ y = x ↔ y = 0 := by
        constructor
        · intro h
          have hback : x ^^^ (x ^^^ y) = x ^^^ x := congrArg (x ^^^ ·) h
          rwa [← UInt8.xor_assoc, UInt8.xor_self, UInt8.zero_xor] at hback
        · rintro rfl
          exact UInt8.xor_zero
      rw [zeros] at ih
      rw [xor] at ih ⊢
      rw [List.zipWith_cons_cons, List.cons.injEq, hbyte, ih, zeros,
        List.length_cons, List.replicate_succ, List.cons.injEq]

/-- What lies behind the shorter string does not count. -/
theorem xor_take_right : ∀ (xs ys : Bytes), xor xs (ys.take xs.length) =
    xor xs ys
  | [], _ => rfl
  | _ :: _, [] => rfl
  | _ :: xs, _ :: ys => congrArg (_ :: ·) (xor_take_right xs ys)

theorem length_part {xs : Bytes} {off len : Nat}
    (h : off + len ≤ xs.length) : ((xs.drop off).take len).length = len := by
  rw [List.length_take, List.length_drop]
  omega

/-- A string taken apart where a tail of known length begins. -/
theorem getD_take {xs : Bytes} {i n : Nat} (h : i < n) :
    (xs.take n).getD i 0 = xs.getD i 0 := by
  rw [List.getD_eq_getElem?_getD, List.getElem?_take, if_pos h,
    List.getD_eq_getElem?_getD]

theorem take_tail {xs tail : Bytes} {n : Nat} (h : tail.length = n) :
    (xs ++ tail).take ((xs ++ tail).length - n) = xs := by
  rw [List.length_append, h, Nat.add_sub_cancel, List.take_left]

theorem drop_tail {xs tail : Bytes} {n : Nat} (h : tail.length = n) :
    (xs ++ tail).drop ((xs ++ tail).length - n) = tail := by
  rw [List.length_append, h, Nat.add_sub_cancel, List.drop_left]

@[simp] theorem length_chunks (size count : Nat) (xs : Bytes) :
    (chunks size count xs).length = count := by
  induction count generalizing xs with
  | zero => rfl
  | succ n ih => simp [chunks, ih]

theorem length_of_mem_chunks {size : Nat} :
    ∀ {count : Nat} {xs : Bytes}, xs.length = count * size →
      ∀ c ∈ chunks size count xs, c.length = size := by
  intro count
  induction count with
  | zero => intro xs _ c hc; cases hc
  | succ n ih =>
      intro xs hlen c hc
      have hxs : xs.length = n * size + size := by rw [hlen, Nat.succ_mul]
      rcases List.mem_cons.mp hc with rfl | hc
      · rw [List.length_take]; omega
      · exact ih (by rw [List.length_drop]; omega) c hc

theorem chunks_append {size : Nat} (b : Nat) (ys : Bytes) :
    ∀ {a : Nat} {xs : Bytes}, xs.length = a * size →
      chunks size (a + b) (xs ++ ys) =
        chunks size a xs ++ chunks size b ys := by
  intro a
  induction a with
  | zero =>
      intro xs hlen
      rw [Nat.zero_mul] at hlen
      rw [List.length_eq_zero_iff.mp hlen, Nat.zero_add, chunks]
      rfl
  | succ a ih =>
      intro xs hlen
      have hxs : xs.length = a * size + size := by rw [hlen, Nat.succ_mul]
      rw [Nat.succ_add, chunks, chunks,
        List.take_append_of_le_length (by omega),
        List.drop_append_of_le_length (by omega),
        ih (by rw [List.length_drop]; omega), List.cons_append]

theorem flatten_chunks {size : Nat} :
    ∀ {count : Nat} {xs : Bytes}, xs.length = count * size →
      (chunks size count xs).flatten = xs := by
  intro count
  induction count with
  | zero =>
      intro xs hlen
      rw [Nat.zero_mul] at hlen
      rw [List.length_eq_zero_iff.mp hlen, chunks, List.flatten_nil]
  | succ n ih =>
      intro xs hlen
      have hxs : xs.length = n * size + size := by rw [hlen, Nat.succ_mul]
      rw [chunks, List.flatten_cons, ih (by rw [List.length_drop]; omega),
        List.take_append_drop]

theorem length_flatten {size : Nat} {blocks : List Bytes}
    (h : ∀ b ∈ blocks, b.length = size) :
    blocks.flatten.length = blocks.length * size := by
  induction blocks with
  | nil => simp
  | cons b rest ih =>
      have hb := h b (by simp)
      have hrest := ih fun x hx => h x (by simp [hx])
      rw [List.flatten_cons, List.length_append, hb, hrest, List.length_cons,
        Nat.succ_mul]
      omega

theorem drop_flatten_last {size : Nat} {blocks : List Bytes} (d : Bytes)
    (hne : blocks ≠ []) (h : ∀ b ∈ blocks, b.length = size) :
    blocks.flatten.drop (blocks.flatten.length - size) = blocks.getLastD d := by
  obtain ⟨front, b, rfl⟩ := List.eq_nil_or_concat' blocks |>.resolve_left hne
  have hb := h b (by simp)
  rw [List.flatten_append, List.flatten_singleton, List.length_append, hb,
    Nat.add_sub_cancel, List.drop_left]
  simp

theorem chunks_flatten {size : Nat} {blocks : List Bytes}
    (h : ∀ b ∈ blocks, b.length = size) :
    chunks size blocks.length blocks.flatten = blocks := by
  induction blocks with
  | nil => rfl
  | cons b rest ih =>
      have hb := h b (by simp)
      have hrest := ih fun x hx => h x (by simp [hx])
      rw [List.flatten_cons, List.length_cons, chunks,
        List.take_left' hb, List.drop_left' hb, hrest]

end Bytes

/-- An array of `n` octets. -/
structure Buf (n : Nat) where
  bytes : Bytes
  size : bytes.length = n
  deriving DecidableEq

namespace Buf

variable {n : Nat}

def zero (n : Nat) : Buf n := ⟨Bytes.zeros n, by simp⟩

/-- A buffer holding the string, cut or filled up with zeros. -/
def of (n : Nat) (xs : Bytes) : Buf n := ⟨Bytes.fit n xs, by simp⟩

/-- Copies a string to the front of the buffer. -/
def put (b : Buf n) (xs : Bytes) : Buf n :=
  ⟨xs.take n ++ b.bytes.drop xs.length, by
    rw [List.length_append, List.length_take, List.length_drop, b.size]
    omega⟩

@[simp] theorem bytes_length (b : Buf n) : b.bytes.length = n := b.size

@[simp] theorem bytes_zero : (zero n).bytes = Bytes.zeros n := rfl

theorem put_take {b : Buf n} {xs : Bytes} (h : xs.length ≤ n) :
    (b.put xs).bytes.take xs.length = xs := by
  simp only [put, List.take_of_length_le h, List.take_left]

theorem put_take_eq {b : Buf n} {xs : Bytes} {m : Nat} (hm : xs.length = m)
    (h : m ≤ n) : (b.put xs).bytes.take m = xs := by
  subst hm
  exact put_take h

theorem put_all {b : Buf n} {xs : Bytes} (h : xs.length = n) :
    (b.put xs).bytes = xs := by
  have htake := put_take_eq (b := b) h (Nat.le_refl n)
  rwa [List.take_of_length_le (Nat.le_of_eq (b.put xs).size)] at htake

end Buf
