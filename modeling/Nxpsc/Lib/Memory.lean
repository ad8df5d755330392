import Nxpsc.Lib.Bytes

/-!
# Programs that read and write arrays

A program works on a state and ends in a value or an error, or it faults: it
was about to read or write outside an array, or to take a larger size from a
smaller one. Nothing follows a fault, so a program that ends at all has kept
inside every array it used. An array is a `Buf`, or the bytes of one where it
is only read; sizes are natural numbers.

The rules are equations. Where its bounds hold, an access is the value it
delivers, so a program is evaluated by rewriting.
-/

/-- A program with state `σ` and errors `ε`; `none` is a fault. -/
def Checked (σ ε α : Type) := σ → Option (Except ε α × σ)

namespace Checked

variable {σ ε α β : Type} {n : Nat}

instance : Monad (Checked σ ε) where
  pure a := fun s => some (.ok a, s)
  bind m f := fun s =>
    match m s with
    | none => none
    | some (.error e, s) => some (.error e, s)
    | some (.ok a, s) => f a s

def fault : Checked σ ε α := fun _ => none

def raise (e : ε) : Checked σ ε α := fun s => some (.error e, s)

protected def get : Checked σ ε σ := fun s => some (.ok s, s)

protected def modify (f : σ → σ) : Checked σ ε Unit :=
  fun s => some (.ok (), f s)

/-- The difference of two sizes. -/
def minus (a b : Nat) : Checked σ ε Nat :=
  if b ≤ a then pure (a - b) else fault

/-- Reads one element; one that is not there is a fault. -/
def byteAt (xs : Bytes) (i : Nat) : Checked σ ε UInt8 :=
  match xs[i]? with
  | some b => pure b
  | none => fault

/-- `len` elements from `off` on. -/
def load (xs : Bytes) (off len : Nat) : Checked σ ε Bytes :=
  if off + len ≤ xs.length then pure ((xs.drop off).take len) else fault

end Checked

/-- An array with the string written over it from `off` on. -/
def Buf.patch {n : Nat} (b : Buf n) (off : Nat) (xs : Bytes) : Buf n :=
  .of n (b.bytes.take off ++ xs ++ b.bytes.drop (off + xs.length))

/-- Writes the string from `off` on. -/
def Checked.store {σ ε : Type} {n : Nat} (b : Buf n) (off : Nat) (xs : Bytes) :
    Checked σ ε (Buf n) :=
  if off + xs.length ≤ n then pure (b.patch off xs) else Checked.fault

/-! ## Evaluation -/

namespace Checked

variable {σ ε α β : Type} {n : Nat}

@[simp] theorem pure_bind' (a : α) (f : α → Checked σ ε β) :
    (pure a >>= f) = f a := rfl

theorem bind_run {m : Checked σ ε α} {f : α → Checked σ ε β} {a : α}
    {s after : σ} (h : m s = some (.ok a, after)) :
    (m >>= f) s = f a after := by
  show (match m s with
    | none => none
    | some (Except.error e, s) => some (Except.error e, s)
    | some (Except.ok a, s) => f a s) = _
  rw [h]

theorem bind_raise {m : Checked σ ε α} {f : α → Checked σ ε β} {e : ε}
    {s after : σ} (h : m s = some (.error e, after)) :
    (m >>= f) s = some (.error e, after) := by
  show (match m s with
    | none => none
    | some (Except.error e, s) => some (Except.error e, s)
    | some (Except.ok a, s) => f a s) = _
  rw [h]

theorem bind_none {m : Checked σ ε α} {f : α → Checked σ ε β} {s : σ}
    (h : m s = none) : (m >>= f) s = none := by
  show (match m s with
    | none => none
    | some (Except.error e, s) => some (Except.error e, s)
    | some (Except.ok a, s) => f a s) = _
  rw [h]

theorem minus_eq {a b : Nat} (h : b ≤ a) :
    (minus a b : Checked σ ε Nat) = pure (a - b) := if_pos h

theorem byteAt_eq {xs : Bytes} {i : Nat} (h : i < xs.length) :
    (byteAt xs i : Checked σ ε UInt8) = pure (xs.getD i 0) := by
  rw [byteAt, List.getElem?_eq_getElem h, List.getD_eq_getElem?_getD,
    List.getElem?_eq_getElem h, Option.getD_some]

theorem load_eq {xs : Bytes} {off len : Nat} (h : off + len ≤ xs.length) :
    (load xs off len : Checked σ ε Bytes) =
      pure ((xs.drop off).take len) := if_pos h

theorem load_front {xs : Bytes} {len : Nat} (h : len ≤ xs.length) :
    (load xs 0 len : Checked σ ε Bytes) = pure (xs.take len) := by
  rw [load_eq (by omega), List.drop_zero]

/-- Everything from an offset on. -/
theorem load_tail {xs : Bytes} {off len : Nat} (h : off + len = xs.length) :
    (load xs off len : Checked σ ε Bytes) = pure (xs.drop off) := by
  rw [load_eq (Nat.le_of_eq h), List.take_of_length_le (by
    rw [List.length_drop]
    omega)]

theorem load_all (xs : Bytes) :
    (load xs 0 xs.length : Checked σ ε Bytes) = pure xs := by
  rw [load_front (Nat.le_refl _), List.take_length]

theorem load_whole (b : Buf n) :
    (load b.bytes 0 n : Checked σ ε Bytes) = pure b.bytes := by
  rw [load_front (Nat.le_of_eq b.size.symm),
    List.take_of_length_le (Nat.le_of_eq b.size)]

theorem store_eq {b : Buf n} {off : Nat} {xs : Bytes}
    (h : off + xs.length ≤ n) :
    (store b off xs : Checked σ ε (Buf n)) = pure (b.patch off xs) :=
  if_pos h

theorem store_fault {b : Buf n} {off : Nat} {xs : Bytes}
    (h : n < off + xs.length) :
    (store b off xs : Checked σ ε (Buf n)) = fault :=
  if_neg (Nat.not_le.mpr h)

/-! ## What a program that ends has done -/

theorem fault_ne_pure [Nonempty σ] (a : α) :
    (fault : Checked σ ε α) ≠ pure a := by
  intro h
  obtain ⟨s⟩ := ‹Nonempty σ›
  have hrun := congrFun h s
  cases hrun

theorem pure_inj [Nonempty σ] {a b : α}
    (h : (pure a : Checked σ ε α) = pure b) : a = b := by
  obtain ⟨s⟩ := ‹Nonempty σ›
  have hrun := congrFun h s
  cases hrun
  rfl

/-- What a function of a result ends in comes from a result. -/
theorem eq_pure_of_bind {x : Checked Unit ε α} {g : α → β} {b : β}
    (h : (x >>= fun a => pure (g a)) = pure b) :
    ∃ a, x = pure a ∧ g a = b := by
  have hrun := congrFun h ()
  cases hx : x () with
  | none =>
      rw [bind_none hx] at hrun
      cases hrun
  | some o =>
      obtain ⟨res, after⟩ := o
      cases res with
      | error e =>
          rw [bind_raise hx] at hrun
          cases hrun
      | ok a =>
          rw [bind_run hx] at hrun
          cases hrun
          exact ⟨a, funext fun _ => hx, rfl⟩

end Checked

/-! ## What is in an array -/

theorem Bytes.fit_append_zeros {n k : Nat} {xs : Bytes}
    (h : xs.length + k ≤ n) : fit n (xs ++ zeros k) = fit n xs := by
  have hk : (xs ++ zeros k).length = xs.length + k := by
    rw [List.length_append, length_zeros]
  rw [fit_of_le (by omega), fit_of_le (by omega), hk, List.append_assoc, zeros,
    zeros, List.replicate_append_replicate, zeros]
  congr 2
  omega

/-- A part of a zeroed array a string was copied to. -/
theorem Bytes.fit_part {n off len : Nat} (h : off + len ≤ n) (xs : Bytes) :
    ((fit n xs).drop off).take len = fit len (xs.drop off) := by
  have hlong : ((fit n xs).drop off) = fit (n - off) (xs.drop off) := by
    rw [fit, fit, List.drop_append, List.drop_take, List.length_take, zeros,
      List.drop_replicate, List.length_drop, zeros]
    congr 2
    omega
  rw [hlong, take_fit (by omega)]

theorem Bytes.chunks_take {size : Nat} : ∀ (count : Nat) (xs : Bytes),
    chunks size count (xs.take (count * size)) = chunks size count xs
  | 0, _ => rfl
  | count + 1, xs => by
      rw [chunks, chunks, List.take_take, List.drop_take, Nat.succ_mul,
        Nat.add_sub_cancel, Nat.min_eq_left (Nat.le_add_left _ _),
        chunks_take count]

namespace Buf

variable {n : Nat}

theorem ext_bytes {a b : Buf n} (h : a.bytes = b.bytes) : a = b := by
  cases a
  cases b
  cases h
  rfl

theorem bytes_patch {b : Buf n} {off : Nat} {xs : Bytes}
    (h : off + xs.length ≤ n) :
    (b.patch off xs).bytes =
      b.bytes.take off ++ xs ++ b.bytes.drop (off + xs.length) := by
  refine Bytes.fit_self ?_
  rw [List.length_append, List.length_append, List.length_take,
    List.length_drop, b.size]
  omega

theorem patch_nil (b : Buf n) {off : Nat} (h : off ≤ n) :
    b.patch off [] = b := by
  refine ext_bytes ?_
  rw [bytes_patch (by rw [List.length_nil]; omega), List.length_nil,
    Nat.add_zero, List.append_nil, List.take_append_drop]

/-- Everything up to the end of what was written. -/
theorem take_patch {b : Buf n} {off m : Nat} {xs : Bytes}
    (hm : off + xs.length = m) (h : m ≤ n) :
    (b.patch off xs).bytes.take m = b.bytes.take off ++ xs := by
  have hlen : (b.bytes.take off ++ xs).length = m := by
    rw [List.length_append, List.length_take, b.size]
    omega
  rw [bytes_patch (by omega), List.take_left' hlen]

/-- What was written is read back. -/
theorem part_patch (b : Buf n) {off len : Nat} {xs : Bytes}
    (hlen : xs.length = len) (h : off + len ≤ n) :
    ((b.patch off xs).bytes.drop off).take len = xs := by
  have hfront : (b.bytes.take off).length = off := by
    rw [List.length_take, b.size]
    omega
  rw [bytes_patch (by omega), List.append_assoc, List.drop_left' hfront,
    List.take_left' hlen]

/-- Everything behind it. -/
theorem drop_patch {b : Buf n} {off : Nat} {xs : Bytes}
    (h : off + xs.length ≤ n) (k : Nat) :
    (b.patch off xs).bytes.drop (off + xs.length + k) =
      b.bytes.drop (off + xs.length + k) := by
  have hlen : (b.bytes.take off ++ xs).length = off + xs.length := by
    rw [List.length_append, List.length_take, b.size]
    omega
  rw [← List.drop_drop, bytes_patch h, List.drop_left' hlen, List.drop_drop]

/-- A write that continues an earlier one. -/
theorem patch_patch (b : Buf n) {off : Nat} {xs ys : Bytes}
    (h : off + xs.length + ys.length ≤ n) :
    (b.patch off xs).patch (off + xs.length) ys = b.patch off (xs ++ ys) := by
  refine ext_bytes ?_
  rw [bytes_patch h, take_patch rfl (by omega), drop_patch (by omega),
    bytes_patch (by rw [List.length_append]; omega), List.length_append,
    List.append_assoc (b.bytes.take off), Nat.add_assoc]

/-- Writing behind what a zeroed array was filled with so far. -/
theorem of_patch {xs ys : Bytes} (h : xs.length + ys.length ≤ n) :
    (Buf.of n xs).patch xs.length ys = Buf.of n (xs ++ ys) := by
  refine ext_bytes ?_
  rw [bytes_patch h]
  show (Bytes.fit n xs).take _ ++ ys ++ (Bytes.fit n xs).drop _ =
    Bytes.fit n (xs ++ ys)
  rw [Bytes.fit_of_le (by omega), List.take_left, List.drop_append,
    List.drop_eq_nil_of_le (by omega), List.nil_append,
    Bytes.fit_of_le (by rw [List.length_append]; omega), Bytes.zeros,
    List.drop_replicate, Bytes.zeros, List.length_append]
  congr 2
  omega

theorem zero_patch {xs : Bytes} (h : xs.length ≤ n) :
    (Buf.zero n).patch 0 xs = Buf.of n xs := by
  have hzero : Buf.zero n = Buf.of n [] := ext_bytes (by
    show Bytes.zeros n = Bytes.fit n []
    rw [Bytes.fit, List.take_nil, List.nil_append, List.length_nil,
      Nat.sub_zero])
  rw [hzero]
  exact @of_patch n [] xs (by rw [List.length_nil]; omega)

/-- The front of an array a string of that length was copied to. -/
theorem take_zero_patch {len : Nat} {xs : Bytes} (hlen : xs.length = len)
    (h : len ≤ n) : ((zero n).patch 0 xs).bytes.take len = xs := by
  rw [take_patch (by omega) h, List.take_zero, List.nil_append]

theorem put_front {b : Buf n} {xs : Bytes} {k : Nat} (hk : k ≤ xs.length)
    (h : xs.length ≤ n) : (b.put xs).bytes.take k = xs.take k := by
  have hfront := congrArg (List.take k) (@put_take n b xs h)
  rwa [List.take_take, Nat.min_eq_left hk] at hfront

theorem of_front {xs : Bytes} {k : Nat} (hk : xs.length = k) (h : k ≤ n) :
    (Buf.of n xs).bytes.take k = xs :=
  (Bytes.take_fit h xs).trans (Bytes.fit_self hk)

/-- The whole of a zeroed array a string was copied to. -/
theorem of_whole (xs : Bytes) :
    ((Buf.of n xs).bytes.drop 0).take n = Bytes.fit n xs :=
  List.take_of_length_le (Nat.le_of_eq (Buf.of n xs).size)

/-- A zero written to where there is one. -/
theorem of_patch_zero {xs : Bytes} {i : Nat} (hi : xs.length ≤ i)
    (h : i < n) : (Buf.of n xs).patch i [0x00] = Buf.of n xs := by
  have hfront : Buf.of n xs = Buf.of n (xs ++ Bytes.zeros (i - xs.length)) :=
    ext_bytes (Bytes.fit_append_zeros (by omega)).symm
  have hback : Buf.of n xs =
      Buf.of n (xs ++ Bytes.zeros (i - xs.length) ++ [0x00]) := by
    refine ext_bytes ?_
    show Bytes.fit n xs = Bytes.fit n _
    have hone : ([0x00] : Bytes) = Bytes.zeros 1 := rfl
    rw [hone, Bytes.fit_append_zeros, Bytes.fit_append_zeros (by omega)]
    rw [List.length_append, Bytes.length_zeros]
    omega
  have hlen : (xs ++ Bytes.zeros (i - xs.length)).length = i := by
    rw [List.length_append, Bytes.length_zeros]
    omega
  have hwrite := @of_patch n (xs ++ Bytes.zeros (i - xs.length)) [0x00]
    (by rw [hlen]; exact h)
  rw [hlen, ← hfront, ← hback] at hwrite
  exact hwrite

theorem patch_put {b : Buf n} {xs : Bytes} (h : xs.length ≤ n) :
    b.patch 0 xs = b.put xs := by
  refine ext_bytes ?_
  show _ = xs.take n ++ b.bytes.drop xs.length
  rw [bytes_patch (by omega), List.take_zero, List.nil_append, Nat.zero_add,
    List.take_of_length_le h]

/-- What is written over a string of the same length is all that is left. -/
theorem put_put (b : Buf n) {xs ys : Bytes} (h : xs.length = ys.length)
    (hroom : xs.length ≤ n) : (b.put xs).put ys = b.put ys := by
  have hrest := @drop_patch n b 0 xs (by omega) 0
  rw [Nat.zero_add, Nat.add_zero, patch_put hroom] at hrest
  refine ext_bytes ?_
  show ys.take n ++ (b.put xs).bytes.drop ys.length =
    ys.take n ++ b.bytes.drop ys.length
  rw [← h, hrest]

/-- A write behind a string the array begins with. -/
theorem prefix_patch {b : Buf n} {xs ys : Bytes} (h : xs <+: b.bytes)
    (hroom : xs.length + ys.length ≤ n) :
    xs ++ ys <+: (b.patch xs.length ys).bytes := by
  rw [List.prefix_iff_eq_take, List.length_append,
    take_patch rfl hroom, ← List.prefix_iff_eq_take.mp h]

end Buf

/-! ## Filling an array from the front -/

namespace Checked

variable {σ ε : Type} {n : Nat}

theorem store_zero {xs : Bytes} (h : xs.length ≤ n) :
    (store (.zero n) 0 xs : Checked σ ε (Buf n)) = pure (.of n xs) := by
  rw [store_eq (by omega), Buf.zero_patch h]

theorem store_of {xs ys : Bytes} {off : Nat} (hoff : xs.length = off)
    (h : off + ys.length ≤ n) :
    (store (.of n xs) off ys : Checked σ ε (Buf n)) =
      pure (.of n (xs ++ ys)) := by
  subst hoff
  rw [store_eq h, Buf.of_patch h]

/-- A whole array is overwritten, or its front. -/
theorem store_put {b : Buf n} {xs : Bytes} (h : xs.length ≤ n) :
    (store b 0 xs : Checked σ ε (Buf n)) = pure (b.put xs) := by
  rw [store_eq (by omega), Buf.patch_put h]

end Checked
