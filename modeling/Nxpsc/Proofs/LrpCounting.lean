import Nxpsc.Proofs.LrpCounter
import Nxpsc.Spec.LrpContext

/-!
# A counter of any length

The counter of the leakage resilient primitive on its array of 64 bytes. A
step is the step on byte strings, so any number of steps adds that number, and
half a byte behind the counter stays. Setting the counter is another matter:
a length that is odd and one more than the array has half bytes passes the
check, and the copy does not end where the array does.
-/

namespace Nxpsc.InMemory

open Checked

variable {σ : Type} {n : Nat}

/-! ## One step -/

theorem patch_byte {b : Buf n} {k : Nat} (f : UInt8 → UInt8) (h : k < n) :
    (b.patch k [f (b.bytes.getD k 0)]).bytes = b.bytes.modify k f := by
  have hk : k < b.bytes.length := by
    rw [b.size]
    exact h
  rw [Buf.bytes_patch h, List.modify_eq_take_cons_drop hk,
    List.getD_eq_getElem?_getD, List.getElem?_eq_getElem hk, Option.getD_some,
    List.append_assoc]
  rfl

theorem lrpIncCounter_carry {i : Nat} {counter : Bytes}
    (h : 0x0F < nibbleAt counter i + 1) :
    lrpIncCounter (i + 1) counter =
      lrpIncCounter i (setNibble counter i (nibbleAt counter i + 1)) := by
  simp only [lrpIncCounter]
  exact if_pos h

theorem lrpIncCounter_done {i : Nat} {counter : Bytes}
    (h : ¬ 0x0F < nibbleAt counter i + 1) :
    lrpIncCounter (i + 1) counter =
      setNibble counter i (nibbleAt counter i + 1) := by
  simp only [lrpIncCounter]
  exact if_neg h

/-- A step that keeps to the array is the one on its bytes. -/
theorem incCounter_eq {i : Nat} (counter : Buf n) (h : i ≤ 2 * n) :
    (incCounter i counter : Run σ _) =
      pure ⟨lrpIncCounter i counter.bytes, by
        rw [length_lrpIncCounter, counter.size]⟩ := by
  induction i generalizing counter with
  | zero => rfl
  | succ i ih =>
      have hbyte : i / 2 < n := by omega
      have hnibble : (if i % 2 = 1 then counter.bytes.getD (i / 2) 0 &&& 0x0F
          else (counter.bytes.getD (i / 2) 0 >>> 4) &&& 0x0F) =
            nibbleAt counter.bytes i := rfl
      rw [incCounter, byteAt_eq (by rw [counter.size]; exact hbyte),
        pure_bind', hnibble]
      dsimp only
      rw [store_eq (by exact hbyte), pure_bind']
      have hset := @patch_byte n counter (i / 2) (fun b =>
        if i % 2 = 1 then
          (b &&& (0xF0 : UInt8)) ||| ((nibbleAt counter.bytes i + 1) &&& 0x0F)
        else (b &&& (0x0F : UInt8)) |||
          (((nibbleAt counter.bytes i + 1) <<< 4) &&& (0xF0 : UInt8))) hbyte
      split
      · next hcarry =>
          rw [ih _ (by omega)]
          congr 2
          rw [hset, lrpIncCounter_carry hcarry]
          rfl
      · next hdone =>
          congr 1
          refine Buf.ext_bytes ?_
          rw [hset]
          exact (lrpIncCounter_done hdone).symm

/-! ## Setting the counter -/

/-- The counter is set where the array holds it. -/
theorem setCounter_eq (ctx : LrpCtx) {counter : Bytes} {lenNibbles : Nat}
    (h : lenNibbles ≤ 2 * lrpMaxCounter)
    (hcounter : (lenNibbles + 1) / 2 ≤ counter.length) :
    (setCounter ctx counter lenNibbles : Run σ _) =
      pure (lrpSetCounter ctx counter lenNibbles) := by
  have hsize : (lenNibbles + 1) / 2 ≤ 64 := by
    have hmax : lrpMaxCounter = 64 := rfl
    omega
  rw [setCounter, lrpSetCounter, if_neg (by omega), if_neg (by omega),
    load_front hcounter, pure_bind', store_zero (by
      rw [List.length_take]
      omega)]
  rfl

/-- One half byte more than the array has is copied behind it. -/
theorem setCounter_fault (ctx : LrpCtx) {counter : Bytes} {lenNibbles : Nat}
    (haccepts : lenNibbles / 2 ≤ lrpMaxCounter)
    (hcounter : (lenNibbles + 1) / 2 ≤ counter.length)
    (h : 2 * lrpMaxCounter < lenNibbles) :
    (setCounter ctx counter lenNibbles : Run σ _) = fault := by
  have hsize : 64 < 0 + (counter.take ((lenNibbles + 1) / 2)).length := by
    have hmax : lrpMaxCounter = 64 := rfl
    rw [List.length_take]
    omega
  rw [setCounter, if_neg (by omega), load_front hcounter, pure_bind',
    store_fault hsize]
  rfl

/-! ## Counting -/

theorem increments_succ {ctx : LrpCtx}
    (h : ctx.counterLenNibbles ≤ 2 * lrpMaxCounter) (n : Nat) :
    (increments (n + 1) ctx : Run σ _) = increments n ctx.next := by
  rw [increments, incCounter_eq ctx.counter h, pure_bind']
  rfl

/-- What the steps do to a context whose counter is in the array. -/
theorem increments_counted {set : LrpCtx} {lenNibbles v : Nat}
    (hnibbles : set.counterLenNibbles = lenNibbles)
    (hsize : lenNibbles ≤ 2 * lrpMaxCounter)
    (hv : nibblesValue lenNibbles set.counter.bytes = v) (n : Nat) :
    ∃ after, (increments n set : Run σ _) = pure after ∧
      CountedTo set after lenNibbles ((v + n) % 16 ^ lenNibbles) := by
  induction n generalizing set v with
  | zero =>
      refine ⟨set, rfl, ?_, fun j hj => rfl⟩
      rw [hv, Nat.add_zero, Nat.mod_eq_of_lt (hv ▸ nibblesValue_lt _ _)]
  | succ n ih =>
      have hroom : lenNibbles ≤ 2 * set.counter.bytes.length := by
        rw [set.counter.size]
        exact hsize
      have hstep : nibblesValue lenNibbles set.next.counter.bytes =
          (v + 1) % 16 ^ lenNibbles := by
        rw [← hv, ← nibblesValue_lrpIncCounter hroom, ← hnibbles]
        rfl
      obtain ⟨after, hrun, hvalue, hrest⟩ := ih
        (show set.next.counterLenNibbles = lenNibbles from hnibbles) hstep
      refine ⟨after, ?_, ?_, fun j hj => ?_⟩
      · rw [increments_succ (hnibbles ▸ hsize)]
        exact hrun
      · rw [hvalue, Nat.mod_add_mod, Nat.add_assoc, Nat.add_comm 1 n]
      · rw [hrest j hj, ← nibbleAt_lrpIncCounter hroom hj, ← hnibbles]
        rfl

/-- The value of a counter that was set. -/
theorem nibblesValue_set (ctx : LrpCtx) {counter : Bytes} {lenNibbles : Nat}
    (h : lenNibbles ≤ 2 * lrpMaxCounter)
    (hcounter : (lenNibbles + 1) / 2 ≤ counter.length) :
    nibblesValue lenNibbles
        (lrpSetCounter ctx counter lenNibbles).counter.bytes =
      nibblesValue lenNibbles counter := by
  have hmax : lrpMaxCounter = 64 := rfl
  rw [lrpSetCounter, if_neg (by omega)]
  refine nibblesValue_congr fun j hj => ?_
  have hfront : ((Bytes.fit 64 (counter.take ((lenNibbles + 1) / 2))).take
      ((lenNibbles + 1) / 2)) = counter.take ((lenNibbles + 1) / 2) := by
    rw [Bytes.take_fit (by omega), Bytes.fit_self (by
      rw [List.length_take]
      omega)]
  show nibbleAt (Bytes.fit 64 (counter.take ((lenNibbles + 1) / 2))) j = _
  rw [← nibbleAt_take _ (show j / 2 < (lenNibbles + 1) / 2 by omega), hfront,
    nibbleAt_take _ (by omega)]

/-- The counter counts, in every length that is accepted but the one that is
half a byte too long. -/
theorem counter_counts_iff (ctx : LrpCtx) {counter : Bytes} {lenNibbles : Nat}
    (haccepts : lenNibbles / 2 ≤ lrpMaxCounter)
    (hcounter : (lenNibbles + 1) / 2 ≤ counter.length) :
    Counts ctx counter lenNibbles ↔ lenNibbles ≤ 2 * lrpMaxCounter := by
  constructor
  · rintro ⟨set, hset, -⟩
    refine Nat.le_of_not_lt fun hlong => ?_
    rw [setCounter_fault ctx haccepts hcounter hlong] at hset
    exact fault_ne_pure set hset
  · intro h
    refine ⟨_, setCounter_eq ctx h hcounter, fun n => ?_⟩
    rw [← nibblesValue_set ctx h hcounter]
    refine increments_counted ?_ h rfl n
    rw [lrpSetCounter, if_neg (by omega)]

theorem counter_counts_three :
    Counts (@lrpInit .identity (Bytes.zeros 16) 0 true) [0xFF, 0xF0] 3 :=
  (counter_counts_iff _ (by decide) (by decide)).mpr (by decide)

/-- 129 half bytes pass the check, and 65 bytes are copied. -/
theorem counter_copied_behind :
    129 / 2 ≤ lrpMaxCounter ∧
      ¬ Counts (@lrpInit .identity (Bytes.zeros 16) 0 true) (Bytes.zeros 65)
        129 := by
  refine ⟨by decide, ?_⟩
  rintro ⟨set, hset, -⟩
  rw [setCounter_fault _ (by decide) (by decide) (by decide)] at hset
  exact fault_ne_pure set hset

end Nxpsc.InMemory
