import Nxpsc.Ref.CryptoMemory
import Nxpsc.Spec.LrpCounter

/-!
# A context of the leakage resilient primitive in use

What its users count on: the counter is the number that was set and goes up by
one a step, and what one context enciphers another one deciphers. Both are
said of the functions on their arrays, so a run that leaves one of them is
none.
-/

namespace Nxpsc.InMemory

open Checked

/-- So many calls of `nxpsc_lrp_inc_counter` on the counter of a context. -/
def increments {σ : Type} : Nat → LrpCtx → Run σ LrpCtx
  | 0, ctx => pure ctx
  | n + 1, ctx => do
      let counter ← incCounter ctx.counterLenNibbles ctx.counter
      increments n { ctx with counter := counter }

/-- The counter of `after` is `v`, in so many half bytes, and what lies behind
it in the array is as it was in `set`. -/
structure CountedTo (set after : LrpCtx) (lenNibbles v : Nat) : Prop where
  value : nibblesValue lenNibbles after.counter.bytes = v
  rest : ∀ j, lenNibbles ≤ j →
    nibbleAt after.counter.bytes j = nibbleAt set.counter.bytes j

/-- Setting the counter and any number of steps keep to the array, and the
counter counts from what it was set to. -/
def Counts (ctx : LrpCtx) (counter : Bytes) (lenNibbles : Nat) : Prop :=
  ∃ set, (setCounter ctx counter lenNibbles : Run Unit _) = pure set ∧
    ∀ n, ∃ after, (increments n set : Run Unit _) = pure after ∧
      CountedTo set after lenNibbles
        ((nibblesValue lenNibbles counter + n) % 16 ^ lenNibbles)

section

variable [BlockCipher]

/-- What is enciphered from a counter is deciphered from the same one, each in
an array of its own, and both contexts leave a counter that has gone on by the
blocks. -/
def ThereAndBack {n m : Nat} (ctx : LrpCtx) (counter : Bytes)
    (lenNibbles : Nat) (data : Bytes) (out : Buf n) (back : Buf m) : Prop :=
  ∃ set o sent p received,
    (setCounter ctx counter lenNibbles : Run Unit _) = pure set ∧
    (lrpEncode set data data.length out 0 n : Run Unit _) =
      pure (.ok o, sent) ∧
    (lrpDecode set o.1.bytes o.2 back : Run Unit _) =
      pure (.ok p, received) ∧
    p.2 = data.length ∧ p.1.bytes.take p.2 = data ∧
    received.counter = sent.counter ∧
    CountedTo set sent lenNibbles
      ((nibblesValue lenNibbles counter + o.2 / aesBlock) % 16 ^ lenNibbles)

end

end Nxpsc.InMemory
