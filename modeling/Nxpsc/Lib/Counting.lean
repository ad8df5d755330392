import Mathlib.Data.List.Nodup
import Mathlib.Data.Nat.ModEq

/-!
# Counting modulo

A counter that wraps at `m` shows, from `v` on, the values `v % m`,
`(v + 1) % m` and so on. A stretch of `j + k` steps is one of `j` and one of
`k` behind it, and a stretch that is no longer than `m` shows no value twice.
-/

namespace Counting

/-- The `k` values a counter modulo `m` shows from `v` on. -/
def values (m v k : Nat) : List Nat := (List.range' v k).map (· % m)

theorem values_succ (m v k : Nat) :
    values m v (k + 1) = v % m :: values m (v + 1) k := by
  rw [values, List.range'_succ, List.map_cons]
  rfl

theorem values_add (m v j k : Nat) :
    values m v (j + k) = values m v j ++ values m (v + j) k := by
  rw [values, values, values, ← List.map_append, List.range'_append_1]

/-- Only the value of the counter matters where a stretch begins. -/
theorem values_mod (m v k : Nat) : values m (v % m) k = values m v k := by
  induction k generalizing v with
  | zero => rfl
  | succ k ih =>
      rw [values_succ, values_succ, Nat.mod_mod, ← ih (v % m + 1),
        ← ih (v + 1), Nat.mod_add_mod]

theorem nodup_values {m k : Nat} (v : Nat) (h : k ≤ m) :
    (values m v k).Nodup := by
  refine List.Nodup.map_on ?_ List.nodup_range'
  intro i hi j hj heq
  rw [List.mem_range'_1] at hi hj
  exact Nat.ModEq.eq_of_abs_lt heq (abs_lt.mpr ⟨by omega, by omega⟩)

end Counting
