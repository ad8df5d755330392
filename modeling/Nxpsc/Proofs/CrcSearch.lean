import Mathlib.Data.List.GetD
import Nxpsc.Spec.Checksum

/-!
# What `nxpsc_search_crc_pos` finds

The search starts behind the last byte that is not zero and goes backwards
over as many positions as the checksum has bytes, and two more. It does not
stop at a hit, so what it returns is the first position of this window where
a checksum of everything before it stands.
-/

namespace Nxpsc

/-- A position the search accepts. -/
def CrcAt (data : Bytes) (status : UInt8) (crcLen c : Nat) : Prop :=
  c + crcLen ≤ data.length ∧ c ≤ maxResponse ∧
    crcMatches data status crcLen c = true

/-- The positions the search looks at from `i` steps below `pos` on. -/
def InWindow (pos i rounds c : Nat) : Prop :=
  0 < c ∧ c + i ≤ pos ∧ pos < c + i + rounds

/-- The search returns the first accepted position of its window, and what
it was given when there is none. -/
def FirstIn (data : Bytes) (status : UInt8)
    (crcLen pos i rounds found r : Nat) :
    Prop :=
  (r = found ∧ ∀ c, InWindow pos i rounds c → ¬ CrcAt data status crcLen c) ∨
    (InWindow pos i rounds r ∧ CrcAt data status crcLen r ∧
      ∀ c, InWindow pos i rounds c → c < r → ¬ CrcAt data status crcLen c)

theorem searchCrcFrom_spec (data : Bytes) (status : UInt8)
    (crcLen pos rounds i found : Nat) :
    FirstIn data status crcLen pos i rounds found
      (searchCrcFrom data status crcLen pos rounds i found) := by
  induction rounds generalizing i found with
  | zero =>
      refine .inl ⟨rfl, fun c ⟨_, hle, hlt⟩ => ?_⟩
      omega
  | succ rounds ih =>
      rw [searchCrcFrom]
      split
      · refine .inl ⟨rfl, fun c ⟨hpos, hle, _⟩ => ?_⟩
        omega
      next hlive =>
      -- the positions below the one at hand
      have hrest : ∀ c, InWindow pos i (rounds + 1) c → c ≠ pos - i →
          InWindow pos (i + 1) rounds c := by
        rintro c ⟨hpos, hle, hlt⟩ hne
        exact ⟨hpos, by omega, by omega⟩
      have hin : ∀ c, InWindow pos (i + 1) rounds c →
          InWindow pos i (rounds + 1) c := by
        rintro c ⟨hpos, hle, hlt⟩
        exact ⟨hpos, by omega, by omega⟩
      have hskip : ¬ CrcAt data status crcLen (pos - i) →
          FirstIn data status crcLen pos i (rounds + 1) found
            (searchCrcFrom data status crcLen pos rounds (i + 1) found) := by
        intro hno
        rcases ih (i + 1) found with ⟨hr, hnone⟩ | ⟨hwin, hat, hfirst⟩
        · refine .inl ⟨hr, fun c hc hat => ?_⟩
          by_cases hcand : c = pos - i
          · exact hno (hcand ▸ hat)
          · exact hnone c (hrest c hc hcand) hat
        · refine .inr ⟨hin _ hwin, hat, fun c hc hlt hat => ?_⟩
          by_cases hcand : c = pos - i
          · exact hno (hcand ▸ hat)
          · exact hfirst c (hrest c hc hcand) hlt hat
      dsimp only
      split
      · next hout =>
          refine hskip fun ⟨hlen, hmax, _⟩ => ?_
          omega
      next hout =>
      split
      · next hmatch =>
          have hat : CrcAt data status crcLen (pos - i) :=
            ⟨by omega, by omega, hmatch⟩
          have hwin : InWindow pos i (rounds + 1) (pos - i) :=
            ⟨by omega, by omega, by omega⟩
          rcases ih (i + 1) (pos - i) with ⟨hr, hnone⟩ | ⟨hwin', hat', hfirst⟩
          · rw [hr]
            refine .inr ⟨hwin, hat, fun c hc hlt => ?_⟩
            exact hnone c (hrest c hc (by omega))
          · refine .inr ⟨hin _ hwin', hat', fun c hc hlt => ?_⟩
            have hbelow := hwin'.2.1
            exact hfirst c (hrest c hc (by omega)) hlt
      · next hmatch => exact hskip fun hat => hmatch hat.2.2

theorem searchCrcPos_spec (data : Bytes) (status : UInt8) (crcLen : Nat) :
    let r := searchCrcPos data status crcLen
    (r = 0 ∧ (crcLen ≤ data.length → crcLen ≤ crcSearchStart data →
        ∀ c, InWindow (crcSearchStart data) 0 (crcLen + 2) c →
          ¬ CrcAt data status crcLen c)) ∨
      (crcLen ≤ crcSearchStart data ∧
        InWindow (crcSearchStart data) 0 (crcLen + 2) r ∧
        CrcAt data status crcLen r ∧
        ∀ c, InWindow (crcSearchStart data) 0 (crcLen + 2) c → c < r →
          ¬ CrcAt data status crcLen c) := by
  dsimp only
  rw [searchCrcPos]
  split
  · exact .inl ⟨rfl, fun h => by omega⟩
  dsimp only
  split
  · next hshort =>
      refine .inl ⟨rfl, fun _ h => ?_⟩
      rw [crcSearchStart] at h
      omega
  · next hlong =>
      rcases searchCrcFrom_spec data status crcLen (crcSearchStart data)
        (crcLen + 2) 0 0 with ⟨hr, hnone⟩ | hfirst
      · exact .inl ⟨hr, fun _ _ => hnone⟩
      · exact .inr ⟨Nat.le_of_not_lt hlong, hfirst⟩

/-- The search returns a given accepted position exactly when it is the first
one the search comes to look at. -/
theorem searchCrcPos_eq_iff {data : Bytes} {status : UInt8} {crcLen n : Nat}
    (hpos : 0 < n) (hat : CrcAt data status crcLen n)
    (hstart : crcSearchStart data ≤ n + crcLen) :
    searchCrcPos data status crcLen = n ↔ FirstHit data status crcLen n := by
  have hlen := hat.1
  have hmax := hat.2.1
  rcases searchCrcPos_spec data status crcLen with
    ⟨hr, hnone⟩ | ⟨hlong, hwin, hat', hfirst⟩
  · rw [hr]
    refine iff_of_false (by omega) ?_
    rintro ⟨hlong, hle, -⟩
    exact hnone (by omega) hlong n ⟨hpos, by omega, by omega⟩ hat
  · constructor
    · intro hr
      rw [hr] at hwin hfirst
      refine ⟨hlong, by have := hwin.2.1; omega, fun c hc hlt hnear => ?_⟩
      refine eq_false_of_ne_true fun hmatch => ?_
      exact hfirst c ⟨hc, by have := hwin.2.1; omega, by omega⟩ hlt
        ⟨by omega, by omega, hmatch⟩
    · rintro ⟨_, hle, hno⟩
      rcases Nat.lt_trichotomy (searchCrcPos data status crcLen) n with
        hlt | heq | hgt
      · have hbelow := hno _ hwin.1 hlt hwin.2.2
        rw [hat'.2.2] at hbelow
        cases hbelow
      · exact heq
      · exact absurd hat (hfirst n ⟨hpos, by omega, by omega⟩ hgt)

theorem searchCrcPos_le (data : Bytes) (status : UInt8) (crcLen : Nat) :
    searchCrcPos data status crcLen ≤ data.length := by
  rcases searchCrcPos_spec data status crcLen with ⟨hr, -⟩ | ⟨-, -, hat, -⟩
  · rw [hr]
    exact Nat.zero_le _
  · have := hat.1
    omega

theorem skipZeros_le {data : Bytes} {m : Nat} :
    ∀ {pos : Nat}, (∀ k, m < k → k ≤ pos → data.getD k 0 = 0) →
      skipZeros data pos ≤ m
  | 0, _ => Nat.zero_le _
  | pos + 1, h => by
      rw [skipZeros]
      split
      · exact skipZeros_le fun k hk hle => h k hk (by omega)
      · next hne =>
          refine Nat.le_of_not_lt fun hlt => hne ?_
          exact h (pos + 1) hlt (Nat.le_refl _)

theorem crcSearchStart_le {front : Bytes} (k : Nat) (hne : 0 < front.length) :
    crcSearchStart (front ++ Bytes.zeros k) ≤ front.length := by
  have hzero : ∀ i, front.length - 1 < i →
      i ≤ (front ++ Bytes.zeros k).length - 1 →
      (front ++ Bytes.zeros k).getD i 0 = 0 := by
    intro i hi _
    rw [List.getD_append_right _ _ _ _ (by omega), Bytes.zeros]
    simp
  have := skipZeros_le hzero
  rw [crcSearchStart]
  omega

end Nxpsc
