import Nxpsc.Proofs.Checksum
import Nxpsc.Proofs.CrcSearch

/-!
# The position of a checksum

The scan over the zeros ends where the content does, and the window is so
narrow that what lies behind a checksum found in it is zero but for one byte.
So the search finds the first position there is, unless it gives up before it
begins, on content that is shorter than a checksum. A checksum that reaches
into the zeros is one of a message that leaves the register empty, and of four
bytes there is one such message.
-/

namespace Nxpsc

theorem skipZeros_spec (data : Bytes) (pos : Nat) :
    skipZeros data pos ≤ pos ∧
      (∀ i, skipZeros data pos < i → i ≤ pos → data.getD i 0 = 0) ∧
      (skipZeros data pos = 0 ∨ data.getD (skipZeros data pos) 0 ≠ 0) := by
  induction pos with
  | zero => exact ⟨Nat.le_refl _, fun i hi hle => by
      rw [skipZeros] at hi
      omega, .inl rfl⟩
  | succ pos ih =>
      rw [skipZeros]
      split
      · next hzero =>
          obtain ⟨hle, hzeros, hend⟩ := ih
          refine ⟨Nat.le_succ_of_le hle, fun i hi hle => ?_, hend⟩
          rcases Nat.lt_or_eq_of_le hle with hlt | rfl
          · exact hzeros i hi (Nat.le_of_lt_succ hlt)
          · exact hzero
      · next hne =>
          exact ⟨Nat.le_refl _, fun i hi hle => by omega, .inr hne⟩

/-- Behind the content there are zeros, and its last byte is none. -/
theorem contentEnd_spec (data : Bytes) :
    (∀ i, contentEnd data ≤ i → data.getD i 0 = 0) ∧
      (contentEnd data = 1 ∨ data.getD (contentEnd data - 1) 0 ≠ 0) := by
  have hcut := @List.rdropWhile_append_rtakeWhile _ (· == 0) data
  have hlast := @List.rdropWhile_last_not _ (· == 0) data
  have hback : ∀ b ∈ data.rtakeWhile (· == 0), b = 0 := by
    intro b hb
    have hzero : (b == 0) = true :=
      @List.mem_rtakeWhile_imp _ (· == 0) data b hb
    exact beq_iff_eq.mp hzero
  rw [contentEnd]
  generalize data.rdropWhile (· == 0) = front at hcut hlast ⊢
  generalize data.rtakeWhile (· == 0) = back at hcut hback
  subst hcut
  constructor
  · intro i hi
    rw [List.getD_append_right _ _ _ _ (by omega),
      List.getD_eq_getElem?_getD]
    cases hget : back[i - front.length]? with
    | none => rfl
    | some b => exact hback b (List.mem_of_getElem? hget)
  · rcases Nat.lt_or_ge 1 front.length with hlong | hshort
    · right
      have hne : front ≠ [] := List.ne_nil_of_length_pos (by omega)
      rw [Nat.max_eq_right (Nat.le_of_lt hlong),
        List.getD_append _ _ _ _ (by omega), List.getD_eq_getElem?_getD,
        ← List.getLast?_eq_getElem?, List.getLast?_eq_some_getLast hne]
      intro hzero
      exact hlast hne (beq_iff_eq.mpr hzero)
    · exact .inl (Nat.max_eq_left hshort)

theorem crcSearchStart_eq (data : Bytes) :
    crcSearchStart data = contentEnd data := by
  obtain ⟨hzero, hend⟩ := contentEnd_spec data
  obtain ⟨hle, hscan, hstop⟩ := skipZeros_spec data (data.length - 1)
  have hpos : 1 ≤ contentEnd data := Nat.le_max_left _ _
  rw [crcSearchStart]
  generalize skipZeros data (data.length - 1) = last at hle hscan hstop ⊢
  rcases Nat.lt_trichotomy (last + 1) (contentEnd data) with hlt | heq | hgt
  · have hlast := hend.resolve_left (by omega)
    rcases Nat.lt_or_ge (contentEnd data - 1) data.length with hin | hout
    · exact absurd (hscan _ (by omega) (by omega)) hlast
    · rw [List.getD_eq_getElem?_getD, List.getElem?_eq_none hout] at hlast
      exact absurd rfl hlast
  · exact heq
  · exact absurd (hzero last (by omega)) (hstop.resolve_left (by omega))

theorem crcMatches_iff (data : Bytes) (status : UInt8) (crcLen c : Nat) :
    crcMatches data status crcLen c = true ↔
      checksumOf status crcLen (data.take c) = (data.drop c).take crcLen := by
  rw [crcMatches, checksumOf]
  exact beq_iff_eq

/-- In the window nothing is left to ask of what follows a checksum. -/
theorem crcAt_iff {data : Bytes} {status : UInt8} {crcLen c : Nat}
    (hmax : data.length ≤ maxResponse) (hc : Plausible data crcLen c) :
    CrcAt data status crcLen c ↔ CrcPosition data status crcLen c := by
  constructor
  · rintro ⟨hroom, -, hmatch⟩
    refine ⟨hroom, (crcMatches_iff _ _ _ _).mp hmatch, fun i hi => ?_⟩
    exact (contentEnd_spec data).1 i (by have := hc.2.1; omega)
  · intro h
    have hroom := h.room
    exact ⟨hroom, by omega, (crcMatches_iff _ _ _ _).mpr h.checks⟩

theorem plausible_iff (data : Bytes) (crcLen c : Nat) :
    Plausible data crcLen c ↔
      InWindow (crcSearchStart data) 0 (crcLen + 2) c := by
  rw [Plausible, InWindow, crcSearchStart_eq]
  omega

/-! ## Content shorter than a checksum -/

/-- A byte has no two zeros for a checksum. -/
theorem crc16_byte_ne (x : UInt8) : crc16 [x] ≠ [0x00, 0x00] := by
  have hall : ∀ b : BitVec 8, crc16 [⟨b⟩] ≠ [0x00, 0x00] := by decide +kernel
  exact hall x.toBitVec

theorem eq_of_contentEnd {data : Bytes} {k : Nat} (h : contentEnd data ≤ k) :
    data = data.take k ++ Bytes.zeros (data.length - k) := by
  have hback : data.drop k = Bytes.zeros (data.length - k) := by
    refine List.eq_replicate_iff.mpr ⟨List.length_drop, fun b hb => ?_⟩
    obtain ⟨i, hi, rfl⟩ := List.mem_iff_getElem.mp hb
    have hzero := (contentEnd_spec data).1 (k + i) (by omega)
    rw [List.getD_eq_getElem?_getD, ← List.getElem?_drop,
      List.getElem?_eq_getElem hi] at hzero
    exact hzero
  rw [← hback, List.take_append_drop]

/-- With the status between them, payload and content behind it are four bytes
that leave the register empty. -/
theorem checksum_inside {data : Bytes} {status : UInt8} {c : Nat}
    (hend : contentEnd data ≤ 3) (hc : c ≤ 3)
    (hat : CrcPosition data status 4 c) :
    status = 0xFF ∧ data.take 3 = [0xFF, 0xFF, 0xFF] := by
  have hroom := hat.room
  have hlen : (data.take 3).length = 3 := by
    rw [List.length_take]
    omega
  have hfront : (data.take 3).take c = data.take c := by
    rw [List.take_take, Nat.min_eq_left hc]
  have hback : (data.drop c).take 4 =
      (data.take 3).drop c ++ Bytes.zeros (c + 1) := by
    conv => lhs; rw [eq_of_contentEnd hend]
    rw [List.drop_append_of_le_length (by omega), List.take_append,
      List.take_of_length_le (by rw [List.length_drop]; omega), Bytes.zeros,
      List.take_replicate, List.length_drop, Bytes.zeros]
    congr 2
    omega
  have hsum : crc32 ((data.take 3).take c ++ [status]) =
      (data.take 3).drop c ++ Bytes.zeros (c + 1) := by
    rw [hfront, ← hback, ← hat.checks, checksumOf, if_pos rfl]
  generalize data.take 3 = content at hsum hlen ⊢
  have hempty := crc32_residue (content.take c ++ [status])
  rw [hsum, ← List.append_assoc] at hempty
  have hfour := crc32Register_four (by simp; omega)
    (crc32Register_of_zeros hempty)
  have hall : ∀ b ∈ content.take c ++ [status] ++ content.drop c, b = 0xFF := by
    rw [hfour]
    simp
  refine ⟨hall status (by simp),
    List.eq_replicate_iff.mpr ⟨hlen, fun b hb => ?_⟩⟩
  rw [← List.take_append_drop c content] at hb
  refine hall b ?_
  simp only [List.mem_append] at hb ⊢
  exact hb.elim (fun h => .inl (.inl h)) .inr

theorem contentEnd_ones (n : Nat) :
    contentEnd ([0xFF, 0xFF, 0xFF] ++ Bytes.zeros n) = 3 := by
  have hle := @crcSearchStart_le [0xFF, 0xFF, 0xFF] n (by decide)
  have hzero := (contentEnd_spec ([0xFF, 0xFF, 0xFF] ++ Bytes.zeros n)).1 2
  rw [crcSearchStart_eq] at hle
  refine Nat.le_antisymm hle (Nat.le_of_not_lt fun hlt => ?_)
  have htwo : (0xFF : UInt8) = 0 := hzero (Nat.le_of_lt_succ hlt)
  exact absurd htwo (by decide)

/-- Where the search gives up before it begins, there is one content that has
a position. -/
theorem endsInChecksum_iff {data : Bytes} {status : UInt8} {crcLen : Nat}
    (hcrc : crcLen = 2 ∨ crcLen = 4) :
    EndsInChecksum data status crcLen ↔ contentEnd data < crcLen ∧
      ∃ c, Plausible data crcLen c ∧ CrcPosition data status crcLen c := by
  constructor
  · rintro ⟨rfl, rfl, n, hn, rfl⟩
    have hend := contentEnd_ones n
    obtain ⟨k, rfl⟩ := Nat.exists_eq_add_of_le' hn
    refine ⟨by omega, 1, ⟨by decide, by omega, by omega⟩, ?_, ?_,
      fun i hi => ?_⟩
    · simp
    · show crc32 [0xFF, 0xFF] = [0xFF, 0xFF, 0x00, 0x00]
      decide +kernel
    · exact (contentEnd_spec _).1 i (by omega)
  · rintro ⟨hshort, c, ⟨hpos, -, hc⟩, hat⟩
    have hroom := hat.room
    rcases hcrc with rfl | rfl
    · exfalso
      obtain rfl : c = 1 := by omega
      have hchecks := hat.checks
      have hdata := @eq_of_contentEnd data 1 (by omega)
      obtain ⟨x, hx⟩ := List.length_eq_one_iff.mp
        (show (data.take 1).length = 1 by rw [List.length_take]; omega)
      obtain ⟨k, hk⟩ := Nat.exists_eq_add_of_le'
        (show 2 ≤ data.length - 1 by omega)
      rw [hx, hk] at hdata
      subst hdata
      exact crc16_byte_ne x hchecks
    · obtain ⟨hstatus, hcontent⟩ := checksum_inside (by omega) (by omega) hat
      refine ⟨rfl, hstatus, data.length - 3, by omega, ?_⟩
      rw [← hcontent]
      exact eq_of_contentEnd (by omega)

/-- The search finds the first position there is, but in one content. -/
theorem crc_searched_iff {data : Bytes} {status : UInt8} {crcLen : Nat}
    (hcrc : crcLen = 2 ∨ crcLen = 4) (hmax : data.length ≤ maxResponse) :
    CrcSearched data status crcLen (searchCrcPos data status crcLen) ↔
      ¬ EndsInChecksum data status crcLen := by
  rw [endsInChecksum_iff hcrc]
  constructor
  · rintro hsearch ⟨hshort, hsome⟩
    have hnone : searchCrcPos data status crcLen = 0 := by
      rcases searchCrcPos_spec data status crcLen with ⟨hr, -⟩ | ⟨hlong, -⟩
      · exact hr
      · rw [crcSearchStart_eq] at hlong
        omega
    exact hsearch.found hsome hnone
  · intro hwhole
    rcases searchCrcPos_spec data status crcLen with
      ⟨hr, hnone⟩ | ⟨-, hwin, hat, hfirst⟩
    · refine ⟨fun h => absurd hr h, fun h => absurd hr h, ?_⟩
      rintro ⟨c, hc, hat⟩
      have hroom := hat.room
      -- the scan has begun, so it came by this position
      have hlong : crcLen ≤ contentEnd data := Nat.le_of_not_lt fun hshort =>
        hwhole ⟨hshort, c, hc, hat⟩
      exact absurd ((crcAt_iff hmax hc).mpr hat) (hnone (by omega)
        (by rw [crcSearchStart_eq]; exact hlong) c
        ((plausible_iff data crcLen c).mp hc))
    · have hwindow := (plausible_iff data crcLen _).mpr hwin
      refine ⟨fun _ => (crcAt_iff hmax hwindow).mp hat,
        fun _ => ⟨hwindow, fun c hc hcat => ?_⟩,
        fun _ => Nat.ne_of_gt hwin.1⟩
      refine Nat.le_of_not_lt fun hlt => ?_
      exact hfirst c ((plausible_iff data crcLen c).mp hc) hlt
        ((crcAt_iff hmax hc).mpr hcat)

theorem crc_searched_plain :
    CrcSearched [0x00, 0xFE, 0x51, 0x80] 0x00 2
      (searchCrcPos [0x00, 0xFE, 0x51, 0x80] 0x00 2) := by
  refine (crc_searched_iff (.inl rfl) ?_).mpr fun h => absurd h.1 (by decide)
  simp [maxResponse]

/-- Three bytes whose checksum with the status is four zeros. -/
theorem crc_search_gives_up :
    ¬ CrcSearched [0xFF, 0xFF, 0xFF, 0x00, 0x00, 0x00, 0x00] 0xFF 4
      (searchCrcPos [0xFF, 0xFF, 0xFF, 0x00, 0x00, 0x00, 0x00] 0xFF 4) := by
  intro h
  refine h.found ⟨3, ⟨by decide, by decide, by decide⟩, by decide,
    by decide +kernel, fun i hi => ?_⟩ (by decide +kernel)
  rw [List.getD_eq_getElem?_getD, List.getElem?_eq_none]
  · rfl
  · exact Nat.le_trans (by decide) hi

end Nxpsc
