import Nxpsc.Proofs.Fields
import Nxpsc.Spec.Sdm

/-!
# SDM settings are read back

The builder puts numbers one behind the other, under conditions; the parser
asks the same conditions of the bytes in front of them. That both ask the same
is a matter of a few bits, and seven numbers at most are put.
-/

namespace Nxpsc

open Parser

/-! ## The bits -/

/-- The flags are found in the options. -/
theorem sdmOptions_read (uid counter limit enc : Bool) :
    let options : UInt8 := 0x01 ||| flag uid 0x80 ||| flag counter 0x40 |||
      flag limit 0x20 ||| flag enc 0x10
    (options &&& 0x80 != 0) = uid ∧ (options &&& 0x40 != 0) = counter ∧
      (options &&& 0x20 != 0) = limit ∧ (options &&& 0x10 != 0) = enc := by
  revert uid counter limit enc
  decide

theorem ne_iff_of_bne {a b : UInt8} {q : Bool} (h : (a != b) = q) :
    a ≠ b ↔ q = true := by
  rw [← h, bne_iff_ne]

/-- Two nibbles in one byte. -/
theorem nibbles_read (a b : UInt8) :
    (((a &&& 0x0F) <<< 4) ||| (b &&& 0x0F)) >>> 4 = a &&& 0x0F ∧
      (((a &&& 0x0F) <<< 4) ||| (b &&& 0x0F)) &&& 0x0F = b &&& 0x0F := by
  refine ⟨?_, ?_⟩ <;>
  · apply UInt8.toBitVec_inj.mp
    ext i hi
    interval_cases i <;> simp

/-- A nibble under the reserved one. -/
theorem reserved_read (a : UInt8) :
    (0xF0 ||| (a &&& 0x0F)) &&& 0x0F = a &&& 0x0F := by
  rw [or_and, UInt8.and_assoc, UInt8.and_self, show (0xF0 : UInt8) &&& 0x0F = 0
    from rfl, UInt8.zero_or]

theorem fileOption_read (comm : CommMode) (enabled : Bool) :
    CommMode.ofFileOption (commToFile comm ||| flag enabled 0x40) = comm ∧
      ((commToFile comm ||| flag enabled 0x40) &&& 0x40 != 0) = enabled := by
  cases comm <;> cases enabled <;> decide

/-- The rights as they stand in their two bytes. -/
theorem rights_read (a : Access) :
    (⟨(packAccess a >>> 8).toUInt8 >>> 4, (packAccess a >>> 8).toUInt8 &&& 0x0F,
      (packAccess a).toUInt8 >>> 4, (packAccess a).toUInt8 &&& 0x0F⟩ : Access) =
        a.nibbles := by
  simp only [packAccess, Access.nibbles, Access.mk.injEq]
  refine ⟨?_, ?_, ?_, ?_⟩ <;>
  · apply UInt8.toBitVec_inj.mp
    ext i hi
    interval_cases i <;> simp

/-! ## The numbers -/

theorem length_ite_le (p : Prop) [Decidable p] (us : List UInt32) :
    (if p then us else []).length ≤ us.length := by
  split
  · exact Nat.le_refl _
  · exact Nat.zero_le _

/-- The PICC data are enciphered, or the UID and the counter are in the clear:
there is no file with all eight numbers. -/
theorem length_numbers (s : SdmSettings) : s.numbers.length ≤ 7 := by
  have hfile : (if s.fileReadKey &&& 0x0F ≠ 0x0F then
      s.macInputOffset ::
        (if s.encFileData then [s.encOffset, s.encLength] else []) ++
        [s.macOffset]
      else []).length ≤ 4 := by
    refine Nat.le_trans (length_ite_le _ _) ?_
    have henc := length_ite_le (s.encFileData = true)
      [s.encOffset, s.encLength]
    simp only [List.length_cons, List.length_append, List.length_nil] at henc ⊢
    omega
  have hone : ∀ (p : Prop) [Decidable p] (v : UInt32),
      (if p then [v] else []).length ≤ 1 := fun p _ v => length_ite_le p [v]
  have huid := hone (s.uidMirror = true ∧ s.metaReadKey &&& 0x0F = 0x0E)
    s.uidOffset
  have hcounter := hone (s.counterMirror = true ∧
    s.metaReadKey &&& 0x0F = 0x0E) s.counterOffset
  have hpicc := hone (s.metaReadKey &&& 0x0F ≤ 0x04) s.piccDataOffset
  have hlimit := hone (s.readCounterLimit = true) s.readCounterLimitValue
  rw [SdmSettings.numbers]
  simp only [List.length_append]
  by_cases hmeta : s.metaReadKey &&& 0x0F = 0x0E
  · rw [if_neg (show ¬ s.metaReadKey &&& 0x0F ≤ 0x04 by rw [hmeta]; decide),
      List.length_nil]
    omega
  · rw [if_neg (fun h => hmeta h.2), if_neg (fun h => hmeta h.2),
      List.length_nil]
    omega

/-! ## On the array -/

namespace InMemory

open Checked

variable {σ : Type} {cap : Nat}

/-- Numbers stored one behind the other. -/
def putAll : List UInt32 → Buf cap × Nat → Run σ (Buf cap × Nat)
  | [], done => pure done
  | u :: us, done => do
      let out ← store done.1 done.2 (putU24 u)
      putAll us (out, done.2 + 3)

theorem putU24If_all (p : Prop) [Decidable p] (v : UInt32)
    (done : Buf cap × Nat) :
    (putU24If p v done : Run σ _) = putAll (if p then [v] else []) done := by
  rw [putU24If]
  split
  · rfl
  · rfl

theorem putAll_if (p : Prop) [Decidable p] (us : List UInt32)
    (done : Buf cap × Nat) :
    (if p then putAll us done else pure done : Run σ _) =
      putAll (if p then us else []) done := by
  split
  · rfl
  · rfl

theorem putAll_append (us vs : List UInt32) (done : Buf cap × Nat) :
    (putAll us done >>= fun done => putAll vs done : Run σ _) =
      putAll (us ++ vs) done := by
  induction us generalizing done with
  | nil => rfl
  | cons u us ih =>
      rw [List.cons_append, putAll, putAll]
      rcases Nat.lt_or_ge cap (done.2 + (putU24 u).length) with hshort | hroom
      · rw [store_fault hshort]
        rfl
      · rw [store_eq hroom, pure_bind', pure_bind', ih]

/-- With room for all of them they stand behind what was written. -/
theorem putAll_eq (us : List UInt32) (b : Buf cap) (xs : Bytes)
    (h : xs.length + 3 * us.length ≤ cap) :
    (putAll us (b.patch 0 xs, xs.length) : Run σ _) =
      pure (b.patch 0 (xs ++ us.flatMap putU24),
        (xs ++ us.flatMap putU24).length) := by
  induction us generalizing xs with
  | nil => rw [putAll, List.flatMap_nil, List.append_nil]
  | cons u us ih =>
      have hthree : (putU24 u).length = 3 := rfl
      have hlen : (xs ++ putU24 u).length = xs.length + 3 := by
        rw [List.length_append, hthree]
      rw [List.length_cons] at h
      have hnext := @Buf.patch_patch _ b 0 xs (putU24 u) (by omega)
      rw [Nat.zero_add] at hnext
      rw [putAll, store_eq (by omega), pure_bind', hnext, ← hlen, ih _ (by
        rw [hlen]
        omega), List.flatMap_cons, List.append_assoc]

/-- The part for enabled settings puts the numbers behind six bytes. -/
theorem sdmTail_all (sdm : SdmSettings) (out : Buf cap)
    (hroom : ¬ cap < 3 + 3 + 7 * 3) :
    (sdmTail sdm out : Run σ _) =
      putAll sdm.numbers (out.patch 3 ((Nxpsc.sdmTail sdm).take 3), 6) := by
  obtain ⟨huid, hcounter, hlimit, henc⟩ := sdmOptions_read sdm.uidMirror
    sdm.counterMirror sdm.readCounterLimit sdm.encFileData
  rw [sdmTail, if_neg hroom, store_eq (by
    simp only [List.length_cons, List.length_nil]
    omega), pure_bind']
  simp only [putU24If_all, putAll_append, putAll_if, if_true]
  simp only [ne_iff_of_bne huid, ne_iff_of_bne hcounter, ne_iff_of_bne hlimit,
    ne_iff_of_bne henc]
  simp only [SdmSettings.numbers, List.append_assoc, List.cons_append,
    List.nil_append]
  rfl

theorem sdmTail_eq (s : SdmSettings) (out : Buf cap) {head : Bytes}
    (hhead : head.length = 3) (hroom : ¬ cap < 3 + 3 + 7 * 3) :
    (sdmTail s (out.patch 0 head) : Run σ _) =
      pure (out.patch 0 (head ++ Nxpsc.sdmTail s),
        (head ++ Nxpsc.sdmTail s).length) := by
  have hrights : ((Nxpsc.sdmTail s).take 3).length = 3 := rfl
  have hsix : (head ++ (Nxpsc.sdmTail s).take 3).length = 6 := by
    rw [List.length_append, hhead, hrights]
  have hcount := length_numbers s
  have hfront := @Buf.patch_patch _ out 0 head ((Nxpsc.sdmTail s).take 3)
    (by omega)
  rw [Nat.zero_add, hhead] at hfront
  rw [sdmTail_all s _ hroom, hfront, ← hsix, putAll_eq _ _ _ (by omega),
    ← sdmTail_drop, List.append_assoc, List.take_append_drop]

/-- On an array the builder writes what it builds, and where there is no room
for it, or a number is too large, it refuses. -/
theorem sdmBuildSettings_eq (comm : CommMode) (access : Access)
    (sdm : Option SdmSettings) (out : Buf cap) :
    (sdmBuildSettings comm access sdm out : Run σ _) =
      match Nxpsc.sdmBuildSettings comm access sdm cap with
      | .ok xs => pure (out.patch 0 xs, xs.length)
      | .error e => raise e := by
  have hhead : ∀ b v (f : Buf cap → Run σ (Buf cap × Nat)), ¬ cap < 3 →
      (do
        let out ← store out 0 [b]
        let out ← store out 1 (putU16 v)
        f out) = f (out.patch 0 (b :: putU16 v)) := by
    intro b v f hroom
    have htwo : (putU16 v).length = 2 := rfl
    have hfront := @Buf.patch_patch _ out 0 [b] (putU16 v) (by
      rw [List.length_singleton, htwo]
      omega)
    rw [store_eq (by rw [List.length_singleton]; omega), pure_bind',
      store_eq (by rw [htwo]; omega), pure_bind']
    exact congrArg f hfront
  cases sdm with
  | none =>
      simp only [sdmBuildSettings, Nxpsc.sdmBuildSettings, Option.any_none]
      rw [if_neg (by decide)]
      by_cases hroom : cap < 3
      · rw [if_pos hroom, if_pos hroom]
      · rw [if_neg hroom, if_neg hroom, hhead _ _ _ hroom]
        rfl
  | some s =>
      simp only [sdmBuildSettings, Nxpsc.sdmBuildSettings, Option.any_some]
      by_cases hfits : (s.offsets.any fun v => !fitsU24 v) = true
      · rw [if_pos hfits, if_pos hfits]
      rw [if_neg hfits, if_neg hfits]
      by_cases hroom : cap < 3
      · rw [if_pos hroom, if_pos hroom]
      rw [if_neg hroom, if_neg hroom, hhead _ _ _ hroom]
      by_cases hoff : s.enabled = false
      · rw [if_pos hoff, if_pos hoff]
        rfl
      rw [if_neg hoff, if_neg hoff]
      by_cases hsmall : cap < 3 + 3 + 7 * 3
      · rw [if_pos hsmall, sdmTail, if_pos hsmall]
      · rw [if_neg hsmall, sdmTail_eq s out rfl hsmall]

end InMemory

/-! ## The layout -/

theorem takes_present {v : UInt32} (q : Bool) (h : fitsU24 v = true) :
    Takes (announced q (number 3)) (if q then putU24 v else [])
      (present q v) := by
  have hread := takes_announced (q := q) fun _ => @takes_number 3 (putU24 v) rfl
  rw [value_putU24 h] at hread
  exact hread

theorem whole_present {v : UInt32} (q : Bool) (h : fitsU24 v = true) :
    Whole (announced q (number 3)) (if q then putU24 v else [])
      (present q v) := by
  have hread := takes_present q h []
  rwa [List.append_nil] at hread

/-- The parts of the settings, each under the condition the parser has. -/
theorem sdmTail_parts (s : SdmSettings) :
    sdmTail s =
      [0x01 ||| flag s.uidMirror 0x80 ||| flag s.counterMirror 0x40 |||
        flag s.readCounterLimit 0x20 ||| flag s.encFileData 0x10] ++
      ([0xF0 ||| (s.counterRetKey &&& 0x0F)] ++
      ([((s.metaReadKey &&& 0x0F) <<< 4) ||| (s.fileReadKey &&& 0x0F)] ++
      ((if s.uidMirror && s.metaReadKey &&& 0x0F == 0x0E then
          putU24 s.uidOffset else []) ++
      ((if s.counterMirror && s.metaReadKey &&& 0x0F == 0x0E then
          putU24 s.counterOffset else []) ++
      ((if decide (s.metaReadKey &&& 0x0F ≤ 0x04) then
          putU24 s.piccDataOffset else []) ++
      ((if s.fileReadKey &&& 0x0F != 0x0F then putU24 s.macInputOffset
          else []) ++
      ((if s.fileReadKey &&& 0x0F != 0x0F && s.encFileData then
          putU24 s.encOffset else []) ++
      ((if s.fileReadKey &&& 0x0F != 0x0F && s.encFileData then
          putU24 s.encLength else []) ++
      ((if s.fileReadKey &&& 0x0F != 0x0F then putU24 s.macOffset else []) ++
      (if s.readCounterLimit then putU24 s.readCounterLimitValue
        else [])))))))))) := by
  rw [sdmTail]
  by_cases hfile : s.fileReadKey &&& 0x0F = 0x0F
  · simp [hfile]
  · cases henc : s.encFileData <;> simp [hfile]

/-- Enabled settings are read back. -/
theorem sdmLayout_whole {s : SdmSettings}
    (hfits : ∀ v ∈ s.offsets, fitsU24 v = true) :
    Whole sdmLayout (sdmTail s) s.layout := by
  simp only [SdmSettings.offsets, List.mem_cons, List.not_mem_nil, or_false,
    forall_eq_or_imp, forall_eq] at hfits
  obtain ⟨huid, hcounter, hpicc, hmacIn, henc, hencLen, hmac, hlimit⟩ := hfits
  obtain ⟨huidBit, hcounterBit, hlimitBit, hencBit⟩ := sdmOptions_read
    s.uidMirror s.counterMirror s.readCounterLimit s.encFileData
  obtain ⟨hmeta, hfile⟩ := nibbles_read s.metaReadKey s.fileReadKey
  rw [sdmTail_parts]
  refine (takes_item _).bind_whole ?_
  refine (takes_item _).bind_whole ?_
  refine (takes_item _).bind_whole ?_
  simp only [huidBit, hcounterBit, hlimitBit, hencBit, hmeta, hfile,
    reserved_read]
  refine (takes_present _ huid).bind_whole ?_
  refine (takes_present _ hcounter).bind_whole ?_
  refine (takes_present _ hpicc).bind_whole ?_
  refine (takes_present _ hmacIn).bind_whole ?_
  refine (takes_present _ henc).bind_whole ?_
  refine (takes_present _ hencLen).bind_whole ?_
  refine (takes_present _ hmac).bind_whole ?_
  exact (whole_present _ hlimit).map _

/-- The option byte and the rights, and what they announce. -/
theorem settingsLayout_whole (comm : CommMode) (access : Access)
    {enabled : Bool} {tail : Bytes} {sdm : Option SdmLayout}
    (htail : Whole (announced enabled sdmLayout) tail sdm) :
    Whole settingsLayout
      ((commToFile comm ||| flag enabled 0x40) ::
        (putU16 (packAccess access) ++ tail))
      ⟨comm, access.nibbles, sdm⟩ := by
  obtain ⟨hcomm, hbit⟩ := fileOption_read comm enabled
  refine (takes_item _).bind_whole ?_
  refine (takes_item (packAccess access).toUInt8).bind_whole ?_
  refine (takes_item (packAccess access >>> 8).toUInt8).bind_whole ?_
  rw [hcomm, hbit, rights_read]
  exact htail.map _

theorem length_sdmTail (s : SdmSettings) : (sdmTail s).length ≤ 24 := by
  have hrun : ∀ us : List UInt32,
      (us.flatMap putU24).length = 3 * us.length := by
    intro us
    induction us with
    | nil => rfl
    | cons u us ih =>
        rw [List.flatMap_cons, List.length_append, ih, List.length_cons]
        show 3 + 3 * us.length = 3 * (us.length + 1)
        omega
  have hcount := length_numbers s
  have hrights : ((sdmTail s).take 3).length = 3 := rfl
  rw [← List.take_append_drop 3 (sdmTail s), List.length_append, hrights,
    sdmTail_drop, hrun]
  omega

/-- What is built fits the array and the worst case, and is read back but for
the rights, of which it is the four bits. -/
theorem sdmBuildSettings_ok {comm : CommMode} {access : Access}
    {sdm : Option SdmSettings} {cap : Nat} {xs : Bytes}
    (h : sdmBuildSettings comm access sdm cap = .ok xs) :
    xs.length ≤ cap ∧ xs.length ≤ 27 ∧
      Whole settingsLayout xs (configured comm access.nibbles sdm) := by
  have hhead : ∀ b tail, (b :: (putU16 (packAccess access) ++ tail)).length =
      3 + tail.length := by
    intro b tail
    rw [List.length_cons, List.length_append]
    show 2 + tail.length + 1 = 3 + tail.length
    omega
  rcases sdmBuildSettings_cases h with ⟨hroom, hoff, rfl⟩ |
    ⟨s, hlarge, hon, hfits, rfl⟩
  · rw [configured, hoff, ← List.append_nil (putU16 _), hhead]
    exact ⟨hroom, by decide, settingsLayout_whole comm access rfl⟩
  · have htail := length_sdmTail s
    rw [configured, hon, hhead]
    exact ⟨by omega, by omega,
      settingsLayout_whole comm access ((sdmLayout_whole hfits).map some)⟩

namespace InMemory

/-- On every array the builder writes inside it, and what it wrote is read
back, the rights as far as they fit. -/
theorem sdm_settings_read_back (comm : CommMode) (access : Access)
    (sdm : Option SdmSettings) (cap : Nat) :
    SdmReadAs comm access sdm cap (configured comm access.nibbles sdm) := by
  intro out
  rw [sdmBuildSettings_eq]
  cases hbuild : Nxpsc.sdmBuildSettings comm access sdm cap with
  | error e => exact trivial
  | ok xs =>
      obtain ⟨hcap, hworst, hread⟩ := sdmBuildSettings_ok hbuild
      have hkeeps := @Buf.drop_patch _ out 0 xs (by omega) 0
      rw [Nat.zero_add, Nat.add_zero] at hkeeps
      refine ⟨hcap, hworst, hkeeps, ?_⟩
      rw [Buf.take_patch (Nat.zero_add _) hcap, List.take_zero,
        List.nil_append]
      exact hread

/-- A right of five bits loses the upper one. -/
theorem sdm_right_cut_short :
    ¬ SdmReadAs .plain ⟨0x10, 0x00, 0x00, 0x00⟩ none 3
      (configured .plain ⟨0x10, 0x00, 0x00, 0x00⟩ none) := by
  intro h
  obtain ⟨-, -, -, hread⟩ := h (.zero 3)
  cases hread

end InMemory

end Nxpsc
