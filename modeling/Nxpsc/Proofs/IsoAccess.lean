import Nxpsc.Lib.Bounded
import Nxpsc.Proofs.Calls
import Nxpsc.Proofs.Layout
import Nxpsc.Spec.IsoAccess

/-!
# ISO commands: what they address, and what a selection leaves

The binary commands mask what they do not check: the short identifier to five
bits, the offset to fifteen, the length to a byte. The selections by ISO APDU
are sent past the session and never touch it; only the two calls that end in a
reset follow the card.
-/

namespace Nxpsc

open Dialogue

/-! ## One APDU -/

theorem isoExchange_once {cla ins p1 p2 : UInt8} {data : Bytes}
    {lePresent : Bool} {le : Nat} (cap : Nat) {frame : Frame}
    (hreq : isoRequest cla ins p1 p2 data lePresent le = .ok frame) :
    (isoExchange cla ins p1 p2 data lePresent le cap).Once (fun _ => frame)
      (isoAnswer cap) := by
  rw [isoExchange, hreq, Prog.ofExcept_ok_bind]
  exact Prog.once_ask_act _ _

theorem isoExchange_refused {cla ins p1 p2 : UInt8} {data : Bytes}
    {lePresent : Bool} {le : Nat} (cap : Nat) {e : Err}
    (hreq : isoRequest cla ins p1 p2 data lePresent le = .error e) :
    isoExchange cla ins p1 p2 data lePresent le cap = Prog.fail e := by
  rw [isoExchange, hreq, Prog.ofExcept_error_bind]

/-! ## The binary commands -/

theorem toNat_sfiParam (sfi : UInt8) :
    ((0x80 : UInt8) ||| (sfi &&& 0x1F)).toNat = 128 + sfi.toNat % 32 := by
  have hlow : sfi.toNat &&& 31 = sfi.toNat % 32 :=
    Nat.and_two_pow_sub_one_eq_mod sfi.toNat 5
  rw [UInt8.toNat_or, UInt8.toNat_and]
  change 128 ||| (sfi.toNat &&& 31) = _
  rw [hlow, Nat.or_comm, show (128 : Nat) = 1 <<< 7 from rfl,
    or_shiftLeft 1 (by omega), Nat.add_comm]
  rfl

theorem toNat_offsetHigh (offset : UInt16) :
    ((offset >>> 8) &&& 0x7F).toUInt8.toNat = offset.toNat / 256 % 128 := by
  have hlow : offset.toNat / 256 &&& 127 = offset.toNat / 256 % 128 :=
    Nat.and_two_pow_sub_one_eq_mod _ 7
  rw [UInt16.toNat_toUInt8, UInt16.toNat_and, UInt16.toNat_shiftRight,
    Nat.shiftRight_eq_div_pow]
  change (offset.toNat / 256 &&& 127) % 256 = _
  rw [hlow]
  omega

/-- The parameters of a binary command, read as the card reads them: what does
not fit is cut off. -/
theorem isoTarget_params {sfi : UInt8} {offset : UInt16} {p : UInt8 × UInt8}
    (h : isoBinaryParams sfi offset = .ok p) :
    isoTarget p.1 p.2 =
      if sfi = 0 then ⟨none, offset.toNat % 32768⟩
      else ⟨some (sfi.toNat % 32), offset.toNat⟩ := by
  have hoff := offset.toNat_lt
  rw [isoBinaryParams] at h
  by_cases hsfi : sfi = 0
  · rw [if_neg (not_not.mpr hsfi)] at h
    cases h
    have hhigh := toNat_offsetHigh offset
    rw [if_pos hsfi, isoTarget, hhigh, UInt16.toNat_toUInt8,
      if_neg (by omega)]
    congr 1
    omega
  · rw [if_pos hsfi] at h
    split at h
    · cases h
    · next hfits =>
        cases h
        have hle : offset.toNat ≤ 255 := Nat.le_of_not_lt fun hlt =>
          hfits (UInt16.lt_iff_toNat_lt.mpr hlt)
        rw [if_neg hsfi, isoTarget, toNat_sfiParam, UInt16.toNat_toUInt8,
          if_pos (by omega)]
        congr 1
        · congr 1
          omega
        · omega

theorem isoTarget_eq_iff {sfi : UInt8} {offset : UInt16} {p : UInt8 × UInt8}
    (h : isoBinaryParams sfi offset = .ok p) :
    isoTarget p.1 p.2 = BinaryTarget.of sfi offset ↔
      Addressable sfi offset := by
  have hoff := offset.toNat_lt
  rw [isoTarget_params h, BinaryTarget.of, Addressable]
  by_cases hsfi : sfi = 0
  · rw [if_pos hsfi, if_pos hsfi]
    simp only [BinaryTarget.mk.injEq, true_and, hsfi, UInt8.toNat_zero,
      Nat.zero_lt_succ, forall_const]
    omega
  · rw [if_neg hsfi, if_neg hsfi]
    simp only [BinaryTarget.mk.injEq, Option.some.injEq, and_true, hsfi,
      false_imp_iff]
    omega

/-- An offset that does not fit beside a short identifier is refused. -/
theorem isoBinaryParams_cases (sfi : UInt8) (offset : UInt16) :
    ((sfi ≠ 0 ∧ 255 < offset.toNat) ∧
      isoBinaryParams sfi offset = .error .param) ∨
    (¬ (sfi ≠ 0 ∧ 255 < offset.toNat) ∧
      ∃ p, isoBinaryParams sfi offset = .ok p ∧
        (isoTarget p.1 p.2 = BinaryTarget.of sfi offset ↔
          Addressable sfi offset)) := by
  have hlt : (0xFF : UInt16) < offset ↔ 255 < offset.toNat :=
    UInt16.lt_iff_toNat_lt
  by_cases hbad : sfi ≠ 0 ∧ 255 < offset.toNat
  · refine .inl ⟨hbad, ?_⟩
    rw [isoBinaryParams, if_pos hbad.1, if_pos (hlt.mpr hbad.2)]
  · obtain ⟨p, hp⟩ : ∃ p, isoBinaryParams sfi offset = .ok p := by
      rw [isoBinaryParams]
      split
      · next hsfi =>
          rw [if_neg fun h => hbad ⟨hsfi, hlt.mp h⟩]
          exact ⟨_, rfl⟩
      · exact ⟨_, rfl⟩
    exact .inr ⟨hbad, p, hp, isoTarget_eq_iff hp⟩

/-- A program that puts one APDU asks for what is in it. -/
theorem asks_iff {α : Type} {m : Api α} {card : Card} {apdu : Bytes}
    {cmd : BinaryCommand}
    (hqueries : ∀ script, (m card script).queries = [.apdu apdu]) :
    Asks m card cmd ↔ isoBinary apdu = some cmd := by
  constructor
  · intro hasks
    rcases hasks [] with ⟨e, he⟩ | ⟨apdu', hq, hcmd⟩
    · have hq := hqueries []
      rw [he] at hq
      cases hq
    · rw [hqueries] at hq
      cases hq
      exact hcmd
  · exact fun hcmd script => .inr ⟨apdu, hqueries script, hcmd⟩

/-- One question puts one query, whatever follows it silently. -/
theorem queries_once_bind {α β : Type} {m : Api α} {q : Frame}
    {f : Answer → Card → Except Err α × Card} (hm : m.Once (fun _ => q) f)
    {g : α → Api β} (hg : ∀ a s script, (g a s script).queries = [])
    (card : Card) (script : List Answer) :
    ((m >>= g) card script).queries = [q] := by
  rw [Prog.bind_def, Prog.bind]
  cases script with
  | nil => rw [hm.waits]; rfl
  | cons a rest =>
      rw [hm.reads]
      cases (f a card).1 with
      | error e => rfl
      | ok x =>
          have hrest := hg x (f a card).2 rest
          dsimp only
          rw [Outcome.queries_prepend, hrest]
          rfl

/-- The Le of a length, and the length a card reads in it. -/
theorem le_eq_iff {length : Nat} (hle : length ≤ 256) :
    (if (if length = 256 then 0x00 else UInt8.ofNat length) = 0 then 256
      else (if length = 256 then (0x00 : UInt8)
        else UInt8.ofNat length).toNat) = length ↔ length ≠ 0 := by
  by_cases hfull : length = 256
  · subst hfull
    decide
  · have hnat : (UInt8.ofNat length).toNat = length := by
      rw [UInt8.toNat_ofNat']
      omega
    have hzero : UInt8.ofNat length = 0 ↔ length = 0 := by
      rw [← UInt8.toNat_inj, hnat]
      rfl
    rw [if_neg hfull]
    by_cases h0 : length = 0
    · rw [if_pos (hzero.mpr h0)]
      omega
    · rw [if_neg fun h => h0 (hzero.mp h), hnat]
      exact iff_of_true rfl h0

theorem isoReadBinary_asks (card : Card) (sfi : UInt8) (offset : UInt16)
    (length cap : Nat) :
    Asks (isoReadBinary sfi offset length cap) card
        (.read (.of sfi offset) length) ↔
      (sfi ≠ 0 ∧ 255 < offset.toNat) ∨ 256 < length ∨
        Addressable sfi offset ∧ length ≠ 0 := by
  rcases isoBinaryParams_cases sfi offset with ⟨hbad, hp⟩ |
    ⟨hgood, p, hp, htarget⟩
  · refine iff_of_true (fun script => .inl ⟨.param, ?_⟩) (.inl hbad)
    rw [isoReadBinary, hp, Prog.ofExcept_error_bind]
    rfl
  by_cases hlong : 256 < length
  · refine iff_of_true (fun script => .inl ⟨.length, ?_⟩) (.inr (.inl hlong))
    have hreq : isoRequest 0x00 isoInsReadBinary p.1 p.2 [] true length =
        .error .length := by
      rw [isoRequest, if_pos (.inr hlong)]
    rw [isoReadBinary, hp, Prog.ofExcept_ok_bind,
      isoExchange_refused cap hreq]
    rfl
  have hreq : isoRequest 0x00 isoInsReadBinary p.1 p.2 [] true length =
      .ok (.apdu [0x00, isoInsReadBinary, p.1, p.2,
        if length = 256 then 0x00 else UInt8.ofNat length]) := by
    rw [isoRequest, if_neg (not_or.mpr ⟨by decide, hlong⟩)]
    rfl
  have hqueries : ∀ script, (isoReadBinary sfi offset length cap card
      script).queries = [_] := fun script => by
    rw [isoReadBinary, hp, Prog.ofExcept_ok_bind]
    exact queries_once_bind (isoExchange_once cap hreq) (fun _ _ _ => rfl) _ _
  rw [asks_iff hqueries]
  change some (BinaryCommand.read (isoTarget p.1 p.2) _) = some _ ↔ _
  rw [Option.some.injEq, BinaryCommand.read.injEq, htarget,
    le_eq_iff (Nat.le_of_not_lt hlong)]
  exact ⟨fun h => .inr (.inr h), fun h =>
    (h.resolve_left hgood).resolve_left hlong⟩

theorem isoUpdateBinary_asks (card : Card) (sfi : UInt8) (offset : UInt16)
    (data : Bytes) :
    Asks (isoUpdateBinary sfi offset data) card
        (.update (.of sfi offset) data) ↔
      data = [] ∨ (sfi ≠ 0 ∧ 255 < offset.toNat) ∨ 255 < data.length ∨
        Addressable sfi offset := by
  by_cases hnil : data.length = 0
  · refine iff_of_true (fun script => .inl ⟨.param, ?_⟩)
      (.inl (List.length_eq_zero_iff.mp hnil))
    rw [isoUpdateBinary, if_pos hnil]
    rfl
  have hne : data ≠ [] := fun h => hnil (List.length_eq_zero_iff.mpr h)
  rcases isoBinaryParams_cases sfi offset with ⟨hbad, hp⟩ |
    ⟨hgood, p, hp, htarget⟩
  · refine iff_of_true (fun script => .inl ⟨.param, ?_⟩) (.inr (.inl hbad))
    rw [isoUpdateBinary, if_neg hnil, hp, Prog.ofExcept_error_bind]
    rfl
  by_cases hlong : 255 < data.length
  · refine iff_of_true (fun script => .inl ⟨.length, ?_⟩)
      (.inr (.inr (.inl hlong)))
    have hreq : isoRequest 0x00 isoInsUpdateBinary p.1 p.2 data false 0 =
        .error .length := by
      rw [isoRequest, if_pos (.inl hlong)]
    rw [isoUpdateBinary, if_neg hnil, hp, Prog.ofExcept_ok_bind,
      isoExchange_refused 16 hreq]
    rfl
  have hreq : isoRequest 0x00 isoInsUpdateBinary p.1 p.2 data false 0 =
      .ok (.apdu ([0x00, isoInsUpdateBinary, p.1, p.2] ++
        UInt8.ofNat data.length :: data)) := by
    rw [isoRequest, if_neg (not_or.mpr ⟨hlong, by decide⟩), if_neg hnil]
    exact congrArg (fun bytes => Except.ok (Frame.apdu bytes))
      (List.append_nil _)
  have hqueries : ∀ script, (isoUpdateBinary sfi offset data card
      script).queries = [_] := fun script => by
    rw [isoUpdateBinary, if_neg hnil, hp, Prog.ofExcept_ok_bind]
    exact queries_once_bind (isoExchange_once 16 hreq) (fun _ _ _ => rfl) _ _
  have hlc : data.length = (UInt8.ofNat data.length).toNat := by
    rw [UInt8.toNat_ofNat']
    omega
  rw [asks_iff hqueries]
  change (if data.length = (UInt8.ofNat data.length).toNat then
    some (BinaryCommand.update (isoTarget p.1 p.2) data) else none) =
      some _ ↔ _
  rw [if_pos hlc, Option.some.injEq, BinaryCommand.update.injEq, htarget,
    and_iff_left rfl]
  exact ⟨fun h => .inr (.inr (.inr h)), fun h =>
    ((h.resolve_left hne).resolve_left hgood).resolve_left hlong⟩

/-- A binary command addresses what it was given, or is refused, exactly where
the short identifier has five bits, an offset without one fifteen, and a read
asks for something. -/
theorem iso_binary_addresses (card : Card) (sfi : UInt8) (offset : UInt16)
    (length cap : Nat) (data : Bytes) :
    (Asks (isoReadBinary sfi offset length cap) card
        (.read (.of sfi offset) length) ↔
      (sfi ≠ 0 ∧ 255 < offset.toNat) ∨ 256 < length ∨
        Addressable sfi offset ∧ length ≠ 0) ∧
    (Asks (isoUpdateBinary sfi offset data) card
        (.update (.of sfi offset) data) ↔
      data = [] ∨ (sfi ≠ 0 ∧ 255 < offset.toNat) ∨ 255 < data.length ∨
        Addressable sfi offset) :=
  ⟨isoReadBinary_asks card sfi offset length cap,
    isoUpdateBinary_asks card sfi offset data⟩

/-- An update at offset 0x8000 writes to the beginning of the file. -/
theorem iso_binary_wraps :
    ¬ ∀ (card : Card) (sfi : UInt8) (offset : UInt16) (length cap : Nat)
      (data : Bytes),
      Asks (isoReadBinary sfi offset length cap) card
        (.read (.of sfi offset) length) ∧
      Asks (isoUpdateBinary sfi offset data) card
        (.update (.of sfi offset) data) := by
  intro hall
  rcases (hall (Card.opened none) 0 0x8000 1 1 [0xAA]).2 [] with
    ⟨e, he⟩ | ⟨apdu, hq, hcmd⟩
  · cases he
  · cases hq
    exact absurd hcmd (by decide)

end Nxpsc
