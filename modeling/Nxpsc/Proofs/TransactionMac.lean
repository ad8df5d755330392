import Nxpsc.Proofs.Cmac
import Nxpsc.Proofs.Fields
import Nxpsc.Spec.TransactionMac

/-!
# The two ends of a transaction MAC

The session vector is put together twice, from the counter before the
transaction and from the one the card reports behind it. The input is read
back block by block, and its header is the one that is sent.
-/

namespace Nxpsc

open Dialogue Parser

/-! ## The value -/

/-- Four bytes of the next counter are what the vector is made with. -/
theorem putU32_next {counter : UInt32} {tmc : Bytes} (hlen : tmc.length = 4)
    (hvalue : value tmc = (counter.toNat + 1) % 2 ^ 32) :
    tmc = putU32 (counter + 1) := by
  refine value_injective (hlen.trans rfl) ?_
  rw [value_putU32, hvalue, UInt32.toNat_add]
  rfl

theorem transVectors_differ : TransVectorsDiffer := by
  intro c₁ c₂ u₁ u₂ m₁ m₂ hu₁ hu₂ h
  obtain ⟨hpurpose, h⟩ := List.cons.inj h
  obtain ⟨h, huid⟩ := List.append_inj h rfl
  obtain ⟨-, hcounter⟩ := List.append_inj h rfl
  have hnext := congrArg value hcounter
  rw [value_putU32, value_putU32, UInt32.toNat_inj, UInt32.add_left_inj]
    at hnext
  rw [List.take_of_length_le (Nat.le_of_eq hu₁),
    List.take_of_length_le (Nat.le_of_eq hu₂)] at huid
  refine ⟨hnext, huid, ?_⟩
  cases m₁ <;> cases m₂ <;> first | rfl | cases hpurpose

section

variable [BlockCipher]

/-- Both ways to the value, and what keeps its session keys apart. -/
theorem tmac_derivations_agree {key : Key} (hkey : key.type = .aes128)
    {uid tmc tmi : Bytes} (huid : uid.length = 7) {counter : UInt32}
    (htmc : tmc.length = 4)
    (hvalue : value tmc = (counter.toNat + 1) % 2 ^ 32)
    (hne : tmi ≠ []) (hblocks : tmi.length % 16 = 0) :
    TmacAgrees key uid tmc tmi counter ∧ TransVectorsDiffer := by
  have hpos := List.length_pos_iff.mpr hne
  have hsession : ∀ forMac,
      transSessionKeyEv2 key.data.bytes counter uid forMac =
        .ok (nistCmac .aes128 key.data.bytes
          (transSessionVector counter uid forMac)) :=
    fun _ => cmac_zero _ _
  refine ⟨⟨hsession, _, hsession true, ?_⟩, transVectors_differ⟩
  have hvector : [0x5A, 0x00, 0x01, 0x00, 0x80] ++ tmc.take 4 ++ uid =
      transSessionVector counter uid true := by
    rw [putU32_next htmc hvalue, transSessionVector,
      List.take_of_length_le (Nat.le_of_eq huid)]
    rfl
  rw [tmacCompute, if_neg (not_not.mpr hkey), if_neg (not_not.mpr huid),
    if_neg (by omega)]
  dsimp only
  rw [hvector, cmac_zero]
  dsimp only
  rw [cmac_zero]
  dsimp only
  rw [truncateMac_eq_oddBytes (length_nistCmac _ _)]

end

/-- At the last counter the next one is zero. -/
theorem tmac_derivations_agree_wrapped :
    @TmacAgrees .identity ⟨.aes128, .zero 32, 0⟩ (Bytes.zeros 7)
      (Bytes.zeros 4) (Bytes.zeros 16) 0xFFFFFFFF ∧ TransVectorsDiffer :=
  @tmac_derivations_agree .identity _ rfl _ _ _ rfl _ rfl (by decide)
    (by decide) (by decide)

/-! ## The input -/

namespace RecordWrite

theorem fields_injective : Function.Injective fields := by
  rintro ⟨fileNo₁, offset₁, data₁, _, _, _⟩ ⟨fileNo₂, offset₂, data₂, _, _, _⟩
  intro h
  obtain ⟨rfl, hrest⟩ := Prod.mk.inj h
  obtain ⟨hoffset, rfl⟩ := Prod.mk.inj hrest
  obtain rfl := UInt32.toNat_inj.mp hoffset
  rfl

/-- What the block of an operation is. -/
def block (op : RecordWrite) : Bytes :=
  dfWriteRecord :: op.fileNo ::
    (putU24 op.offset ++ putU24 (UInt32.ofNat op.data.length) ++
      Bytes.zeros 8 ++ Bytes.fit ((op.data.length + 15) / 16 * 16) op.data)

theorem length_toNat (op : RecordWrite) :
    (UInt32.ofNat op.data.length).toNat = op.data.length := by
  have hsized := op.sized
  rw [UInt32.toNat_ofNat']
  omega

theorem builds (op : RecordWrite) (cap : Nat) :
    tmacTmiWriteRecord op.fileNo op.offset op.data cap =
      if cap < 16 + (op.data.length + 15) / 16 * 16 then .error .length
      else .ok op.block := by
  have hplaced := op.placed
  have hsized := op.sized
  have hfilled := List.length_pos_iff.mpr op.filled
  rw [tmacTmiWriteRecord, if_neg]
  · rfl
  · rw [not_or, not_or, UInt32.not_lt, UInt32.le_iff_toNat_le]
    exact ⟨Nat.le_of_lt_succ hplaced, by omega, by omega⟩

theorem adds_iff (op : RecordWrite) (block : Bytes) :
    op.Adds block ↔ block = op.block := by
  refine ⟨?_, ?_⟩
  · rintro ⟨cap, h⟩
    rw [builds] at h
    split at h
    · cases h
    · exact (Except.ok.inj h).symm
  · rintro rfl
    refine ⟨16 + (op.data.length + 15) / 16 * 16, ?_⟩
    rw [builds, if_neg (Nat.lt_irrefl _)]

/-- The data part is the record and zeros behind it. -/
theorem data_part (op : RecordWrite) :
    Bytes.fit ((op.data.length + 15) / 16 * 16) op.data = op.data ++
      Bytes.zeros ((op.data.length + 15) / 16 * 16 - op.data.length) :=
  Bytes.fit_of_le (by omega)

theorem block_whole (op : RecordWrite) : op.block.length % 16 = 0 := by
  simp only [block, List.length_cons, List.length_append, Bytes.length_fit,
    Bytes.length_zeros, putU24, List.length_nil]
  omega

theorem block_data (op : RecordWrite) :
    ∃ n, op.block.drop 16 = op.data ++ Bytes.zeros n :=
  ⟨_, op.data_part⟩

theorem block_header (op : RecordWrite) :
    op.block.take 8 = dfWriteRecord :: op.fileNo ::
      (putU24 op.offset ++ putU24 (UInt32.ofNat op.data.length)) := rfl

/-- A block is read as the operation it was made of. -/
theorem takes_block (op : RecordWrite) :
    Takes tmiBlock op.block op.fields := by
  have hoffset := @takes_number 3 (putU24 op.offset) rfl
  have hlength := @takes_number 3 (putU24 (UInt32.ofNat op.data.length)) rfl
  rw [value_putU24 (fitsU24_of_lt op.placed)] at hoffset
  rw [value_putU24 (fitsU24_of_lt (by
    rw [length_toNat]
    exact op.sized)), length_toNat] at hlength
  have hparts : op.block = [dfWriteRecord] ++ ([op.fileNo] ++
      (putU24 op.offset ++ (putU24 (UInt32.ofNat op.data.length) ++
        (Bytes.zeros 8 ++ (op.data ++ (Bytes.zeros
          ((op.data.length + 15) / 16 * 16 - op.data.length) ++ [])))))) := by
    rw [block, data_part, List.append_nil, List.append_assoc,
      List.append_assoc]
    rfl
  rw [hparts]
  refine (takes_item dfWriteRecord).bind ?_
  refine (takes_item op.fileNo).bind ?_
  refine hoffset.bind ?_
  refine hlength.bind ?_
  refine (takes_take (Bytes.length_zeros 8)).bind ?_
  refine (takes_take rfl).bind ?_
  exact (takes_take (Bytes.length_zeros _)).bind (takes_pure op.fields)

theorem reads_adds {ops : List RecordWrite} {blocks : List Bytes}
    (h : List.Forall₂ Adds ops blocks) :
    List.Forall₂ (fun a xs => Takes tmiBlock xs a ∧ xs ≠ [])
      (ops.map fields) blocks := by
  refine List.forall₂_map_left_iff.mpr (h.imp fun op block hadds => ?_)
  rw [(adds_iff op block).mp hadds]
  exact ⟨op.takes_block, List.cons_ne_nil _ _⟩

/-- Blocks of two lists that run together are the blocks of one. -/
theorem adds_unique {ops₁ ops₂ : List RecordWrite}
    {blocks₁ blocks₂ : List Bytes} (h₁ : List.Forall₂ Adds ops₁ blocks₁)
    (h₂ : List.Forall₂ Adds ops₂ blocks₂)
    (h : blocks₁.flatten = blocks₂.flatten) : ops₁ = ops₂ :=
  List.map_injective_iff.mpr fields_injective
    (flatten_unique (reads_adds h₁) (reads_adds h₂) h)

end RecordWrite

/-! ## The first frame -/

section

variable [BlockCipher]

theorem RecordWrite.sentAs_block (op : RecordWrite) {card : Card}
    (hnative : card.isoChaining = false) (comm : CommMode) :
    op.SentAs op.block card comm := by
  intro script
  rcases dataCall_sends (writeRecordRequest op.fileNo op.offset op.data comm)
    noAnswer card script with hunsent |
      ⟨req, wrapped, card₁, hreq, hwraps, hsends, hqueries⟩
  · exact .inl hunsent
  · right
    rw [writeRecordRequest] at hreq
    split at hreq
    · cases hreq
    have hcmd : fileCmd card dfWriteRecord dfWriteRecord2 = dfWriteRecord := by
      rw [fileCmd, hnative]
      rfl
    rw [hcmd] at hreq
    cases hreq
    obtain ⟨frames, hfirst⟩ := rawExchange_first dfWriteRecord wrapped
      maxResponse card₁ script
    rw [hwraps] at hfirst
    refine ⟨_, frames, hqueries.trans hfirst, ?_⟩
    have hheader := hsends.header (n := 7) (Nat.le_min.mpr ⟨Nat.le_refl 7, by
      simp only [writeRequest, List.length_cons, List.length_append, putU24]
      omega⟩)
    rw [List.take_take, Nat.min_eq_left (by decide), hheader, op.block_header]
    rfl

theorem tmi_determines : TmiDetermines where
  built op := ⟨op.block, (op.adds_iff _).mpr rfl⟩
  unique _ _ _ _ h₁ h₂ h := RecordWrite.adds_unique h₁ h₂ h
  whole op block h := by
    rw [(op.adds_iff block).mp h]
    exact op.block_whole
  data op block h := by
    rw [(op.adds_iff block).mp h]
    exact op.block_data
  header op block h card comm hnative := by
    rw [(op.adds_iff block).mp h]
    exact op.sentAs_block hnative comm

end

end Nxpsc
