import Nxpsc.Proofs.RequestShape
import Nxpsc.Spec.FileAccess

/-!
# What ISO chaining changes

The five file access commands have a second opcode each. The payload is the
same, but the three tables of `nxpsc_channel.c` only know the native opcodes:
under a chained one no header stays in the clear, and on D40 and EV1 no request
carries a MAC. What is left alone is exactly what does not look into them.
-/

namespace Nxpsc

/-! ## What the five commands ask for -/

theorem FileAccess.request_ok {access : FileAccess} {comm : CommMode}
    {card : Card} {req : Request} (hauth : card.authenticated = true)
    (h : access.request comm card = .ok req) :
    req.cmd = access.opcode card.isoChaining ∧
      req.data = access.header ++ access.body ∧
      req.txMode = modeFromPublic comm ∧
      req.rxMode = access.answerMode comm := by
  have heff : eff card (modeFromPublic comm) = modeFromPublic comm := by
    rw [eff, hauth]
    rfl
  have hwrite : (if eff card (modeFromPublic comm) = .plain then Mode.plain
      else .mac) = if false = true ∨ comm = .plain then modeFromPublic comm
        else .mac := by
    rw [heff]
    cases comm <;> rfl
  cases access with
  | readData fileNo offset length cap =>
      rw [request, readDataRequest] at h
      split at h
      · cases h
      cases h
      exact ⟨rfl, (List.append_nil _).symm, heff, heff⟩
  | writeData fileNo offset data =>
      rw [request, writeDataRequest] at h
      split at h
      · cases h
      cases h
      exact ⟨rfl, rfl, heff, hwrite⟩
  | readRecords fileNo recordNo recordCount cap =>
      rw [request, readRecordsRequest] at h
      split at h
      · cases h
      cases h
      exact ⟨rfl, (List.append_nil _).symm, heff, heff⟩
  | writeRecord fileNo offset data =>
      rw [request, writeRecordRequest] at h
      split at h
      · cases h
      cases h
      exact ⟨rfl, rfl, heff, hwrite⟩
  | updateRecord fileNo recordNo offset data =>
      rw [request, updateRecordRequest] at h
      split at h
      · cases h
      cases h
      exact ⟨rfl, rfl, heff, hwrite⟩

/-! ## What the tables know about the two opcodes -/

theorem opcode_header (access : FileAccess) (chained : Bool) (n : Nat) :
    cmdHeaderLen (access.opcode chained) n =
      if chained = true then 0 else access.header.length := by
  cases chained <;> cases access <;> rfl

theorem opcode_transmits (access : FileAccess) (chained : Bool) :
    txMacCmds.contains (access.opcode chained) =
      (!chained && !access.isRead) := by
  cases chained <;> cases access <;> rfl

theorem opcode_receives (access : FileAccess) (chained : Bool) :
    rxMacCmds.contains (access.opcode chained) =
      (!chained && access.isRead) := by
  cases chained <;> cases access <;> rfl

theorem header_pos (access : FileAccess) : 0 < access.header.length := by
  cases access <;> exact Nat.succ_pos _

theorem transmitsMac_opcode (card : Card) (access : FileAccess)
    (chained : Bool) :
    transmitsMac card (access.opcode chained) =
      (decide (card.channel ≠ .d40 ∧ card.channel ≠ .ev1) ||
        (!chained && !access.isRead)) := by
  rw [transmitsMac]
  split
  · next h => rw [decide_eq_true h, Bool.true_or]
  · next h => rw [decide_eq_false h, Bool.false_or, opcode_transmits]

theorem receivesMac_opcode (card : Card) (access : FileAccess)
    (chained : Bool) :
    receivesMac card (access.opcode chained) =
      (decide (card.channel ≠ .d40) || (!chained && access.isRead)) := by
  rw [receivesMac]
  split
  · next h => rw [decide_eq_true h, Bool.true_or]
  · next h => rw [decide_eq_false h, Bool.false_or, opcode_receives]

/-! ## How the request and the answer are treated -/

section

variable [BlockCipher]

theorem exchange_treats (req : Request) (card : Card) :
    Treats req card (req.treatment card) := by
  intro wrapped card₁ h
  rw [exchangeRequest] at h
  split at h
  · cases h
  refine ⟨channelEncode_sends h, fun status raw cap out card₂ hans => ?_⟩
  obtain ⟨iv, mode, hcard⟩ := channelEncode_frame req.cmd req.data maxResponse
    { card with mode := req.txMode, macMismatch := false }
  rw [h] at hcard
  subst hcard
  rw [exchangeAnswer] at hans
  split at hans
  · cases hans
  dsimp only at hans
  split at hans
  · exact ⟨_, channelDecode_accepted hans⟩
  · exact ⟨card.cmdCtr, channelDecode_accepted hans⟩

end

/-! ## Enciphered, MACed and plain -/

/-- In the enciphered mode the native opcode leaves its header in the clear,
and the chained one nothing. -/
theorem access_clear {access : FileAccess} {chained : Bool} {card : Card}
    (hchan : card.channel ≠ .auto) (hmode : card.mode = .enc) :
    (requestShape (access.opcode chained) (access.header ++ access.body)
      card).clear = if chained = true then [] else access.header := by
  have hlen : (access.header ++ access.body).length =
      access.header.length + access.body.length := List.length_append
  have hpos := header_pos access
  cases chained with
  | true =>
      have hbody : ¬ (access.header ++ access.body).length ≤ 0 := by omega
      cases hc : card.channel with
      | auto => exact absurd hc hchan
      | _ =>
          simp [requestShape, hc, hmode, opcode_header, RequestShape.closed,
            Nat.ne_of_gt hpos]
  | false =>
      have hmin : min access.header.length
          (access.header ++ access.body).length = access.header.length := by
        omega
      have hopen : (access.header ++ access.body).length ≤
          access.header.length → access.header ++ access.body =
            access.header := by
        intro hle
        rw [List.length_eq_zero_iff.mp (show access.body.length = 0 by omega),
          List.append_nil]
      have htake : (access.header ++ access.body).take access.header.length =
          access.header := List.take_left
      cases hc : card.channel with
      | auto => exact absurd hc hchan
      | ev2 | lrp =>
          simp only [requestShape, hc, hmode, opcode_header, hmin,
            reduceCtorEq, Bool.false_eq_true, if_false, RequestShape.closed,
            htake]
      | d40 | ev1 =>
          simp only [requestShape, hc, hmode, opcode_header, hmin,
            reduceCtorEq, Bool.false_eq_true, if_false, false_or, true_and]
          split
          · next hle => exact hopen hle
          · exact htake

/-- Whether a file access carries a MAC in its request. -/
def FileAccess.macs (access : FileAccess) (chained : Bool) (card : Card) :
    Bool :=
  decide (card.mode = .mac) &&
    match card.channel with
    | .d40 => !chained && !access.isRead && decide (access.body ≠ [])
    | .ev1 => !chained && !access.isRead
    | .ev2 | .lrp => true
    | .auto => false

theorem access_open {access : FileAccess} {chained : Bool} {card : Card}
    (hmode : card.mode = .plain ∨ card.mode = .mac) :
    requestShape (access.opcode chained) (access.header ++ access.body) card =
      .open (access.header ++ access.body) (access.macs chained card) := by
  have hlen : (access.header ++ access.body).length =
      access.header.length + access.body.length := List.length_append
  have hnil : decide (access.body ≠ []) = decide (0 < access.body.length) :=
    decide_eq_decide.mpr List.length_pos_iff.symm
  rcases hmode with hm | hm
  · cases hc : card.channel <;>
      simp [requestShape, FileAccess.macs, hc, hm]
  · cases hc : card.channel with
    | auto => simp [requestShape, FileAccess.macs, hc, hm]
    | ev2 | lrp => simp [requestShape, FileAccess.macs, hc, hm]
    | ev1 =>
        simp [requestShape, FileAccess.macs, hc, hm, transmitsMac_opcode]
    | d40 =>
        simp only [requestShape, FileAccess.macs, hc, hm, transmitsMac_opcode,
          opcode_header, true_or, if_true, hnil]
        cases chained
        · cases hread : access.isRead
          · simp [hlen]
          · simp
        · simp

theorem access_rule {access : FileAccess} {chained : Bool} {card : Card}
    (hchan : card.channel ≠ .auto) (hmode : card.mode = .mac)
    (hcmd : card.lastCmd = access.opcode chained) :
    answerRule card =
      if card.channel = .d40 ∧ (chained = true ∨ access.isRead = false) then
        .delivered
      else .maced := by
  cases hc : card.channel with
  | auto => exact absurd hc hchan
  | ev1 | ev2 | lrp => simp [answerRule, hc, hmode]
  | d40 =>
      simp only [answerRule, hc, hmode, hcmd, receivesMac_opcode]
      cases chained <;> cases access.isRead <;> rfl

theorem noted_channel (req : Request) (mode : Mode) (card : Card) :
    (req.noted mode card).channel = card.channel := rfl

theorem noted_mode (req : Request) (mode : Mode) (card : Card) :
    (req.noted mode card).mode = mode := rfl

section

variable {access : FileAccess} {card : Card} {native chained : Request}

theorem treatment_plain
    (hn : native.cmd = access.opcode false ∧
      native.data = access.header ++ access.body ∧ native.txMode = .plain ∧
      native.rxMode = .plain)
    (hc : chained.cmd = access.opcode true ∧
      chained.data = access.header ++ access.body ∧ chained.txMode = .plain ∧
      chained.rxMode = .plain) :
    chained.treatment card = native.treatment card := by
  obtain ⟨hncmd, hndata, hntx, hnrx⟩ := hn
  obtain ⟨hccmd, hcdata, hctx, hcrx⟩ := hc
  have hrule : answerRule (chained.noted .plain card) =
      answerRule (native.noted .plain card) := by
    simp only [answerRule, noted_channel, noted_mode, reduceCtorEq, if_false,
      true_or, if_true]
  rw [Request.treatment, Request.treatment, hctx, hntx, hcrx, hnrx, hrule,
    hccmd, hncmd, hcdata, hndata, access_open (.inl rfl),
    access_open (.inl rfl)]
  rfl

theorem treatment_full (hchan : card.channel ≠ .auto)
    (hn : native.cmd = access.opcode false ∧
      native.data = access.header ++ access.body ∧ native.txMode = .enc)
    (hc : chained.cmd = access.opcode true ∧
      chained.data = access.header ++ access.body ∧ chained.txMode = .enc) :
    chained.treatment card ≠ native.treatment card := by
  obtain ⟨hncmd, hndata, hntx⟩ := hn
  obtain ⟨hccmd, hcdata, hctx⟩ := hc
  intro heq
  have hclear := congrArg (fun t => t.shape.clear) heq
  simp only [Request.treatment, hctx, hntx, hccmd, hncmd, hcdata, hndata]
    at hclear
  rw [access_clear (by rw [noted_channel]; exact hchan) rfl,
    access_clear (by rw [noted_channel]; exact hchan) rfl] at hclear
  exact List.ne_nil_of_length_pos (header_pos access) hclear.symm

theorem treatment_mac (hchan : card.channel ≠ .auto)
    (hn : native.cmd = access.opcode false ∧
      native.data = access.header ++ access.body ∧ native.txMode = .mac ∧
      native.rxMode = .mac)
    (hc : chained.cmd = access.opcode true ∧
      chained.data = access.header ++ access.body ∧ chained.txMode = .mac ∧
      chained.rxMode = .mac) :
    chained.treatment card = native.treatment card ↔
      card.channel = .ev2 ∨ card.channel = .lrp ∨
        (card.channel = .ev1 ∧ access.isRead = true) ∨
        (card.channel = .d40 ∧ access.isRead = false ∧ access.body = []) := by
  obtain ⟨hncmd, hndata, hntx, hnrx⟩ := hn
  obtain ⟨hccmd, hcdata, hctx, hcrx⟩ := hc
  rw [Request.treatment, Request.treatment, hctx, hntx, hcrx, hnrx, hccmd,
    hncmd, hcdata, hndata, access_open (.inr rfl), access_open (.inr rfl),
    @access_rule access true (chained.noted .mac card) hchan rfl hccmd,
    @access_rule access false (native.noted .mac card) hchan rfl hncmd]
  simp only [Treatment.mk.injEq, RequestShape.open, RequestShape.mk.injEq,
    true_and, FileAccess.macs, noted_channel, noted_mode]
  rcases hchannel : card with ⟨_, channel⟩
  cases channel with
  | auto => exact absurd (by rw [hchannel]) hchan
  | ev2 => simp
  | lrp => simp
  | ev1 => simp
  | d40 => cases access.isRead <;> simp

end

/-- ISO chaining changes the opcode and nothing else for exactly the accesses
that do not look into the tables. -/
theorem iso_chaining_changes_opcode_only [BlockCipher] {access : FileAccess}
    {comm : CommMode} {card : Card} {native chained : Request}
    (hauth : card.authenticated = true) (hchan : card.channel ≠ .auto)
    (hnative : access.request comm { card with isoChaining := false } =
      .ok native)
    (hchained : access.request comm { card with isoChaining := true } =
      .ok chained) :
    Treats native card (native.treatment card) ∧
      Treats chained card (chained.treatment card) ∧
      (chained.treatment card = native.treatment card ↔
        access.KeptByChaining comm card) := by
  refine ⟨exchange_treats native card, exchange_treats chained card, ?_⟩
  obtain ⟨hncmd, hndata, hntx, hnrx⟩ := @FileAccess.request_ok access comm
    { card with isoChaining := false } native hauth hnative
  obtain ⟨hccmd, hcdata, hctx, hcrx⟩ := @FileAccess.request_ok access comm
    { card with isoChaining := true } chained hauth hchained
  rw [FileAccess.KeptByChaining]
  rw [FileAccess.answerMode] at hnrx hcrx
  cases comm with
  | plain =>
      rw [if_pos (.inr rfl)] at hnrx hcrx
      exact iff_of_true (treatment_plain ⟨hncmd, hndata, hntx, hnrx⟩
        ⟨hccmd, hcdata, hctx, hcrx⟩) (.inl rfl)
  | mac =>
      have hrx : (if access.isRead = true ∨ CommMode.mac = .plain then
          modeFromPublic .mac else Mode.mac) = .mac := by
        split <;> rfl
      rw [hrx] at hnrx hcrx
      rw [treatment_mac hchan ⟨hncmd, hndata, hntx, hnrx⟩
        ⟨hccmd, hcdata, hctx, hcrx⟩]
      simp
  | full =>
      refine iff_of_false (treatment_full hchan ⟨hncmd, hndata, hntx⟩
        ⟨hccmd, hcdata, hctx⟩) ?_
      rintro (hp | ⟨hm, -⟩)
      · cases hp
      · cases hm

theorem iso_chaining_changes_opcode_only_plain :
    ∃ native chained,
      (FileAccess.readData 0x02 0 16 16).request .plain
        { liveEv2 with isoChaining := false } = .ok native ∧
      (FileAccess.readData 0x02 0 16 16).request .plain
        { liveEv2 with isoChaining := true } = .ok chained ∧
      chained.treatment liveEv2 = native.treatment liveEv2 :=
  ⟨_, _, rfl, rfl, ((@iso_chaining_changes_opcode_only .identity
    (.readData 0x02 0 16 16) .plain liveEv2 _ _ rfl (by decide) rfl
      rfl).2.2).mpr
      (.inl rfl)⟩

/-- An enciphered write on EV2 hides its header once chaining is on. -/
theorem iso_chaining_may_hide_header :
    ¬ ∀ (access : FileAccess) (comm : CommMode) (card : Card)
      (native chained : Request),
      card.authenticated = true → card.channel ≠ .auto →
      access.request comm { card with isoChaining := false } = .ok native →
      access.request comm { card with isoChaining := true } = .ok chained →
      chained.treatment card = native.treatment card := by
  intro hall
  have h := hall (.writeData 0x02 0 [0x2A]) .full liveEv2 _ _ rfl (by decide)
    rfl rfl
  have hclear := congrArg (fun t => t.shape.clear) h
  revert hclear
  decide

end Nxpsc
