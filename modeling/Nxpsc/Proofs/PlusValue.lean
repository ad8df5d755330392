import Nxpsc.Proofs.PlusFrames

/-!
# Value commands whose opcode is another command's

The opcode of a value command in the clear is the enciphered one with bit 1
flipped. The enciphered opcodes lie two apart, so the flip lands on a
neighbour: an increment in the clear goes out as an enciphered decrement, a
decrement as an enciphered increment, and increment-transfer as the transfer.
Everything else about a frame the card recovers.
-/

namespace Nxpsc

open Dialogue Parser

/-! ## A value in a block -/

theorem getI32_putU32 (v : UInt32) (more : Bytes) :
    getI32 (putU32 v ++ more) 0 = v.toInt32 := by
  rw [getI32]
  congr 1
  apply UInt32.toNat_inj.mp
  have hv := v.toNat_lt
  have hlow := toNat_getU24 v.toUInt8 (v >>> 8).toUInt8 (v >>> 16).toUInt8
    ((v >>> 24).toUInt8 :: more)
  have hhigh := toNat_shiftLeft_byte (v >>> 24).toUInt8 (k := 24) (by decide)
  simp only [value_cons, value_nil, UInt32.toNat_toUInt8, Nat.shiftLeft_eq,
    UInt32.toNat_shiftRight, Nat.shiftRight_eq_div_pow] at hlow hhigh
  simp only [show (8 : UInt32).toNat % 32 = 8 from rfl,
    show (16 : UInt32).toNat % 32 = 16 from rfl,
    show (24 : UInt32).toNat = 24 from rfl, Nat.reduceMod] at hlow hhigh
  change (getU24 (putU32 v ++ more) 0).toNat = _ at hlow
  change ((getU24 (putU32 v ++ more) 0) |||
    ((v >>> 24).toUInt8.toUInt32 <<< 24)).toNat = v.toNat
  rw [UInt32.toNat_or, hlow, hhigh, ← Nat.shiftLeft_eq,
    or_shiftLeft _ (by omega)]
  omega

theorem getI32_plusValue (delta : Int32) :
    getI32 (plusValue delta) 0 = delta := by
  rw [plusValue, getI32_putU32, Int32.toInt32_toUInt32]

/-! ## Opcodes -/

/-- The opcode the library sends a command under. -/
def PlusOp.opcode : PlusOp → Bool → UInt8
  | .increment, enciphered =>
      if enciphered then mfpIncrementEnc else mfpIncrementEnc ^^^ 0x02
  | .decrement, enciphered =>
      if enciphered then mfpDecrementEnc else mfpDecrementEnc ^^^ 0x02
  | .incrementTransfer, enciphered =>
      if enciphered then mfpIncrementTransferEnc
      else mfpIncrementTransferEnc ^^^ 0x02
  | .decrementTransfer, enciphered =>
      if enciphered then mfpDecrementTransferEnc
      else mfpDecrementTransferEnc ^^^ 0x02
  | .transfer, _ => mfpTransfer
  | .restore, _ => mfpRestore

/-- A command without data has none to encipher. -/
def PlusCommand.Formed (m : PlusCommand) : Prop :=
  m.op = .transfer ∨ m.op = .restore → m.enciphered = false

theorem plusCommand_formed {call : Call} {m : PlusCommand}
    (h : call.plusCommand = some m) : m.Formed := by
  cases call with
  | plusValueOp block delta credit encrypted =>
      cases h
      rintro (hop | hop) <;> cases credit <;> cases hop
  | plusValueTransfer block delta credit encrypted =>
      cases h
      rintro (hop | hop) <;> cases credit <;> cases hop
  | plusTransfer block | plusRestore block =>
      cases h
      exact fun _ => rfl
  | _ => cases h

/-- An opcode of its own names the operation and the form. -/
theorem opcode_own {m m' : PlusCommand} (hown : m.op.OwnOpcode m.enciphered)
    (hm : m.Formed) (hm' : m'.Formed)
    (h : m'.op.opcode m'.enciphered = m.op.opcode m.enciphered) :
    m'.op = m.op ∧ m'.enciphered = m.enciphered := by
  obtain ⟨op, enc, _, _⟩ := m
  obtain ⟨op', enc', _, _⟩ := m'
  simp only [PlusCommand.Formed] at hm hm'
  dsimp only at hown h ⊢
  cases op with
  | increment | decrement | transfer => exact hown.elim
  | incrementTransfer =>
      obtain rfl : enc = true := hown
      cases op' <;> cases enc' <;> revert h <;> decide
  | decrementTransfer =>
      cases enc <;> cases op' <;> cases enc' <;> revert h <;> decide
  | restore =>
      obtain rfl := hm (.inr rfl)
      cases op' with
      | restore => exact ⟨rfl, hm' (.inr rfl)⟩
      | _ => cases enc' <;> revert h <;> decide

/-- Where the opcode is another command's, that command. -/
theorem opcode_shared {m : PlusCommand} (hm : m.Formed)
    (hown : ¬ m.op.OwnOpcode m.enciphered) :
    ∃ (call' : Call) (m' : PlusCommand), call'.plusCommand = some m' ∧
      m'.op.opcode m'.enciphered = m.op.opcode m.enciphered ∧
      ¬ (m'.op = m.op ∧ m'.enciphered = m.enciphered) := by
  obtain ⟨op, enc, block, delta⟩ := m
  simp only [PlusCommand.Formed] at hm
  dsimp only at hown ⊢
  cases op with
  | increment =>
      refine ⟨.plusValueOp 0 0 false !enc, _, rfl, ?_, ?_⟩ <;>
        cases enc <;> decide
  | decrement =>
      refine ⟨.plusValueOp 0 0 true !enc, _, rfl, ?_, ?_⟩ <;>
        cases enc <;> decide
  | incrementTransfer =>
      cases enc with
      | true => exact (hown rfl).elim
      | false => exact ⟨.plusTransfer 0, _, rfl, by decide, by decide⟩
  | transfer =>
      obtain rfl := hm (.inl rfl)
      exact ⟨.plusValueTransfer 0 0 true false, _, rfl, by decide,
        by decide⟩
  | decrementTransfer | restore => exact (hown trivial).elim

/-! ## What the card takes out of a frame -/

theorem plusTakes_frame [BlockCipher] (card : Card) (enciphered : Bool)
    (opcode : UInt8) (block : UInt16) (body : Bytes) :
    plusTakes card enciphered (plusFrame card opcode block body) =
      some (block, if body.length = 0 then none
        else some (getI32 (if enciphered then
          (decReceived .aes128 card.sessionEnc.bytes (plusDataIv card false)
            body).1 else body) 0)) := by
  obtain ⟨mac, hmac⟩ : ∃ mac, plusSessionMac card
      (plusMessage opcode card.plusWCtr card (putU16 block ++ body)) = mac :=
    ⟨_, rfl⟩
  have hmlen : mac.length = 8 := hmac ▸ length_plusSessionMac card _
  have hframe : plusFrame card opcode block body =
      (opcode :: (putU16 block ++ body)) ++ mac := by
    rw [plusFrame, hmac]
  have hlen : ¬ ((opcode :: (putU16 block ++ body)) ++ mac).length < 11 := by
    simp only [List.length_append, List.length_cons, hmlen]
    change ¬ 2 + body.length + 1 + 8 < 11
    omega
  have hblock : getU16 (opcode :: (putU16 block ++ body)) 1 = block := by
    rw [getU16_drop]
    exact getU16_putU16 block body
  simp only [plusTakes, hframe]
  rw [Bytes.take_tail hmlen, Bytes.drop_tail hmlen, if_neg, hblock]
  · change (if body.length = 0 then some (block, none) else some (block, some
      (getI32 (if enciphered then (decReceived .aes128 card.sessionEnc.bytes
        (plusDataIv card false) body).1 else body) 0))) = _
    split <;> rfl
  · rw [not_or]
    exact ⟨hlen, not_not.mpr hmac⟩

/-- Deciphered, a block is what it was enciphered from. -/
theorem plusBody_read [c : BlockCipher] (hinv : DecryptInverts c) (card : Card)
    (encrypted : Bool) {data : Bytes} (hlen : data.length = 16) :
    (if encrypted then
      (decReceived .aes128 card.sessionEnc.bytes (plusDataIv card false)
        (plusBody card encrypted data)).1
      else plusBody card encrypted data) = data := by
  cases encrypted with
  | false => rfl
  | true =>
      have hiv : blockSize .aes128 ≤ (plusDataIv card false).length :=
        Nat.le_of_eq (length_plusDataIv card false).symm
      simp only [plusBody, if_true]
      rw [decReceived_encSent _ hinv hiv (by rw [hlen]; rfl)]

/-! ## The commands -/

section

variable [BlockCipher]

/-- What a value command puts into its frame behind the block. -/
def PlusCommand.body (m : PlusCommand) (card : Card) : Bytes :=
  match m.delta with
  | some delta => plusBody card m.enciphered (plusValue delta)
  | none => []

theorem plusCommand_run {card : Card} (hauth : card.authenticated = true)
    {call : Call} {m : PlusCommand} (h : call.plusCommand = some m)
    (script : List Answer) :
    call.run card script = plusSend (plusFrame card
      (m.op.opcode m.enciphered) m.block (m.body card)) card script := by
  cases call with
  | plusValueOp block delta credit encrypted =>
      cases h
      refine (plusValueCmd_run hauth _ _ block delta credit encrypted
        script).trans ?_
      cases credit <;> rfl
  | plusValueTransfer block delta credit encrypted =>
      cases h
      refine (plusValueCmd_run hauth _ _ block delta credit encrypted
        script).trans ?_
      cases credit <;> rfl
  | plusTransfer block | plusRestore block =>
      cases h
      exact plusBlockCmd_run hauth _ block script
  | _ => cases h

theorem plusCommand_sends {card : Card} (hauth : card.authenticated = true)
    {call : Call} {m : PlusCommand} (h : call.plusCommand = some m) :
    call.Sends card (plusFrame card (m.op.opcode m.enciphered) m.block
      (m.body card)) := by
  rw [Call.Sends, plusCommand_run hauth h]
  exact (plusSend_once _).waits card

theorem Call.Sends.unique {call : Call} {card : Card} {f f' : Bytes}
    (h : call.Sends card f) (h' : call.Sends card f') : f = f' := by
  rw [Call.Sends] at h h'
  rw [h] at h'
  cases h'
  rfl

theorem plusCommand_takes (hinv : DecryptInverts ‹BlockCipher›) (card : Card)
    (m : PlusCommand) :
    plusTakes card m.enciphered (plusFrame card (m.op.opcode m.enciphered)
      m.block (m.body card)) = some (m.block, m.delta) := by
  rw [plusTakes_frame]
  cases hdelta : m.delta with
  | none => simp only [PlusCommand.body, hdelta, List.length_nil, if_true]
  | some delta =>
      have hlen := length_plusValue delta
      have hne : ¬ (plusBody card m.enciphered (plusValue delta)).length = 0 :=
        by rw [(plusBody_eq card m.enciphered hlen).2]; decide
      simp only [PlusCommand.body, hdelta]
      rw [if_neg hne, plusBody_read hinv card m.enciphered hlen,
        getI32_plusValue]

/-- A value command is one frame, and the card recovers the command from it
exactly when its opcode is no other command's. -/
theorem plus_command_recovered (hinv : DecryptInverts ‹BlockCipher›)
    {card : Card} (hauth : card.authenticated = true) {call : Call}
    {m : PlusCommand} (h : call.plusCommand = some m) :
    ∃ frame, call.Sends card frame ∧
      (∀ script said r card' rest,
        call.run card script = .done said r card' rest →
        ∃ a, said = [(.plus frame, a)]) ∧
      (Recovered card m frame ↔ m.op.OwnOpcode m.enciphered) := by
  have hform := plusCommand_formed h
  refine ⟨_, plusCommand_sends hauth h, ?_, ?_, ?_⟩
  · intro script said r card' rest hrun
    rw [plusCommand_run hauth h] at hrun
    obtain ⟨a, -, hsaid, -, -⟩ := (plusSend_once _).done_iff.mp hrun
    exact ⟨a, hsaid⟩
  · intro hrec
    refine Classical.by_contradiction fun hown => ?_
    obtain ⟨call', m', h', hop, hne⟩ := opcode_shared hform hown
    exact hne (hrec.tells call' m' _ h' (plusCommand_sends hauth h') hop)
  · intro hown
    refine ⟨fun call' m' frame' h' hsend hop => ?_,
      plusCommand_takes hinv card m⟩
    obtain rfl := hsend.unique (plusCommand_sends hauth h')
    exact opcode_own hown hform (plusCommand_formed h') hop

end

/-! ### A debit and a credit -/

theorem plus_command_recovered_debit :
    ∃ frame, @Call.Sends .identity (.plusValueTransfer 4 10 false true)
        liveEv2 frame ∧
      (∀ script said r card' rest,
        @Call.run .identity (.plusValueTransfer 4 10 false true) liveEv2
          script = .done said r card' rest →
        ∃ a, said = [(.plus frame, a)]) ∧
      (@Recovered .identity liveEv2 ⟨.decrementTransfer, true, 4, some 10⟩
          frame ↔ PlusOp.OwnOpcode .decrementTransfer true) :=
  @plus_command_recovered .identity decryptInverts_identity liveEv2 rfl
    (.plusValueTransfer 4 10 false true) _ rfl

/-- A credit in the clear goes out under the opcode of an enciphered debit. -/
theorem plus_credit_sent_as_debit :
    ¬ ∀ (c : BlockCipher) (card : Card) (call : Call) (m : PlusCommand)
      (frame : Bytes), DecryptInverts c → card.authenticated = true →
      call.plusCommand = some m → call.Sends card frame →
      Recovered card m frame := by
  intro hall
  have hrec := hall .identity liveEv2 (.plusValueOp 4 10 true false) _ _
    decryptInverts_identity rfl rfl (@plusCommand_sends .identity _ rfl _ _ rfl)
  have htells := @Recovered.tells .identity _ _ _ hrec
    (.plusValueOp 4 10 false true) _ _ rfl
    (@plusCommand_sends .identity _ rfl _ _ rfl) rfl
  exact absurd htells.1 (by decide)

end Nxpsc
