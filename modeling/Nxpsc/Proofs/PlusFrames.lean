import Nxpsc.Proofs.Cmac
import Nxpsc.Proofs.Layout
import Nxpsc.Proofs.NonFirst
import Nxpsc.Spec.Plus

/-!
# The frames of a MIFARE Plus session

Six calls make a frame of a session: the read, and five that end in the MAC of
a write and advance the write counter. Each of the five, once past its checks,
is `plusSend` of one frame, so what is true of `plusSend` is true of all of
them.
-/

namespace Nxpsc

open Dialogue

/-- Sends a frame that advances the write counter when it is acknowledged. -/
def plusSend (tx : Bytes) : Api Unit := do
  let _ ← plusTransceive tx 32
  Prog.modify fun card => { card with plusWCtr := card.plusWCtr + 1 }

/-- What becomes of the answer to such a frame. -/
def plusSent (answer : Answer) (card : Card) : Except Err Unit × Card :=
  Prog.andThen (plusAnswer 32 answer card) fun _ card =>
    (.ok (), { card with plusWCtr := card.plusWCtr + 1 })

theorem plusSend_once (tx : Bytes) :
    (plusSend tx).Once (fun _ => .plus tx) plusSent :=
  (plusTransceive_once tx 32).bind_act fun _ card =>
    (.ok (), { card with plusWCtr := card.plusWCtr + 1 })

/-- A write is acknowledged by a status, and the counter goes with it. -/
theorem plusSent_cases (a : Answer) (card : Card) :
    (∃ rx status, a = .ok rx ∧ rx.headD 0 = 0x90 ∧
      plusSent a card = (.ok (), { card with
        lastStatus := status, plusWCtr := card.plusWCtr + 1 })) ∨
    (∃ e status, (∀ rx, a = .ok rx → rx.headD 0 ≠ 0x90) ∧
      plusSent a card = (.error e, { card with lastStatus := status })) := by
  obtain ⟨status, hcard⟩ := plusAnswer_card 32 a card
  cases hans : (plusAnswer 32 a card).1 with
  | ok x =>
      obtain ⟨rx, rfl, -, hst⟩ := (plusAnswer_ok (by decide)).mp hans
      refine .inl ⟨rx, status, rfl, hst, ?_⟩
      simp only [plusSent, Prog.andThen, hans, hcard]
  | error e =>
      refine .inr ⟨e, status, ?_, ?_⟩
      · rintro rx rfl hst
        rw [(plusAnswer_ok (x := rx.take 32) (by decide)).mpr
          ⟨rx, rfl, rfl, hst⟩] at hans
        cases hans
      · simp only [plusSent, Prog.andThen, hans, hcard]

theorem length_plusValue (delta : Int32) : (plusValue delta).length = 16 := by
  rw [plusValue, List.length_append, Bytes.length_zeros]
  rfl

section

variable [BlockCipher]

/-! ## The MAC -/

theorem length_plusSessionMac (card : Card) (input : Bytes) :
    (plusSessionMac card input).length = 8 := length_cardMac _ _

/-- In a session the MAC of a message that fits is the card's. -/
theorem plusMac_eq {card : Card} (hauth : card.authenticated = true)
    (type : PlusMac) (block : UInt16) (count : UInt8) (data : Bytes)
    (hpos : 0 < data.length) (hlen : data.length ≤ maxResponse) :
    plusMac card type block count data =
      .ok (plusSessionMac card (plusMacInput card type block count data)) := by
  simp only [maxResponse] at hlen
  have hpass : ¬ (card.authenticated = false ∨ data.length < 1) := by
    rw [hauth]
    simp only [Bool.true_eq_false, false_or]
    omega
  rw [plusMac, if_neg hpass, if_neg (by simp only [maxResponse]; omega),
    if_neg (by simp only [maxResponse]; omega), plusSessionMac,
    ← truncateMac_nist, cmac_zero]

/-! ## The frame of a write -/

/-- Opcode, block, what comes with them, and the MAC. -/
def plusFrame (card : Card) (opcode : UInt8) (block : UInt16)
    (body : Bytes) : Bytes :=
  opcode :: (putU16 block ++ body) ++
    plusSessionMac card (plusMessage opcode card.plusWCtr card
      (putU16 block ++ body))

theorem plusMaced_run {card : Card} (hauth : card.authenticated = true)
    (opcode : UInt8) (block : UInt16) {body : Bytes}
    (hlen : body.length ≤ 16) (script : List Answer) :
    plusMaced block (opcode :: (putU16 block ++ body)) card script =
      plusSend (plusFrame card opcode block body) card script := by
  have hsize : (opcode :: (putU16 block ++ body)).length =
      3 + body.length := by
    rw [List.length_cons, List.length_append, Nat.add_right_comm]
    rfl
  have hmac := plusMac_eq hauth .writeCmd block 1
    (opcode :: (putU16 block ++ body)) (by rw [hsize]; omega)
    (by rw [hsize, maxResponse]; omega)
  rw [plusMaced, Prog.get_bind, hmac, Prog.ofExcept_ok_bind]
  rfl

/-- What a block is sent as. -/
def plusBody (card : Card) (encrypted : Bool) (data : Bytes) : Bytes :=
  if encrypted then
    (encSent .aes128 card.sessionEnc.bytes (plusDataIv card false) data).1
  else data

/-- A block is always sent, and sent as a block. -/
theorem plusBody_eq (card : Card) (encrypted : Bool) {data : Bytes}
    (hlen : data.length = 16) :
    (if encrypted then
      (cbcCrypt .aes128 card.sessionEnc.bytes (plusDataIv card false) data
        true).map Prod.fst
      else .ok data) = .ok (plusBody card encrypted data) ∧
    (plusBody card encrypted data).length = 16 := by
  cases encrypted with
  | false => exact ⟨rfl, hlen⟩
  | true =>
      have hsend : cbcCrypt .aes128 card.sessionEnc.bytes
          (plusDataIv card false) data true =
            .ok (encSent .aes128 card.sessionEnc.bytes
              (plusDataIv card false) data) :=
        (sameCipher_refl .aes128 card.sessionEnc.bytes).sends _
          (by omega) (by rw [hlen]; rfl)
      have hiv : blockSize .aes128 ≤ (plusDataIv card false).length :=
        Nat.le_of_eq (length_plusDataIv card false).symm
      obtain ⟨-, -, hout, -⟩ := cbcCryptEx_ok hiv hsend
      refine ⟨?_, hout.trans hlen⟩
      rw [if_pos rfl, hsend]
      rfl

theorem plusWriteBlock_run {card : Card} (hauth : card.authenticated = true)
    (opcode : UInt8) (block : UInt16) {data : Bytes} (encrypted : Bool)
    (hlen : data.length = 16) (script : List Answer) :
    plusWriteBlock opcode block data encrypted card script =
      plusSend (plusFrame card opcode block (plusBody card encrypted data))
        card script := by
  have hsize : ¬ data.length ≠ mfpBlockSize := not_not.mpr hlen
  obtain ⟨hbody, hblen⟩ := plusBody_eq card encrypted hlen
  rw [plusWriteBlock, if_neg hsize, Prog.get_bind,
    if_neg (by rw [hauth]; decide), hbody, Prog.ofExcept_ok_bind]
  exact plusMaced_run hauth opcode block (Nat.le_of_eq hblen) script

theorem plusBlockCmd_run {card : Card} (hauth : card.authenticated = true)
    (opcode : UInt8) (block : UInt16) (script : List Answer) :
    plusBlockCmd opcode block card script =
      plusSend (plusFrame card opcode block []) card script := by
  rw [plusBlockCmd, Prog.get_bind, if_neg (by rw [hauth]; decide),
    ← @plusMaced_run _ card hauth opcode block [] (Nat.zero_le 16),
    List.append_nil]

theorem plusValueCmd_run {card : Card} (hauth : card.authenticated = true)
    (credit debit : UInt8) (block : UInt16) (delta : Int32)
    (isCredit encrypted : Bool) (script : List Answer) :
    plusValueCmd credit debit block delta isCredit encrypted card script =
      plusSend (plusFrame card
        (if encrypted then if isCredit then credit else debit
          else (if isCredit then credit else debit) ^^^ 0x02) block
        (plusBody card encrypted (plusValue delta))) card script := by
  rw [plusValueCmd, Prog.get_bind, if_neg (by rw [hauth]; decide)]
  exact plusWriteBlock_run hauth _ block encrypted (length_plusValue delta)
    script

/-- The five calls: one block of the wrong length is refused, everything else
is one frame. -/
theorem plusWrites_run {card : Card} (hauth : card.authenticated = true)
    {call : Call} (hcall : call.plusWrites = true) :
    (∃ block data encrypted, call = .plusWrite block data encrypted ∧
      data.length ≠ 16 ∧
      ∀ script, call.run card script = .done [] (.error .param) card script) ∨
    ∃ frame, ∀ script, call.run card script = plusSend frame card script := by
  cases call with
  | plusWrite block data encrypted =>
      by_cases hlen : data.length = 16
      · exact .inr ⟨_, plusWriteBlock_run hauth _ block encrypted hlen⟩
      · refine .inl ⟨block, data, encrypted, rfl, hlen, fun script => ?_⟩
        have hsize : data.length ≠ mfpBlockSize := hlen
        rw [Call.run, plusWrite, plusWriteBlock, if_pos hsize]
        rfl
  | plusValueOp block delta credit encrypted =>
      exact .inr ⟨_, plusValueCmd_run hauth _ _ block delta credit encrypted⟩
  | plusValueTransfer block delta credit encrypted =>
      exact .inr ⟨_, plusValueCmd_run hauth _ _ block delta credit encrypted⟩
  | plusTransfer block => exact .inr ⟨_, plusBlockCmd_run hauth _ block⟩
  | plusRestore block => exact .inr ⟨_, plusBlockCmd_run hauth _ block⟩
  | _ => cases hcall

end

end Nxpsc
