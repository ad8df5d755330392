import Mathlib.Tactic.IntervalCases
import Nxpsc.Lib.Counting
import Nxpsc.Proofs.Calls
import Nxpsc.Spec.LrpCounter

/-!
# The LRP counter counts

The counter is four bytes, taken half byte by half byte as the source does. A
step adds one to its value and wraps at 2^32; so an operation takes the
counters from that of its context on, one for each block, and leaves the next.
The handle keeps the counter in its IV. Both halves of an exchange take it from
there and put it back, whether they succeed or not, and whatever else they do
to the session, they end it or keep its key.
-/

namespace Nxpsc

open Dialogue

/-! ## Half bytes -/

theorem low_of_low (b v : UInt8) :
    ((b &&& (0xF0 : UInt8)) ||| (v &&& 0x0F)) &&& 0x0F = v &&& 0x0F := by
  apply UInt8.eq_of_toBitVec_eq
  ext i hi
  interval_cases i <;> simp

theorem high_of_low (b v : UInt8) :
    (((b &&& (0xF0 : UInt8)) ||| (v &&& 0x0F)) >>> 4) &&& (0x0F : UInt8) =
      (b >>> 4) &&& (0x0F : UInt8) := by
  apply UInt8.eq_of_toBitVec_eq
  ext i hi
  interval_cases i <;> simp

theorem high_of_high (b v : UInt8) :
    (((b &&& (0x0F : UInt8)) ||| ((v <<< 4) &&& (0xF0 : UInt8))) >>> 4) &&&
      0x0F = v &&& 0x0F := by
  apply UInt8.eq_of_toBitVec_eq
  ext i hi
  interval_cases i <;> simp

theorem low_of_high (b v : UInt8) :
    ((b &&& (0x0F : UInt8)) ||| ((v <<< 4) &&& (0xF0 : UInt8))) &&& 0x0F =
      b &&& 0x0F := by
  apply UInt8.eq_of_toBitVec_eq
  ext i hi
  interval_cases i <;> simp

theorem getD_modify {bytes : Bytes} {k : Nat} (f : UInt8 → UInt8)
    (h : k < bytes.length) (j : Nat) :
    (bytes.modify k f).getD j 0 =
      if k = j then f (bytes.getD j 0) else bytes.getD j 0 := by
  simp only [List.getD_eq_getElem?_getD, List.getElem?_modify]
  split
  · next heq =>
      subst heq
      rw [List.getElem?_eq_getElem h]
      rfl
  · rw [show (fun a : UInt8 => a) = id from rfl, id_map]

theorem nibbleAt_setNibble {bytes : Bytes} {i : Nat} (v : UInt8)
    (h : i < 2 * bytes.length) :
    nibbleAt (setNibble bytes i v) i = v &&& 0x0F := by
  rw [nibbleAt, setNibble, getD_modify _ (by omega), if_pos rfl]
  split
  · exact low_of_low _ _
  · exact high_of_high _ _

theorem nibbleAt_setNibble_ne {bytes : Bytes} {i j : Nat} (v : UInt8)
    (h : i < 2 * bytes.length) (hne : j ≠ i) :
    nibbleAt (setNibble bytes i v) j = nibbleAt bytes j := by
  rw [nibbleAt, nibbleAt, setNibble, getD_modify _ (by omega)]
  by_cases hsame : i / 2 = j / 2
  swap
  · rw [if_neg hsame]
  rw [if_pos hsame]
  by_cases hodd : j % 2 = 1
  · rw [if_pos hodd, if_pos hodd, if_neg (by omega)]
    exact low_of_high _ _
  · rw [if_neg hodd, if_neg hodd, if_pos (by omega)]
    exact high_of_low _ _

theorem toNat_nibbleAt (bytes : Bytes) (i : Nat) :
    (nibbleAt bytes i).toNat < 16 := by
  have hlow : ∀ b : UInt8, (b &&& 0x0F).toNat < 16 := fun b => by
    rw [UInt8.toNat_and]
    exact Nat.lt_of_le_of_lt Nat.and_le_right (by decide)
  rw [nibbleAt]
  split
  · exact hlow _
  · exact hlow _

theorem nibblesValue_lt (i : Nat) (bytes : Bytes) :
    nibblesValue i bytes < 16 ^ i := by
  induction i with
  | zero => exact Nat.one_pos
  | succ i ih =>
      have := toNat_nibbleAt bytes i
      rw [nibblesValue, Nat.pow_succ]
      omega

theorem nibblesValue_congr {i : Nat} {bytes bytes' : Bytes}
    (h : ∀ j < i, nibbleAt bytes j = nibbleAt bytes' j) :
    nibblesValue i bytes = nibblesValue i bytes' := by
  induction i with
  | zero => rfl
  | succ i ih =>
      rw [nibblesValue, nibblesValue, ih fun j hj => h j (by omega),
        h i (by omega)]

/-- The half bytes from `i` on are not touched. -/
theorem nibbleAt_lrpIncCounter {i j : Nat} {counter : Bytes}
    (h : i ≤ 2 * counter.length) (hj : i ≤ j) :
    nibbleAt (lrpIncCounter i counter) j = nibbleAt counter j := by
  induction i generalizing counter with
  | zero => rfl
  | succ i ih =>
      have hset := nibbleAt_setNibble_ne (nibbleAt counter i + 1)
        (show i < 2 * counter.length by omega) (show j ≠ i by omega)
      simp only [lrpIncCounter]
      split
      · rw [ih (by rw [length_setNibble]; omega) (by omega), hset]
      · exact hset

/-- One step adds one, and wraps. -/
theorem nibblesValue_lrpIncCounter {i : Nat} {counter : Bytes}
    (h : i ≤ 2 * counter.length) :
    nibblesValue i (lrpIncCounter i counter) =
      (nibblesValue i counter + 1) % 16 ^ i := by
  induction i generalizing counter with
  | zero => exact (Nat.mod_one _).symm
  | succ i ih =>
      have hlen : i ≤ 2 * (setNibble counter i
          (nibbleAt counter i + 1)).length := by
        rw [length_setNibble]
        omega
      have hbefore : nibblesValue i (setNibble counter i
          (nibbleAt counter i + 1)) = nibblesValue i counter :=
        nibblesValue_congr fun j hj =>
          nibbleAt_setNibble_ne _ (by omega) (by omega)
      have hhere := nibbleAt_setNibble (nibbleAt counter i + 1)
        (show i < 2 * counter.length by omega)
      have hlt := toNat_nibbleAt counter i
      have hval := nibblesValue_lt i counter
      have hnext : (nibbleAt counter i + 1).toNat =
          (nibbleAt counter i).toNat + 1 := by
        rw [UInt8.toNat_add]
        exact Nat.mod_eq_of_lt (Nat.lt_of_le_of_lt hlt (by decide))
      rw [UInt8.toNat_inj.symm, UInt8.toNat_and, hnext] at hhere
      have hset : (nibbleAt (setNibble counter i (nibbleAt counter i + 1)) i
          ).toNat = ((nibbleAt counter i).toNat + 1) % 16 :=
        hhere.trans (Nat.and_two_pow_sub_one_eq_mod _ 4)
      have hmax : (0x0F : UInt8).toNat = 15 := rfl
      simp only [lrpIncCounter, nibblesValue, Nat.pow_succ]
      split
      · next hcarry =>
          -- the carry goes on: this half byte was 15 and is 0
          have hwas := UInt8.lt_iff_toNat_lt.mp hcarry
          rw [hnext] at hwas
          rw [ih hlen, hbefore, nibbleAt_lrpIncCounter hlen (Nat.le_refl i),
            hset, show (nibbleAt counter i).toNat = 15 by omega,
            show nibblesValue i counter * 16 + 15 + 1 =
              (nibblesValue i counter + 1) * 16 by omega,
            Nat.mul_mod_mul_right]
          rfl
      · next hdone =>
          have hsmall := UInt8.lt_iff_toNat_lt.not.mp hdone
          rw [hnext] at hsmall
          rw [hbefore, hset, Nat.mod_eq_of_lt (by omega),
            Nat.mod_eq_of_lt (by omega)]
          omega

/-! ## A context and its blocks -/

theorem nibbleAt_take {n j : Nat} (bytes : Bytes) (h : j / 2 < n) :
    nibbleAt (bytes.take n) j = nibbleAt bytes j := by
  simp only [nibbleAt, List.getD_eq_getElem?_getD, List.getElem?_take, if_pos h]

theorem counterValue_take (bytes : Bytes) :
    counterValue (bytes.take 4) = counterValue bytes :=
  nibblesValue_congr fun j hj => nibbleAt_take bytes (by omega)

theorem counterValue_lt (bytes : Bytes) : counterValue bytes < 2 ^ 32 :=
  nibblesValue_lt (4 * 2) bytes

/-- The context stands at the value `v` of a counter of four bytes. -/
structure AtCounter (ctx : LrpCtx) (v : Nat) : Prop where
  nibbles : ctx.counterLenNibbles = 4 * 2
  value : counterValue ctx.counter.bytes = v

theorem atCounter_set (ctx : LrpCtx) (iv : Bytes) (h : 4 ≤ iv.length) :
    AtCounter (lrpSetCounter ctx iv (4 * 2)) (counterValue iv) := by
  have hset : lrpSetCounter ctx iv (4 * 2) =
      { ctx with
        counter := .of 64 (iv.take 4)
        counterLenNibbles := 4 * 2 } := rfl
  rw [hset]
  refine ⟨rfl, ?_⟩
  show counterValue (Bytes.fit 64 (iv.take 4)) = _
  have hlen : (iv.take 4).length = 4 := by
    rw [List.length_take]
    omega
  rw [← counterValue_take, Bytes.fit_of_le (by omega), List.take_left' hlen,
    counterValue_take]

theorem AtCounter.next {ctx : LrpCtx} {v : Nat} (h : AtCounter ctx v) :
    AtCounter ctx.next ((v + 1) % 2 ^ 32) := by
  refine ⟨h.nibbles, ?_⟩
  show counterValue (lrpIncCounter ctx.counterLenNibbles ctx.counter.bytes) = _
  rw [h.nibbles, counterValue, nibblesValue_lrpIncCounter, ← counterValue,
    h.value]
  · rfl
  · rw [ctx.counter.size]
    decide

theorem spent_nil {v : Nat} (h : v < 2 ^ 32) : Spent v v [] :=
  ⟨rfl, (Nat.mod_eq_of_lt h).symm⟩

theorem Spent.append {v v₁ v₂ : Nat} {used used' : List Bytes}
    (h : Spent v v₁ used) (h' : Spent v₁ v₂ used') :
    Spent v v₂ (used ++ used') := by
  constructor
  · rw [List.map_append, h.values, h'.values, h.next, Counting.values_mod,
      List.length_append, Counting.values_add]
  · rw [h'.next, h.next, Nat.mod_add_mod, List.length_append, Nat.add_assoc]

/-- No counter is spent twice before the counter wraps. -/
theorem Spent.nodup {v v' : Nat} {used : List Bytes} (h : Spent v v' used)
    (hlen : used.length ≤ 2 ^ 32) : used.Nodup := by
  have hvalues := Counting.nodup_values v hlen
  rw [← h.values] at hvalues
  exact List.Nodup.of_map counterValue hvalues

theorem counterValue_put (iv : Buf 16) (counter : Buf 64) :
    counterValue (iv.put (counter.bytes.take 4)).bytes =
      counterValue counter.bytes := by
  have hlen : (counter.bytes.take 4).length = 4 := by
    rw [List.length_take, counter.size]
    rfl
  rw [← counterValue_take, Buf.put_take_eq hlen (by decide),
    counterValue_take]

/-- Nothing is spent where the IV stays. -/
theorem spent_same {card card' : Card} (h : card'.iv = card.iv) :
    Spent card.counter card'.counter [] := by
  rw [Card.counter, Card.counter, h]
  exact spent_nil (counterValue_lt _)

section

variable [BlockCipher]

theorem lrpBlocks_spent (prim : Bytes → Bytes → Bytes) (blocks : List Bytes)
    {ctx : LrpCtx} {v : Nat} (h : AtCounter ctx v) :
    ∃ v', AtCounter (lrpBlocks prim ctx blocks).2 v' ∧
      Spent v v' (lrpUsed ctx blocks) := by
  induction blocks generalizing ctx v with
  | nil =>
      refine ⟨v, h, spent_nil ?_⟩
      rw [← h.value]
      exact counterValue_lt _
  | cons block rest ih =>
      obtain ⟨v', hat, hspent⟩ := ih h.next
      have hone : Spent v ((v + 1) % 2 ^ 32) [ctx.counter.bytes.take 4] := by
        refine ⟨?_, rfl⟩
        rw [List.map_singleton, counterValue_take, h.value]
        show [v] = [v % 2 ^ 32]
        rw [Nat.mod_eq_of_lt]
        rw [← h.value]
        exact counterValue_lt _
      exact ⟨v', hat, hone.append hspent⟩

theorem lrpEncode_spent {ctx : LrpCtx} {v : Nat} (h : AtCounter ctx v)
    (data : Bytes) (cap : Nat) :
    ∃ v', AtCounter (lrpEncode ctx data cap).2 v' ∧
      Spent v v' (lrpEncodeUsed ctx data cap) := by
  have hlt : v < 2 ^ 32 := by
    rw [← h.value]
    exact counterValue_lt _
  simp only [lrpEncode, lrpEncodeUsed]
  generalize paddedLen (data.length + if ctx.bitPadding = true then 1 else 0)
    aesBlock = dlen
  by_cases hnone : dlen = 0
  · rw [if_pos hnone, if_pos hnone]
    exact ⟨v, h, spent_nil hlt⟩
  rw [if_neg hnone, if_neg hnone]
  by_cases hcap : cap < dlen
  · rw [if_pos hcap, if_pos hcap]
    exact ⟨v, h, spent_nil hlt⟩
  · rw [if_neg hcap, if_neg hcap]
    exact lrpBlocks_spent _ _ h

theorem lrpDecode_spent {ctx : LrpCtx} {v : Nat} (h : AtCounter ctx v)
    (data : Bytes) (cap : Nat) :
    ∃ v', AtCounter (lrpDecode ctx data cap).2 v' ∧
      Spent v v' (lrpDecodeUsed ctx data cap) := by
  have hlt : v < 2 ^ 32 := by
    rw [← h.value]
    exact counterValue_lt _
  simp only [lrpDecode, lrpDecodeUsed]
  split
  · exact ⟨v, h, spent_nil hlt⟩
  split
  · exact ⟨v, h, spent_nil hlt⟩
  · exact lrpBlocks_spent _ _ h

/-! ## The two directions of the channel -/

theorem atCounter_sessionLrp (card : Card) :
    AtCounter (sessionLrp card) card.counter :=
  atCounter_set _ _ (by rw [card.iv.size]; decide)

theorem ev2Encipher_spent {card : Card} (hchan : card.channel = .lrp)
    (body : Bytes) (room : Nat) :
    Spent card.counter (ev2Encipher body room card).2.counter
      (lrpEncodeUsed (sessionLrp card) body room) := by
  obtain ⟨v', hat, hspent⟩ :=
    lrpEncode_spent (atCounter_sessionLrp card) body room
  have hafter : (ev2Encipher body room card).2.counter = v' := by
    rw [ev2Encipher, if_pos hchan]
    exact (counterValue_put _ _).trans hat.value
  rwa [hafter]

theorem ev2Decipher_spent {card : Card} (hchan : card.channel = .lrp)
    (body : Bytes) :
    Spent card.counter (ev2Decipher body card).2.counter
      (lrpDecodeUsed (sessionLrp card) body maxResponse) := by
  obtain ⟨v', hat, hspent⟩ :=
    lrpDecode_spent (atCounter_sessionLrp card) body maxResponse
  have hafter : (ev2Decipher body card).2.counter = v' := by
    rw [ev2Decipher, if_pos hchan]
    exact (counterValue_put _ _).trans hat.value
  rwa [hafter]

theorem encodeEv2_spent {card : Card} (hchan : card.channel = .lrp)
    (cmd : UInt8) (src : Bytes) (cap : Nat) :
    Spent card.counter (encodeEv2 cmd src cap card).2.counter
      (encodeEv2Used cmd src cap card) := by
  have hsame : Spent card.counter card.counter [] := spent_same rfl
  simp only [encodeEv2, encodeEv2Used]
  by_cases hcap : cap < src.length
  · rw [if_pos hcap, if_pos (.inl hcap)]
    exact hsame
  rw [if_neg hcap]
  by_cases hmac : card.mode = .mac
  · rw [if_pos hmac, if_pos (.inr (.inr hmac))]
    repeat' split
    all_goals exact hsame
  rw [if_neg hmac]
  by_cases hplain : card.mode = .plain
  · rw [if_neg (by rw [hplain]; decide), if_pos (.inr (.inl hplain))]
    exact hsame
  have henc : card.mode = .enc ∨ card.mode = .encPadded ∨
      card.mode = .encPlain := by
    cases hmode : card.mode with
    | plain => exact absurd hmode hplain
    | mac => exact absurd hmode hmac
    | enc => exact .inl rfl
    | encPadded => exact .inr (.inl rfl)
    | encPlain => exact .inr (.inr rfl)
  rw [if_pos henc, if_neg (not_or.mpr ⟨hcap, not_or.mpr ⟨hplain, hmac⟩⟩)]
  generalize hhdr : min (cmdHeaderLen cmd src.length) src.length = hdr
  generalize hplen : paddedLen (src.length + 1 - hdr) aesBlock = plen
  by_cases hlong : hdr < src.length ∧ cap < hdr + plen + macLength card
  · rw [if_pos hlong, if_pos (.inr hlong.2)]
    exact hsame
  rw [if_neg hlong]
  by_cases hbody : hdr < src.length
  swap
  · rw [if_neg hbody, if_pos (.inl (Nat.not_lt.mp hbody))]
    dsimp only
    repeat' split
    all_goals exact hsame
  have hroom : ¬ cap < hdr + plen + macLength card := fun h =>
    hlong ⟨hbody, h⟩
  rw [if_pos hbody,
    if_neg (not_or.mpr ⟨Nat.not_le.mpr hbody, hroom⟩)]
  have hspent := ev2Encipher_spent hchan
    (Bytes.fit plen (src.drop hdr ++ [0x80])) (cap - hdr)
  split
  · next heq =>
      rw [heq] at hspent
      exact hspent
  · next heq =>
      rw [heq] at hspent
      repeat' split
      all_goals exact hspent

theorem decodeEv2_spent {card : Card} (hchan : card.channel = .lrp)
    (src : Bytes) (cap : Nat) :
    Spent card.counter (decodeEv2 src cap card).2.counter
      (decodeEv2Used src card) := by
  have hsame : Spent card.counter card.counter [] := spent_same rfl
  simp only [decodeEv2, decodeEv2Used]
  by_cases henc : card.mode = .enc ∨ card.mode = .encPadded
  swap
  · rw [not_or] at henc
    rw [if_pos henc]
    by_cases hmac : card.mode = .mac
    · simp only [hmac, true_or, if_true]
      repeat' split
      all_goals exact hsame
    · rw [if_pos ⟨hmac, henc⟩]
      exact hsame
  rw [if_neg fun h => not_and_or.mpr (henc.imp (not_not.mpr ·) (not_not.mpr ·))
    h, if_neg fun h => not_and_or.mpr (henc.imp (not_not.mpr ·)
      (not_not.mpr ·)) h.2]
  by_cases hshort : src.length < macLength card
  · rw [if_pos hshort, if_pos (.inl hshort)]
    exact hsame
  rw [if_neg hshort]
  cases hmac : ev2Cmac card 0x00 (src.take (src.length - macLength card)) with
  | error e =>
      dsimp only
      rw [if_pos (.inr (.inr (by simp)))]
      exact hsame
  | ok mac =>
  dsimp only
  by_cases hwrong : src.drop (src.length - macLength card) ≠ mac
  · rw [if_pos hwrong, if_pos (.inr (.inr fun h =>
      hwrong (Except.ok.inj h).symm))]
    exact hsame
  rw [if_neg hwrong]
  have hnomac : card.mode ≠ .mac := by
    rcases henc with h | h
    · rw [h]
      decide
    · rw [h]
      decide
  by_cases hsmall : src.length - macLength card < aesBlock
  · rw [if_pos (.inr hsmall), if_pos (.inr (.inl hsmall))]
    exact hsame
  rw [if_neg (not_or.mpr ⟨hnomac, hsmall⟩),
    if_neg (not_or.mpr ⟨hshort, not_or.mpr ⟨hsmall, fun h =>
      h (congrArg Except.ok (not_not.mp hwrong).symm)⟩⟩)]
  have hspent := ev2Decipher_spent hchan
    (src.take (src.length - macLength card))
  split
  · next heq =>
      rw [heq] at hspent
      exact hspent
  · next heq =>
      rw [heq] at hspent
      split
      · exact hspent
      · exact hspent

/-! ## An exchange -/

theorem channelEncode_lrp {card : Card} (hchan : card.channel = .lrp)
    (cmd : UInt8) (src : Bytes) (cap : Nat) :
    channelEncode cmd src cap card =
      encodeEv2 cmd src cap
        { card with
          lastCmd := cmd
          lastRequestZeroLen :=
            decide (src.length ≤ cmdHeaderLen cmd src.length) } := by
  rw [channelEncode]
  dsimp only
  rw [hchan]

theorem channelDecode_lrp {card : Card} (hchan : card.channel = .lrp)
    (src : Bytes) (status : UInt8) (cap : Nat) :
    channelDecode src status cap card = decodeEv2 src cap card := by
  rw [channelDecode, hchan]

theorem exchangeRequest_spent {card : Card} (hchan : card.channel = .lrp)
    (cmd : UInt8) (data : Bytes) (txMode rxMode : Mode) :
    Spent card.counter (exchangeRequest cmd data txMode rxMode card).2.counter
      (exchangeRequestUsed cmd data txMode rxMode card) := by
  rw [exchangeRequest, exchangeRequestUsed]
  by_cases hlost : card.sessionLost = true ∧
      (txMode ≠ .plain ∨ rxMode ≠ .plain)
  · rw [if_pos hlost, if_pos (.inr hlost)]
    exact spent_same rfl
  have henc := @channelEncode_lrp _
    { card with mode := txMode, macMismatch := false } hchan cmd data
    maxResponse
  rw [if_neg hlost, if_neg (not_or.mpr ⟨not_not.mpr hchan, hlost⟩), henc]
  have hspent := @encodeEv2_spent _ { card with
    mode := txMode, macMismatch := false, lastCmd := cmd
    lastRequestZeroLen :=
      decide (data.length ≤ cmdHeaderLen cmd data.length) } hchan cmd data
    maxResponse
  exact hspent

theorem exchangeAnswer_spent {card : Card} (hchan : card.channel = .lrp)
    {status : UInt8} (hst : statusEndsSession status = false) (rxMode : Mode)
    (cap : Nat) (raw : Bytes) :
    Spent card.counter (exchangeAnswer rxMode cap status raw card).2.counter
      (exchangeAnswerUsed rxMode status raw card) := by
  have hgoes : ¬ (card.channel ≠ .lrp ∨ statusEndsSession status = true) := by
    rintro (h | h)
    · exact h hchan
    · cases hst.symm.trans h
  have hspent := @decodeEv2_spent _ { card with
    mode := rxMode
    cmdCtr := if status ≠ dfSAdditionalFrame ∧ card.authenticated = true
      then card.cmdCtr + 1 else card.cmdCtr } hchan raw cap
  rw [exchangeAnswer, exchangeAnswerUsed, if_neg hgoes,
    if_neg (ne_true_of_eq_false hst)]
  by_cases hcount : status ≠ dfSAdditionalFrame ∧ card.authenticated = true
  · have hall : status ≠ dfSAdditionalFrame ∧ card.authenticated = true ∧
        (card.channel = .ev2 ∨ card.channel = .lrp) :=
      ⟨hcount.1, hcount.2, .inr hchan⟩
    have hdec := @channelDecode_lrp _
      { card with mode := rxMode, cmdCtr := card.cmdCtr + 1 } hchan raw status
      cap
    rw [if_pos hall]
    dsimp only
    rw [hdec]
    rw [if_pos hcount] at hspent ⊢
    exact hspent
  · have hnone : ¬ (status ≠ dfSAdditionalFrame ∧ card.authenticated = true ∧
        (card.channel = .ev2 ∨ card.channel = .lrp)) := fun h =>
      hcount ⟨h.1, h.2.1⟩
    have hdec := @channelDecode_lrp _ { card with mode := rxMode } hchan raw
      status cap
    rw [if_neg hnone]
    dsimp only
    rw [hdec]
    rw [if_neg hcount] at hspent ⊢
    exact hspent

end

theorem counts_of_part {card card' : Card}
    (h : card'.sessionPart = card.sessionPart) : Counts card [] card' := by
  have hchan : card'.channel = card.channel :=
    congrArg SessionPart.channel h
  have hiv : card'.iv = card.iv := congrArg SessionPart.iv h
  have hkey : card'.sessionEnc = card.sessionEnc :=
    congrArg SessionPart.sessionEnc h
  constructor
  · intro hlrp
    refine ⟨card'.counter, spent_same hiv, fun _ => ⟨rfl, ?_⟩⟩
    rw [Card.lrpKey, Card.lrpKey, hchan, hkey]
  · intro hno
    rw [hchan]
    exact ⟨rfl, hno⟩

/-- Outside a session nothing is left to count. -/
theorem counts_of_left {card card' : Card} (h : card'.channel ≠ .lrp) :
    Counts card [] card' :=
  ⟨fun _ => ⟨card.counter, spent_same rfl, fun h' => absurd h' h⟩,
    fun _ => ⟨rfl, h⟩⟩

/-! ## A whole exchange -/

theorem requestRule_idle : RequestRule (·.channel ≠ .lrp) where
  part {card card'} h hpart := by
    have hchan : card'.channel = card.channel :=
      congrArg SessionPart.channel hpart
    rwa [hchan]
  reset _ h := by cases h
  lost _ h := by cases h
  iv _ _ h := h
  counted _ _ h := h

/-- The calls that make requests end the session or keep its key. -/
theorem requestRule_lrpKey (key : Option Bytes) :
    RequestRule fun card => card.channel = .lrp → card.lrpKey = key where
  part {card card'} h hpart hlrp := by
    have hchan : card'.channel = card.channel :=
      congrArg SessionPart.channel hpart
    have henc : card'.sessionEnc = card.sessionEnc :=
      congrArg SessionPart.sessionEnc hpart
    have hkey := h (hchan.symm.trans hlrp)
    rwa [Card.lrpKey, hchan, henc]
  reset _ h := by cases h
  lost _ h := by cases h
  iv _ _ h := h
  counted _ _ h := h

section

variable [BlockCipher]

theorem exchangeUsed_unsent {card card₁ : Card} {cmd : UInt8} {data : Bytes}
    {txMode rxMode : Mode} {e : Err}
    (hreq : exchangeRequest cmd data txMode rxMode card = (.error e, card₁))
    (answers : List Answer) :
    exchangeUsed cmd data txMode rxMode card answers =
      exchangeRequestUsed cmd data txMode rxMode card := by
  rw [exchangeUsed, hreq]
  exact List.append_nil _

theorem exchangeUsed_sent {card card₁ : Card} {cmd : UInt8} {data : Bytes}
    {txMode rxMode : Mode} {wrapped : Bytes}
    (hreq : exchangeRequest cmd data txMode rxMode card = (.ok wrapped, card₁))
    {card₂ : Card} {script rest : List Answer} {said : Said}
    {r : Except Err (UInt8 × Bytes)}
    (hraw : rawExchange cmd wrapped maxResponse card₁ script =
      .done said r card₂ rest) :
    exchangeUsed cmd data txMode rxMode card (said.map Prod.snd) =
      exchangeRequestUsed cmd data txMode rxMode card ++
        match r with
        | .error _ => []
        | .ok (status, raw) => exchangeAnswerUsed rxMode status raw card₂ := by
  have hagain := replays_rawExchangeEx _ _ _ _ _ _ _ _ _ _ hraw []
  rw [List.append_nil] at hagain
  rw [exchangeUsed, hreq]
  dsimp only
  rw [show rawExchange cmd wrapped maxResponse card₁ (said.map Prod.snd) = _
    from hagain]
  cases r with
  | error e => rfl
  | ok answer => rfl

/-- Outside an LRP session nothing is enciphered in counter mode. -/
theorem exchangeUsed_idle {card : Card} (hchan : card.channel ≠ .lrp)
    (cmd : UInt8) (data : Bytes) (txMode rxMode : Mode)
    (answers : List Answer) :
    exchangeUsed cmd data txMode rxMode card answers = [] := by
  rw [exchangeUsed, exchangeRequestUsed, if_pos (.inl hchan), List.nil_append]
  split
  · rfl
  next wrapped card₁ hreq =>
  split
  · next hraw =>
      obtain ⟨status, rfl⟩ := (rawExchangeEx_done hraw).frame
      obtain ⟨lastCmd, zeroLen, iv, mode, rfl⟩ := exchangeRequest_frame hreq
      rw [exchangeAnswerUsed, if_pos (.inl hchan)]
  · rfl

/-- In an LRP session both directions go on from the counter of the handle. -/
theorem exchange_spent {cmd : UInt8} {data : Bytes} {txMode rxMode : Mode}
    {cap : Nat} {card card' : Card} {script rest : List Answer} {said : Said}
    {r : Except Err Bytes} (hchan : card.channel = .lrp)
    (h : exchange cmd data txMode rxMode cap card script =
      .done said r card' rest) :
    ∃ v, Spent card.counter v
        (exchangeUsed cmd data txMode rxMode card (said.map Prod.snd)) ∧
      (card'.channel = .lrp → card'.counter = v) := by
  rw [exchange, Prog.act_bind] at h
  have hout := exchangeRequest_spent hchan cmd data txMode rxMode
  rcases hreq : exchangeRequest cmd data txMode rxMode card with
    ⟨_ | wrapped, card₁⟩
  · rw [hreq] at h hout
    cases h
    rw [exchangeUsed_unsent hreq]
    exact ⟨_, hout, fun _ => rfl⟩
  rw [hreq] at h hout
  have hchan₁ : card₁.channel = .lrp := by
    obtain ⟨lastCmd, zeroLen, iv, mode, rfl⟩ := exchangeRequest_frame hreq
    exact hchan
  rcases Prog.bind_eq_done.mp h with ⟨e, hraw, rfl⟩ |
    ⟨said₁, ⟨status, raw⟩, card₂, rest₁, said₂, hraw, hdec, rfl⟩
  · obtain ⟨st, rfl⟩ := (rawExchangeEx_done hraw).frame
    rw [exchangeUsed_sent hreq hraw, List.append_nil]
    exact ⟨_, hout, fun _ => rfl⟩
  rw [Prog.act_run] at hdec
  cases hdec
  obtain ⟨st, rfl⟩ := (rawExchangeEx_done hraw).frame
  rw [List.append_nil, exchangeUsed_sent hreq hraw]
  dsimp only
  cases hst : statusEndsSession status with
  | true =>
      -- the session is dropped, or there was none to drop
      rw [exchangeAnswerUsed, if_pos (.inr hst), List.append_nil]
      refine ⟨_, hout, ?_⟩
      rw [exchangeAnswer, if_pos hst]
      dsimp only
      split
      · intro hno
        cases hno
      · exact fun _ => rfl
  | false =>
      have hin := @exchangeAnswer_spent _ { card₁ with lastStatus := st } hchan₁
        status hst rxMode cap raw
      exact ⟨_, hout.append hin, fun _ => rfl⟩

theorem exchange_counts {cmd : UInt8} {data : Bytes} {txMode rxMode : Mode}
    {cap : Nat} {card card' : Card} {script rest : List Answer} {said : Said}
    {r : Except Err Bytes}
    (h : exchange cmd data txMode rxMode cap card script =
      .done said r card' rest) :
    Counts card
      (exchangeUsed cmd data txMode rxMode card (said.map Prod.snd)) card' := by
  have hends := exchange_done h
  constructor
  · intro hchan
    obtain ⟨v, hspent, hv⟩ := exchange_spent hchan h
    have hkey := (requestRule_lrpKey card.lrpKey).exchange
      (fun _ => rfl) hends
    exact ⟨v, hspent, fun hlrp => ⟨hv hlrp, hkey hlrp⟩⟩
  · intro hchan
    exact ⟨exchangeUsed_idle hchan _ _ _ _ _,
      requestRule_idle.exchange hchan hends⟩

end

end Nxpsc
