import Nxpsc.Proofs.PlusFrames

/-!
# What a MIFARE Plus answer is believed for

A read believes its answer when the MAC says so, and one without a MAC when no
earlier command has left the mismatch flag set: the flag lives in the handle,
and only an answer that is MACed writes it. A write believes its status alone;
the MAC of its answer is never looked at.
-/

namespace Nxpsc

open Dialogue

section

variable [BlockCipher]

/-! ## Reads -/

/-- The bytes a read delivers. -/
def plusReadData (card : Card) (encrypted : Bool) (sent : Bytes) : Bytes :=
  if encrypted then
    (decReceived .aes128 card.sessionEnc.bytes (plusDataIv card true) sent).1
  else sent

/-- The verdict on the answer to a read that is long enough. -/
def plusReadMismatch (card : Card) (block : UInt16) (count : UInt8)
    (maced : Bool) (resp : Bytes) : Bool :=
  if maced then
    decide (plusSessionMac card (plusMessage 0x90 card.plusRCtr card
        (putU16 block ++ count :: (resp.drop 1).take (16 * count.toNat))) ≠
      (resp.drop (1 + 16 * count.toNat)).take 8)
  else card.macMismatch

/-- The blocks of an answer are always delivered. -/
theorem plusReadData_eq (card : Card) (encrypted : Bool) {sent : Bytes}
    (hpos : 0 < sent.length) (hmod : sent.length % 16 = 0) :
    (if encrypted then
      (cbcCrypt .aes128 card.sessionEnc.bytes (plusDataIv card true) sent
        false).map Prod.fst
      else .ok sent) = .ok (plusReadData card encrypted sent) := by
  cases encrypted with
  | false => rfl
  | true =>
      have hread : cbcCrypt .aes128 card.sessionEnc.bytes
          (plusDataIv card true) sent false =
            .ok (decReceived .aes128 card.sessionEnc.bytes
              (plusDataIv card true) sent) :=
        cbcCryptEx_receives _ _ _ hpos hmod
      rw [if_pos rfl, hread]
      rfl

/-- An answer that is too short stands for nothing. -/
theorem plusReadAnswer_short {card : Card} (block : UInt16) {count : UInt8}
    (encrypted : Bool) {maced : Bool} {resp : Bytes} (hcount : count ≠ 0)
    (hlen : resp.length < 1 + 16 * count.toNat + (if maced then 8 else 0)) :
    plusReadAnswer block count encrypted maced resp card =
      (.error .length, card) := by
  have hsize : count.toNat * mfpBlockSize = 16 * count.toNat :=
    Nat.mul_comm _ _
  have hpos : 0 < count.toNat := Nat.pos_of_ne_zero fun hzero =>
    hcount (UInt8.toNat_inj.mp hzero)
  simp only [plusReadAnswer, hsize]
  by_cases hbody : resp.length < 16 * count.toNat + 1
  · rw [if_pos hbody]
  have hsent : ((resp.drop 1).take (16 * count.toNat)).length =
      16 * count.toNat :=
    Bytes.length_part (by omega)
  rw [if_neg hbody, plusReadData_eq card encrypted (by rw [hsent]; omega)
    (by rw [hsent]; exact Nat.mul_mod_right 16 _)]
  cases maced with
  | false =>
      simp only [Bool.false_eq_true, if_false] at hlen
      omega
  | true =>
      simp only [if_true] at hlen
      have hmac : resp.length < 16 * count.toNat + 9 := by omega
      simp only [Bool.true_eq_false, if_false, if_pos hmac]

/-- The MAC that is expected behind the blocks is the card's. -/
theorem plusMac_readResp {card : Card} (hauth : card.authenticated = true)
    (block : UInt16) (count : UInt8) {resp : Bytes}
    (hst : resp.headD 0 = 0x90) {n : Nat} (hn : n ≤ 4080) :
    plusMac card .readResp block count (resp.take (n + 1)) =
      .ok (plusSessionMac card (plusMessage 0x90 card.plusRCtr card
        (putU16 block ++ count :: (resp.drop 1).take n))) := by
  cases resp with
  | nil => exact absurd hst (by decide)
  | cons b rest =>
  obtain rfl : b = 0x90 := hst
  have hlen : ((0x90 :: rest).take (n + 1)).length ≤ maxResponse := by
    rw [List.length_take, maxResponse]
    omega
  rw [plusMac_eq hauth .readResp block count ((0x90 :: rest).take (n + 1))
    (Nat.zero_lt_succ _) hlen]
  simp only [plusMacInput, List.take_succ_cons, List.headD_cons, plusMessage,
    List.drop_succ_cons, List.drop_zero, reduceCtorEq, or_self, if_false,
    List.cons_append, List.append_assoc]

/-- The answer to a read that is long enough: the blocks, unless the verdict
is against them. -/
theorem plusReadAnswer_long {card : Card} (hauth : card.authenticated = true)
    (block : UInt16) {count : UInt8} (encrypted : Bool) {maced : Bool}
    {resp : Bytes} (hcount : count ≠ 0) (hst : resp.headD 0 = 0x90)
    (hlen : 1 + 16 * count.toNat + (if maced then 8 else 0) ≤ resp.length) :
    plusReadAnswer block count encrypted maced resp card =
      (if plusReadMismatch card block count maced resp then .error .crypto
        else .ok (plusReadData card encrypted
          ((resp.drop 1).take (16 * count.toNat))),
        { card with
          macMismatch := plusReadMismatch card block count maced resp
          plusRCtr := card.plusRCtr + 1 }) := by
  have hsize : count.toNat * mfpBlockSize = 16 * count.toNat :=
    Nat.mul_comm _ _
  have hpos : 0 < count.toNat := Nat.pos_of_ne_zero fun hzero =>
    hcount (UInt8.toNat_inj.mp hzero)
  have hle := count.toNat_lt
  have hsent : ((resp.drop 1).take (16 * count.toNat)).length =
      16 * count.toNat := by
    rw [List.length_take, List.length_drop]
    split at hlen <;> omega
  have hbody : ¬ resp.length < 16 * count.toNat + 1 := by
    split at hlen <;> omega
  simp only [plusReadAnswer, hsize]
  rw [if_neg hbody, plusReadData_eq card encrypted (by rw [hsent]; omega)
    (by rw [hsent]; exact Nat.mul_mod_right 16 _)]
  cases maced with
  | false =>
      simp only [if_true, plusReadMismatch, Bool.false_eq_true, if_false]
      cases card.macMismatch <;> rfl
  | true =>
      simp only [if_true] at hlen
      have hmac : ¬ resp.length < 16 * count.toNat + 9 := by omega
      have hexp := plusMac_readResp hauth block count hst
        (n := 16 * count.toNat) (by omega)
      simp only [Bool.true_eq_false, if_false, if_neg hmac, hexp,
        plusReadMismatch, if_true, Except.map, ne_eq]
      split <;> rfl

/-- When the answer to a read is delivered. -/
theorem plusReadAnswer_ok {card : Card} (hauth : card.authenticated = true)
    (block : UInt16) {count : UInt8} (encrypted : Bool) {maced : Bool}
    {resp out : Bytes} (hcount : count ≠ 0) (hst : resp.headD 0 = 0x90) :
    (plusReadAnswer block count encrypted maced resp card).1 = .ok out ↔
      1 + 16 * count.toNat + (if maced then 8 else 0) ≤ resp.length ∧
        plusReadMismatch card block count maced resp = false ∧
        out = plusReadData card encrypted
          ((resp.drop 1).take (16 * count.toNat)) := by
  by_cases hlen : 1 + 16 * count.toNat + (if maced then 8 else 0) ≤
      resp.length
  · rw [plusReadAnswer_long hauth block encrypted hcount hst hlen]
    cases plusReadMismatch card block count maced resp with
    | true =>
        simp only [if_true, reduceCtorEq, Bool.true_eq_false, false_and,
          and_false]
    | false =>
        simp only [Bool.false_eq_true, if_false, Except.ok.injEq, hlen,
          true_and, eq_comm]
  · rw [plusReadAnswer_short block encrypted hcount (Nat.lt_of_not_le hlen)]
    simp only [reduceCtorEq, hlen, false_and]

theorem plusRead_run {card : Card} (hauth : card.authenticated = true)
    (block : UInt16) {count : UInt8} (encrypted maced : Bool) {cap : Nat}
    (hcount : count ≠ 0) (hcap : 16 * count.toNat ≤ cap) :
    ∃ tx, ∀ script, plusRead block count encrypted maced cap card script =
      (plusTransceive tx maxResponse >>= fun resp =>
        Prog.act (plusReadAnswer block count encrypted maced resp)) card
          script := by
  have hsize : count.toNat * mfpBlockSize = 16 * count.toNat :=
    Nat.mul_comm _ _
  have hmac := plusMac_eq hauth .readCmd block count
    (plusReadOpcode encrypted maced :: (putU16 block ++ [count]))
    (Nat.zero_lt_succ _) (show 4 ≤ maxResponse by decide)
  refine ⟨plusReadOpcode encrypted maced :: (putU16 block ++ [count]) ++
    plusSessionMac card (plusMacInput card .readCmd block count
      (plusReadOpcode encrypted maced :: (putU16 block ++ [count]))),
    fun script => ?_⟩
  rw [plusRead, if_neg hcount, Prog.get_bind, if_neg (by rw [hauth]; decide),
    hsize, if_neg (Nat.not_lt.mpr hcap), hmac, Prog.ofExcept_ok_bind]

/-- A read is refused before a frame is sent, or is one frame. -/
theorem plusRead_refused {card : Card} (hauth : card.authenticated = true)
    (block : UInt16) {count : UInt8} (encrypted maced : Bool) {cap : Nat}
    (hcount : count ≠ 0) (hcap : cap < 16 * count.toNat)
    (script : List Answer) :
    plusRead block count encrypted maced cap card script =
      .done [] (.error .length) card script := by
  have hsize : count.toNat * mfpBlockSize = 16 * count.toNat :=
    Nat.mul_comm _ _
  rw [plusRead, if_neg hcount, Prog.get_bind, if_neg (by rw [hauth]; decide),
    hsize, if_pos hcap]
  rfl

/-- An answer that fits the buffer of a read, in the buffer's terms. -/
theorem readAnswered_iff {card : Card} {block : UInt16} {count : UInt8}
    {encrypted maced : Bool} {rx out : Bytes} (hst : rx.headD 0 = 0x90) :
    ReadAnswered card block count encrypted maced rx out ↔
      1 + 16 * count.toNat + (if maced then 8 else 0) ≤
          (rx.take maxResponse).length ∧
        (maced = true → plusReadMismatch card block count true
          (rx.take maxResponse) = false) ∧
        out = plusReadData card encrypted
          (((rx.take maxResponse).drop 1).take (16 * count.toNat)) := by
  have hle := count.toNat_lt
  have hdata : ((rx.take maxResponse).drop 1).take (16 * count.toNat) =
      (rx.drop 1).take (16 * count.toNat) := by
    rw [List.drop_take, List.take_take, maxResponse]
    congr 1
    omega
  have hmac : ((rx.take maxResponse).drop (1 + 16 * count.toNat)).take 8 =
      (rx.drop (1 + 16 * count.toNat)).take 8 := by
    rw [List.drop_take, List.take_take, maxResponse]
    congr 1
    omega
  have hlen : 1 + 16 * count.toNat + (if maced then 8 else 0) ≤
      (rx.take maxResponse).length ↔
        1 + 16 * count.toNat + (if maced then 8 else 0) ≤ rx.length := by
    rw [List.length_take, maxResponse]
    split <;> omega
  rw [hlen, hdata, plusReadMismatch, if_pos rfl, hdata, hmac,
    decide_eq_false_iff_not, not_not]
  constructor
  · intro h
    exact ⟨h.length, h.mac, h.data⟩
  · rintro ⟨h, hm, hd⟩
    exact ⟨hst, h, hm, hd⟩

/-- The outcome of a read that was answered. -/
theorem plusRead_answered {card : Card} (hauth : card.authenticated = true)
    (block : UInt16) {count : UInt8} (encrypted maced : Bool)
    (hcount : count ≠ 0) (a : Answer) (out : Bytes) :
    (Prog.andThen (plusAnswer maxResponse a card)
        (plusReadAnswer block count encrypted maced)).1 = .ok out ↔
      ∃ rx, a = .ok rx ∧
        ReadAnswered card block count encrypted maced rx out ∧
        (maced = false → card.macMismatch = false) := by
  obtain ⟨status, hcard⟩ := plusAnswer_card maxResponse a card
  cases hans : (plusAnswer maxResponse a card).1 with
  | error e =>
      simp only [Prog.andThen, hans, reduceCtorEq, false_iff]
      rintro ⟨rx, rfl, hread, -⟩
      rw [(plusAnswer_ok (x := rx.take maxResponse) (by decide)).mpr
        ⟨rx, rfl, rfl, hread.status⟩] at hans
      cases hans
  | ok resp =>
      obtain ⟨rx, rfl, rfl, hst⟩ := (plusAnswer_ok (by decide)).mp hans
      have hhead : (rx.take maxResponse).headD 0 = 0x90 := by
        cases rx with
        | nil => exact hst
        | cons b rest => exact hst
      have hread := @plusReadAnswer_ok _
        { card with lastStatus := status } hauth block _ encrypted maced
        _ out hcount hhead
      simp only [Prog.andThen, hans, hcard, Except.ok.injEq, exists_eq_left',
        readAnswered_iff hst]
      refine hread.trans ?_
      cases maced with
      | false =>
          constructor
          · rintro ⟨hlen, hflag, hout⟩
            exact ⟨⟨hlen, fun h => (Bool.false_ne_true h).elim, hout⟩,
              fun _ => hflag⟩
          · rintro ⟨⟨hlen, -, hout⟩, hflag⟩
            exact ⟨hlen, hflag rfl, hout⟩
      | true =>
          constructor
          · rintro ⟨hlen, hmac, hout⟩
            exact ⟨⟨hlen, fun _ => hmac, hout⟩,
              fun h => (Bool.true_eq_false.mp h).elim⟩
          · rintro ⟨⟨hlen, hmac, hout⟩, -⟩
            exact ⟨hlen, hmac rfl, hout⟩

/-- A read of a session is judged by its own answer when the answer is MACed,
and without a MAC exactly when the mismatch flag is clear by then. -/
theorem plus_read_judged {card : Card} (hauth : card.authenticated = true)
    (block : UInt16) {count : UInt8} (encrypted maced : Bool) (cap : Nat)
    (hcount : count ≠ 0) :
    ReadJudged card block count encrypted maced cap ↔
      cap < 16 * count.toNat ∨ maced = true ∨ card.macMismatch = false := by
  by_cases hcap : cap < 16 * count.toNat
  · refine iff_of_true ?_ (.inl hcap)
    intro script said r card' rest hrun out
    rw [plusRead_refused hauth block encrypted maced hcount hcap] at hrun
    cases hrun
    refine iff_of_false (fun h => by cases h) ?_
    rintro ⟨frame, rx, hsaid, -⟩
    cases hsaid
  obtain ⟨tx, hread⟩ := plusRead_run hauth block encrypted maced hcount
    (Nat.le_of_not_lt hcap)
  have honce := (plusTransceive_once tx maxResponse).bind_act
    (plusReadAnswer block count encrypted maced)
  have hrun : ∀ a, plusRead block count encrypted maced cap card [a] =
      .done [(.plus tx, a)] (Prog.andThen (plusAnswer maxResponse a card)
        (plusReadAnswer block count encrypted maced)).1 _ [] := fun a => by
    rw [hread, honce.reads]
  constructor
  · -- an acceptable answer without a MAC, on a handle with the flag set
    intro hjudged
    refine .inr ?_
    cases maced with
    | true => exact .inl rfl
    | false =>
    let rx : Bytes := 0x90 :: Bytes.zeros (16 * count.toNat)
    have hrx : ReadAnswered card block count encrypted false rx
        (plusReadData card encrypted
          ((rx.drop 1).take (16 * count.toNat))) := by
      refine ⟨rfl, ?_, fun h => (Bool.false_ne_true h).elim, rfl⟩
      simp only [rx, List.length_cons, Bytes.length_zeros,
        Bool.false_eq_true, if_false]
      omega
    have hok := (hjudged _ _ _ _ _ (hrun (.ok rx)) _).mpr
      ⟨tx, rx, rfl, hrx⟩
    obtain ⟨_, -, -, hflag⟩ :=
      (plusRead_answered hauth block encrypted false hcount _ _).mp hok
    exact .inr (hflag rfl)
  · intro hcond script said r card' rest hdone out
    rw [hread] at hdone
    obtain ⟨a, -, rfl, rfl, -⟩ := honce.done_iff.mp hdone
    rw [plusRead_answered hauth block encrypted maced hcount]
    constructor
    · rintro ⟨rx, rfl, hans, -⟩
      exact ⟨tx, rx, rfl, hans⟩
    · rintro ⟨frame, rx, hsaid, hans⟩
      cases hsaid
      refine ⟨rx, rfl, hans, fun hplain => ?_⟩
      rcases hcond with hcond | hcond | hcond
      · exact absurd hcond hcap
      · rw [hplain] at hcond
        cases hcond
      · exact hcond

/-! ## Writes -/

/-- The success of a write is never proven to be the card's: a bare status is
enough. Only a write that is refused before a frame is sent keeps the
promise. -/
theorem plus_write_judged {card : Card} (hauth : card.authenticated = true)
    {call : Call} (hcall : call.plusWrites = true) :
    WriteJudged card call ↔ ∃ block data encrypted,
      call = .plusWrite block data encrypted ∧ data.length ≠ 16 := by
  rcases plusWrites_run hauth hcall with
    ⟨block, data, encrypted, rfl, hlen, hrefused⟩ | ⟨frame, hsend⟩
  · refine iff_of_true ?_ ⟨block, data, encrypted, rfl, hlen⟩
    intro script said r card' rest hrun
    rw [hrefused] at hrun
    cases hrun
    exact .inr ⟨by simp, rfl⟩
  · have honce := plusSend_once frame
    refine iff_of_false (fun hjudged => ?_) ?_
    · -- the status alone, from whoever is in between
      have hrun := (hsend [.ok [0x90]]).trans (honce.reads card (.ok [0x90]) [])
      rcases hjudged _ _ _ _ _ hrun with ⟨frame', rx, hsaid, hproven⟩ |
        ⟨hfail, -⟩
      · cases hsaid
        have hlen := length_plusSessionMac card
          (plusMessage 0x90 card.plusWCtr card [])
        rw [hproven.2] at hlen
        cases hlen
      · exact hfail rfl
    · rintro ⟨block, data, encrypted, rfl, hlen⟩
      have hsize : data.length ≠ mfpBlockSize := hlen
      have hwaits := (hsend []).trans (honce.waits card)
      rw [Call.run, plusWrite, plusWriteBlock, if_pos hsize] at hwaits
      cases hwaits

end

/-! ### A forged answer -/

theorem plus_read_judged_maced :
    @ReadJudged .identity liveEv2 4 1 true true 16 ↔
      16 < 16 * (1 : UInt8).toNat ∨ true = true ∨
        liveEv2.macMismatch = false :=
  @plus_read_judged .identity liveEv2 rfl 4 1 true true 16 (by decide)

/-- After a handshake, a MACed read with a forged MAC leaves the flag set, and
the read without a MAC that comes next fails on a good answer. -/
theorem plus_read_spoiled :
    ¬ ∀ (_ : BlockCipher) (uid : Option Bytes) (steps : List ApiStep)
      (card : Card) (block : UInt16) (count : UInt8) (encrypted maced : Bool)
      (cap : Nat), ApiRun (Card.opened uid) steps card →
      card.authenticated = true → count ≠ 0 →
      ReadJudged card block count encrypted maced cap := by
  intro hall
  obtain ⟨said₁, card₁, said₂, card₂, frame, card₃, h₁, h₂, hauth, h₃⟩ :
      ∃ said₁ card₁ said₂ card₂ frame card₃,
        @Call.run .identity
          (.plusAuthenticate (.ok []) 0x4000 (some zeroKey) true)
          (Card.opened none)
          [.ok (0x90 :: Bytes.zeros 16), .ok (0x90 :: Bytes.zeros 32)] =
            .done said₁ (.ok ()) card₁ [] ∧
        @Call.run .identity (.plusRead 4 1 false true 16) card₁
          [.ok (0x90 :: Bytes.zeros 24)] =
            .done said₂ (.error .crypto) card₂ [] ∧
        card₂.authenticated = true ∧
        @plusRead .identity 4 1 false false 16 card₂
          [.ok (0x90 :: Bytes.zeros 16)] =
            .done [(.plus frame, .ok (0x90 :: Bytes.zeros 16))]
              (.error .crypto) card₃ [] :=
    ⟨_, _, _, _, _, _, rfl, rfl, rfl, rfl⟩
  have hrun := @Run.cons_done _ _ _ _ _ (@Call.run .identity) _ _ _ _ _ _ _ _
    _ h₁ (Run.cons_done h₂ .nil)
  have hgood : @ReadAnswered .identity card₂ 4 1 false false
      (0x90 :: Bytes.zeros 16) (Bytes.zeros 16) :=
    @ReadAnswered.mk .identity _ _ _ _ _ _ _ rfl (by decide)
      (fun h => (Bool.false_ne_true h).elim) rfl
  have hok := (hall .identity none _ card₂ 4 1 false false 16 hrun hauth
    (by decide) _ _ _ _ _ h₃ (Bytes.zeros 16)).mpr ⟨_, _, rfl, hgood⟩
  cases hok

theorem plus_write_judged_refused :
    @WriteJudged .identity liveEv2 (.plusWrite 4 [] false) ↔
      ∃ block data encrypted, Call.plusWrite 4 [] false =
        .plusWrite block data encrypted ∧ data.length ≠ 16 :=
  @plus_write_judged .identity liveEv2 rfl (.plusWrite 4 [] false) rfl

/-- A transfer that nothing but a status acknowledges. -/
theorem plus_write_forged :
    ¬ ∀ (_ : BlockCipher) (card : Card) (call : Call),
      card.authenticated = true → call.plusWrites = true →
      WriteJudged card call := by
  intro hall
  obtain ⟨said, card', hrun⟩ : ∃ said card',
      @Call.run .identity (.plusTransfer 4) liveEv2 [.ok [0x90]] =
        .done said (.ok ()) card' [] := ⟨_, _, rfl⟩
  rcases hall .identity liveEv2 (.plusTransfer 4) rfl rfl _ _ _ _ _ hrun with
    ⟨frame, rx, rfl, -, hmac⟩ | ⟨hfail, -⟩
  · have hlen := @length_plusSessionMac .identity liveEv2
      (plusMessage 0x90 liveEv2.plusWCtr liveEv2 [])
    cases hrun
    rw [hmac] at hlen
    cases hlen
  · exact hfail rfl

end Nxpsc
