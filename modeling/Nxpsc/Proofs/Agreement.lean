import Nxpsc.Proofs.Framing
import Nxpsc.Proofs.SessionKeys
import Nxpsc.Proofs.TwoPass

/-!
# A handshake and its card agree

What the library sends is something a card with the same key accepts, what the
card sends back is something the library accepts, and both end with the same
session. That is computed for each handshake on its own, the two sides only
sharing the raw cipher and the random numbers; the frames are the same for all
of them, one there and one back, twice.
-/

namespace Nxpsc

open Dialogue

/-! ## One frame against a card -/

variable {S : Type}

theorem device_party (d : Device S) (card : Card) {p p' : S} {cmd : UInt8}
    {data : Bytes} {x : Reply} (hlen : data.length ≤ txFrameMax)
    (hd : d p cmd data = (x, p')) :
    d.party card.cmdset p (oneFrame cmd data card) =
      (card.cmdset.encoding.put x, p') := by
  obtain ⟨q, hq, hread⟩ := frameRequest_read cmd card hlen
  obtain rfl : oneFrame cmd data card = q :=
    Except.ok.inj ((frameRequest_one hlen).symm.trans hq)
  rw [Device.party, hread]
  show (card.cmdset.encoding.put (d p cmd data).1, (d p cmd data).2) = _
  rw [hd]

/-- A request of one frame whose answer is not followed. -/
theorem meets_rawExchangeEx (d : Device S) (card : Card) {p p' : S}
    {cmd : UInt8} {data : Bytes} {x : Reply}
    (hlen : data.length ≤ txFrameMax) (hd : d p cmd data = (x, p'))
    (hcap : x.data.length ≤ 64) :
    ∃ said, Meets (d.party card.cmdset) (rawExchangeEx cmd data 64 false) card
      p said (.ok (x.status, x.data)) { card with lastStatus := x.status }
      p' := by
  have hmeets : Meets (d.party card.cmdset) _ card p _ _ _ _ :=
    meets_once (rawExchangeEx_once cmd 64 hlen) card p
  rw [device_party d card hlen hd, oneAnswer, frameResponse_put] at hmeets
  simp only [if_neg (Nat.not_lt.mpr hcap)] at hmeets
  exact ⟨_, hmeets⟩

/-- The two passes: the library's token is one the card accepts. -/
theorem native_meets {τ : Type} {h : Handshake} {card card' : Card}
    {cmd : UInt8} {data token proof : Bytes} {session : Shared} {kept : τ}
    {opening : UInt8 × Bytes → Except Err (Bytes × τ)}
    {closing : τ → UInt8 × Bytes → Card → Except Err Unit × Card}
    (hdata : data.length ≤ txFrameMax) (hopens : h.opens cmd data = true)
    (hchallenge : h.challenge.length ≤ 64)
    (hopening : opening (dfSAdditionalFrame, h.challenge) = .ok (token, kept))
    (hlen : token.length ≤ txFrameMax)
    (hfinish : h.finish token = some (proof, session))
    (hproof : proof.length ≤ 64)
    (hclosing : closing kept (dfSOk, proof) { card with lastStatus := dfSOk } =
      (.ok (), card')) :
    ∃ said, Meets (h.device.party card.cmdset)
      (Prog.twoPass (rawExchangeEx cmd data 64 false)
        (fun token => rawExchangeEx dfAdditionalFrame token 64 false)
        (fun x _ => opening x) closing)
      card .ready said (.ok ()) card' (.opened session) := by
  have hdata' : ∀ {status : UInt8} {xs : Bytes}, xs.length ≤ 64 →
      (reply status xs).data = xs :=
    fun hxs => reply_data (by rw [replyMax]; omega)
  have hone : h.device .ready cmd data =
      (reply dfSAdditionalFrame h.challenge, .challenged) := by
    rw [Handshake.device]
    simp only [hopens, if_true]
  have htwo : h.device .challenged dfAdditionalFrame token =
      (reply dfSOk proof, .opened session) := by
    rw [Handshake.device]
    simp only [if_true, hfinish]
  obtain ⟨u, hu⟩ := meets_rawExchangeEx h.device card hdata hone
    (by rw [hdata' hchallenge]; exact hchallenge)
  obtain ⟨v, hv⟩ := meets_rawExchangeEx h.device
    { card with lastStatus := dfSAdditionalFrame } hlen htwo
    (by rw [hdata' hproof]; exact hproof)
  rw [hdata' hchallenge] at hu
  rw [hdata' hproof] at hv
  exact ⟨_, meets_twoPass hu hopening hv hclosing⟩

/-! ## D40 and EV1 -/

@[simp] theorem length_rol : ∀ xs : Bytes, (rol xs).length = xs.length
  | [] => rfl
  | x :: rest => by simp [rol]

theorem legacyRndLen_blocks (key : Key) :
    0 < legacyRndLen key ∧ legacyRndLen key % blockSize key.type = 0 ∧
      legacyRndLen key ≤ 16 := by
  rw [legacyRndLen]
  cases key.type <;> decide

theorem randomBytes_ok {rnd : Bytes} {n : Nat} (hn : 0 < n) :
    randomBytes (.ok rnd) n = .ok (Bytes.fit n rnd) := by
  rw [randomBytes, if_neg (Nat.pos_iff_ne_zero.mp hn)]
  rfl

/-- What the handle holds of a legacy session. -/
def legacyShared (key : Key) (rndA rndB : Bytes) : Shared :=
  let session := Bytes.fit (keySize key.type) (legacySession key rndA rndB)
  ⟨session, session, Bytes.zeros 4, 0, Bytes.zeros 16⟩

/-- The two sides derive the same key when they agree on the halves. -/
theorem legacyShared_eq {key : Key} {stored rndA rndB : Bytes}
    (hA : rndA.length = legacyRndLen key)
    (hB : rndB.length = legacyRndLen key)
    (hhalves : key.type = .k2k3des →
      (Halves key.data.bytes ↔ Halves stored)) :
    legacyShared key rndA rndB =
      piccLegacySession key.type stored rndA rndB := by
  have hkey : Bytes.fit (keySize key.type) (legacySession key rndA rndB) =
      piccLegacyKey key.type stored rndA rndB := by
    rw [legacySession, piccLegacyKey]
    simp only [sessionKeyD40_pieces]
    by_cases htype : key.type = .k2k3des
    · rw [legacyRndLen, htype] at hA hB
      simp only [htype, true_and, ← hhalves htype, keySize]
      by_cases hkey : Halves key.data.bytes
      · have hraw : key.data.bytes.take 8 =
            (key.data.bytes.drop 8).take 8 := hkey
        rw [if_pos hraw, if_pos hkey]
        refine Bytes.fit_self ?_
        simp [rndPieces, pieceStarts, hA, hB]
      · have hraw : ¬ key.data.bytes.take 8 =
            (key.data.bytes.drop 8).take 8 := hkey
        rw [if_neg hraw, if_neg hkey]
    · rw [if_neg fun h => htype h.1, if_neg fun h => htype h.1]
  rw [legacyShared, piccLegacySession, hkey]

theorem unrol : ∀ {xs : Bytes} {n : Nat}, xs.length = n + 1 →
    (rol xs).getD n 0 :: (rol xs).take n = xs
  | x :: rest, n, h => by
      obtain rfl : rest.length = n := Nat.succ.inj h
      rw [rol, List.take_left, List.getD_eq_getElem?_getD,
        List.getElem?_append_right (Nat.le_refl _), Nat.sub_self]
      rfl

section

variable [c : BlockCipher]

/-- What the two sides of a legacy handshake compute fits together: the card
accepts the token, and the library finds the rotated RndA in the proof. -/
structure LegacyFits (key : Key) (channel : Channel) (h : Handshake)
    (rndA rndB : Bytes) (session : Shared) (token : LegacyToken)
    (proof : Bytes) : Prop where
  made : legacyToken key channel rndA h.challenge = .ok token
  rndB : token.rndB = rndB
  length : token.both.length = legacyRndLen key + legacyRndLen key
  accepted : h.finish token.both = some (proof, session)
  proof_length : proof.length = legacyRndLen key
  proved : ∃ last, cbcCryptEx key.type key.data.bytes
    (if channel = .d40 then Bytes.zeros maxBlock else token.iv) proof false
      false = .ok (rol rndA, last)

variable {key : Key} {stored rndA rndB : Bytes}

theorem d40_fits (hinv : DecryptInverts c)
    (hsame : SameCipher key.type stored key.data.bytes) (keyNo : UInt8)
    (hA : rndA.length = legacyRndLen key)
    (hB : rndB.length = legacyRndLen key) :
    ∃ token proof, LegacyFits key .d40
      (d40Handshake key.type stored keyNo rndB) rndA rndB
      (piccLegacySession key.type stored rndA rndB) token proof := by
  obtain ⟨hpos, hmod, -⟩ := legacyRndLen_blocks key
  have hiv := blockSize_le_zeroIv key.type
  have hmixed : ∀ first : Bytes, first.length = legacyRndLen key →
      (Bytes.xor (rol rndB) first).length = legacyRndLen key := by
    intro first hfirst
    rw [Bytes.length_xor, length_rol, hB, hfirst, Nat.min_self]
  have hfirst : (decSent key.type stored zeroIv rndA).1.length =
      legacyRndLen key :=
    (length_decSent hinv hiv (by rw [hA, hmod])).trans hA
  have hmodA : rndA.length % blockSize key.type = 0 := by rw [hA, hmod]
  have hfirstBack := congrArg Prod.fst
    (encReceived_decSent stored hinv hiv hmodA)
  have hsendsA := hsame.mirrors zeroIv (by omega) hmodA
  generalize decSent key.type stored zeroIv rndA = first at *
  have hmix := hmixed first.1 hfirst
  have hsecond : (decSent key.type stored zeroIv
      (Bytes.xor (rol rndB) first.1)).1.length = legacyRndLen key :=
    (length_decSent hinv hiv (by rw [hmix, hmod])).trans hmix
  have hmixMod : (Bytes.xor (rol rndB) first.1).length %
      blockSize key.type = 0 := by rw [hmix, hmod]
  have hsecondBack := congrArg Prod.fst
    (encReceived_decSent stored hinv hiv hmixMod)
  have hsendsB := hsame.mirrors zeroIv (by omega) hmixMod
  generalize decSent key.type stored zeroIv (Bytes.xor (rol rndB) first.1) =
    second at *
  have hmodB : rndB.length % blockSize key.type = 0 := by rw [hB, hmod]
  have hrolA : (rol rndA).length % blockSize key.type = 0 := by
    rw [length_rol, hA, hmod]
  have hreads := hsame.reads hinv hiv (by omega) hmodB
  have hproved := hsame.reads hinv hiv (by rw [length_rol]; omega) hrolA
  refine ⟨⟨first.1 ++ second.1, rndB, second.2⟩,
    (encSent key.type stored zeroIv (rol rndA)).1, ?_, rfl, ?_, ?_, ?_, ?_⟩
  · rw [zeroIv] at hreads hsendsA hsendsB
    simp only [legacyToken, d40Handshake, zeroIv, hreads, hsendsA, hsendsB,
      bind, Except.bind, pure, Except.pure, if_true]
  · rw [List.length_append, hfirst, hsecond]
  · have htake : (first.1 ++ second.1).take rndB.length = first.1 :=
      List.take_left' (by rw [hfirst, hB])
    have hdrop : (first.1 ++ second.1).drop rndB.length = second.1 :=
      List.drop_left' (by rw [hfirst, hB])
    simp only [d40Handshake, htake, hdrop, hfirstBack, hsecondBack]
    rw [if_pos]
    refine ⟨by rw [List.length_append, hfirst, hsecond, hB], ?_⟩
    exact Bytes.xor_cancel (by rw [length_rol, hfirst, hB])
  · rw [length_encSent _ hinv hiv hrolA, length_rol, hA]
  · exact ⟨_, hproved⟩

theorem ev1_fits (hinv : DecryptInverts c)
    (hsame : SameCipher key.type stored key.data.bytes) (keyNo : UInt8)
    (hA : rndA.length = legacyRndLen key)
    (hB : rndB.length = legacyRndLen key) :
    ∃ token proof, LegacyFits key .ev1
      (ev1Handshake key.type stored keyNo rndB) rndA rndB
      (piccLegacySession key.type stored rndA rndB) token proof := by
  obtain ⟨hpos, hmod, -⟩ := legacyRndLen_blocks key
  have hiv := blockSize_le_zeroIv key.type
  have hmodB : rndB.length % blockSize key.type = 0 := by rw [hB, hmod]
  have hreads := hsame.reads hinv hiv (by omega) hmodB
  have hiv₁ : blockSize key.type ≤
      (encSent key.type stored zeroIv rndB).2.length :=
    Nat.le_of_eq (length_encSent_last hinv hiv hmodB).symm
  have hplain : (rndA ++ rol rndB).length =
      legacyRndLen key + legacyRndLen key := by
    rw [List.length_append, length_rol, hA, hB]
  have hplainMod : (rndA ++ rol rndB).length % blockSize key.type = 0 := by
    rw [hplain, Nat.add_mod, hmod]
    rfl
  have hsends := hsame.sends (encSent key.type stored zeroIv rndB).2
    (by rw [hplain]; omega) hplainMod
  have hboth := length_encSent stored hinv hiv₁ hplainMod
  have hback := decReceived_encSent stored hinv hiv₁ hplainMod
  have hiv₂ : blockSize key.type ≤ (encSent key.type stored
      (encSent key.type stored zeroIv rndB).2 (rndA ++ rol rndB)).2.length :=
    Nat.le_of_eq (length_encSent_last hinv hiv₁ hplainMod).symm
  generalize encSent key.type stored
    (encSent key.type stored zeroIv rndB).2 (rndA ++ rol rndB) = both at *
  have hrolA : (rol rndA).length % blockSize key.type = 0 := by
    rw [length_rol, hA, hmod]
  have hproved := hsame.reads hinv hiv₂ (by rw [length_rol]; omega) hrolA
  refine ⟨⟨both.1, rndB, both.2⟩,
    (encSent key.type stored both.2 (rol rndA)).1, ?_, rfl, ?_, ?_, ?_, ?_⟩
  · rw [zeroIv] at hreads
    simp only [legacyToken, ev1Handshake, zeroIv, hreads, bind, Except.bind,
      pure, Except.pure]
    rw [zeroIv] at hsends
    simp only [reduceCtorEq, if_false, hsends]
  · rw [hboth, hplain]
  · have htake : (rndA ++ rol rndB).take rndB.length = rndA :=
      List.take_left' (by rw [hA, hB])
    have hdrop : (rndA ++ rol rndB).drop rndB.length = rol rndB :=
      List.drop_left' (by rw [hA, hB])
    simp only [ev1Handshake, hback, htake, hdrop]
    rw [if_pos ⟨by rw [hboth, hplain, hB], trivial⟩]
  · rw [length_encSent _ hinv hiv₂ hrolA, length_rol, hA]
  · exact ⟨_, hproved⟩

theorem legacyAccept_fits {h : Handshake} {channel : Channel}
    {session : Shared} {token : LegacyToken} {proof : Bytes}
    (hfits : LegacyFits key channel h rndA rndB session token proof)
    (keyNo : UInt8) (card : Card) (hti : card.ti = .zero 4)
    (hctr : card.cmdCtr = 0) (hchan : channel ≠ .lrp) :
    ∃ card', legacyAccept keyNo key channel rndA token proof card =
        (.ok (), card') ∧ card'.authenticated = true ∧
      card'.channel = channel ∧ card'.shared = legacyShared key rndA rndB := by
  obtain ⟨last, hproved⟩ := hfits.proved
  have hsize := keySize_le key.type
  refine ⟨(legacyAccept keyNo key channel rndA token proof card).2,
    Prod.ext ?_ rfl, ?_⟩
  · simp only [legacyAccept, hproved, ne_eq, not_true_eq_false, if_false]
  · simp only [legacyAccept, hproved, ne_eq, not_true_eq_false, if_false]
    refine ⟨trivial, trivial, ?_⟩
    rw [Card.shared, legacyShared, if_neg hchan]
    simp only [hti, hctr, hfits.rndB, Bytes.take_fit hsize]
    have hkey : keySize key.type ≤ 32 := hsize
    rw [Buf.put_take_eq (Bytes.length_fit _ _) hkey,
      Buf.put_take_eq (Bytes.length_fit _ _) hkey]
    rfl

/-- A legacy handshake opens one session on both sides. -/
theorem authLegacy_agrees {h : Handshake} {channel : Channel}
    {session : Shared} {token : LegacyToken} {proof rnd : Bytes}
    (hfits : LegacyFits key channel h (Bytes.fit (legacyRndLen key) rnd) rndB
      session token proof)
    (keyNo : UInt8) (hopens : h.opens (legacyCmd key channel) [keyNo] = true)
    (hchallenge : h.challenge.length = legacyRndLen key)
    {card : Card} (hti : card.ti = .zero 4) (hctr : card.cmdCtr = 0)
    (hchan : channel ≠ .lrp) :
    ∃ said card', Meets (h.device.party card.cmdset)
        (authLegacy (.ok rnd) keyNo key channel) card .ready said (.ok ())
        card' (.opened session) ∧
      card'.authenticated = true ∧ card'.channel = channel ∧
      card'.shared =
        legacyShared key (Bytes.fit (legacyRndLen key) rnd) rndB := by
  obtain ⟨hpos, -, hmax⟩ := legacyRndLen_blocks key
  obtain ⟨card', haccept, hend⟩ := legacyAccept_fits hfits keyNo
    { card with lastStatus := dfSOk } hti hctr hchan
  have hlen := hfits.length
  have hproof := hfits.proof_length
  have hopening : legacyOpening (.ok rnd) key channel
      (dfSAdditionalFrame, h.challenge) =
        .ok (token.both, Bytes.fit (legacyRndLen key) rnd, token) := by
    rw [legacyOpening, if_neg (by rw [hchallenge]; simp), randomBytes_ok hpos]
    simp only [bind, Except.bind, hfits.made]
    rfl
  have hclosing : legacyClosing keyNo key channel
      (Bytes.fit (legacyRndLen key) rnd, token) (dfSOk, proof)
      { card with lastStatus := dfSOk } = (.ok (), card') := by
    rw [legacyClosing, if_neg (by rw [hproof]; simp)]
    exact haccept
  rw [authLegacy_twoPass]
  obtain ⟨said, hmeets⟩ := native_meets (Nat.le_of_ble_eq_true rfl) hopens
    (by omega) hopening (by rw [txFrameMax]; omega) hfits.accepted (by omega)
    hclosing
  exact ⟨said, card', hmeets, hend⟩

/-! ## EV2 -/

/-- The library's token is one the card finds RndA in. -/
theorem ev2_fits (hinv : DecryptInverts c) {stored rndA rndB : Bytes}
    {key : Key} (hsame : SameCipher .aes128 stored key.data.bytes)
    (hA : rndA.length = 16) (hB : rndB.length = 16) :
    ∃ token, ev2Token key rndA (encSent .aes128 stored zeroIv rndB).1 =
        .ok (token, rndB) ∧ token.length = 32 ∧
      ev2TokenRndA stored rndB token = some rndA := by
  have hiv := blockSize_le_zeroIv .aes128
  have hplain : (rndA ++ rol rndB).length = 32 := by
    rw [List.length_append, length_rol, hA, hB]
  have hmodB : rndB.length % blockSize .aes128 = 0 := by rw [hB]; rfl
  have hmod : (rndA ++ rol rndB).length % blockSize .aes128 = 0 := by
    rw [hplain]
    rfl
  have hreads := hsame.reads hinv hiv (by omega) hmodB
  have hsends := hsame.sends zeroIv (by omega) hmod
  have hback := decReceived_encSent stored hinv hiv hmod
  have hlen := length_encSent stored hinv hiv hmod
  rw [hplain] at hlen
  refine ⟨(encSent .aes128 stored zeroIv (rndA ++ rol rndB)).1, ?_, hlen, ?_⟩
  · rw [zeroIv, maxBlock] at hreads hsends
    simp only [ev2Token, cbcCrypt, zeroIv, maxBlock, aesBlock, hreads, hsends,
      bind, Except.bind, pure, Except.pure]
  · have htake : (rndA ++ rol rndB).take aesBlock = rndA := List.take_left' hA
    have hdrop : (rndA ++ rol rndB).drop aesBlock = rol rndB :=
      List.drop_left' hA
    simp only [ev2TokenRndA, hback, hdrop, htake]
    rw [if_pos ⟨by rw [hlen]; rfl, trivial⟩]

/-- The library accepts a proof that holds the rotated RndA, and its side of
the session is the card's. -/
theorem ev2Accept_proof (hinv : DecryptInverts c)
    {stored rndA rndB data : Bytes} {key : Key}
    (hsame : SameCipher .aes128 stored key.data.bytes)
    (htype : key.type = .aes128) {first : Bool}
    (hdata : data.length = if first then 32 else 16)
    (hrndA : ev2ReturnedRndA data first = rndA) (keyNo : UInt8)
    (card : Card) {session : Shared}
    (hsession : piccEv2Session stored rndA rndB
      (if first then data.take 4 else card.ti.bytes)
      (if first then 0 else card.cmdCtr) = session) :
    ∃ card', ev2Accept keyNo key first rndA rndB
        (encSent .aes128 stored zeroIv data).1 card = (.ok (), card') ∧
      card'.authenticated = true ∧ card'.channel = .ev2 ∧
      card'.shared = session := by
  have hiv := blockSize_le_zeroIv .aes128
  have hmod : data.length % blockSize .aes128 = 0 := by
    rw [hdata]
    split <;> rfl
  have hpos : 0 < data.length := by
    rw [hdata]
    split <;> omega
  have hlen := length_encSent stored hinv hiv hmod
  have hreads : cbcCrypt .aes128 key.data.bytes (Bytes.zeros aesBlock)
      (encSent .aes128 stored zeroIv data).1 false =
        .ok (data, (encSent .aes128 stored zeroIv data).2) :=
    hsame.reads hinv hiv hpos hmod
  subst hsession
  have henc := hsame.sessionKeyEv2 rndA rndB true
  have hmac := hsame.sessionKeyEv2 rndA rndB false
  have henclen := length_piccEv2Key [0xA5, 0x5A] stored rndA rndB
  have hmaclen := length_piccEv2Key [0x5A, 0xA5] stored rndA rndB
  simp only [if_true, Bool.false_eq_true, if_false] at henc hmac
  have hneed : ¬ (encSent .aes128 stored zeroIv data).1.length ≠
      (if first then aesBlock * 2 else aesBlock) := by
    rw [hlen, hdata]
    simp [aesBlock]
  refine ⟨(ev2Accept keyNo key first rndA rndB
    (encSent .aes128 stored zeroIv data).1 card).2, Prod.ext ?_ rfl, ?_⟩
  · rw [ev2Accept, if_neg hneed, hreads]
    simp only [hrndA, ne_eq, not_true_eq_false, if_false]
  · rw [ev2Accept, if_neg hneed, hreads]
    simp only [hrndA, ne_eq, not_true_eq_false, if_false, putSessionKeyEv2,
      henc, hmac]
    refine ⟨trivial, trivial, ?_⟩
    have hti : first = true → (data.take 4).length = 4 := by
      intro hfirst
      rw [hfirst] at hdata
      rw [List.length_take, hdata]
      rfl
    cases first with
    | true =>
        simp only [Card.shared, htype, keySize, if_true, reduceCtorEq,
          if_false, Buf.put_take_eq henclen (by omega : 16 ≤ 32),
          Buf.put_take_eq hmaclen (by omega : 16 ≤ 32),
          Buf.put_all (hti rfl)]
        rfl
    | false =>
        simp only [Card.shared, htype, keySize, Bool.false_eq_true,
          reduceCtorEq, if_false,
          Buf.put_take_eq henclen (by omega : 16 ≤ 32),
          Buf.put_take_eq hmaclen (by omega : 16 ≤ 32)]
        rfl

/-- The EV2 handshakes: `data` is the proof before it is enciphered. -/
theorem authEv2_agrees (hinv : DecryptInverts c) {stored rndB : Bytes}
    {key : Key} (hsame : SameCipher .aes128 stored key.data.bytes)
    (htype : key.type = .aes128) (first : Bool) (h : Handshake)
    (keyNo : UInt8) (rnd data : Bytes) (card : Card)
    (hopens : h.opens (if first then dfAuthenticateEv2f
        else dfAuthenticateEv2nf)
      (if first then [keyNo, 0x00] else [keyNo]) = true)
    (hchallenge : h.challenge = (encSent .aes128 stored zeroIv rndB).1)
    (hB : rndB.length = 16) {session : Shared}
    (hfinish : ∀ token, ev2TokenRndA stored rndB token =
        some (Bytes.fit aesBlock rnd) →
      h.finish token = some ((encSent .aes128 stored zeroIv data).1, session))
    (hdata : data.length = if first then 32 else 16)
    (hrndA : ev2ReturnedRndA data first = Bytes.fit aesBlock rnd)
    (hsession : piccEv2Session stored (Bytes.fit aesBlock rnd) rndB
      (if first then data.take 4 else card.ti.bytes)
      (if first then 0 else card.cmdCtr) = session) :
    ∃ said card', Meets (h.device.party card.cmdset)
        (authEv2 (.ok rnd) keyNo key first) card .ready said (.ok ()) card'
        (.opened session) ∧
      card'.authenticated = true ∧ card'.channel = .ev2 ∧
      card'.shared = session := by
  have hiv := blockSize_le_zeroIv .aes128
  obtain ⟨token, htoken, hlen, hfound⟩ := ev2_fits hinv hsame
    (Bytes.length_fit aesBlock rnd) hB
  have hchallengeLen : h.challenge.length = aesBlock := by
    rw [hchallenge, length_encSent _ hinv hiv (by rw [hB]; rfl), hB]
    rfl
  have hread : ev2Challenge h.challenge = .ok h.challenge := by
    rw [ev2Challenge, hchallengeLen, if_neg (by decide), if_neg (by simp)]
  have hproof : (encSent .aes128 stored zeroIv data).1.length =
      if first then 32 else 16 := by
    rw [length_encSent _ hinv hiv (by rw [hdata]; split <;> rfl), hdata]
  obtain ⟨card', haccept, hend⟩ := ev2Accept_proof hinv hsame htype hdata hrndA
    keyNo { card with lastStatus := dfSOk } hsession
  have hopening : ev2Opening (.ok rnd) key (dfSAdditionalFrame, h.challenge) =
      .ok (token, Bytes.fit aesBlock rnd, rndB) := by
    rw [ev2Opening, if_neg (by simp), hread, randomBytes_ok (by decide)]
    simp only [bind, Except.bind, hchallenge, htoken]
    rfl
  have hclosing : ev2Closing keyNo key first (Bytes.fit aesBlock rnd, rndB)
      (dfSOk, (encSent .aes128 stored zeroIv data).1)
      { card with lastStatus := dfSOk } = (.ok (), card') := by
    rw [ev2Closing, if_neg (by simp)]
    exact haccept
  rw [authEv2_twoPass]
  obtain ⟨said, hmeets⟩ := native_meets (ev2Data_length keyNo first) hopens
    (by rw [hchallengeLen]; decide) hopening (by rw [hlen]; decide)
    (hfinish token hfound) (by rw [hproof]; split <;> omega) hclosing
  exact ⟨said, card', hmeets, hend⟩

/-! ## LRP -/

/-- The library's LRP token is one the card takes. -/
theorem lrp_fits (key rndB : Bytes) {rndA : Bytes} (hA : rndA.length = 16) :
    lrpTokenRndA (key.take aesBlock) rndB
        (rndA ++ lrpCmac (lrpInit (sessionKeyLrp key rndA rndB) 0 true)
          (rndA ++ rndB)) =
      some (rndA, sessionKeyLrp key rndA rndB) := by
  have htake : (rndA ++ lrpCmac (lrpInit (sessionKeyLrp key rndA rndB) 0 true)
      (rndA ++ rndB)).take aesBlock = rndA := List.take_left' hA
  have hdrop : (rndA ++ lrpCmac (lrpInit (sessionKeyLrp key rndA rndB) 0 true)
      (rndA ++ rndB)).drop aesBlock = _ := List.drop_left' hA
  simp only [lrpTokenRndA, htake, hdrop, piccLrpKey_take, if_true]

section

variable {rndB session : Bytes} {key : Key}

theorem lrpAccept_first (hinv : DecryptInverts c) (rndA rndB : Bytes)
    (hlen : session.length = 16) (htype : key.type = .aes128) {block : Bytes}
    (hblock : block.length = 16) (keyNo : UInt8) (card : Card) :
    ∃ card', lrpAccept keyNo key true rndA rndB session
        ((lrpSent session lrpZeroCounter block).1 ++
          lrpCmac (lrpInit session 0 true) (rndB ++ rndA ++
            (lrpSent session lrpZeroCounter block).1)) card =
        (.ok (), card') ∧
      card'.authenticated = true ∧ card'.channel = .lrp ∧
      card'.shared = ⟨session, session, block.take 4, 0,
        (lrpSent session lrpZeroCounter block).2⟩ := by
  have hmod : block.length % aesBlock = 0 := by
    rw [hblock]
    rfl
  have hzero : (Buf.zero 16).bytes.take 4 = lrpZeroCounter.take 4 := rfl
  have hcap : block.length ≤ aesBlock := Nat.le_of_eq hblock
  obtain ⟨ctx', hdecode, hctr⟩ :=
    lrpDecode_sent hinv session hzero (by omega) hmod hcap
  have hsent : (lrpSent session lrpZeroCounter block).1.length = 16 :=
    (length_lrpSent _ _ hmod).trans hblock
  generalize (lrpSent session lrpZeroCounter block).1 = sent at *
  have hmac := lrpCmac_length (lrpInit session 0 true) (rndB ++ rndA ++ sent)
  have htake : ∀ mac : Bytes, (sent ++ mac).take aesBlock = sent :=
    fun _ => List.take_left' hsent
  have hdrop : ∀ mac : Bytes, (sent ++ mac).drop aesBlock = mac :=
    fun _ => List.drop_left' hsent
  have hreceived : (lrpCmac (lrpInit session 0 true)
      (rndB ++ rndA ++ sent)).take aesBlock =
        lrpCmac (lrpInit session 0 true) (rndB ++ rndA ++ sent) :=
    List.take_of_length_le (Nat.le_of_eq hmac)
  have hneed : ¬ (sent ++ lrpCmac (lrpInit session 0 true)
      (rndB ++ rndA ++ sent)).length < aesBlock * 2 := by
    rw [List.length_append, hsent, hmac]
    decide
  refine ⟨(lrpAccept keyNo key true rndA rndB session
    (sent ++ lrpCmac (lrpInit session 0 true) (rndB ++ rndA ++ sent))
    card).2, Prod.ext ?_ rfl, ?_⟩
  · simp only [lrpAccept, if_true, htake, hdrop, hreceived, ne_eq,
      not_true_eq_false, if_false, if_neg hneed]
  · simp only [lrpAccept, if_true, htake, hdrop, hreceived, ne_eq,
      not_true_eq_false, if_false, if_neg hneed]
    have hctrLen : (lrpSent session lrpZeroCounter block).2.length = 4 := by
      rw [← hctr, List.length_take, ctx'.counter.size]
      rfl
    have hti : (block.take 4).length = 4 := by
      rw [List.length_take, hblock]
      rfl
    have hsession : session.take aesBlock = session :=
      List.take_of_length_le (Nat.le_of_eq hlen)
    have hput : ∀ b : Buf 32, (b.put session).bytes.take 16 = session :=
      fun b => Buf.put_take_eq hlen (by omega)
    refine ⟨trivial, trivial, ?_⟩
    simp only [Card.shared, hdecode, htype, keySize, if_true, hsession, hput,
      Buf.put_all hti, hctr, Buf.put_take_eq hctrLen (by omega : 4 ≤ 16)]

/-- An LRP handshake, the first one or another, opens one session on both
sides. -/
theorem authLrp_agrees {rnd proof : Bytes} (first : Bool) (h : Handshake)
    (keyNo : UInt8) (card : Card) {card' : Card} (shared : Shared)
    (hopens : h.opens (if first then dfAuthenticateEv2f
        else dfAuthenticateEv2nf)
      (if first then [keyNo, 0x01, 0x02] else [keyNo]) = true)
    (hchallenge : h.challenge = 0x01 :: rndB) (hB : rndB.length = 16)
    (hfinish : ∀ token, lrpTokenRndA (key.data.bytes.take aesBlock) rndB
        token = some (Bytes.fit aesBlock rnd,
          sessionKeyLrp key.data.bytes (Bytes.fit aesBlock rnd) rndB) →
      h.finish token = some (proof, shared))
    (hproof : proof.length = if first then 32 else 16)
    (haccept : lrpAccept keyNo key first (Bytes.fit aesBlock rnd) rndB
      (sessionKeyLrp key.data.bytes (Bytes.fit aesBlock rnd) rndB) proof
      { card with lastStatus := dfSOk } = (.ok (), card')) :
    ∃ said, Meets (h.device.party card.cmdset)
        (authLrp (.ok rnd) keyNo key first) card .ready said (.ok ()) card'
        (.opened shared) := by
  have hA := Bytes.length_fit aesBlock rnd
  have hlen : h.challenge.length = aesBlock + 1 := by
    rw [hchallenge, List.length_cons, hB]
    rfl
  have hhead : h.challenge.headD 0 = 0x01 := by rw [hchallenge]; rfl
  have hrndB : h.challenge.drop 1 = rndB := by rw [hchallenge]; rfl
  have hopening : lrpOpening (.ok rnd) key (dfSAdditionalFrame, h.challenge) =
      .ok (Bytes.fit aesBlock rnd ++
        lrpCmac (lrpInit (sessionKeyLrp key.data.bytes (Bytes.fit aesBlock rnd)
          rndB) 0 true) (Bytes.fit aesBlock rnd ++ rndB),
        Bytes.fit aesBlock rnd, rndB) := by
    rw [lrpOpening, if_neg (by rw [hlen, hhead]; simp),
      randomBytes_ok (by decide)]
    simp only [bind, Except.bind, hrndB]
    rfl
  have hclosing : lrpClosing keyNo key first (Bytes.fit aesBlock rnd, rndB)
      (dfSOk, proof) { card with lastStatus := dfSOk } = (.ok (), card') := by
    rw [lrpClosing, if_neg]
    · exact haccept
    · rw [hproof]
      split <;> simp [aesBlock]
  rw [authLrp_twoPass]
  exact native_meets (lrpData_length keyNo first) hopens
    (by rw [hlen]; decide) hopening
    (by rw [List.length_append, hA, lrpCmac_length]; decide)
    (hfinish _ (lrp_fits key.data.bytes rndB hA))
    (by rw [hproof]; split <;> omega) hclosing

end

end
end Nxpsc
