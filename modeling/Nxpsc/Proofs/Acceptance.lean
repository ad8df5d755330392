import Nxpsc.Proofs.MutualAuth

/-!
# What makes a handshake succeed

Each handshake is a challenge and its response. The library takes a token out
of the first answer and judges the second one; it returns `NXPSC_OK` exactly
when the two answers are a proof in the sense of `CardProof`, and whatever the
transport did otherwise, it did not.
-/

namespace Nxpsc

open Dialogue

/-! ## Reading the answers -/

theorem ev2Challenge_ok {resp challenge : Bytes} :
    ev2Challenge resp = .ok challenge ↔
      (resp.length = 16 ∨ resp.length = 17 ∧ resp.headD 0 = 0x00) ∧
        challenge = resp.drop (resp.length - 16) := by
  rw [ev2Challenge, aesBlock]
  constructor
  · intro h
    split at h
    · next hlen =>
        split at h
        · cases h
        · next hhead =>
            cases h
            rw [hlen]
            exact ⟨.inr ⟨rfl, not_not.mp hhead⟩, rfl⟩
    · split at h
      · cases h
      · next hlen =>
          cases h
          rw [not_not.mp hlen]
          exact ⟨.inl rfl, rfl⟩
  · rintro ⟨hlen | ⟨hlen, hhead⟩, rfl⟩
    · rw [hlen, if_neg (by omega), if_neg (by omega)]
      rfl
    · rw [hlen, if_pos rfl, if_neg (not_not.mpr hhead)]

/-- A token made with a nonce that was drawn. -/
theorem drawn_token_ok {τ γ : Type} {rng : Rng} {n : Nat} (hn : 0 < n)
    {token : Bytes → Except Err τ} {f : Bytes → τ → γ} {made : γ} :
    (do
      let rnd ← randomBytes rng n
      let t ← token rnd
      return f rnd t) = .ok made ↔
      ∃ rnd t, rng = .ok rnd ∧ token (Bytes.fit n rnd) = .ok t ∧
        made = f (Bytes.fit n rnd) t := by
  cases rng with
  | error e =>
      rw [randomBytes, if_neg (Nat.pos_iff_ne_zero.mp hn)]
      refine iff_of_false (fun h => ?_) ?_
      · cases h
      · rintro ⟨_, _, h, -⟩
        cases h
  | ok rnd =>
  rw [randomBytes_ok hn]
  constructor
  · intro h
    cases htoken : token (Bytes.fit n rnd) with
    | error e =>
        simp only [bind, Except.bind, htoken, reduceCtorEq] at h
    | ok t =>
        simp only [bind, Except.bind, htoken, pure, Except.pure,
          Except.ok.injEq] at h
        exact ⟨rnd, t, rfl, htoken, h.symm⟩
  · rintro ⟨_, t, hrnd, htoken, rfl⟩
    cases hrnd
    simp only [bind, Except.bind, htoken, pure, Except.pure]

/-- Rotating the returned RndA back is comparing it to the rotated one. -/
theorem unrol_eq_iff {rndA xs : Bytes} (hA : rndA.length = 16)
    (hxs : xs.length = 16) :
    rndA = xs.getD 15 0 :: xs.take 15 ↔ xs = rol rndA := by
  constructor
  · rintro rfl
    rw [rol, List.getD_eq_getElem?_getD, List.getElem?_eq_getElem (by omega)]
    have hsplit := List.take_append_drop 15 xs
    rw [List.drop_eq_getElem_cons (by omega), List.drop_eq_nil_of_le
      (by omega)] at hsplit
    exact hsplit.symm
  · rintro rfl
    exact (unrol hA).symm

theorem ev2ReturnedRndA_iff {rndA plain : Bytes} {first : Bool}
    (hA : rndA.length = 16)
    (hplain : plain.length = if first then 32 else 16) :
    rndA = ev2ReturnedRndA plain first ↔
      (if first then (plain.drop 4).take 16 else plain) = rol rndA := by
  cases first with
  | false => exact unrol_eq_iff hA hplain
  | true =>
      have hlen : ((plain.drop 4).take 16).length = 16 := by
        rw [List.length_take, List.length_drop, hplain]
        rfl
      have hget : plain.getD 19 0 = ((plain.drop 4).take 16).getD 15 0 := by
        simp only [List.getD_eq_getElem?_getD]
        rw [List.getElem?_take, if_pos (by omega), List.getElem?_drop]
      have htake : (plain.drop 4).take 15 =
          ((plain.drop 4).take 16).take 15 := by
        rw [List.take_take]
        rfl
      simp only [ev2ReturnedRndA, if_true, aesBlock]
      rw [hget, htake]
      exact unrol_eq_iff hA hlen

section

variable [BlockCipher]

/-! ## What makes a handshake succeed -/

/-- Deciphering whole blocks. -/
theorem cbcCryptEx_receives (type : KeyType) (key iv : Bytes) {input : Bytes}
    (hpos : 0 < input.length) (hmod : input.length % blockSize type = 0) :
    cbcCryptEx type key iv input false false =
      .ok (decReceived type key iv input) := by
  simp only [cbcCryptEx]
  rw [if_neg (by omega), decReceived]
  rfl

theorem length_decReceived {type : KeyType} (key : Bytes) {iv input : Bytes}
    (hiv : blockSize type ≤ iv.length) (hpos : 0 < input.length)
    (hmod : input.length % blockSize type = 0) :
    (decReceived type key iv input).1.length = input.length ∧
      (decReceived type key iv input).2.length = blockSize type := by
  obtain ⟨-, -, hlen, hlast⟩ := cbcCryptEx_ok hiv
    (cbcCryptEx_receives type key iv hpos hmod)
  exact ⟨hlen, hlast⟩

theorem sameCipher_refl (type : KeyType) (key : Bytes) :
    SameCipher type key key := ⟨rfl, rfl⟩

/-- The token of a legacy handshake, from a challenge of the right length. -/
theorem legacyToken_eq {key : Key} (channel : Channel) {rndA d₁ : Bytes}
    (hA : rndA.length = legacyRndLen key)
    (hd : d₁.length = legacyRndLen key) :
    ∃ token, legacyToken key channel rndA d₁ = .ok token ∧
      token.both.length ≤ txFrameMax ∧
      (channel ≠ .d40 → token.iv =
        (encSent key.type key.data.bytes
          (decReceived key.type key.data.bytes zeroIv d₁).2
          (rndA ++ rol (decReceived key.type key.data.bytes zeroIv
            d₁).1)).2) := by
  obtain ⟨hpos, hmod, hmax⟩ := legacyRndLen_blocks key
  have hiv := blockSize_le_zeroIv key.type
  have hdpos : 0 < d₁.length := by omega
  have hdmod : d₁.length % blockSize key.type = 0 := by rw [hd, hmod]
  have hreceived :=
    cbcCryptEx_receives key.type key.data.bytes zeroIv hdpos hdmod
  obtain ⟨hlen, hlast⟩ := length_decReceived key.data.bytes hiv hdpos hdmod
  generalize decReceived key.type key.data.bytes zeroIv d₁ = rndB at *
  have hrol : (rol rndB.1).length = legacyRndLen key := by
    rw [length_rol, hlen, hd]
  have hsame := sameCipher_refl key.type key.data.bytes
  obtain ⟨first, hmirrors⟩ : ∃ first, cbcCryptEx key.type key.data.bytes
      zeroIv rndA true false = .ok first :=
    ⟨_, hsame.mirrors _ (by omega) (by rw [hA, hmod])⟩
  have hfirst := (cbcCryptEx_ok hiv hmirrors).2.2.1
  have hmix : (Bytes.xor (rol rndB.1) first.1).length = legacyRndLen key := by
    rw [Bytes.length_xor, hrol, hfirst, hA, Nat.min_self]
  obtain ⟨second, hmirrors₂⟩ : ∃ second, cbcCryptEx key.type key.data.bytes
      zeroIv (Bytes.xor (rol rndB.1) first.1) true false = .ok second :=
    ⟨_, hsame.mirrors _ (by omega) (by rw [hmix, hmod])⟩
  have hsecond := (cbcCryptEx_ok hiv hmirrors₂).2.2.1
  have hplain : (rndA ++ rol rndB.1).length =
      legacyRndLen key + legacyRndLen key := by
    rw [List.length_append, hA, hrol]
  have hplainMod : (rndA ++ rol rndB.1).length % blockSize key.type = 0 := by
    rw [hplain, Nat.add_mod, hmod]
    rfl
  have hsends := hsame.sends rndB.2 (by omega) hplainMod
  have hboth : (encSent key.type key.data.bytes rndB.2
      (rndA ++ rol rndB.1)).1.length = (rndA ++ rol rndB.1).length :=
    (cbcCryptEx_ok (Nat.le_of_eq hlast.symm) hsends).2.2.1
  by_cases hchan : channel = .d40
  · refine ⟨⟨first.1 ++ second.1, rndB.1, second.2⟩, ?_, ?_, fun h =>
      absurd hchan h⟩
    · rw [zeroIv] at hreceived hmirrors hmirrors₂
      simp only [legacyToken, hreceived, hmirrors, hmirrors₂, hchan, bind,
        Except.bind, pure, Except.pure, if_true]
    · simp only [List.length_append, hfirst, hsecond, hmix, hA, txFrameMax]
      omega
  · refine ⟨⟨(encSent key.type key.data.bytes rndB.2
      (rndA ++ rol rndB.1)).1, rndB.1, _⟩, ?_, ?_, fun _ => rfl⟩
    · rw [zeroIv] at hreceived
      simp only [legacyToken, hreceived, hsends, hchan, bind, Except.bind,
        pure, Except.pure, if_false]
    · simp only [hboth, hplain, txFrameMax]
      omega

/-- Where the proof's chain starts. -/
theorem legacyToken_chain {key : Key} {channel : Channel} {rnd d₁ : Bytes}
    (hd : d₁.length = legacyRndLen key) {token : LegacyToken}
    (htoken : legacyToken key channel (Bytes.fit (legacyRndLen key) rnd) d₁ =
      .ok token) :
    (if channel = .d40 then zeroIv else token.iv) =
      if channel = .d40 then zeroIv
      else (encSent key.type key.data.bytes
        (decReceived key.type key.data.bytes zeroIv d₁).2
        (Bytes.fit (legacyRndLen key) rnd ++
          rol (decReceived key.type key.data.bytes zeroIv d₁).1)).2 := by
  obtain ⟨token', htoken', -, hiv⟩ := legacyToken_eq channel
    (Bytes.length_fit (legacyRndLen key) rnd) hd
  rw [htoken] at htoken'
  cases htoken'
  by_cases hchan : channel = .d40
  · rw [if_pos hchan, if_pos hchan]
  · rw [if_neg hchan, if_neg hchan, hiv hchan]

theorem legacyOpening_ok {rng : Rng} {key : Key} {channel : Channel}
    {x : UInt8 × Bytes} {made : Bytes × Bytes × LegacyToken} :
    legacyOpening rng key channel x = .ok made ↔
      x.1 = dfSAdditionalFrame ∧ x.2.length = legacyRndLen key ∧
      ∃ rnd token, rng = .ok rnd ∧ legacyToken key channel
        (Bytes.fit (legacyRndLen key) rnd) x.2 = .ok token ∧
        made = (token.both, Bytes.fit (legacyRndLen key) rnd, token) := by
  obtain ⟨hpos, -⟩ := legacyRndLen_blocks key
  rw [legacyOpening]
  split
  · next hbad =>
      refine iff_of_false (fun h => ?_) ?_
      · cases h
      · rintro ⟨hst, hlen, -⟩
        exact hbad.elim (fun h => h hst) (fun h => h hlen)
  · next hgood =>
      rw [not_or, not_not, not_not] at hgood
      rw [drawn_token_ok hpos]
      simp only [hgood, true_and]

theorem legacyOpening_token {rng : Rng} {key : Key} {channel : Channel}
    {x : UInt8 × Bytes} {made : Bytes × Bytes × LegacyToken}
    (h : legacyOpening rng key channel x = .ok made) :
    made.1.length ≤ txFrameMax := by
  obtain ⟨-, hxlen, rnd, token, -, htoken, rfl⟩ := legacyOpening_ok.mp h
  obtain ⟨token', htoken', hlen, -⟩ := legacyToken_eq channel
    (Bytes.length_fit (legacyRndLen key) rnd) hxlen
  rw [htoken] at htoken'
  cases htoken'
  exact hlen

theorem legacyClosing_ok (keyNo : UInt8) (key : Key) (channel : Channel)
    (kept : Bytes × LegacyToken) (y : UInt8 × Bytes) (card : Card) :
    (legacyClosing keyNo key channel kept y card).1 = .ok () ↔
      y.1 = dfSOk ∧ y.2.length = legacyRndLen key ∧
        (decReceived key.type key.data.bytes
          (if channel = .d40 then zeroIv else kept.2.iv) y.2).1 =
          rol kept.1 := by
  obtain ⟨hpos, hmod, -⟩ := legacyRndLen_blocks key
  rw [legacyClosing]
  by_cases hcond : y.1 ≠ dfSOk ∨ y.2.length ≠ legacyRndLen key
  · rw [if_pos hcond]
    simp only [reduceCtorEq, false_iff]
    rintro ⟨hst, hlen, -⟩
    exact hcond.elim (· hst) (· hlen)
  rw [not_or, not_not, not_not] at hcond
  rw [if_neg (by rw [hcond.1, hcond.2]; simp)]
  simp only [legacyAccept]
  rw [cbcCryptEx_receives _ _ _ (by omega) (by rw [hcond.2, hmod]), ← zeroIv]
  generalize decReceived key.type key.data.bytes
    (if channel = .d40 then zeroIv else kept.2.iv) y.2 = plain
  by_cases heq : rol kept.1 = plain.1
  · simp only [heq, ne_eq, not_true_eq_false, if_false, hcond.1, hcond.2,
      and_self]
  · simp only [heq, Ne.symm heq, ne_eq, not_false_eq_true, if_true,
      reduceCtorEq, and_false]

theorem authLegacy_ok {rng : Rng} {keyNo : UInt8} {key : Key}
    {channel : Channel} (hchan : channel = .d40 ∨ channel = .ev1)
    {card card' : Card} {script rest : List Answer} {said : Said}
    {r : Except Err Unit}
    (h : authLegacy rng keyNo key channel card script =
      .done said r card' rest) :
    r = .ok () ↔ CardProves rng channel true key card.wraps
      (script.take 2) := by
  obtain ⟨hpos, hmod, hmax⟩ := legacyRndLen_blocks key
  have hlegacy : ∀ rndA d₁ d₂, Proves channel true key rndA d₁ d₂ =
      LegacyProof key channel rndA d₁ d₂ := by
    rcases hchan with rfl | rfl <;> exact fun _ _ _ => rfl
  have hlen : challengeLen channel key = legacyRndLen key := by
    rcases hchan with rfl | rfl <;> rfl
  rw [authLegacy_twoPass] at h
  rw [native_twoPass (Nat.le_of_ble_eq_true rfl)
    (fun x made => legacyOpening_token) (legacyClosing_ok keyNo key channel) h]
  · constructor
    · rintro ⟨a₁, a₂, x, made, y, hanswers, hx, hmade, hy, hok, hylen, hproof⟩
      obtain ⟨hst, hxlen, rnd, token, rfl, htoken, rfl⟩ :=
        legacyOpening_ok.mp hmade
      refine ⟨rnd, x.2, y.2, rfl, twoAnswers_of_read hanswers hx hy hst hok,
        ?_⟩
      rw [hlegacy, hlen]
      refine ⟨hxlen, hylen, ?_⟩
      rwa [legacyToken_chain hxlen htoken] at hproof
    · rintro ⟨rnd, d₁, d₂, rfl, ⟨a₁, a₂, hanswers, hst, rfl, hok, rfl⟩, hproves⟩
      rw [hlegacy, hlen] at hproves
      obtain ⟨hxlen, hylen, hproof⟩ := hproves
      obtain ⟨token, htoken, -⟩ := legacyToken_eq channel
        (Bytes.length_fit (legacyRndLen key) rnd) hxlen
      rw [← legacyToken_chain hxlen htoken] at hproof
      exact ⟨a₁, a₂, (dfSAdditionalFrame, answerData card.wraps a₁), _,
        (dfSOk, answerData card.wraps a₂), hanswers,
        ⟨hst, rfl, by dsimp only; omega⟩,
        legacyOpening_ok.mpr ⟨rfl, hxlen, rnd, token, rfl, htoken, rfl⟩,
        ⟨hok, rfl, by dsimp only; omega⟩, rfl, hylen, hproof⟩

theorem ev2Token_eq (key : Key) (rnd : Bytes) {challenge : Bytes}
    (h : challenge.length = 16) :
    ∃ token, ev2Token key (Bytes.fit aesBlock rnd) challenge = .ok token ∧
      token.1.length = 32 := by
  have hiv := blockSize_le_zeroIv .aes128
  have hpos : 0 < challenge.length := by omega
  have hmod : challenge.length % blockSize .aes128 = 0 := by
    rw [h]
    rfl
  have hreceived := cbcCryptEx_receives .aes128 key.data.bytes zeroIv hpos hmod
  obtain ⟨hlen, -⟩ := length_decReceived key.data.bytes hiv hpos hmod
  generalize decReceived .aes128 key.data.bytes zeroIv challenge = rndB at *
  have hplain : (Bytes.fit aesBlock rnd ++ rol rndB.1).length = 32 := by
    rw [List.length_append, Bytes.length_fit, length_rol, hlen, h]
    rfl
  have hplainMod : (Bytes.fit aesBlock rnd ++ rol rndB.1).length %
      blockSize .aes128 = 0 := by
    rw [hplain]
    rfl
  have hsends := (sameCipher_refl .aes128 key.data.bytes).sends zeroIv
    (by omega) hplainMod
  have hboth := (cbcCryptEx_ok hiv hsends).2.2.1
  refine ⟨(_, rndB.1), ?_, hboth.trans hplain⟩
  rw [zeroIv, maxBlock] at hreceived hsends
  simp only [ev2Token, cbcCrypt, aesBlock, hreceived, bind, Except.bind]
  rw [aesBlock] at hsends
  rw [hsends]
  rfl

theorem ev2Opening_ok {rng : Rng} {key : Key} {x : UInt8 × Bytes}
    {made : Bytes × Bytes × Bytes} :
    ev2Opening rng key x = .ok made ↔
      x.1 = dfSAdditionalFrame ∧
      (x.2.length = 16 ∨ x.2.length = 17 ∧ x.2.headD 0 = 0x00) ∧
      ∃ rnd token, rng = .ok rnd ∧ ev2Token key (Bytes.fit aesBlock rnd)
        (x.2.drop (x.2.length - 16)) = .ok token ∧
        made = (token.1, Bytes.fit aesBlock rnd, token.2) := by
  rw [ev2Opening]
  split
  · next hst =>
      refine iff_of_false (fun h => ?_) fun h => hst h.1
      cases h
  next hst =>
  rw [not_not] at hst
  cases hchallenge : ev2Challenge x.2 with
  | error e =>
      refine iff_of_false (fun h => ?_) fun h => ?_
      · cases h
      · rw [ev2Challenge_ok.mpr ⟨h.2.1, rfl⟩] at hchallenge
        cases hchallenge
  | ok challenge =>
      obtain ⟨hlen, rfl⟩ := ev2Challenge_ok.mp hchallenge
      have hdrawn := @drawn_token_ok _ _ rng aesBlock (by decide)
        (fun rnd => ev2Token key rnd (x.2.drop (x.2.length - 16)))
        (fun rnd token => (token.1, rnd, token.2)) made
      simp only [hst, hlen, true_and]
      exact hdrawn

theorem ev2Opening_token {rng : Rng} {key : Key} {x : UInt8 × Bytes}
    {made : Bytes × Bytes × Bytes} (h : ev2Opening rng key x = .ok made) :
    made.1.length ≤ txFrameMax := by
  obtain ⟨-, hxlen, rnd, token, -, htoken, rfl⟩ := ev2Opening_ok.mp h
  have hlen : (x.2.drop (x.2.length - 16)).length = 16 := by
    rw [List.length_drop]
    omega
  obtain ⟨token', htoken', hboth⟩ := ev2Token_eq key rnd hlen
  rw [htoken] at htoken'
  cases htoken'
  rw [hboth]
  decide

theorem ev2Closing_ok (keyNo : UInt8) (key : Key) (first : Bool)
    (kept : Bytes × Bytes) (y : UInt8 × Bytes) (card : Card) :
    (ev2Closing keyNo key first kept y card).1 = .ok () ↔
      y.1 = dfSOk ∧ y.2.length = (if first then 32 else 16) ∧
        kept.1 = ev2ReturnedRndA
          (decReceived .aes128 key.data.bytes zeroIv y.2).1 first := by
  rw [ev2Closing]
  by_cases hst : y.1 = dfSOk
  swap
  · simp only [if_pos hst, reduceCtorEq, hst, false_and]
  rw [if_neg (not_not.mpr hst), ev2Accept]
  by_cases hlen : y.2.length = if first then 32 else 16
  swap
  · have hlen' : y.2.length ≠ if first then aesBlock * 2 else aesBlock := hlen
    simp only [if_pos hlen', reduceCtorEq, hlen, false_and, and_false]
  have hlen' : ¬ y.2.length ≠ if first then aesBlock * 2 else aesBlock :=
    not_not.mpr hlen
  have hreceived : cbcCrypt .aes128 key.data.bytes (Bytes.zeros aesBlock) y.2
      false = .ok (decReceived .aes128 key.data.bytes zeroIv y.2) :=
    cbcCryptEx_receives _ _ _ (by rw [hlen]; split <;> omega)
      (by rw [hlen]; split <;> rfl)
  rw [if_neg hlen', hreceived]
  generalize decReceived .aes128 key.data.bytes zeroIv y.2 = plain
  by_cases heq : kept.1 = ev2ReturnedRndA plain.1 first
  · simp only [← heq, ne_eq, not_true_eq_false, if_false, hst, hlen, and_self]
  · simp only [heq, ne_eq, not_false_eq_true, if_true, reduceCtorEq,
      and_false]

theorem authEv2_ok {rng : Rng} {keyNo : UInt8} {key : Key} {first : Bool}
    {card card' : Card} {script rest : List Answer} {said : Said}
    {r : Except Err Unit}
    (h : authEv2 rng keyNo key first card script = .done said r card' rest) :
    r = .ok () ↔ CardProves rng .ev2 first key card.wraps
      (script.take 2) := by
  have hplain : ∀ d₂ : Bytes, d₂.length = (if first then 32 else 16) →
      (decReceived .aes128 key.data.bytes zeroIv d₂).1.length =
        if first then 32 else 16 := by
    intro d₂ hlen
    refine (length_decReceived _ (blockSize_le_zeroIv _) ?_ ?_).1.trans hlen
    · rw [hlen]; split <;> omega
    · rw [hlen]; split <;> rfl
  rw [authEv2_twoPass] at h
  rw [native_twoPass (ev2Data_length keyNo first)
    (fun x made => ev2Opening_token) (ev2Closing_ok keyNo key first) h]
  · constructor
    · rintro ⟨a₁, a₂, x, made, y, hanswers, hx, hmade, hy, hok, hylen, hproof⟩
      obtain ⟨hst, hxlen, rnd, token, rfl, htoken, rfl⟩ :=
        ev2Opening_ok.mp hmade
      refine ⟨rnd, x.2, y.2, rfl, twoAnswers_of_read hanswers hx hy hst hok,
        hxlen, hylen, ?_⟩
      exact (ev2ReturnedRndA_iff (Bytes.length_fit _ _)
        (hplain _ hylen)).mp hproof
    · rintro ⟨rnd, d₁, d₂, rfl, ⟨a₁, a₂, hanswers, hst, rfl, hok, rfl⟩,
        hxlen, hylen, hproof⟩
      have hchallenge : ((answerData card.wraps a₁).drop
          ((answerData card.wraps a₁).length - 16)).length = 16 := by
        rw [List.length_drop]
        omega
      obtain ⟨token, htoken, -⟩ := ev2Token_eq key rnd hchallenge
      exact ⟨a₁, a₂, (dfSAdditionalFrame, answerData card.wraps a₁), _,
        (dfSOk, answerData card.wraps a₂), hanswers,
        ⟨hst, rfl, by dsimp only; omega⟩,
        ev2Opening_ok.mpr ⟨rfl, hxlen, rnd, token, rfl, htoken, rfl⟩,
        ⟨hok, rfl, by dsimp only; rw [hylen]; split <;> omega⟩, rfl, hylen,
        (ev2ReturnedRndA_iff (Bytes.length_fit _ _)
          (hplain _ hylen)).mpr hproof⟩

theorem lrpOpening_ok {rng : Rng} {key : Key} {x : UInt8 × Bytes}
    {made : Bytes × Bytes × Bytes} :
    lrpOpening rng key x = .ok made ↔
      x.1 = dfSAdditionalFrame ∧ x.2.length = 17 ∧ x.2.headD 0 = 0x01 ∧
      ∃ rnd, rng = .ok rnd ∧
        made = (Bytes.fit aesBlock rnd ++
          lrpCmac (lrpInit (sessionKeyLrp key.data.bytes
            (Bytes.fit aesBlock rnd) (x.2.drop 1)) 0 true)
            (Bytes.fit aesBlock rnd ++ x.2.drop 1),
          Bytes.fit aesBlock rnd, x.2.drop 1) := by
  rw [lrpOpening]
  constructor
  · intro h
    split at h
    · cases h
    next hcond =>
    rw [not_or, not_or, not_not, not_not, not_not] at hcond
    refine ⟨hcond.1, hcond.2.1, hcond.2.2, ?_⟩
    cases rng with
    | error e => cases h
    | ok rnd =>
    rw [randomBytes_ok (by decide)] at h
    cases h
    exact ⟨rnd, rfl, rfl⟩
  · rintro ⟨hst, hlen, hhead, rnd, rfl, rfl⟩
    rw [if_neg (by rw [hst, hlen, hhead]; simp [aesBlock]),
      randomBytes_ok (by decide)]
    rfl

theorem lrpOpening_token {rng : Rng} {key : Key} {x : UInt8 × Bytes}
    {made : Bytes × Bytes × Bytes} (h : lrpOpening rng key x = .ok made) :
    made.1.length ≤ txFrameMax := by
  obtain ⟨-, -, -, rnd, -, rfl⟩ := lrpOpening_ok.mp h
  rw [List.length_append, Bytes.length_fit, lrpCmac_length]
  decide

theorem lrpClosing_ok (keyNo : UInt8) (key : Key) (first : Bool)
    (kept : Bytes × Bytes) (y : UInt8 × Bytes) (card : Card) :
    (lrpClosing keyNo key first kept y card).1 = .ok () ↔
      y.1 = dfSOk ∧ (if first then 32 else 16) ≤ y.2.length ∧
        (y.2.drop (if first then y.2.take 16 else []).length).take 16 =
          lrpCmac (lrpInit (piccLrpKey key.data.bytes kept.1 kept.2) 0 true)
            (kept.2 ++ kept.1 ++ if first then y.2.take 16 else []) := by
  rw [lrpClosing, ← sessionKeyLrp_picc]
  by_cases hst : y.1 = dfSOk
  swap
  · simp only [hst, ne_eq, not_false_eq_true, true_or, if_true, reduceCtorEq,
      false_and]
  by_cases hlen : (if first then 32 else 16) ≤ y.2.length
  swap
  · simp only [hlen, false_and, and_false, iff_false]
    split
    · intro h
      cases h
    have hlen' : y.2.length < if first then aesBlock * 2 else aesBlock :=
      Nat.not_le.mp hlen
    simp only [lrpAccept, if_pos hlen', reduceCtorEq, not_false_eq_true]
  have hlong : ¬ (y.1 ≠ dfSOk ∨ y.2.length < aesBlock) := by
    rw [hst, aesBlock]
    simp only [ne_eq, not_true_eq_false, false_or, Nat.not_lt]
    split at hlen <;> omega
  have hlen' : ¬ y.2.length < if first then aesBlock * 2 else aesBlock :=
    Nat.not_lt.mpr hlen
  have hdrop : (if first then y.2.take 16 else []).length =
      if first then aesBlock else 0 := by
    cases first with
    | false => rfl
    | true =>
        rw [if_pos rfl] at hlen ⊢
        rw [List.length_take, if_pos rfl, aesBlock]
        omega
  rw [if_neg hlong, hdrop]
  simp only [lrpAccept, if_neg hlen', hst, hlen, true_and]
  by_cases heq : (y.2.drop (if first = true then aesBlock else 0)).take
      aesBlock = lrpCmac (lrpInit (sessionKeyLrp key.data.bytes kept.1 kept.2)
        0 true) (kept.2 ++ kept.1 ++
          if first = true then y.2.take aesBlock else [])
  · rw [if_neg (not_not.mpr heq)]
    simp only [true_iff]
    exact heq
  · rw [if_pos heq]
    simp only [reduceCtorEq, false_iff]
    exact heq

theorem authLrp_ok {rng : Rng} {keyNo : UInt8} {key : Key} {first : Bool}
    {card card' : Card} {script rest : List Answer} {said : Said}
    {r : Except Err Unit}
    (h : authLrp rng keyNo key first card script = .done said r card' rest) :
    r = .ok () ↔ CardProves rng .lrp first key card.wraps
      (script.take 2) := by
  rw [authLrp_twoPass] at h
  rw [native_twoPass (lrpData_length keyNo first)
    (fun x made => lrpOpening_token) (lrpClosing_ok keyNo key first) h]
  · constructor
    · rintro ⟨a₁, a₂, x, made, y, hanswers, hx, hmade, hy, hok, hylen, hproof⟩
      obtain ⟨hst, hxlen, hhead, rnd, rfl, rfl⟩ := lrpOpening_ok.mp hmade
      exact ⟨rnd, x.2, y.2, rfl, twoAnswers_of_read hanswers hx hy hst hok,
        hxlen, hhead, hylen, hy.2.2, hproof⟩
    · rintro ⟨rnd, d₁, d₂, rfl, ⟨a₁, a₂, hanswers, hst, rfl, hok, rfl⟩,
        hxlen, hhead, hylen, hcap, hproof⟩
      exact ⟨a₁, a₂, (dfSAdditionalFrame, answerData card.wraps a₁), _,
        (dfSOk, answerData card.wraps a₂), hanswers,
        ⟨hst, rfl, by dsimp only; omega⟩,
        lrpOpening_ok.mpr ⟨rfl, hxlen, hhead, rnd, rfl, rfl⟩,
        ⟨hok, rfl, hcap⟩, rfl, hylen, hproof⟩

end

end Nxpsc
