import Nxpsc.Proofs.Script
import Nxpsc.Ref.Advanced

/-!
# Changing the key of the running session

The card that carries out the change answers with a bare status: the session
its MAC would come from is gone. What a plain answer mode makes of no data and
no MAC is up to the decoder of the channel, and on EV1 a plain answer carries
a MAC like any other.
-/

namespace Nxpsc

open Dialogue

/-! ## The request -/

theorem length_desKeySetVersion (key : Bytes) (type : KeyType)
    (version : UInt8) :
    (desKeySetVersion key type version).length = key.length := by
  cases type with
  | aes128 | aes256 => rfl
  | des | k2k3des | k3k3des => exact List.length_mapIdx

theorem length_storedKey_le (key : Key) :
    (storedKey key).length ≤ keySize key.type := by
  rw [storedKey, length_desKeySetVersion, List.length_take]
  exact Nat.min_le_left _ _

theorem length_wireKey_le (key : Key) : (wireKey key).length ≤ 32 := by
  have hstored := length_storedKey_le key
  have hmax := keySize_le key.type
  rw [wireKey]
  split
  · next hdes =>
      rw [hdes, keySize] at hstored
      rw [List.length_append]
      omega
  · rw [maxKeySize] at hmax
    omega

theorem length_changeKeyCryptogram_le (card : Card) (ev2 : Bool)
    (keyNo : UInt8) (oldKey : Option Key) (newKey : Key) :
    (changeKeyCryptogram card ev2 keyNo oldKey newKey).length ≤ 33 := by
  have hnew := length_wireKey_le newKey
  have hversion : (versionByte newKey).length ≤ 1 := by
    rw [versionByte]
    split
    · exact Nat.le_refl 1
    · exact Nat.zero_le 1
  simp only [changeKeyCryptogram, List.length_append]
  repeat' split
  all_goals
    try rw [Bytes.length_xor]
    omega

/-- The request of a session's own key is always made, and it is short. -/
theorem changeKeyRequest_own {card : Card} {ev2 : Bool} {oldKey : Option Key}
    (newKey : Key) (hauth : card.authenticated = true)
    (hchan : card.channel ≠ .auto)
    (hold : ev2 = false ∨ keyIsValid oldKey = true) :
    ∃ req, changeKeyRequest ev2 0 card.keyNo oldKey (some newKey) card =
        .ok req ∧ req.rxMode = .plain ∧ req.data.length ≤ 64 := by
  have hends : changeEndsSession card ev2 0 card.keyNo = true := by
    rw [changeEndsSession]
    cases ev2 <;> simp
  have hkeys : ¬ (changesSameKey card ev2 card.keyNo = false ∧
      keyIsValid oldKey = false) := by
    rintro ⟨hsame, hinvalid⟩
    rcases hold with rfl | hvalid
    · simp [changesSameKey] at hsame
    · rw [hvalid] at hinvalid
      cases hinvalid
  obtain ⟨sums, hsums, hshort⟩ : ∃ sums, changeKeyChecksums card ev2
      card.keyNo newKey
      (changeKeyCryptogram card ev2 card.keyNo oldKey newKey) = .ok sums ∧
      sums.length ≤ 8 := by
    have hnew : ∀ sum : Bytes, (if changesSameKey card ev2 card.keyNo = true
        then [] else sum).length ≤ sum.length := by
      intro sum
      split
      · exact Nat.zero_le _
      · exact Nat.le_refl _
    have h16 := hnew (crc16 (wireKey newKey))
    have h32 := hnew (crc32 (wireKey newKey))
    rw [length_crc16] at h16
    rw [length_crc32] at h32
    simp only [changeKeyChecksums]
    split
    case h_5 h => exact absurd h hchan
    all_goals
      refine ⟨_, rfl, ?_⟩
      try simp only [List.length_append, length_crc16, length_crc32]
      omega
  have hcrypto :=
    length_changeKeyCryptogram_le card ev2 card.keyNo oldKey newKey
  have hlive : ¬ card.authenticated = false := by rw [hauth]; decide
  simp only [changeKeyRequest, if_neg hlive, if_neg hkeys, hsums, hends,
    if_true]
  refine ⟨_, rfl, rfl, ?_⟩
  simp only [List.length_append, List.length_cons]
  split <;> simp <;> omega

section

variable [BlockCipher]

/-! ## The bare answer -/

theorem channelDecode_bare {card : Card} (hmode : card.mode = .plain)
    (status : UInt8) (cap : Nat) :
    (channelDecode [] status cap card).1 =
      if card.channel = .ev1 then .error .length else .ok [] := by
  have hcopy : copyOutput cap [] = .ok [] := rfl
  rw [channelDecode]
  split
  · next h => simp [decodeD40, hmode, h, hcopy]
  · next h => simp [decodeEv1, hmode, h, macLength]
  · next h => simp [decodeEv2, hmode, h, hcopy]
  · next h => simp [decodeEv2, hmode, h, hcopy]
  · next h => simp [h, hcopy]

theorem exchangeAnswer_bare (cap : Nat) (card : Card) :
    (exchangeAnswer .plain cap dfSOk [] card).1 =
      if card.channel = .ev1 then .error .length else .ok [] := by
  have hst : ¬ statusEndsSession dfSOk = true := by decide
  rw [exchangeAnswer, if_neg hst, channelDecode_bare rfl]
  split <;> rfl

theorem exchange_bare {req : Request} {card : Card} {script rest : List Answer}
    (hlost : card.sessionLost = false) (hrx : req.rxMode = .plain)
    (hdata : req.data.length ≤ 64) (hbare : BareOk card req script rest) :
    ∃ said card', exchange req.cmd req.data req.txMode req.rxMode req.cap card
      script = .done said
        (if card.channel = .ev1 then .error .length else .ok []) card'
        rest := by
  obtain ⟨acks, a, rfl, hlen, hacks, ha⟩ := hbare
  have hfit : wireLength { card with mode := req.txMode } req.cmd
      req.data.length ≤ maxResponse := by
    have := wireLength_le { card with mode := req.txMode } req.cmd
      req.data.length
    rw [maxResponse]
    omega
  obtain ⟨wrapped, card₁, hreq⟩ := exchangeRequest_isOk req.rxMode hlost hfit
  obtain ⟨_, _, _, _, hframe⟩ := exchangeRequest_frame hreq
  obtain ⟨said, hex⟩ := exchange_acked req.cap rest hreq hlen hacks ha
    (Nat.zero_le _) (by decide)
  have hchan : card₁.channel = card.channel := by rw [hframe]
  rw [hrx, exchangeAnswer_bare, ← hrx] at hex
  simp only [hchan] at hex
  exact ⟨said, _, hex⟩

/-- The three calls run one exchange, reset the handle and report what the
exchange reported. -/
theorem resetting_bare {m : Api Unit} {req : Request} {card : Card}
    {script rest : List Answer}
    (hm : ∀ said r card', exchange req.cmd req.data req.txMode req.rxMode
        req.cap card script = .done said r card' rest →
      m card script = .done said (r.map fun _ => ()) (resetChannel card') rest)
    (hlost : card.sessionLost = false) (hrx : req.rxMode = .plain)
    (hdata : req.data.length ≤ 64) (hbare : BareOk card req script rest) :
    EndsOk m card script rest ↔ card.channel ≠ .ev1 := by
  obtain ⟨said, card', hex⟩ := exchange_bare hlost hrx hdata hbare
  have hend := hm _ _ _ hex
  constructor
  · rintro ⟨said', card'', hok, _⟩ hchan
    rw [hend, if_pos hchan] at hok
    cases hok
  · intro hchan
    rw [if_neg hchan] at hend
    exact ⟨said, _, hend, noSession_resetChannel card'⟩

theorem changeKeyCall_resets {card : Card} {ev2 : Bool}
    {oldKey newKey : Option Key} {req : Request} {script rest : List Answer}
    (hreq : changeKeyRequest ev2 0 card.keyNo oldKey newKey card = .ok req)
    (said : Said) (r : Except Err Bytes) (card' : Card)
    (h : exchange req.cmd req.data req.txMode req.rxMode req.cap card script =
      .done said r card' rest) :
    changeKeyCall ev2 0 card.keyNo oldKey newKey card script =
      .done said (r.map fun _ => ()) (resetChannel card') rest := by
  have hends : changeEndsSession card ev2 0 card.keyNo = true := by
    rw [changeEndsSession]
    cases ev2 <;> simp
  have hatt : Prog.attempt (exchange req.cmd req.data req.txMode req.rxMode
      req.cap) card script = .done said (.ok r) card' rest :=
    Prog.attempt_eq_done.mpr ⟨r, rfl, h⟩
  rw [changeKeyCall, Prog.get_bind, hreq, Prog.ofExcept_ok_bind,
    Prog.bind_ok hatt, Prog.modify_bind, Prog.ofExcept_run, hends, if_pos rfl]
  simp only [Outcome.prepend, List.append_nil]

theorem rollKeySet_resets {card : Card} {keySet : UInt8}
    {script rest : List Answer} (said : Said) (r : Except Err Bytes)
    (card' : Card)
    (h : exchange dfRollKeySettings [keySet] .mac .plain 16 card script =
      .done said r card' rest) :
    rollKeySet keySet card script =
      .done said (r.map fun _ => ()) (resetChannel card') rest := by
  have hatt : Prog.attempt (exchange dfRollKeySettings [keySet] .mac .plain 16)
      card script = .done said (.ok r) card' rest :=
    Prog.attempt_eq_done.mpr ⟨r, rfl, h⟩
  rw [rollKeySet, Prog.bind_ok hatt, Prog.modify_bind, Prog.ofExcept_run]
  simp only [Outcome.prepend, List.append_nil]

/-- A card that changed the key of the running session, or rolled its key
set, and says so with a bare status: the call succeeds and leaves no session,
on every channel but EV1. -/
theorem own_key_change_reported {card : Card} {newKey : Key}
    {oldKey : Option Key} {keySet : UInt8} {script rest : List Answer}
    (hauth : card.authenticated = true) (hchan : card.channel ≠ .auto)
    (hlost : card.sessionLost = false) :
    (∃ req, changeKeyRequest false 0 card.keyNo oldKey (some newKey) card =
        .ok req ∧
      (BareOk card req script rest →
        (EndsOk (changeKey card.keyNo oldKey (some newKey)) card script rest ↔
          card.channel ≠ .ev1))) ∧
    (keyIsValid oldKey = true →
      ∃ req, changeKeyRequest true 0 card.keyNo oldKey (some newKey) card =
          .ok req ∧
        (BareOk card req script rest →
          (EndsOk (changeKeyEv2 0 card.keyNo oldKey (some newKey)) card script
            rest ↔ card.channel ≠ .ev1))) ∧
    (BareOk card ⟨dfRollKeySettings, [keySet], .mac, .plain, 16⟩ script rest →
      (EndsOk (rollKeySet keySet) card script rest ↔
        card.channel ≠ .ev1)) := by
  refine ⟨?_, fun hold => ?_, fun hbare => ?_⟩
  · obtain ⟨req, hreq, hrx, hdata⟩ :=
      changeKeyRequest_own newKey hauth hchan (.inl rfl)
    exact ⟨req, hreq,
      resetting_bare (changeKeyCall_resets hreq) hlost hrx hdata⟩
  · obtain ⟨req, hreq, hrx, hdata⟩ :=
      changeKeyRequest_own newKey hauth hchan (.inr hold)
    exact ⟨req, hreq,
      resetting_bare (changeKeyCall_resets hreq) hlost hrx hdata⟩
  · exact resetting_bare rollKeySet_resets hlost rfl (by simp) hbare

end

theorem bareOk_single {card : Card} {req : Request}
    (hset : card.cmdset = .native)
    (hone : requestFrames card req.cmd req.data.length req.txMode = 0) :
    BareOk card req [.ok [0x00]] [] :=
  ⟨[], .ok [0x00], rfl, hone.symm, fun _ hb => (List.not_mem_nil hb).elim,
    frameResponse_native hset (by decide) (by decide)⟩

theorem own_key_change_reported_ev2 :
    EndsOk (@changeKey .identity liveEv2.keyNo none (some zeroKey)) liveEv2
      [.ok [0x00]] [] := by
  obtain ⟨⟨req, hreq, h⟩, -⟩ := @own_key_change_reported .identity liveEv2
    zeroKey none 0 [.ok [0x00]] [] rfl (by decide) rfl
  cases hreq
  exact (h (bareOk_single rfl (by decide))).mpr (by decide)

/-- On EV1 the bare answer is a length error. -/
theorem own_key_change_misreported :
    ¬ ∀ (_ : BlockCipher) (card : Card) (oldKey : Option Key) (newKey : Key)
      (req : Request) (script rest : List Answer),
      card.authenticated = true → card.channel ≠ .auto →
      card.sessionLost = false →
      changeKeyRequest false 0 card.keyNo oldKey (some newKey) card =
        .ok req →
      BareOk card req script rest →
      EndsOk (changeKey card.keyNo oldKey (some newKey)) card script rest := by
  intro hall
  obtain ⟨req, hreq, hrx, hdata, hone⟩ : ∃ req : Request,
      changeKeyRequest false 0 liveEv1.keyNo none (some zeroKey) liveEv1 =
        .ok req ∧ req.rxMode = .plain ∧ req.data.length ≤ 64 ∧
      requestFrames liveEv1 req.cmd req.data.length req.txMode = 0 :=
    ⟨_, rfl, rfl, by decide, by decide⟩
  have hbare := bareOk_single rfl hone
  have hok := hall .identity liveEv1 none zeroKey req _ _ rfl (by decide) rfl
    hreq hbare
  exact (@resetting_bare .identity _ _ _ _ _
    (@changeKeyCall_resets .identity _ _ _ _ _ _ _ hreq) rfl hrx hdata
    hbare).mp hok rfl

end Nxpsc
