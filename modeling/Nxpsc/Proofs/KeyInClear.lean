import Nxpsc.Proofs.HandleInvariant
import Nxpsc.Proofs.Reply
import Nxpsc.Spec.KeyInClear

/-!
# Keys on the wire

Five calls carry a key, or something with a key in it, that is to reach the
card enciphered. Three of them look for a session first. The other two ask
for the mode and leave the rest to the channel, and the handle of no session
has no channel: the payload is copied. So two runs that differ in the key
alone differ on the wire exactly there, unless the call is refused for its
arguments or because a session was lost.
-/

namespace Nxpsc

open Dialogue

theorem SameForm.symm {key key' : Option Key} (h : SameForm key key') :
    SameForm key' key := by
  cases key with
  | none => cases key' with
    | none => exact h
    | some k => exact h
  | some k => cases key' with
    | none => exact h
    | some k' => exact ⟨h.1.symm, h.2.symm⟩

theorem SameButKey.symm {call twin : Call} (h : SameButKey call twin) :
    SameButKey twin call := by
  cases h with
  | changeKey hold hnew => exact .changeKey hold.symm hnew.symm
  | changeKeyEv2 hold hnew => exact .changeKeyEv2 hold.symm hnew.symm
  | setDefaultKey hkey => exact .setDefaultKey hkey.symm
  | createTransactionMacFile hkey =>
      exact .createTransactionMacFile hkey.symm
  | createMfcMapping hlen => exact .createMfcMapping hlen.symm

theorem SameButKey.sendsKeyPlain {call twin : Call} {card : Card}
    (h : SameButKey call twin) (hplain : SendsKeyPlain call card) :
    SendsKeyPlain twin card := by
  cases h with
  | createTransactionMacFile hkey =>
      exact ⟨hplain.1, hkey.1.symm.trans hplain.2⟩
  | @createMfcMapping data data' hlen =>
      have hfits : 0 < data.length ∧ data.length ≤ 64 := hplain.2
      rw [hlen] at hfits
      exact ⟨hplain.1, hfits⟩
  | _ => exact hplain.2.elim

/-! ## Nothing is sent -/

section

variable [BlockCipher]

theorem queries_dataCall_refused {α : Type}
    {request : Card → Except Err Request}
    {finish : Bytes → Card → Except Err α × Card} {card : Card} {e : Err}
    (hreq : request card = .error e) (script : List Answer) :
    (dataCall request finish card script).queries = [] := by
  rw [dataCall, Prog.get_bind, hreq, Prog.ofExcept_error_bind]
  rfl

/-- Behind a lost session the request for enciphering ends the call. -/
theorem queries_dataCall_lost {α : Type} {request : Card → Except Err Request}
    {finish : Bytes → Card → Except Err α × Card} {card : Card} {req : Request}
    (hreq : request card = .ok req) (hmode : req.txMode ≠ .plain)
    (hlost : card.sessionLost = true) (script : List Answer) :
    (dataCall request finish card script).queries = [] := by
  rw [dataCall, Prog.get_bind, hreq, Prog.ofExcept_ok_bind, exchange]
  rw [Prog.bind_def, Prog.bind, Prog.act_bind, exchangeRequest,
    if_pos ⟨hlost, .inl hmode⟩]
  rfl

theorem queries_changeKeyCall {ev2 : Bool} {keySet keyNo : UInt8}
    {old new : Option Key} {card : Card} (hno : card.authenticated = false)
    (script : List Answer) :
    (changeKeyCall ev2 keySet keyNo old new card script).queries = [] := by
  obtain ⟨e, he⟩ : ∃ e, changeKeyRequest ev2 keySet keyNo old new card =
      .error e := by
    cases new with
    | none => exact ⟨_, rfl⟩
    | some new =>
        refine ⟨.auth, ?_⟩
        simp only [changeKeyRequest]
        rw [if_pos hno]
  rw [changeKeyCall, Prog.get_bind, he, Prog.ofExcept_error_bind]
  rfl

/-- Outside a session a call with a key in it that is not one of the two sends
nothing at all. -/
theorem silent_without_session {call twin : Call} {card : Card}
    (hkey : SameButKey call twin) (hno : card.authenticated = false)
    (hplain : ¬ SendsKeyPlain call card) (script : List Answer) :
    (call.run card script).queries = [] := by
  cases hkey with
  | changeKey hold hnew => exact queries_changeKeyCall hno script
  | changeKeyEv2 hold hnew => exact queries_changeKeyCall hno script
  | @setDefaultKey key key' hform =>
      obtain ⟨e, he⟩ : ∃ e, setDefaultKeyRequest key card = .error e := by
        rw [setDefaultKeyRequest, setConfigurationRequest, hno]
        repeat' split
        · exact ⟨_, rfl⟩
        · exact ⟨_, rfl⟩
        · exact ⟨_, rfl⟩
        · next h => exact absurd rfl h
      exact queries_dataCall_refused he script
  | @createTransactionMacFile fileNo comm access key key' version hform =>
      by_cases htype : key.type = .aes128
      swap
      · exact queries_dataCall_refused (if_pos htype) script
      have hlost : card.sessionLost = true :=
        Bool.eq_true_of_not_eq_false fun h => hplain ⟨h, htype⟩
      exact queries_dataCall_lost (if_neg (not_not.mpr htype))
        (fun h => Mode.noConfusion h) hlost script
  | @createMfcMapping data data' hlen =>
      by_cases hbad : data.length = 0 ∨ 64 < data.length
      · exact queries_dataCall_refused (if_pos hbad) script
      have hlost : card.sessionLost = true :=
        Bool.eq_true_of_not_eq_false fun h => hplain ⟨h, by omega⟩
      exact queries_dataCall_lost (if_neg hbad) (fun h => Mode.noConfusion h)
        hlost script

/-! ## The payload is sent as it is -/

/-- Without a channel the mode is asked for and not granted. -/
theorem exchangeRequest_auto (cmd : UInt8) {data : Bytes}
    (txMode rxMode : Mode) {card : Card} (hchan : card.channel = .auto)
    (hlost : card.sessionLost = false) (hlen : data.length ≤ maxResponse) :
    ∃ zeroLen, exchangeRequest cmd data txMode rxMode card =
      (.ok data,
        { card with
          mode := txMode, macMismatch := false, lastCmd := cmd
          lastRequestZeroLen := zeroLen }) := by
  rw [exchangeRequest, if_neg fun h => Bool.noConfusion (hlost.symm.trans h.1),
    channelEncode]
  simp only [hchan, copyOutput, if_neg (Nat.not_lt.mpr hlen)]
  exact ⟨_, rfl⟩

theorem queries_dataCall_auto {α : Type} {request : Card → Except Err Request}
    {finish : Bytes → Card → Except Err α × Card} {card : Card} {req : Request}
    (hreq : request card = .ok req) (hchan : card.channel = .auto)
    (hlost : card.sessionLost = false) (hlen : req.data.length ≤ maxResponse) :
    (dataCall request finish card []).queries =
      [oneFrame req.cmd (req.data.take txFrameMax) card] := by
  obtain ⟨zeroLen, hexch⟩ := exchangeRequest_auto req.cmd req.txMode
    req.rxMode hchan hlost hlen
  have hput := @queries_dataCall_nil _ _ _ finish card _ _ _ hreq hexch
  exact hput

end

theorem oneFrame_inj {cmd : UInt8} {data data' : Bytes} {card : Card}
    (hlen : data.length = data'.length)
    (h : (oneFrame cmd data card).bytes = (oneFrame cmd data' card).bytes) :
    data = data' := by
  simp only [oneFrame] at h
  split at h
  · simp only [Frame.bytes, List.append_cancel_left_eq,
      List.append_cancel_right_eq, hlen] at h
    split at h
    · next hzero =>
        rw [List.length_eq_zero_iff.mp hzero]
        exact List.length_eq_zero_iff.mp (hlen.trans hzero)
    · exact (List.cons.inj h).2
  · exact (List.cons.inj h).2

theorem take_ne {xs ys : Bytes} {n : Nat} (hx : xs.length ≤ n)
    (hy : ys.length ≤ n) (h : xs ≠ ys) : xs.take n ≠ ys.take n := by
  rwa [List.take_of_length_le hx, List.take_of_length_le hy]

/-- Some key of the same type has other bytes. -/
theorem exists_other_key (key : Key) : ∃ key' : Key,
    SameForm (some key) (some key') ∧
      key'.data.bytes.take 16 ≠ key.data.bytes.take 16 := by
  by_cases hzero : key.data.bytes.take 16 = (Buf.zero 32).bytes.take 16
  · refine ⟨⟨key.type, .of 32 (List.replicate 32 1), key.version⟩,
      ⟨rfl, rfl⟩, ?_⟩
    rw [hzero]
    show (Buf.of 32 (List.replicate 32 1)).bytes.take 16 ≠ _
    decide
  · exact ⟨⟨key.type, .zero 32, key.version⟩, ⟨rfl, rfl⟩, fun h =>
      hzero h.symm⟩

section

variable [BlockCipher]

/-- Where the payloads of two calls differ in their first frame, so does the
wire. -/
theorem wire_differs {request request' : Card → Except Err Request}
    {card : Card} {cmd : UInt8} {data data' : Bytes} {rxMode : Mode} {cap : Nat}
    (hreq : request card = .ok ⟨cmd, data, .enc, rxMode, cap⟩)
    (hreq' : request' card = .ok ⟨cmd, data', .enc, rxMode, cap⟩)
    (hchan : card.channel = .auto) (hlost : card.sessionLost = false)
    (hlen : data.length = data'.length) (hmax : data.length ≤ maxResponse)
    (hdiff : data.take txFrameMax ≠ data'.take txFrameMax) :
    wire (dataCall request noAnswer card []) ≠
      wire (dataCall request' noAnswer card []) := by
  intro heq
  rw [wire, wire, queries_dataCall_auto hreq hchan hlost hmax,
    queries_dataCall_auto hreq' hchan hlost (hlen ▸ hmax)] at heq
  have hbytes := (List.cons.inj heq).1
  exact hdiff (oneFrame_inj (by rw [List.length_take, List.length_take, hlen])
    hbytes)

/-- The two calls that do not ask for a session put the key on the wire. -/
theorem plain_differs {call : Call} {card : Card}
    (hchan : card.channel = .auto) (hplain : SendsKeyPlain call card) :
    ∃ twin, SameButKey call twin ∧
      wire (call.run card []) ≠ wire (twin.run card []) := by
  obtain ⟨hlost, hcall⟩ := hplain
  cases call with
  | data d =>
      cases d with
      | createTransactionMacFile fileNo comm access key version =>
          obtain ⟨key', hform, hother⟩ := exists_other_key key
          have htype : key.type = .aes128 := hcall
          have htype' : key'.type = .aes128 := hform.1.symm.trans htype
          refine ⟨_, .createTransactionMacFile hform, ?_⟩
          have hlen : ∀ k : Key, (fileNo :: commToFile comm ::
              (putU16 (packAccess access) ++
                0x02 :: (k.data.bytes.take 16 ++ [version]))).length = 22 := by
            intro k
            simp only [List.length_cons, List.length_append, List.length_take,
              k.data.size, List.length_nil]
            rfl
          refine wire_differs (if_neg (not_not.mpr htype))
            (if_neg (not_not.mpr htype')) hchan hlost
            ((hlen key).trans (hlen key').symm) (by rw [hlen]; decide)
            (take_ne (by rw [hlen]; decide) (by rw [hlen]; decide) ?_)
          intro heq
          simp only [List.cons.injEq, true_and, List.append_cancel_left_eq,
            List.append_cancel_right_eq] at heq
          exact hother heq.symm
      | createMfcMapping data =>
          have hfits : 0 < data.length ∧ data.length ≤ 64 := hcall
          have hbad : ∀ {xs : Bytes}, data.length = xs.length →
              ¬ (xs.length = 0 ∨ 64 < xs.length) := by
            intro xs hxs
            omega
          cases data with
          | nil => exact absurd hfits.1 (Nat.lt_irrefl 0)
          | cons b rest =>
              have hlen : (b :: rest).length = ((b + 1) :: rest).length := rfl
              refine ⟨_, .createMfcMapping hlen, ?_⟩
              refine wire_differs (if_neg (hbad rfl)) (if_neg (hbad hlen))
                hchan hlost hlen (Nat.le_trans hfits.2 (by decide)) ?_
              rw [txFrameMax, List.take_succ_cons, List.take_succ_cons]
              intro heq
              have hone : b + 1 = b := (List.cons.inj heq).1.symm
              exact absurd (add_eq_left.mp hone) (by decide)
      | _ => exact hcall.elim
  | _ => exact hcall.elim

/-- Outside a session two runs that differ in the bytes of a key put the same
on the wire exactly where the call is refused or asks for a session itself. -/
theorem key_in_clear_iff {uid : Option Bytes} {steps : List ApiStep}
    {card : Card} (hrun : ApiRun (Card.opened uid) steps card)
    (hno : card.authenticated = false) (call : Call) :
    (∀ twin, SameButKey call twin → ∀ script,
      wire (call.run card script) = wire (twin.run card script)) ↔
        ¬ SendsKeyPlain call card := by
  constructor
  · intro hsame hplain
    have hchan : card.channel = .auto := by
      by_contra hchan
      have hauth := (onChannel_reachable hrun).mpr hchan
      cases hno.symm.trans hauth
    obtain ⟨twin, hkey, hdiff⟩ := plain_differs hchan hplain
    exact hdiff (hsame twin hkey [])
  · intro hplain twin hkey script
    rw [wire, wire, silent_without_session hkey hno hplain,
      silent_without_session hkey.symm hno
        fun h => hplain (hkey.symm.sendsKeyPlain h)]

end

/-- A key of ones. -/
def onesKey : Key := ⟨.aes128, .of 32 (List.replicate 32 1), 0⟩

theorem key_in_clear_default_key :
    wire (@Call.run .identity (.data (.setDefaultKey zeroKey))
        (Card.opened none) []) =
      wire (@Call.run .identity (.data (.setDefaultKey onesKey))
        (Card.opened none) []) :=
  (@key_in_clear_iff .identity none [] _ .nil rfl
    (.data (.setDefaultKey zeroKey))).mpr (fun h => h.2) _
      (.setDefaultKey ⟨rfl, rfl⟩) []

/-- A freshly opened handle sends the key of the transaction MAC file as it
is. -/
theorem key_may_travel_in_clear :
    ¬ ∀ (_ : BlockCipher) (uid : Option Bytes) (steps : List ApiStep)
      (card : Card) (call twin : Call) (script : List Answer),
      ApiRun (Card.opened uid) steps card → card.authenticated = false →
      SameButKey call twin →
      wire (call.run card script) = wire (twin.run card script) := by
  intro hall
  have hsame := hall .identity none [] _
    (.data (.createTransactionMacFile 0 .plain ⟨0, 0, 0, 0⟩ zeroKey 0))
    (.data (.createTransactionMacFile 0 .plain ⟨0, 0, 0, 0⟩ onesKey 0)) []
    .nil rfl (.createTransactionMacFile ⟨rfl, rfl⟩)
  exact absurd hsame (by decide)

end Nxpsc
