import Nxpsc.Proofs.Layout
import Nxpsc.Proofs.Reply
import Nxpsc.Proofs.RequestMac
import Nxpsc.Spec.Fields

/-!
# Twenty four bits are not cut short, but in one place

Where the fields of a payload are is gone through once, as a table of the
commands against what their requests hold. What a session makes of a payload,
and the pieces it goes out in, is the same for all of them.
-/

namespace Nxpsc

open Dialogue

/-! ## A run of numbers in a payload -/

theorem decodes_lt {f : U24Field} {payload : Bytes} (h : f.Decodes payload) :
    f.value < 2 ^ 24 := by
  have hlen : ((payload.drop f.pos).take 3).length ≤ 3 :=
    List.length_take_le _ _
  rw [← h.2]
  exact Nat.lt_of_lt_of_le (Parser.value_lt _)
    (Nat.pow_le_pow_right (by decide) hlen)

/-- Numbers that fit are read where they were put, whatever stands around
them. -/
theorem decodes_run {us : List UInt32} (hfit : ∀ u ∈ us, fitsU24 u = true)
    (front back : Bytes) :
    ∀ f ∈ u24Run front.length (us.map UInt32.toNat),
      f.Decodes (front ++ us.flatMap putU24 ++ back) := by
  induction us generalizing front with
  | nil => exact fun f hf => by cases hf
  | cons u us ih =>
      have hsplit : front ++ (u :: us).flatMap putU24 ++ back =
          (front ++ putU24 u) ++ us.flatMap putU24 ++ back := by
        rw [List.flatMap_cons, ← List.append_assoc]
      intro f hf
      rcases List.mem_cons.mp hf with rfl | hf
      · refine ⟨?_, ?_⟩
        · rw [hsplit]
          simp only [List.length_append, putU24, List.length_cons,
            List.length_nil]
          omega
        · rw [← value_putU24 (hfit u List.mem_cons_self), hsplit,
            List.append_assoc, List.append_assoc, List.drop_left]
          rfl
      · rw [hsplit]
        have hlen : (front ++ putU24 u).length = front.length + 3 := by
          rw [List.length_append]
          rfl
        refine ih (fun v hv => hfit v (List.mem_cons_of_mem u hv))
          (front ++ putU24 u) f ?_
        rw [hlen]
        exact hf

/-- The same, of a payload that is given whole. -/
theorem decodes_at (us : List UInt32) (front : Bytes) {pos : Nat}
    {payload : Bytes} (hfit : ∀ u ∈ us, fitsU24 u = true)
    (hpos : front.length = pos)
    (hpayload : front ++ us.flatMap putU24 <+: payload) :
    ∀ f ∈ u24Run pos (us.map UInt32.toNat), f.Decodes payload := by
  obtain ⟨back, rfl⟩ := hpayload
  rw [← hpos]
  exact decodes_run hfit front back

theorem fits_of_not {v : UInt32} (h : ¬ fitsU24 v = false) : fitsU24 v = true :=
  Bool.eq_true_of_not_eq_false h

/-! ## The requests -/

/-- A request that is made holds the fields. -/
def Holds (fields : List U24Field) (r : Except Err Request) : Prop :=
  ∀ req, r = .ok req → ∀ f ∈ fields, f.Decodes req.data

theorem holds_ok {fields : List U24Field} {req : Request}
    (h : ∀ f ∈ fields, f.Decodes req.data) : Holds fields (.ok req) := by
  intro req' heq
  cases heq
  exact h

/-- A refusal has nothing to hold, and what comes behind it may rely on it. -/
theorem holds_refused {fields : List U24Field} {p : Prop} [Decidable p]
    {e : Err} {r : Except Err Request} (h : ¬ p → Holds fields r) :
    Holds fields (if p then .error e else r) := by
  intro req hreq
  split at hreq
  · cases hreq
  · next hp => exact h hp req hreq

theorem holds_createApp (aid : UInt32) (cfg : AppConfig) (card : Card) :
    Holds (u24Run 0 [aid.toNat]) (createAppRequest aid cfg card) := by
  refine holds_refused fun _ => holds_refused fun hfit => holds_refused
    fun _ => holds_refused fun _ => holds_refused fun _ => holds_ok ?_
  refine decodes_at [aid] [] (by simpa using hfit) rfl ?_
  simp only [createAppPayload, List.append_assoc]
  exact List.prefix_append _ _

theorem holds_createFile {us : List UInt32}
    (hfit : ∀ u ∈ us, fitsU24 u = true) (cmd fileNo : UInt8) (fid : UInt16)
    (comm : CommMode) (access : Access) (card : Card) :
    Holds (u24Run (fileHeadLen fid) (us.map UInt32.toNat))
      (createFileRequest cmd fileNo (announcedFid fid) comm access
        (us.flatMap putU24) card) := by
  by_cases hfid : fid = 0
  · refine holds_ok (decodes_at us
      (fileNo :: commToFile comm :: putU16 (packAccess access)) hfit ?_ ?_)
    · rw [fileHeadLen, if_pos hfid]
      rfl
    · rw [announcedFid, if_neg (not_not.mpr hfid)]
      exact List.prefix_rfl
  · refine holds_ok (decodes_at us
      (fileNo :: (putU16 fid ++ commToFile comm :: putU16 (packAccess access)))
      hfit ?_ ?_)
    · rw [fileHeadLen, if_neg hfid]
      rfl
    · rw [announcedFid, if_pos hfid]
      exact List.prefix_rfl

/-- The numbers of a file command stand behind the file number. -/
theorem holds_file (us : List UInt32) {vs : List Nat} {fileNo : UInt8}
    {back : Bytes} {req : Request} (hvs : us.map UInt32.toNat = vs)
    (hfit : ∀ u ∈ us, fitsU24 u = true)
    (hdata : req.data = fileNo :: (us.flatMap putU24 ++ back)) :
    Holds (u24Run 1 vs) (.ok req) := by
  rw [← hvs]
  refine holds_ok (decodes_at us [fileNo] hfit rfl ?_)
  rw [hdata]
  exact ⟨back, rfl⟩

/-- The length of data that are not too long is what the caller gave. -/
theorem length_of_not_tooLong {data : Bytes} (h : ¬ writeTooLong data = true) :
    fitsU24 (UInt32.ofNat data.length) = true ∧
      (UInt32.ofNat data.length).toNat = data.length := by
  simp only [writeTooLong, decide_eq_true_eq, not_or] at h
  refine ⟨fits_of_not h.1, ?_⟩
  rw [UInt32.toNat_ofNat']
  have := h.2
  rw [maxResponse] at this
  omega

/-! ## The SDM settings -/

/-- Three bytes of options and rights, then the numbers. -/
theorem sdmTail_drop (sdm : SdmSettings) :
    (sdmTail sdm).drop 3 = sdm.numbers.flatMap putU24 := by
  have hite : ∀ {p : Prop} [Decidable p] (us : List UInt32),
      (if p then us else []).flatMap putU24 =
        if p then us.flatMap putU24 else [] := by
    intro p _ us
    split
    · rfl
    · rfl
  simp only [sdmTail, SdmSettings.numbers, List.flatMap_append,
    List.append_assoc, hite, List.flatMap_cons, List.flatMap_nil,
    List.append_nil, List.cons_append, List.nil_append, List.drop_succ_cons,
    List.drop_zero]

/-- Every number that is sent is one of those that were checked. -/
theorem numbers_subset (sdm : SdmSettings) : sdm.numbers ⊆ sdm.offsets := by
  have hite : ∀ {p : Prop} [Decidable p] {us vs : List UInt32}, us ⊆ vs →
      (if p then us else []) ⊆ vs := by
    intro p _ us vs h
    split
    · exact h
    · exact List.nil_subset _
  simp only [SdmSettings.numbers, List.append_subset]
  refine ⟨⟨⟨⟨hite ?_, hite ?_⟩, hite ?_⟩, hite ?_⟩, hite ?_⟩
  case refine_4 =>
    simp only [List.append_subset, List.cons_append, List.cons_subset]
    exact ⟨by simp [SdmSettings.offsets],
      hite (by simp [SdmSettings.offsets]), by simp [SdmSettings.offsets]⟩
  all_goals simp [SdmSettings.offsets]

theorem offsets_fit {s : SdmSettings}
    (h : ¬ (s.offsets.any fun v => !fitsU24 v) = true) :
    ∀ v ∈ s.offsets, fitsU24 v = true := by
  intro v hv
  by_contra hno
  refine h (List.any_eq_true.mpr ⟨v, hv, ?_⟩)
  rw [Bool.eq_false_iff.mpr hno]
  rfl

theorem numbers_fit {s : SdmSettings}
    (h : ∀ v ∈ s.offsets, fitsU24 v = true) :
    ∀ u ∈ s.numbers, fitsU24 u = true :=
  fun u hu => h u (numbers_subset s hu)

/-- What is built: three bytes, and SDM behind them where it is enabled; then
there was room for the worst case, and every number fits. -/
theorem sdmBuildSettings_cases {comm : CommMode} {access : Access}
    {sdm : Option SdmSettings} {cap : Nat} {out : Bytes}
    (h : sdmBuildSettings comm access sdm cap = .ok out) :
    (3 ≤ cap ∧ sdm.filter SdmSettings.enabled = none ∧
      out = (commToFile comm ||| flag false 0x40) ::
        putU16 (packAccess access)) ∨
    ∃ s, 3 + 3 + 7 * 3 ≤ cap ∧ sdm.filter SdmSettings.enabled = some s ∧
      (∀ v ∈ s.offsets, fitsU24 v = true) ∧
      out = (commToFile comm ||| flag true 0x40) ::
        (putU16 (packAccess access) ++ sdmTail s) := by
  cases sdm with
  | none =>
      simp only [sdmBuildSettings] at h
      split at h
      · cases h
      · next hroom =>
          cases h
          exact .inl ⟨Nat.le_of_not_lt hroom, rfl, rfl⟩
  | some s =>
      simp only [sdmBuildSettings] at h
      split at h
      · cases h
      next hfits =>
      split at h
      · cases h
      next hroom =>
      cases hon : s.enabled with
      | false =>
          rw [if_pos hon, hon] at h
          cases h
          refine .inl ⟨Nat.le_of_not_lt hroom, ?_, rfl⟩
          rw [Option.filter_some, hon]
          rfl
      | true =>
          rw [if_neg (by rw [hon]; decide), hon] at h
          split at h
          · cases h
          next hlarge =>
          cases h
          refine .inr ⟨s, Nat.le_of_not_lt hlarge, ?_, offsets_fit hfits, rfl⟩
          rw [Option.filter_some, hon]
          rfl

/-- What is built holds the fields, behind whatever is put before it. -/
theorem sdmBuildSettings_decodes {comm : CommMode} {access : Access}
    {sdm : Option SdmSettings} {cap : Nat} {out : Bytes} (front : Bytes)
    (h : sdmBuildSettings comm access sdm cap = .ok out) :
    ∀ f ∈ sdmFields front.length sdm, f.Decodes (front ++ out) := by
  cases sdm with
  | none => exact fun f hf => by cases hf
  | some s =>
      rw [sdmFields]
      rcases sdmBuildSettings_cases h with ⟨-, hoff, -⟩ |
        ⟨s', -, hon, hfits, rfl⟩
      · rw [if_neg fun hon => by
          rw [Option.filter_some, if_pos hon] at hoff
          cases hoff]
        exact fun f hf => by cases hf
      · obtain ⟨heq, hon⟩ := Option.filter_eq_some_iff.mp hon
        cases heq
        rw [if_pos hon]
        refine decodes_at s.numbers (front ++
          ((commToFile comm ||| flag true 0x40) ::
            putU16 (packAccess access)) ++ (sdmTail s).take 3)
          (numbers_fit hfits) ?_ ?_
        · simp only [List.length_append, List.length_cons]
          rfl
        · rw [← sdmTail_drop]
          simp only [List.append_assoc, List.take_append_drop]
          exact List.prefix_rfl

/-! ## The table -/

/-- A command without such a field. -/
theorem holds_nil (r : Except Err Request) : Holds [] r :=
  fun _ _ _ hf => by cases hf

theorem fits_pair {u v : UInt32} (hu : fitsU24 u = true)
    (hv : fitsU24 v = true) : ∀ w ∈ [u, v], fitsU24 w = true := by
  simp only [List.mem_cons, List.not_mem_nil, or_false, forall_eq_or_imp,
    forall_eq]
  exact ⟨hu, hv⟩

theorem holds_write {offset : UInt32} {data : Bytes} {fileNo cmd : UInt8}
    {comm : CommMode} {card : Card} :
    Holds (u24Run 1 [offset.toNat, data.length])
      (if fitsU24 offset = false ∨ writeTooLong data = true then .error .length
      else .ok (writeRequest cmd (fileNo :: (putU24 offset ++
        putU24 (UInt32.ofNat data.length) ++ data)) comm card)) := by
  refine holds_refused fun h => ?_
  rw [not_or] at h
  obtain ⟨hfit, hlen⟩ := length_of_not_tooLong h.2
  exact holds_file [offset, UInt32.ofNat data.length]
    (congrArg (fun n => [offset.toNat, n]) hlen)
    (fits_pair (fits_of_not h.1) hfit) rfl

theorem holds_updateRecord (fileNo : UInt8) (recordNo offset : UInt32)
    (data : Bytes) (comm : CommMode) (card : Card) :
    Holds (u24Run 1 [recordNo.toNat, offset.toNat, data.length])
      (updateRecordRequest fileNo recordNo offset data comm card) := by
  refine holds_refused fun h => ?_
  rw [not_or, not_or] at h
  obtain ⟨hfit, hlen⟩ := length_of_not_tooLong h.2.2
  exact holds_file [recordNo, offset, UInt32.ofNat data.length]
    (congrArg (fun n => [recordNo.toNat, offset.toNat, n]) hlen)
    (List.forall_mem_cons.mpr ⟨fits_of_not h.1,
      fits_pair (fits_of_not h.2.1) hfit⟩) rfl

theorem holds_read {a b : UInt32} {native chained fileNo : UInt8}
    {comm : CommMode} {cap : Nat} {card : Card} :
    Holds (u24Run 1 [a.toNat, b.toNat])
      (if fitsU24 a = false ∨ fitsU24 b = false then .error .length
      else .ok (readRequest native chained
        (fileNo :: (putU24 a ++ putU24 b)) comm cap card)) := by
  refine holds_refused fun h => ?_
  rw [not_or] at h
  exact holds_file [a, b] rfl
    (fits_pair (fits_of_not h.1) (fits_of_not h.2)) rfl

/-- Of an application number that stands at the front of a payload. -/
theorem holds_aid {aid : UInt32} {req : Request} (hfit : fitsU24 aid = true)
    (hdata : putU24 aid <+: req.data) :
    Holds (u24Run 0 [aid.toNat]) (.ok req) :=
  holds_ok (decodes_at [aid] [] (by simpa using hfit) rfl hdata)

/-- Every data command but DeleteApplication holds its numbers. -/
theorem dataCommand_holds {d : DataCommand} (card : Card)
    (hdelete : ∀ aid, d = .deleteApplication aid → aid.toNat < 2 ^ 24) :
    Holds d.u24Fields (d.request card) := by
  cases d with
  | createApplication | createApplicationIso | createApplicationEx =>
      exact holds_createApp _ _ _
  | deleteApplication aid =>
      exact holds_aid (fitsU24_of_lt (hdelete aid rfl)) List.prefix_rfl
  | createDelegatedApplication =>
      refine holds_refused fun h => holds_refused fun _ => holds_refused
        fun _ => holds_aid (fits_of_not h) ?_
      simp only [List.append_assoc]
      exact List.prefix_append _ _
  | createStdFile fileNo fid comm access size
  | createBackupFile fileNo fid comm access size =>
      exact holds_refused fun h =>
        @holds_createFile [size] (by simpa using h) _ _ _ _ _ _
  | createRecordFile cyclic fileNo fid comm access size count =>
      refine holds_refused fun h => ?_
      rw [not_or] at h
      exact @holds_createFile [size, count]
        (fits_pair (fits_of_not h.1) (fits_of_not h.2)) _ _ _ _ _ _
  | readData | readRecords => exact holds_read
  | writeData | writeRecord => exact holds_write
  | updateRecord => exact holds_updateRecord _ _ _ _ _ _
  | sdmConfigure fileNo comm access sdm =>
      rw [DataCommand.request, sdmConfigureRequest]
      split
      · exact fun req h => by cases h
      · next settings hbuild =>
          exact holds_refused fun _ => holds_refused fun _ =>
            holds_ok (sdmBuildSettings_decodes [fileNo] hbuild)
  | _ => exact holds_nil _

/-! ## The builders -/

theorem mem_u24Run {us : List UInt32} {pos : Nat} {f : U24Field}
    (h : f ∈ u24Run pos (us.map UInt32.toNat)) :
    pos ≤ f.pos ∧ ∃ u ∈ us, u.toNat = f.value := by
  induction us generalizing pos with
  | nil => cases h
  | cons u us ih =>
      rcases List.mem_cons.mp h with rfl | h
      · exact ⟨Nat.le_refl pos, u, List.mem_cons_self, rfl⟩
      · obtain ⟨hpos, v, hv, hval⟩ := ih h
        exact ⟨by omega, v, List.mem_cons_of_mem u hv, hval⟩

theorem sdmBuildSettings_keeps (comm : CommMode) (access : Access)
    (sdm : Option SdmSettings) (cap : Nat) :
    BuilderKeeps (sdmFields 0 sdm) (sdmWritten comm access sdm cap)
      (sdmBuildSettings comm access sdm cap) := by
  cases hbuild : sdmBuildSettings comm access sdm cap with
  | ok out =>
      refine ⟨?_, sdmBuildSettings_decodes [] hbuild⟩
      simp only [sdmWritten, hbuild]
  | error e =>
      cases sdm with
      | none =>
          left
          simp only [sdmWritten, hbuild]
      | some s =>
          by_cases hearly : (s.offsets.any fun v => !fitsU24 v) = true ∨ cap < 3
          · left
            simp only [sdmWritten, hbuild, if_pos hearly]
          · right
            intro f hf
            rw [sdmFields] at hf
            split at hf
            · obtain ⟨hpos, u, hu, hval⟩ := mem_u24Run hf
              refine ⟨?_, ?_⟩
              · rw [← hval]
                exact lt_of_fitsU24
                  (numbers_fit (offsets_fit (not_or.mp hearly).1) u hu)
              · simp only [sdmWritten, hbuild, if_neg hearly]
                exact Nat.le_trans (show 3 ≤ 0 + 6 by decide) hpos
            · cases hf

theorem tmacTmiWriteRecord_keeps (fileNo : UInt8) (offset : UInt32)
    (data : Bytes) (cap : Nat) :
    BuilderKeeps (tmiFields offset data)
      ((tmacTmiWriteRecord fileNo offset data cap).toOption.getD [])
      (tmacTmiWriteRecord fileNo offset data cap) := by
  rw [tmacTmiWriteRecord]
  split
  · exact .inl rfl
  next hrange =>
  dsimp only
  split
  · exact .inl rfl
  · refine ⟨rfl, ?_⟩
    rw [not_or, not_or, UInt32.not_lt, UInt32.le_iff_toNat_le] at hrange
    have hlen : (UInt32.ofNat data.length).toNat = data.length := by
      rw [UInt32.toNat_ofNat']
      omega
    have hfits : ∀ u ∈ [offset, UInt32.ofNat data.length],
        fitsU24 u = true :=
      fits_pair (fitsU24_of_lt (Nat.lt_succ_of_le hrange.1))
        (fitsU24_of_lt (by rw [hlen]; omega))
    rw [tmiFields, ← hlen]
    refine decodes_at [offset, UInt32.ofNat data.length]
      [dfWriteRecord, fileNo] hfits rfl ?_
    rw [hlen]
    exact ⟨_, rfl⟩

/-! ## On the wire -/

section

variable [BlockCipher]

/-- Behind a lost session the request for a MAC ends the call. -/
theorem deleteApplication_unsent (aid : UInt32) {card : Card}
    (hlost : card.sessionLost = true) (script : List Answer) :
    Unsent ((Call.data (.deleteApplication aid)).run card script) := by
  have hreq : deleteApplicationRequest aid card =
      .ok ⟨dfDeleteApplication, putU24 aid, .mac, .mac, 8⟩ := by
    rw [deleteApplicationRequest, macRequest, eff_lost hlost]
  obtain ⟨card', hrun⟩ := @dataCall_refused _ _ _ noAnswer _ hlost
    (.inr ⟨_, hreq, .inl fun h => by cases h⟩) script
  exact ⟨.auth, card', script, hrun⟩

theorem dataCommand_keeps {d : DataCommand} {card : Card}
    (hdelete : ∀ aid, d = .deleteApplication aid → aid.toNat < 2 ^ 24) :
    (Call.data d).KeepsFields card := by
  intro script
  obtain ⟨α, finish, -, hrun⟩ := dataCommand_run d
  rw [Call.run, hrun]
  rcases dataCall_conveys d.request finish card script with
    hunsent | ⟨req, hreq, hsent⟩
  · exact .inl (unsent_ignore hunsent)
  · refine .inr fun f hf => ⟨card, req, ⟨rfl, rfl, _, rfl, hreq⟩, ?_,
      dataCommand_holds card hdelete req hreq f hf⟩
    rw [Prog.queries_ignore]
    exact hsent

theorem selectApplication_keeps (aid : UInt32) (card : Card) :
    (Call.selectApplication aid).KeepsFields card := by
  intro script
  rw [Call.run, selectApplication]
  split
  · exact .inl ⟨_, _, _, rfl⟩
  · next hfit =>
      rw [Prog.modify_bind]
      rcases dataCall_conveys (selectApplicationRequest aid)
          (fun _ card => (.ok (), { card with selectedAid := aid }))
          (Nxpsc.resetChannel card) script with hunsent | ⟨req, hreq, hsent⟩
      · exact .inl hunsent
      · refine .inr fun f hf => ⟨_, req, ⟨rfl, fits_of_not hfit, hreq⟩, hsent,
          holds_aid (fits_of_not hfit) List.prefix_rfl req hreq f hf⟩

theorem call_keeps {call : Call} {card : Card}
    (h : ¬ (U24Sender.call call card).Truncates) : call.KeepsFields card := by
  cases call with
  | data d =>
      by_cases hdelete : ∀ aid, d = .deleteApplication aid →
          aid.toNat < 2 ^ 24
      · exact dataCommand_keeps hdelete
      · obtain ⟨aid, rfl, hbig⟩ : ∃ aid, d = .deleteApplication aid ∧
            2 ^ 24 ≤ aid.toNat := by
          simpa only [not_forall, exists_prop, Nat.not_lt] using hdelete
        have hlost := Bool.eq_true_of_not_eq_false fun hl => h ⟨hbig, hl⟩
        exact fun script => .inl (deleteApplication_unsent aid hlost script)
  | selectApplication aid => exact selectApplication_keeps aid card
  | _ => exact fun script => .inr fun f hf => by cases hf

/-- An application number that does not fit is sent all the same. -/
theorem deleteApplication_truncates {aid : UInt32} {card : Card}
    (hbig : 2 ^ 24 ≤ aid.toNat) (hlost : card.sessionLost = false) :
    ¬ (Call.data (.deleteApplication aid)).KeepsFields card := by
  intro hkeeps
  rcases hkeeps [] with ⟨e, card', rest, hunsent⟩ | hfields
  · have hfit : wireLength { card with mode := eff card .mac }
        dfDeleteApplication (putU24 aid).length ≤ maxResponse :=
      Nat.le_trans (wireLength_le _ _ 3) (by decide)
    obtain ⟨wrapped, card₁, hreq⟩ :=
      exchangeRequest_isOk (eff card .mac) hlost hfit
    have hput := @queries_dataCall_nil _ _ (deleteApplicationRequest aid)
      noAnswer card _ _ _ rfl hreq
    rw [show dataCall (deleteApplicationRequest aid) noAnswer card [] = _
      from hunsent] at hput
    cases hput
  · obtain ⟨before, req, -, -, hdec⟩ := hfields ⟨0, aid.toNat⟩
      List.mem_cons_self
    exact absurd (decodes_lt hdec) (Nat.not_lt.mpr hbig)

/-! ## The senders -/

/-- No field of three bytes is cut short, whoever sends it, but the
application number of a DeleteApplication that goes out. -/
theorem u24_fields_kept_iff (sender : U24Sender) :
    sender.KeepsFields ↔ ¬ sender.Truncates := by
  cases sender with
  | sdmSettings comm access sdm cap =>
      exact iff_of_true (sdmBuildSettings_keeps comm access sdm cap) id
  | tmiWriteRecord fileNo offset data cap =>
      exact iff_of_true (tmacTmiWriteRecord_keeps fileNo offset data cap) id
  | call c card =>
      refine ⟨fun hkeeps htrunc => ?_, call_keeps⟩
      cases c with
      | data d =>
          cases d with
          | deleteApplication aid =>
              exact deleteApplication_truncates htrunc.1 htrunc.2 hkeeps
          | _ => exact htrunc
      | _ => exact htrunc

end

/-- Deleting application 0x01000001 asks the card to delete 0x000001. -/
theorem delete_application_cut_short :
    (∃ card', @Call.run .identity (.data (.deleteApplication 0x01000001))
      (Card.opened none) [.ok [0x00]] =
        .done [(.native 0xDA [0x01, 0x00, 0x00], .ok [0x00])] (.ok ()) card'
          []) ∧
      ¬ @U24Sender.KeepsFields .identity
        (.call (.data (.deleteApplication 0x01000001)) (Card.opened none)) :=
  ⟨⟨_, rfl⟩, @deleteApplication_truncates .identity _ _ (by decide) rfl⟩

end Nxpsc
