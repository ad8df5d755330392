import Nxpsc.Spec.AppList
import Nxpsc.Proofs.Framing
import Nxpsc.Proofs.Layout

/-!
# GetDFNames and an array that is too small

The loop of `nxpsc_get_df_names` reads every frame the card sends, whatever
room there is. Only the storing asks whether the array is full, and nothing
tells the caller that it was: `nxpsc_get_application_ids` answers
`NXPSC_E_LENGTH` there.
-/

namespace Nxpsc

open Dialogue
open Parser (value)

/-! ## One frame -/

/-- The entry the loop stores for a frame. -/
def AppFrame.entry (f : AppFrame) : App :=
  ⟨getU24 f.bytes 0, getU16 f.bytes 3, true, f.bytes.drop 5⟩

theorem toNat_getU24_take {data : Bytes} (h : 3 ≤ data.length) :
    (getU24 data 0).toNat = value (data.take 3) := by
  match data, h with
  | a :: b :: c :: more, _ => exact toNat_getU24 a b c more

theorem toNat_getU16_take {data : Bytes} {off : Nat}
    (h : off + 2 ≤ data.length) :
    (getU16 data off).toNat = value ((data.drop off).take 2) := by
  have hlen : 2 ≤ (data.drop off).length := by
    rw [List.length_drop]
    omega
  rw [getU16_drop]
  match data.drop off, hlen with
  | a :: b :: more, _ => exact toNat_getU16 a b more

theorem AppFrame.reports_entry (f : AppFrame) : f.Reports f.entry where
  aid := toNat_getU24_take (Nat.le_trans (by decide) f.sized.1)
  isoFid := toNat_getU16_take f.sized.1
  dfName := rfl

/-- The name is never cut: no frame has more than 16 bytes of it. -/
theorem dfNameEntry_frame (cap : Nat) (apps : List App) (f : AppFrame) :
    dfNameEntry cap apps f.bytes =
      if apps.length < cap then apps ++ [f.entry] else apps := by
  have hname : (f.bytes.drop 5).take 16 = f.bytes.drop 5 := by
    apply List.take_of_length_le
    have hmax := f.sized.2
    rw [List.length_drop]
    omega
  rw [dfNameEntry, AppFrame.entry, hname]
  simp only [f.sized.1, true_and]

/-- What is stored of the frames that come when `apps` are there already. -/
theorem dfNameEntry_frames (cap : Nat) (fs : List AppFrame) (apps : List App) :
    fs.foldl (fun apps f => dfNameEntry cap apps f.bytes) apps =
      apps ++ (fs.take (cap - apps.length)).map AppFrame.entry := by
  induction fs generalizing apps with
  | nil => rw [List.foldl_nil, List.take_nil, List.map_nil, List.append_nil]
  | cons f fs ih =>
      rw [List.foldl_cons, dfNameEntry_frame]
      split
      · next hroom =>
          obtain ⟨k, hk⟩ := Nat.exists_eq_add_one_of_ne_zero
            (Nat.sub_ne_zero_of_lt hroom)
          have hleft : cap - (apps ++ [f.entry]).length = k := by
            rw [List.length_append, List.length_singleton]
            omega
          rw [ih, hleft, hk, List.take_succ_cons, List.map_cons,
            List.append_assoc]
          rfl
      · next hfull =>
          have hzero : cap - apps.length = 0 := by omega
          rw [ih, hzero, List.take_zero, List.take_zero]

/-! ## The loop -/

theorem rawFrame_put (card : Card) {x : Reply} (hlen : x.data.length ≤ 64) :
    rawFrame 64 (card.cmdset.encoding.put x) card =
      (.ok (x.status, x.data), { card with lastStatus := x.status }) := by
  rw [rawFrame, frameResponse_put]
  exact if_neg (Nat.not_lt.mpr hlen)

theorem dfNamesReact_more (cap : Nat) (b : UInt8 × List App) (card : Card)
    {x : Reply} (hlen : x.data.length ≤ 64)
    (hst : x.status = dfSAdditionalFrame) :
    dfNamesReact cap b (card.cmdset.encoding.put x) card =
      (.ok (.inl (dfAdditionalFrame, dfNameEntry cap b.2 x.data)),
        { card with lastStatus := x.status }) := by
  rw [dfNamesReact, rawFrame_put card hlen]
  simp only [hst, ne_eq, not_true_eq_false, and_false, if_false]

theorem dfNamesReact_last (cap : Nat) (b : UInt8 × List App) (card : Card)
    {x : Reply} (hlen : x.data.length ≤ 64)
    (hst : x.status ≠ dfSAdditionalFrame) :
    dfNamesReact cap b (card.cmdset.encoding.put x) card =
      (if x.status = dfSOk then .ok (.inr (dfNameEntry cap b.2 x.data))
        else .error .card, { card with lastStatus := x.status }) := by
  rw [dfNamesReact, rawFrame_put card hlen]
  by_cases hok : x.status = dfSOk
  · rw [if_pos hok]
    simp only [hok, ne_eq, not_true_eq_false, false_and, if_false]
    rfl
  · rw [if_neg hok]
    simp only [hok, hst, ne_eq, not_false_eq_true, and_self, if_true]

/-- A round that goes on. -/
theorem dfNames_more {cap : Nat} {b : UInt8 × List App} {card : Card}
    {q : Frame} {x : Reply} (hq : frameRequest b.1 [] card = .ok q)
    (hlen : x.data.length ≤ 64) (hst : x.status = dfSAdditionalFrame)
    (rest : List Answer) :
    Prog.converse (fun b card => frameRequest b.1 [] card) (dfNamesReact cap)
        b card (card.cmdset.encoding.put x :: rest) =
      (Prog.converse (fun b card => frameRequest b.1 [] card)
        (dfNamesReact cap)
        (dfAdditionalFrame, dfNameEntry cap b.2 x.data)
        { card with lastStatus := x.status } rest).prepend
        [(q, card.cmdset.encoding.put x)] :=
  Prog.converse_next rest hq (dfNamesReact_more cap b card hlen hst)

/-- The round that reads the last frame. -/
theorem dfNames_last {cap : Nat} {b : UInt8 × List App} {card : Card}
    {q : Frame} {x : Reply} (hq : frameRequest b.1 [] card = .ok q)
    (hlen : x.data.length ≤ 64) (hst : x.status ≠ dfSAdditionalFrame)
    (rest : List Answer) :
    Prog.converse (fun b card => frameRequest b.1 [] card) (dfNamesReact cap)
        b card (card.cmdset.encoding.put x :: rest) =
      .done [(q, card.cmdset.encoding.put x)]
        (if x.status = dfSOk then .ok (dfNameEntry cap b.2 x.data)
          else .error .card) { card with lastStatus := x.status } rest := by
  have hr := dfNamesReact_last cap b card hlen hst
  by_cases hok : x.status = dfSOk
  · rw [if_pos hok] at hr ⊢
    exact Prog.converse_leave rest hq hr
  · rw [if_neg hok] at hr ⊢
    exact Prog.converse_fail rest hq hr

/-- The frames of a listing, from a round that has `apps` already. -/
theorem dfNames_listing (cap : Nat) {status : UInt8}
    (hst : status ≠ dfSAdditionalFrame) (trailing : Bool) (fs : List AppFrame)
    (hsome : fs ≠ [] ∨ trailing = true) (b : UInt8 × List App) (card : Card)
    (rest : List Answer) :
    ∃ said card',
      Prog.converse (fun b card => frameRequest b.1 [] card)
          (dfNamesReact cap) b card
          ((appListing status trailing fs).map card.cmdset.encoding.put ++
            rest) =
        .done said
          (if status = dfSOk then
            .ok (fs.foldl (fun apps f => dfNameEntry cap apps f.bytes) b.2)
          else .error .card) card' rest := by
  induction fs generalizing b card with
  | nil =>
      rcases hsome with hnil | rfl
      · exact absurd rfl hnil
      obtain ⟨q, hq, -⟩ :=
        @frameRequest_read b.1 [] card (Nat.zero_le _)
      exact ⟨_, _, dfNames_last (x := ⟨status, [], by decide⟩) hq
        (Nat.zero_le _) hst rest⟩
  | cons f fs ih =>
      obtain ⟨q, hq, -⟩ :=
        @frameRequest_read b.1 [] card (Nat.zero_le _)
      have hlen := Nat.le_trans f.sized.2 (by decide : 21 ≤ 64)
      rw [appListing]
      split
      · next hlast =>
          obtain ⟨hnil, htrail⟩ := Bool.and_eq_true_iff.mp hlast
          obtain rfl := List.isEmpty_iff.mp hnil
          rw [Bool.not_eq_true'] at htrail
          obtain rfl := htrail
          exact ⟨_, _, dfNames_last (x := f.reply status) hq hlen hst rest⟩
      · next hmore =>
          obtain ⟨said, card', hrun⟩ := ih
            (by
              by_contra hno
              rw [not_or, not_not, Bool.not_eq_true] at hno
              obtain ⟨rfl, rfl⟩ := hno
              exact hmore rfl)
            (dfAdditionalFrame, dfNameEntry cap b.2 f.bytes)
            { card with lastStatus := dfSAdditionalFrame }
          have hround := @dfNames_more cap _ _ _
            (f.reply dfSAdditionalFrame) hq hlen rfl
            ((appListing status trailing fs).map card.cmdset.encoding.put ++
              rest)
          exact ⟨_, card', hround.trans (congrArg (Outcome.prepend _) hrun)⟩

/-! ## The whole list -/

theorem getDfNames_listing (cap : Nat) {status : UInt8}
    (hst : status ≠ dfSAdditionalFrame) {trailing : Bool} {fs : List AppFrame}
    (hsome : fs ≠ [] ∨ trailing = true) {card : Card}
    (hauth : card.authenticated = false) (rest : List Answer) :
    ∃ said card',
      getDfNames cap card
          ((appListing status trailing fs).map card.cmdset.encoding.put ++
            rest) =
        .done said
          (if status = dfSOk then .ok ((fs.take cap).map AppFrame.entry)
          else .error .card) card' rest := by
  obtain ⟨said, card', hrun⟩ := dfNames_listing cap hst trailing fs hsome
    (dfGetDfNames, []) card rest
  rw [dfNameEntry_frames, List.nil_append, List.length_nil, Nat.sub_zero]
    at hrun
  refine ⟨said, card', ?_⟩
  rw [getDfNames, Prog.get_bind, hauth, if_neg Bool.false_ne_true]
  exact hrun

theorem reports_entries (fs : List AppFrame) :
    List.Forall₂ AppFrame.Reports fs (fs.map AppFrame.entry) := by
  induction fs with
  | nil => exact .nil
  | cons f fs ih => exact .cons f.reports_entry ih

/-- What fits is reported whole; what does not is a success all the same. -/
theorem reportsAll_take_iff (cap : Nat) (fs : List AppFrame) :
    ReportsAll cap fs (.ok ((fs.take cap).map AppFrame.entry)) ↔
      fs.length ≤ cap := by
  constructor
  · intro h
    have hlen := (h.each _ rfl).length_eq
    rw [List.length_map, List.length_take] at hlen
    omega
  · intro hle
    rw [List.take_of_length_le hle]
    refine ⟨?_, fun hlt => absurd hlt (Nat.not_lt.mpr hle)⟩
    rintro apps ⟨⟩
    exact reports_entries fs

/-- The card answers with the frames of a listing, and the call comes back:
with all the applications exactly if the array holds them, or with the error
the card ended its listing with. -/
theorem df_names_reported (cap : Nat) (status : UInt8)
    (hst : status ≠ dfSAdditionalFrame) (trailing : Bool) (fs : List AppFrame)
    (hsome : fs ≠ [] ∨ trailing = true) (card : Card)
    (hauth : card.authenticated = false) (rest : List Answer) :
    ∃ said r card',
      getDfNames cap card
          ((appListing status trailing fs).map card.cmdset.encoding.put ++
            rest) = .done said r card' rest ∧
        (ReportsAll cap fs r ↔ fs.length ≤ cap ∨ status ≠ dfSOk) := by
  obtain ⟨said, card', hrun⟩ := getDfNames_listing cap hst hsome hauth rest
  refine ⟨said, _, card', hrun, ?_⟩
  by_cases hok : status = dfSOk
  · rw [if_pos hok, reportsAll_take_iff]
    simp only [hok, ne_eq, not_true_eq_false, or_false]
  · rw [if_neg hok]
    refine ⟨fun _ => .inr hok, fun _ => ⟨?_, ?_⟩⟩
    · rintro apps ⟨⟩
    · rintro - apps ⟨⟩

theorem df_names_reported_two :
    ∃ said r card',
      getDfNames 2 (Card.opened none)
          ((appListing dfSOk true
              [⟨[1, 0, 0, 0x10, 0xE1], by decide⟩,
                ⟨[2, 0, 0, 0x20, 0xE1, 0x61], by decide⟩]).map
            nativeEncoding.put ++ []) = .done said r card' [] ∧
        (ReportsAll 2
            [⟨[1, 0, 0, 0x10, 0xE1], by decide⟩,
              ⟨[2, 0, 0, 0x20, 0xE1, 0x61], by decide⟩] r ↔
          2 ≤ 2 ∨ dfSOk ≠ dfSOk) :=
  df_names_reported 2 dfSOk (by decide) true _ (.inr rfl) (Card.opened none)
    rfl []

/-- Two applications, room for one. -/
theorem df_names_shortened :
    ¬ ∀ (cap : Nat) (status : UInt8) (trailing : Bool) (fs : List AppFrame)
      (card card' : Card) (said : Said) (r : Except Err (List App)),
      status ≠ dfSAdditionalFrame → (fs ≠ [] ∨ trailing = true) →
      card.authenticated = false →
      getDfNames cap card
          ((appListing status trailing fs).map card.cmdset.encoding.put) =
        .done said r card' [] →
      ReportsAll cap fs r := by
  intro hall
  obtain ⟨said, app, card', hrun⟩ : ∃ said app card',
      getDfNames 1 (Card.opened none)
          ((appListing dfSOk false
              [⟨[1, 0, 0, 0x10, 0xE1], by decide⟩,
                ⟨[2, 0, 0, 0x20, 0xE1, 0x61], by decide⟩]).map
            nativeEncoding.put) = .done said (.ok [app]) card' [] :=
    ⟨_, _, _, rfl⟩
  have hreports := hall 1 dfSOk false _ (Card.opened none) card' said _
    (by decide) (.inl (List.cons_ne_nil _ _)) rfl hrun
  exact hreports.whole (by decide) _ rfl Nat.one_lt_two

end Nxpsc
