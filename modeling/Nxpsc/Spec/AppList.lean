import Nxpsc.Ref.Desfire
import Nxpsc.Lib.Parser
import Nxpsc.Spec.Device

/-!
# The applications a card reports

GetDFNames is answered with one application per frame: the AID, the ISO FID,
and a name that runs to the end of the frame. A frame says nothing of how many
are to come. Every frame but the last asks to go on, and a card may put an
empty frame behind the last application.
-/

namespace Nxpsc

/-- A frame with an application in it. -/
structure AppFrame where
  bytes : Bytes
  sized : 5 ≤ bytes.length ∧ bytes.length ≤ 21

/-- The frame under a status. -/
def AppFrame.reply (f : AppFrame) (status : UInt8) : Reply :=
  ⟨status, f.bytes, Nat.le_trans f.sized.2 (by decide)⟩

/-- The entry has the AID, the ISO FID and the name that are in the frame. -/
structure AppFrame.Reports (f : AppFrame) (app : App) : Prop where
  aid : app.aid.toNat = Parser.value (f.bytes.take 3)
  isoFid : app.isoFid.toNat = Parser.value ((f.bytes.drop 3).take 2)
  dfName : app.dfName = f.bytes.drop 5

/-- What a card replies, frame by frame: `status` stands in the last frame,
which is an empty one if `trailing`. -/
def appListing (status : UInt8) (trailing : Bool) : List AppFrame → List Reply
  | [] => if trailing then [⟨status, [], by decide⟩] else []
  | f :: fs =>
      f.reply
          (if fs.isEmpty && !trailing then status else dfSAdditionalFrame) ::
        appListing status trailing fs

/-- What a caller with room for `cap` entries may rely on. -/
structure ReportsAll (cap : Nat) (fs : List AppFrame)
    (r : Except Err (List App)) : Prop where
  /-- Every application once, in order. -/
  each : ∀ apps, r = .ok apps → List.Forall₂ AppFrame.Reports fs apps
  /-- An array that is too small is no reason to leave some out. -/
  whole : cap < fs.length → ∀ apps, r = .ok apps → ¬ apps.length < fs.length

end Nxpsc
