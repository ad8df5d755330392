import Nxpsc.Ref.Api
import Nxpsc.Proofs.ErrorEscape
import Nxpsc.Proofs.Freshness
import Nxpsc.Proofs.OwnKey
import Nxpsc.Proofs.IvChain
import Nxpsc.Proofs.Authenticity
import Nxpsc.Proofs.Enciphered
import Nxpsc.Proofs.IsoChaining
import Nxpsc.Lib.Trace
import Nxpsc.Spec.Picc
import Nxpsc.Proofs.Calls
import Nxpsc.Proofs.DfNames
import Nxpsc.Proofs.Downgrade
import Nxpsc.Lib.Party
import Nxpsc.Lib.Encoding
import Nxpsc.Spec.Device
import Nxpsc.Proofs.WrittenKey
import Nxpsc.Proofs.NonFirst
import Nxpsc.Proofs.RoundTrip
import Nxpsc.Proofs.Framing
import Nxpsc.Proofs.KeyInClear
import Nxpsc.Proofs.FrameBound
import Nxpsc.Proofs.LrpFreshness
import Nxpsc.Lib.Parser
import Nxpsc.Proofs.Layout
import Nxpsc.Proofs.RequestMac
import Nxpsc.Proofs.Reply
import Nxpsc.Lib.Report
import Nxpsc.Spec.Proximity
import Nxpsc.Proofs.ProximityVerdict
import Nxpsc.Proofs.EncodeFailure
import Nxpsc.Proofs.KeyChange
import Nxpsc.Proofs.FileRead
import Nxpsc.Lib.Memory
import Nxpsc.Ref.CryptoMemory
import Nxpsc.Ref.ChannelMemory
import Nxpsc.Proofs.CryptoMemory
import Nxpsc.Proofs.ChannelMemory
import Nxpsc.Proofs.BufferSafety
import Nxpsc.Lib.Record
import Nxpsc.Proofs.Fields
import Nxpsc.Proofs.IsoAccess
import Nxpsc.Proofs.DefaultKey
import Nxpsc.Proofs.AppList
import Nxpsc.Proofs.CardError
import Nxpsc.Proofs.Selection
import Nxpsc.Proofs.PlusValue
import Nxpsc.Proofs.PlusVerdict
import Nxpsc.Proofs.PlusIv
import Nxpsc.Proofs.Checksum
import Nxpsc.Proofs.CrcPosition
import Nxpsc.Proofs.LrpCounting
import Nxpsc.Proofs.LrpRoundTrip
import Nxpsc.Proofs.CbcLaws
import Nxpsc.Proofs.Cmac
import Nxpsc.Proofs.Diversify
import Nxpsc.Proofs.TransactionMac
import Nxpsc.Proofs.Sdm
import Nxpsc.Lib.Rounds
import Nxpsc.Lib.XorLinear
import Nxpsc.Spec.Aes
import Nxpsc.Spec.Des
import Nxpsc.Ref.Aes
import Nxpsc.Ref.Des
import Nxpsc.Ref.BlockCiphers
import Nxpsc.Proofs.AesLayers
import Nxpsc.Proofs.Aes
import Nxpsc.Proofs.AesSchedule
import Nxpsc.Proofs.Des
import Nxpsc.Proofs.DesSchedule
import Nxpsc.Proofs.BlockCiphers
import Nxpsc.Lib.Refine
import Nxpsc.Lib.Machine
import Nxpsc.Spec.Carrier
import Nxpsc.Proofs.Carrier
import Nxpsc.Spec.Applet
import Nxpsc.Proofs.Applet
import Nxpsc.Proofs.FullSession
import Nxpsc.Spec.Intruder
import Nxpsc.Proofs.SessionMac
import Nxpsc.Proofs.Intruder
import Nxpsc.Proofs.LostAnswer
