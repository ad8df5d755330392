import Nxpsc.Lib.Run
import Nxpsc.Ref.Ntag424
import Nxpsc.Ref.Plus

/-!
# The public calls on a handle

One value per call a caller can make on an open handle, arguments included;
what a call draws from the random generator is an argument too. Calls that
only read the handle are left out, and so are `nxpsc_open` and `nxpsc_close`,
where a run starts and ends.

The commands that are one exchange are a type of their own. A result about
all of them is about `DataCommand.request`, a table.
-/

namespace Nxpsc

open Dialogue

/-- The calls that make one exchange. -/
inductive DataCommand where
  | command (cmd : UInt8) (data : Bytes) (txMode rxMode : CommMode) (cap : Nat)
  | getVersion
  | getFreeMemory
  | getSignature (cap : Nat)
  | createApplication (aid : UInt32) (keySettings numKeys : UInt8)
      (keyType : KeyType)
  | createApplicationIso (aid : UInt32) (keySettings numKeys : UInt8)
      (keyType : KeyType) (isoFid : UInt16) (dfName : Bytes)
  | createApplicationEx (aid : UInt32) (config : AppConfig)
  | deleteApplication (aid : UInt32)
  | getApplicationIds (cap : Nat)
  | formatPicc
  | setConfiguration (option : UInt8) (data : Bytes)
  | getKeyVersion (keyNo : UInt8)
  | getKeySettings
  | changeKeySettings (keySettings : UInt8)
  | getFileIds (cap : Nat)
  | getIsoFileIds (cap : Nat)
  | getFileSettings (fileNo : UInt8)
  | changeFileSettings (fileNo : UInt8) (comm : CommMode) (access : Access)
  | changeFileSettingsRaw (fileNo : UInt8) (data : Bytes)
  | createStdFile (fileNo : UInt8) (isoFid : UInt16) (comm : CommMode)
      (access : Access) (size : UInt32)
  | createBackupFile (fileNo : UInt8) (isoFid : UInt16) (comm : CommMode)
      (access : Access) (size : UInt32)
  | createValueFile (fileNo : UInt8) (comm : CommMode) (access : Access)
      (lower upper value : Int32) (limitedCredit : Bool)
  | createRecordFile (cyclic : Bool) (fileNo : UInt8) (isoFid : UInt16)
      (comm : CommMode) (access : Access) (recordSize maxRecords : UInt32)
  | deleteFile (fileNo : UInt8)
  | readData (fileNo : UInt8) (offset length : UInt32) (comm : CommMode)
      (cap : Nat)
  | writeData (fileNo : UInt8) (offset : UInt32) (data : Bytes)
      (comm : CommMode)
  | getValue (fileNo : UInt8) (comm : CommMode)
  | credit (fileNo : UInt8) (delta : Int32) (comm : CommMode)
  | limitedCredit (fileNo : UInt8) (delta : Int32) (comm : CommMode)
  | debit (fileNo : UInt8) (delta : Int32) (comm : CommMode)
  | writeRecord (fileNo : UInt8) (offset : UInt32) (data : Bytes)
      (comm : CommMode)
  | updateRecord (fileNo : UInt8) (recordNo offset : UInt32) (data : Bytes)
      (comm : CommMode)
  | readRecords (fileNo : UInt8) (recordNo recordCount : UInt32)
      (comm : CommMode) (cap : Nat)
  | clearRecordFile (fileNo : UInt8)
  | commitTransaction
  | commitTransactionTmac
  | abortTransaction
  | commitReaderId (readerId : Bytes) (cap : Option Nat)
  | createTransactionMacFile (fileNo : UInt8) (comm : CommMode)
      (access : Access) (tmKey : Key) (keyVersion : UInt8)
  | createDelegatedApplication (aid : UInt32) (damSlot : UInt16)
      (damSlotVersion : UInt8) (quotaLimit : UInt16)
      (keySettings numKeys : UInt8) (keyType : KeyType) (isoFid : UInt16)
      (dfName enck damMac : Bytes)
  | getDelegatedInfo (damSlot : UInt16)
  | createMfcMapping (data : Bytes)
  | restrictMfcUpdate (data : Bytes)
  | notifyTransactionSuccess
  | initKeySet (keySet : UInt8) (keyType : KeyType)
  | finalizeKeySet (keySet keySetVersion : UInt8)
  | setPiccConfigEx (config : PiccConfig)
  | setPiccConfig (disableFormat randomUid : Bool)
  | setDefaultKey (key : Key)
  | setAts (ats : Bytes)
  | sdmConfigure (fileNo : UInt8) (comm : CommMode) (access : Access)
      (sdm : Option SdmSettings)

/-- The exchange a data command asks for, as a function of the handle. -/
def DataCommand.request : DataCommand → Card → Except Err Request
  | .command cmd data txMode rxMode cap => fun _ =>
      .ok ⟨cmd, data, modeFromPublic txMode, modeFromPublic rxMode, cap⟩
  | .getVersion => getVersionRequest
  | .getFreeMemory => getFreeMemoryRequest
  | .getSignature _ => getSignatureRequest
  | .createApplication aid ks nk kt => createApplicationRequest aid ks nk kt
  | .createApplicationIso aid ks nk kt fid name =>
      createApplicationIsoRequest aid ks nk kt fid name
  | .createApplicationEx aid config => createAppRequest aid config
  | .deleteApplication aid => deleteApplicationRequest aid
  | .getApplicationIds _ => macRequest dfGetApplicationIds [] (maxApps * 3)
  | .formatPicc => formatPiccRequest
  | .setConfiguration option data => setConfigurationRequest option data
  | .getKeyVersion keyNo => macRequest dfGetKeyVersion [keyNo] 16
  | .getKeySettings => macRequest dfGetKeySettings [] 16
  | .changeKeySettings ks => changeKeySettingsRequest ks
  | .getFileIds _ => macRequest dfGetFileIds [] (maxFiles + 16)
  | .getIsoFileIds _ => macRequest dfGetIsoFileIds [] (maxFiles * 2 + 16)
  | .getFileSettings fileNo => macRequest dfGetFileSettings [fileNo] 64
  | .changeFileSettings fileNo comm access =>
      changeFileSettingsRequest fileNo comm access
  | .changeFileSettingsRaw fileNo data =>
      changeFileSettingsRawRequest fileNo data
  | .createStdFile fileNo fid comm access size =>
      createStdFileRequest fileNo fid comm access size
  | .createBackupFile fileNo fid comm access size =>
      createBackupFileRequest fileNo fid comm access size
  | .createValueFile fileNo comm access lower upper value limited =>
      createValueFileRequest fileNo comm access lower upper value limited
  | .createRecordFile cyclic fileNo fid comm access size count =>
      createRecordFileRequest cyclic fileNo fid comm access size count
  | .deleteFile fileNo => deleteFileRequest fileNo
  | .readData fileNo offset length comm cap =>
      readDataRequest fileNo offset length comm cap
  | .writeData fileNo offset data comm =>
      writeDataRequest fileNo offset data comm
  | .getValue fileNo comm => getValueRequest fileNo comm
  | .credit fileNo delta comm => creditRequest fileNo delta comm
  | .limitedCredit fileNo delta comm => limitedCreditRequest fileNo delta comm
  | .debit fileNo delta comm => debitRequest fileNo delta comm
  | .writeRecord fileNo offset data comm =>
      writeRecordRequest fileNo offset data comm
  | .updateRecord fileNo recordNo offset data comm =>
      updateRecordRequest fileNo recordNo offset data comm
  | .readRecords fileNo recordNo count comm cap =>
      readRecordsRequest fileNo recordNo count comm cap
  | .clearRecordFile fileNo => clearRecordFileRequest fileNo
  | .commitTransaction => commitTransactionRequest
  | .commitTransactionTmac => macRequest dfCommitTransaction [0x01] 32
  | .abortTransaction => abortTransactionRequest
  | .commitReaderId readerId _ => commitReaderIdRequest readerId
  | .createTransactionMacFile fileNo comm access tmKey version =>
      createTransactionMacFileRequest fileNo comm access tmKey version
  | .createDelegatedApplication aid slot slotVersion quota ks nk kt fid name
      enck damMac =>
      createDelegatedApplicationRequest aid slot slotVersion quota ks nk kt
        fid name enck damMac
  | .getDelegatedInfo damSlot => getDelegatedInfoRequest damSlot
  | .createMfcMapping data => createMfcMappingRequest data
  | .restrictMfcUpdate data => restrictMfcUpdateRequest data
  | .notifyTransactionSuccess => notifyTransactionSuccessRequest
  | .initKeySet keySet keyType => initKeySetRequest keySet keyType
  | .finalizeKeySet keySet version => finalizeKeySetRequest keySet version
  | .setPiccConfigEx config => setPiccConfigExRequest config
  | .setPiccConfig disableFormat randomUid =>
      setPiccConfigRequest disableFormat randomUid
  | .setDefaultKey key => setDefaultKeyRequest key
  | .setAts ats => setAtsRequest ats
  | .sdmConfigure fileNo comm access sdm =>
      sdmConfigureRequest fileNo comm access sdm

/-- Every public call that can change the handle or reach the card. -/
inductive Call where
  | data (d : DataCommand)
  | resetChannel
  | setCmdset (cmdset : CmdSet)
  | setCommmode (mode : CommMode)
  | setIsoChaining (enable : Bool)
  | authenticate (rng : Rng) (keyNo : UInt8) (key : Option Key)
      (channel : Channel)
  | authenticateNonfirst (rng : Rng) (keyNo : UInt8) (key : Option Key)
  | identify
  | getCardUid (cap : Nat)
  | selectApplication (aid : UInt32)
  | getDfNames (cap : Nat)
  | changeKey (keyNo : UInt8) (oldKey newKey : Option Key)
  | changeKeyEv2 (keySet keyNo : UInt8) (oldKey newKey : Option Key)
  | rollKeySet (keySet : UInt8)
  | proximityCheck (rng : Rng) (pcKey : Key) (rounds : Nat)
  | isoSelectDfName (dfName : Bytes)
  | isoSelectFid (fid : UInt16) (isEf : Bool)
  | isoReadBinary (sfi : UInt8) (offset : UInt16) (length cap : Nat)
  | isoUpdateBinary (sfi : UInt8) (offset : UInt16) (data : Bytes)
  | ntag424Select
  | plusAuthenticate (rng : Rng) (keyBlock : UInt16) (key : Option Key)
      (first : Bool)
  | plusRead (block : UInt16) (count : UInt8) (encrypted maced : Bool)
      (cap : Nat)
  | plusWrite (block : UInt16) (data : Bytes) (encrypted : Bool)
  | plusWritePerso (block : UInt16) (data : Bytes)
  | plusCommitPerso
  | plusValueOp (block : UInt16) (delta : Int32) (credit encrypted : Bool)
  | plusValueTransfer (block : UInt16) (delta : Int32)
      (credit encrypted : Bool)
  | plusTransfer (block : UInt16)
  | plusRestore (block : UInt16)
  | plusResetAuth
  | plusSetConfigSl1 (data : Bytes)
  | plusPersonalizeUid (uidType : UInt8)
  | plusVcSupportLastIsoL3 (cap : Nat)

/-- The request of a call that makes one exchange at most. -/
def Call.request : Call → Option (Card → Except Err Request)
  | .data d => some d.request
  | .identify => some getVersionRequest
  | .getCardUid _ => some getCardUidRequest
  | .changeKey keyNo oldKey newKey =>
      some (changeKeyRequest false 0 keyNo oldKey newKey)
  | .changeKeyEv2 keySet keyNo oldKey newKey =>
      some (changeKeyRequest true keySet keyNo oldKey newKey)
  | .rollKeySet keySet =>
      some fun _ => .ok ⟨dfRollKeySettings, [keySet], .mac, .plain, 16⟩
  | _ => none

/-- The call has its answer in the handle. -/
def Call.skips (call : Call) (card : Card) : Bool :=
  match call with
  | .identify => card.versionRead
  | .getCardUid _ => !card.authenticated
  | _ => false

section

variable [BlockCipher]

/-- The data commands that read something out of the answer run their own
definition; the others end with the exchange. -/
def DataCommand.run : DataCommand → Api Unit
  | .command cmd data txMode rxMode cap =>
      (Nxpsc.command cmd data txMode rxMode cap).ignore
  | .getVersion => Nxpsc.getVersion.ignore
  | .getFreeMemory => Nxpsc.getFreeMemory.ignore
  | .getSignature cap => (Nxpsc.getSignature cap).ignore
  | .getApplicationIds cap => (Nxpsc.getApplicationIds cap).ignore
  | .getKeyVersion keyNo => (Nxpsc.getKeyVersion keyNo).ignore
  | .getKeySettings => Nxpsc.getKeySettings.ignore
  | .getFileIds cap => (Nxpsc.getFileIds cap).ignore
  | .getIsoFileIds cap => (Nxpsc.getIsoFileIds cap).ignore
  | .getFileSettings fileNo => (Nxpsc.getFileSettings fileNo).ignore
  | .readData fileNo offset length comm cap =>
      (Nxpsc.readData fileNo offset length comm cap).ignore
  | .getValue fileNo comm => (Nxpsc.getValue fileNo comm).ignore
  | .readRecords fileNo recordNo count comm cap =>
      (Nxpsc.readRecords fileNo recordNo count comm cap).ignore
  | .commitTransactionTmac => Nxpsc.commitTransactionTmac.ignore
  | .commitReaderId readerId cap => (Nxpsc.commitReaderId readerId cap).ignore
  | .getDelegatedInfo damSlot => (Nxpsc.getDelegatedInfo damSlot).ignore
  | d => dataCall d.request noAnswer

/-- What a call does. -/
def Call.run : Call → Api Unit
  | .data d => d.run
  | .resetChannel => Prog.modify Nxpsc.resetChannel
  | .setCmdset cmdset => Prog.modify fun card => { card with cmdset := cmdset }
  | .setCommmode mode =>
      Prog.modify fun card => { card with defaultComm := mode }
  | .setIsoChaining enable =>
      Prog.modify fun card => { card with isoChaining := enable }
  | .authenticate rng keyNo key channel =>
      Nxpsc.authenticate rng keyNo key channel
  | .authenticateNonfirst rng keyNo key =>
      Nxpsc.authenticateNonfirst rng keyNo key
  | .identify => Nxpsc.identify.ignore
  | .getCardUid cap => (Nxpsc.getCardUid cap).ignore
  | .selectApplication aid => Nxpsc.selectApplication aid
  | .getDfNames cap => (Nxpsc.getDfNames cap).ignore
  | .changeKey keyNo oldKey newKey => Nxpsc.changeKey keyNo oldKey newKey
  | .changeKeyEv2 keySet keyNo oldKey newKey =>
      Nxpsc.changeKeyEv2 keySet keyNo oldKey newKey
  | .rollKeySet keySet => Nxpsc.rollKeySet keySet
  | .proximityCheck rng pcKey rounds => Nxpsc.proximityCheck rng pcKey rounds
  | .isoSelectDfName dfName => Nxpsc.isoSelectDfName dfName
  | .isoSelectFid fid isEf => Nxpsc.isoSelectFid fid isEf
  | .isoReadBinary sfi offset length cap =>
      (Nxpsc.isoReadBinary sfi offset length cap).ignore
  | .isoUpdateBinary sfi offset bytes =>
      Nxpsc.isoUpdateBinary sfi offset bytes
  | .ntag424Select => Nxpsc.ntag424Select
  | .plusAuthenticate rng keyBlock key first =>
      Nxpsc.plusAuthenticate rng keyBlock key first
  | .plusRead block count encrypted maced cap =>
      (Nxpsc.plusRead block count encrypted maced cap).ignore
  | .plusWrite block bytes encrypted => Nxpsc.plusWrite block bytes encrypted
  | .plusWritePerso block bytes => Nxpsc.plusWritePerso block bytes
  | .plusCommitPerso => Nxpsc.plusCommitPerso
  | .plusValueOp block delta credit encrypted =>
      Nxpsc.plusValueOp block delta credit encrypted
  | .plusValueTransfer block delta credit encrypted =>
      Nxpsc.plusValueTransfer block delta credit encrypted
  | .plusTransfer block => Nxpsc.plusTransfer block
  | .plusRestore block => Nxpsc.plusRestore block
  | .plusResetAuth => Nxpsc.plusResetAuth
  | .plusSetConfigSl1 bytes => Nxpsc.plusSetConfigSl1 bytes
  | .plusPersonalizeUid uidType => Nxpsc.plusPersonalizeUid uidType
  | .plusVcSupportLastIsoL3 cap => (Nxpsc.plusVcSupportLastIsoL3 cap).ignore

/-- A completed call in a run of the library. -/
abbrev ApiStep := Step Card Frame Answer Err Call

/-- Runs of the public API on one handle. -/
abbrev ApiRun (s : Card) (steps : List ApiStep) (s' : Card) : Prop :=
  Run Call.run s steps s'

end

end Nxpsc
