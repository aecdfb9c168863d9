import SorobanProxy.Pipeline

/-! An instance of the libraries that knows one contract with one function, `ping`, which
takes no arguments, and one account: keys, encodings, hashes and a signature as the
libraries compute them, and replies as an RPC service sends them. It refuses what it does
not know. -/
namespace SorobanProxy.Reference

open Library

def seed : Bytes32 := ⟨List.replicate 32 1,rfl⟩

def secretKey : String := "SAAQCAIBAEAQCAIBAEAQCAIBAEAQCAIBAEAQCAIBAEAQCAIBAEAQC5MY"

def sourceKey : Bytes32 where
  bytes := [
    0x8A, 0x88, 0xE3, 0xDD, 0x74, 0x09, 0xF1, 0x95, 0xFD, 0x52, 0xDB, 0x2D, 0x3C, 0xBA, 0x5D, 0x72, 0xCA,
    0x67, 0x09, 0xBF, 0x1D, 0x94, 0x12, 0x1B, 0xF3, 0x74, 0x88, 0x01, 0xB4, 0x0F, 0x6F, 0x5C]
  length_eq := rfl

def sourceAccount : String := "GCFIRY65OQE7DFP5KLNS2PF2LVZMUZYJX4OZIEQ36N2IQANUB5XVYOJR"

def accountKeyXdr : String := "AAAAAAAAAACKiOPddAnxlf1S2y08ul1yymcJvx2UEhvzdIgBtA9vXA=="

/-- The account, with the sequence number 41. -/
def accountEntryXdr : String :=
  "AAAAAAAAAACKiOPddAnxlf1S2y08ul1yymcJvx2UEhvzdIgBtA9vXAAAAAA7msoAAAAAAAAAACkAAAAAAAAAAAAAAAAAAAAAAQ" ++
  "AAAAAAAAAAAAAA"

def contract : Bytes32 := ⟨List.replicate 32 2,rfl⟩

def contractId : String := "CABAEAQCAIBAEAQCAIBAEAQCAIBAEAQCAIBAEAQCAIBAEAQCAIBAFNSZ"

def wasmHash : Bytes32 where
  bytes := [
    0x46, 0xAA, 0x25, 0x41, 0x28, 0xAE, 0xAC, 0x9C, 0xFF, 0xD3, 0x11, 0xE9, 0x79, 0x2B, 0xD0, 0xFA, 0x24,
    0xDF, 0x8D, 0x0C, 0xF9, 0xFE, 0x33, 0xA0, 0x83, 0x1F, 0xF1, 0xD7, 0x6C, 0xC0, 0x6D, 0x71]
  length_eq := rfl

def wasmHashHex : String := "46aa254128aeac9cffd311e9792bd0fa24df8d0cf9fe33a0831ff1d76cc06d71"

def codeKeyXdr : String := "AAAAB0aqJUEorqyc/9MR6Xkr0Pok340M+f4zoIMf8ddswG1x"

def codeEntryXdr : String :=
  "AAAABwAAAABGqiVBKK6snP/TEel5K9D6JN+NDPn+M6CDH/HXbMBtcQAAADEAYXNtAQAAAAAnDmNvbnRyYWN0c3BlY3YwAAAAAA" ++
  "AAAAAAAAAEcGluZwAAAAAAAAAAAAAA"

def specSection : List UInt8 := [
  0x00, 0x00, 0x00, 0x00, 0x00, 0x00, 0x00, 0x00, 0x00, 0x00, 0x00, 0x04, 0x70, 0x69, 0x6E, 0x67, 0x00,
  0x00, 0x00, 0x00, 0x00, 0x00, 0x00, 0x00]

/-- A module with nothing but its interface. -/
def wasm : List UInt8 := [
  0x00, 0x61, 0x73, 0x6D, 0x01, 0x00, 0x00, 0x00, 0x00, 0x27, 0x0E, 0x63, 0x6F, 0x6E, 0x74, 0x72, 0x61,
  0x63, 0x74, 0x73, 0x70, 0x65, 0x63, 0x76, 0x30, 0x00, 0x00, 0x00, 0x00, 0x00, 0x00, 0x00, 0x00, 0x00,
  0x00, 0x00, 0x04, 0x70, 0x69, 0x6E, 0x67, 0x00, 0x00, 0x00, 0x00, 0x00, 0x00, 0x00, 0x00]

def ping : ScSpecFunctionV0 where
  doc := .empty
  name := ⟨utf8 "ping",by decide⟩
  inputs := []
  outputs := []

def networkPassphrase : String := "Test SDF Network ; September 2015"

def networkId : Bytes32 where
  bytes := [
    0xCE, 0xE0, 0x30, 0x2D, 0x59, 0x84, 0x4D, 0x32, 0xBD, 0xCA, 0x91, 0x5C, 0x82, 0x03, 0xDD, 0x44, 0xB3,
    0x3F, 0xBB, 0x7E, 0xDC, 0x19, 0x05, 0x1E, 0xA3, 0x7A, 0xBE, 0xDF, 0x28, 0xEC, 0xD4, 0x72]
  length_eq := rfl

def probeKey : Bytes32 where
  bytes := [
    0xBF, 0x6E, 0x61, 0xED, 0x0C, 0x08, 0xF1, 0xAE, 0xB0, 0x78, 0x1F, 0xE9, 0x10, 0x88, 0x41, 0xE4, 0xA5,
    0x14, 0xC3, 0xCF, 0x7F, 0x94, 0x38, 0x11, 0x04, 0x8F, 0x76, 0x45, 0xC7, 0xBE, 0xF7, 0xCD]
  length_eq := rfl

def probeAccount : String := "GC7W4YPNBQEPDLVQPAP6SEEIIHSKKFGDZ57ZIOARASHXMROHX33424S2"

def probeXdr : String :=
  "AAAAAgAAAAC/bmHtDAjxrrB4H+kQiEHkpRTDz3+UOBEEj3ZFx773zQAAAGQAAAAAAAAAAQAAAAAAAAAAAAAAAQAAAAAAAAAYAA" ++
  "AAAAAAAAECAgICAgICAgICAgICAgICAgICAgICAgICAgICAgICAgAAAARwaW5nAAAAAAAAAAAAAAAAAAAAAA=="

/-- Resources that write nothing. -/
def readingXdr : String := "AAAAAAAAAAAAAAAAAA9CQAAAAMgAAADIAAAAAAAAMDk="

def readingData : SorobanTransactionData where
  ext := .v0
  resources := {
    footprint := { readOnly := [], readWrite := [] }
    instructions := 1000000
    diskReadBytes := 200
    writeBytes := 200 }
  resourceFee := 12345

def unsignedXdr : String :=
  "AAAAAgAAAACKiOPddAnxlf1S2y08ul1yymcJvx2UEhvzdIgBtA9vXAAAAGQAAAAAAAAAKgAAAAAAAAAAAAAAAQAAAAAAAAAYAA" ++
  "AAAAAAAAECAgICAgICAgICAgICAgICAgICAgICAgICAgICAgICAgAAAARwaW5nAAAAAAAAAAAAAAAAAAAAAA=="

/-- Resources that write the contract's instance. -/
def writingXdr : String :=
  "AAAAAAAAAAAAAAABAAAABgAAAAECAgICAgICAgICAgICAgICAgICAgICAgICAgICAgICAgAAABQAAAABAA9CQAAAAMgAAADIAA" ++
  "AAAAAAMDk="

def writingData : SorobanTransactionData where
  ext := .v0
  resources := {
    footprint := {
      readOnly := []
      readWrite := [.contractData (.contract contract) .ledgerKeyContractInstance .persistent] }
    instructions := 1000000
    diskReadBytes := 200
    writeBytes := 200 }
  resourceFee := 12345

def assembledXdr : String :=
  "AAAAAgAAAACKiOPddAnxlf1S2y08ul1yymcJvx2UEhvzdIgBtA9vXAAAMJ0AAAAAAAAAKgAAAAAAAAAAAAAAAQAAAAAAAAAYAA" ++
  "AAAAAAAAECAgICAgICAgICAgICAgICAgICAgICAgICAgICAgICAgAAAARwaW5nAAAAAAAAAAAAAAABAAAAAAAAAAAAAAABAAAA" ++
  "BgAAAAECAgICAgICAgICAgICAgICAgICAgICAgICAgICAgICAgAAABQAAAABAA9CQAAAAMgAAADIAAAAAAAAMDkAAAAA"

def payload : List UInt8 := [
  0xCE, 0xE0, 0x30, 0x2D, 0x59, 0x84, 0x4D, 0x32, 0xBD, 0xCA, 0x91, 0x5C, 0x82, 0x03, 0xDD, 0x44, 0xB3,
  0x3F, 0xBB, 0x7E, 0xDC, 0x19, 0x05, 0x1E, 0xA3, 0x7A, 0xBE, 0xDF, 0x28, 0xEC, 0xD4, 0x72, 0x00, 0x00,
  0x00, 0x02, 0x00, 0x00, 0x00, 0x00, 0x8A, 0x88, 0xE3, 0xDD, 0x74, 0x09, 0xF1, 0x95, 0xFD, 0x52, 0xDB,
  0x2D, 0x3C, 0xBA, 0x5D, 0x72, 0xCA, 0x67, 0x09, 0xBF, 0x1D, 0x94, 0x12, 0x1B, 0xF3, 0x74, 0x88, 0x01,
  0xB4, 0x0F, 0x6F, 0x5C, 0x00, 0x00, 0x30, 0x9D, 0x00, 0x00, 0x00, 0x00, 0x00, 0x00, 0x00, 0x2A, 0x00,
  0x00, 0x00, 0x00, 0x00, 0x00, 0x00, 0x00, 0x00, 0x00, 0x00, 0x01, 0x00, 0x00, 0x00, 0x00, 0x00, 0x00,
  0x00, 0x18, 0x00, 0x00, 0x00, 0x00, 0x00, 0x00, 0x00, 0x01, 0x02, 0x02, 0x02, 0x02, 0x02, 0x02, 0x02,
  0x02, 0x02, 0x02, 0x02, 0x02, 0x02, 0x02, 0x02, 0x02, 0x02, 0x02, 0x02, 0x02, 0x02, 0x02, 0x02, 0x02,
  0x02, 0x02, 0x02, 0x02, 0x02, 0x02, 0x02, 0x02, 0x00, 0x00, 0x00, 0x04, 0x70, 0x69, 0x6E, 0x67, 0x00,
  0x00, 0x00, 0x00, 0x00, 0x00, 0x00, 0x00, 0x00, 0x00, 0x00, 0x01, 0x00, 0x00, 0x00, 0x00, 0x00, 0x00,
  0x00, 0x00, 0x00, 0x00, 0x00, 0x01, 0x00, 0x00, 0x00, 0x06, 0x00, 0x00, 0x00, 0x01, 0x02, 0x02, 0x02,
  0x02, 0x02, 0x02, 0x02, 0x02, 0x02, 0x02, 0x02, 0x02, 0x02, 0x02, 0x02, 0x02, 0x02, 0x02, 0x02, 0x02,
  0x02, 0x02, 0x02, 0x02, 0x02, 0x02, 0x02, 0x02, 0x02, 0x02, 0x02, 0x02, 0x00, 0x00, 0x00, 0x14, 0x00,
  0x00, 0x00, 0x01, 0x00, 0x0F, 0x42, 0x40, 0x00, 0x00, 0x00, 0xC8, 0x00, 0x00, 0x00, 0xC8, 0x00, 0x00,
  0x00, 0x00, 0x00, 0x00, 0x30, 0x39]

def transactionHash : Bytes32 where
  bytes := [
    0xB2, 0x65, 0xB2, 0x6C, 0x37, 0xE1, 0x41, 0x78, 0x5C, 0x04, 0x55, 0x9B, 0x35, 0xBA, 0x82, 0x2D, 0xAC,
    0x73, 0x0E, 0x1F, 0x0F, 0x2D, 0x78, 0x7C, 0xDB, 0x08, 0xFC, 0xD5, 0xE4, 0x7A, 0xD7, 0x87]
  length_eq := rfl

def signature : List UInt8 := [
  0x82, 0x0A, 0x05, 0x15, 0x68, 0x00, 0x87, 0x44, 0xB4, 0x73, 0x83, 0xDE, 0xC1, 0x30, 0xF2, 0x88, 0x02,
  0xDD, 0x20, 0x2E, 0x96, 0x50, 0xCE, 0xFF, 0x46, 0xB2, 0x9C, 0x51, 0x72, 0xC2, 0x8B, 0x64, 0x82, 0x6D,
  0xD7, 0xA2, 0x50, 0x63, 0x58, 0xA6, 0x08, 0xB4, 0x87, 0x1B, 0xAE, 0x34, 0x4D, 0x73, 0x54, 0xC1, 0x13,
  0xE3, 0xCB, 0x51, 0xC2, 0xF0, 0x7A, 0xB2, 0xDC, 0x08, 0x88, 0x17, 0xB8, 0x09]

def signedXdr : String :=
  "AAAAAgAAAACKiOPddAnxlf1S2y08ul1yymcJvx2UEhvzdIgBtA9vXAAAMJ0AAAAAAAAAKgAAAAAAAAAAAAAAAQAAAAAAAAAYAA" ++
  "AAAAAAAAECAgICAgICAgICAgICAgICAgICAgICAgICAgICAgICAgAAAARwaW5nAAAAAAAAAAAAAAABAAAAAAAAAAAAAAABAAAA" ++
  "BgAAAAECAgICAgICAgICAgICAgICAgICAgICAgICAgICAgICAgAAABQAAAABAA9CQAAAAMgAAADIAAAAAAAAMDkAAAABtA9vXA" ++
  "AAAECCCgUVaACHRLRzg97BMPKIAt0gLpZQzv9GspxRcsKLZIJt16JQY1imCLSHG640TXNUwRPjy1HC8Hqy3AiIF7gJ"

def resultText (result : String) : String :=
  "\x7b\"jsonrpc\":\"2.0\",\"id\":1,\"result\":" ++ result ++ "\x7d"

def entriesText (xdr : String) : String :=
  resultText ("\x7b\"entries\":[\x7b\"xdr\":\"" ++ xdr ++ "\"\x7d]\x7d")

def entries (xdr : String) : Value := .obj [("entries", .array [.obj [("xdr", .str xdr)]])]

def simulationText (xdr : String) : String :=
  resultText ("\x7b\"transactionData\":\"" ++ xdr ++ "\",\"minResourceFee\":\"12345\"\x7d")

def simulation (xdr : String) : Value :=
  .obj [("transactionData", .str xdr), ("minResourceFee", .str "12345")]

/-- The hash of the transaction, as the service spells it. -/
def hashHex : String := "b265b26c37e141785c04559b35ba822dac730e1f0f2d787cdb08fcd5e47ad787"

def pendingText : String := resultText ("\x7b\"status\":\"PENDING\",\"hash\":\"" ++ hashHex ++ "\"\x7d")

/-- The reply to a submission. -/
def pending : Value := .obj [("status", .str "PENDING"), ("hash", .str hashHex)]

def statusText (status : String) : String := resultText ("\x7b\"status\":\"" ++ status ++ "\"\x7d")

/-- The reply to a poll. -/
def status (status : String) : Value := .obj [("status", .str status)]

/-- The replies that it knows. -/
def responseFromStr (text : String) : Except String JsonRpcResponse :=
  if text = entriesText codeEntryXdr then .ok ⟨entries codeEntryXdr,none⟩
  else if text = entriesText accountEntryXdr then .ok ⟨entries accountEntryXdr,none⟩
  else if text = simulationText readingXdr then .ok ⟨simulation readingXdr,none⟩
  else if text = simulationText writingXdr then .ok ⟨simulation writingXdr,none⟩
  else if text = pendingText then .ok ⟨pending,none⟩
  else if text = statusText "NOT_FOUND" then .ok ⟨status "NOT_FOUND",none⟩
  else if text = statusText "SUCCESS" then .ok ⟨status "SUCCESS",none⟩
  else .error "unsupported"

def ledgerKeyToBase64 : LedgerKey → Except String String
  | .account key => if key = sourceKey then .ok accountKeyXdr else .error "unsupported"
  | .contractCode hash => if hash = wasmHash then .ok codeKeyXdr else .error "unsupported"
  | _ => .error "unsupported"

def ledgerEntryFromBase64 (b64 : String) : Except String LedgerEntryData :=
  if b64 = accountEntryXdr then .ok (.account 41)
  else if b64 = codeEntryXdr then .ok (.contractCode wasm)
  else .error "unsupported"

def sorobanDataFromBase64 (b64 : String) : Except String SorobanTransactionData :=
  if b64 = readingXdr then .ok readingData
  else if b64 = writingXdr then .ok writingData
  else .error "unsupported"

/-- The four envelopes that it knows, told apart by their source, extension and signatures. -/
def envelopeToBase64 : TransactionEnvelope → Except String String
  | .tx ⟨tx,signatures⟩ =>
    if tx.sourceAccount = .ed25519 probeKey then .ok probeXdr
    else match tx.ext, signatures with
      | .v0, _ => .ok unsignedXdr
      | .v1 _, [] => .ok assembledXdr
      | .v1 _, _ => .ok signedXdr
  | _ => .error "unsupported"

def sha256 (bytes : List UInt8) : Bytes32 :=
  if bytes = wasm then wasmHash
  else if bytes = utf8 networkPassphrase then networkId
  else if bytes = payload then transactionHash
  else probeKey

def crates : Crates where
  __ := Crates.reference
  publicKeyToString key := if key = probeKey then probeAccount else sourceAccount
  publicKeyFromString s :=
    if s = sourceAccount then some sourceKey else if s = probeAccount then some probeKey else none
  contractToString _ := contractId
  contractFromString s := if s = contractId then some contract else none

def platform : Platform where
  toCrates := crates
  overflowChecks := false
  lowercaseUnicode := id
  valueFromStr _ := none
  responseFromStr
  valueToString _ := ""
  statusToString _ := ""
  debugData _ := ""
  debugLedgerEntry _ := ""
  ledgerKeyToBase64
  ledgerEntryFromBase64
  sorobanDataFromBase64
  authorizationFromBase64 _ := .error "unsupported"
  scvalFromBase64 _ := .error "unsupported"
  metaFromBase64 _ := .error "unsupported"
  envelopeToBase64
  payloadToXdr _ := .ok payload
  sha256
  seedFromString s := if s = secretKey then some seed else none
  verifyingKey _ := sourceKey
  sign _ _ := ⟨signature,rfl⟩
  parseWasm _ := [.ok .other, .ok (.customSection contractSpecSection specSection), .ok .other]
  specEntriesFromXdr _ := .ok [.functionV0 ping]

theorem platform_text : platform.TextLaw where
  plain h := if_pos h

def rpcUrl : String := "https://soroban-testnet.stellar.org"

def state : AppState where
  rpc := .new rpcUrl ⟨30⟩
  networkPassphrase
  contractWasmHash := wasmHashHex
  contractId

/-- The spec of the contract. -/
def spec : ContractSpec := .fromEntries [.functionV0 ping]

theorem ping_name : StringM.toUtf8StringLossy ping.name = "ping" := fromUtf8Lossy_utf8 "ping"

theorem spec_function : spec.function "ping" = some ping :=
  List.find?_cons_of_pos (by rw [ping_name]; rfl)

theorem parseWasmHash_known : parseWasmHash platform (normalizeHash platform wasmHashHex) = .ok wasmHash := by
  decide

/-- The replies by their texts. -/
def knownReplies : Entries String Value := [
  (entriesText codeEntryXdr, entries codeEntryXdr), (entriesText accountEntryXdr, entries accountEntryXdr),
  (simulationText readingXdr, simulation readingXdr), (simulationText writingXdr, simulation writingXdr),
  (pendingText, pending), (statusText "NOT_FOUND", status "NOT_FOUND"), (statusText "SUCCESS", status "SUCCESS")]

theorem responseFromStr_eq (text : String) : responseFromStr text =
    (Entries.find text knownReplies).elim (.error "unsupported") fun result => .ok ⟨result,none⟩ := by
  simp only [responseFromStr, knownReplies, Entries.find_cons, Entries.find_nil]
  split_ifs <;> rfl

theorem knownReplies_distinct : (knownReplies.map Prod.fst).Nodup := by decide +kernel

/-- No two texts are equal, so each is read as its own result. -/
theorem responseFromStr_known {text : String} {result : Value} (known : (text, result) ∈ knownReplies) :
    platform.responseFromStr text = .ok ⟨result,none⟩ := by
  change responseFromStr text = _
  rw [responseFromStr_eq,Entries.find_of_mem knownReplies_distinct known]
  rfl

section Replies

variable {p : Platform}

theorem answered {method text : String} {result : Value}
    (known : p.responseFromStr text = .ok ⟨result,none⟩) :
    replyResult p method (.response 200 text) = .ok result := by
  simp [replyResult,known,okOr]

theorem get_entries (xdr : String) : (entries xdr).fieldArray p "entries" = [.obj [("xdr", .str xdr)]] := by
  have found : (entries xdr).get "entries" = some (.array [.obj [("xdr", .str xdr)]]) := by
    apply Value.get_obj <;> simp
  simp [Value.fieldArray,Value.field,found,okOr,Value.asArray]

/-- A known reply about a ledger entry. -/
theorem entryData {xdr : String} {data : LedgerEntryData}
    (known : p.responseFromStr (entriesText xdr) = .ok ⟨entries xdr,none⟩)
    (decoded : p.ledgerEntryFromBase64 xdr = .ok data) :
    EntryData p (.response 200 (entriesText xdr)) data := by
  refine ⟨entries xdr,_,xdr,answered known,by rw [get_entries]; rfl,?_,decoded⟩
  apply Value.get_obj <;> simp [Value.str]

end Replies

theorem account_known : EntryData platform (.response 200 (entriesText accountEntryXdr)) (.account 41) := by
  apply entryData
  · exact responseFromStr_known (by simp [knownReplies])
  · rfl

theorem code_known : EntryData platform (.response 200 (entriesText codeEntryXdr)) (.contractCode wasm) := by
  apply entryData
  · exact responseFromStr_known List.mem_cons_self
  · change ledgerEntryFromBase64 codeEntryXdr = _
    rw [ledgerEntryFromBase64,if_neg (by decide +kernel),if_pos rfl]

/-- A known reply to a simulation. -/
theorem parseSimulation_known {xdr : String} {data : SorobanTransactionData}
    (decoded : platform.sorobanDataFromBase64 xdr = .ok data) :
    parseSimulation platform (simulation xdr) = .ok ⟨data,12345,none,[],simulation xdr⟩ := by
  have dataText : (simulation xdr).asStrField platform "transactionData" = .ok xdr := by
    apply Value.asStrField_eq_ok_iff.mpr
    apply Value.get_obj <;> simp [Value.str]
  have feeText : (simulation xdr).asStrField platform "minResourceFee" = .ok "12345" := by
    apply Value.asStrField_eq_ok_iff.mpr
    apply Value.get_obj <;> simp [Value.str]
  have absent {name : String} (other : name ∉ ["transactionData", "minResourceFee"]) :
      (simulation xdr).get name = none := Value.get_obj_eq_none (by simpa using other)
  have noResults : (simulation xdr).fieldArray platform "results" = [] := by
    simp [Value.fieldArray,Value.field,absent,okOr]
  have fee : parseI64 "12345" = .ok 12345 := by decide
  rw [parseSimulation,absent (by decide),absent (by decide),dataText,feeText,noResults]
  simp only [Option.isSome_none, Bool.false_eq_true, if_false, bind, Except.bind, decoded, fee, Except.mapError]
  rfl

def request (sign : Bool) : InvokeRequest where
  functionName := "ping"
  args := .empty
  sourceAccount
  sign
  secretKey := some secretKey
  isGet := false

/-- A text as the bytes of a header. -/
def headerBytes (text : String) : List UInt8 := text.toList.map fun char => char.toNat.toUInt8

def signedHeaders : HeaderMap := [
  (headerSourceAccount, headerBytes sourceAccount), (headerSign, headerBytes "true"),
  (headerSecretKey, headerBytes secretKey)]

theorem signedHeaders_read : readCommonHeaders signedHeaders = .ok ⟨sourceAccount,true,some secretKey⟩ := by
  have source : headerStr signedHeaders headerSourceAccount = .ok (some sourceAccount) := by decide +kernel
  have sign : headerStr signedHeaders headerSign = .ok (some "true") := by decide +kernel
  have key : headerStr signedHeaders headerSecretKey = .ok (some secretKey) := by decide +kernel
  rw [readCommonHeaders,source,sign,key]
  rfl

def preparation : Preparation where
  lookup := [⟨.readCache (normalizeHash platform wasmHashHex),some spec⟩]
  spec
  func := ping
  methods := OrdMap.empty.insert "ping" false
  accountKey := accountKeyXdr
  accountReply := .response 200 (entriesText accountEntryXdr)
  call := ⟨sourceKey,42,contract,ping.name,[]⟩
  unsigned := unsignedXdr
  simReply := .response 200 (simulationText writingXdr)
  sim := ⟨writingData,12345,none,[],simulation writingXdr⟩
  fee := 12445
  auth := []

theorem simulation_known : platform.responseFromStr (simulationText writingXdr) = .ok ⟨simulation writingXdr,none⟩ :=
  responseFromStr_known (by simp [knownReplies])

theorem preparation_valid (sign : Bool) : preparation.Valid platform state (request sign) where
  requested := {
    lookup := .cached parseWasmHash_known
    function := spec_function
    gate := by rfl
    args := .nil
    arity := Nat.zero_le _
    source := rfl
    accountKey := rfl
    seqNum := ⟨41,account_known,by decide,by decide⟩
    contract := rfl
    symbol := (platform_text.some_iff (show Plain "ping" by decide)).mpr rfl
    unsigned := rfl }
  simulated := by
    have decoded : platform.sorobanDataFromBase64 writingXdr = .ok writingData := by
      change sorobanDataFromBase64 writingXdr = _
      rw [sorobanDataFromBase64,if_neg (by decide +kernel),if_pos rfl]
    have parsed := parseSimulation_known decoded
    obtain ⟨noError,noRestore,data,fee,_⟩ := parseSimulation_eq_ok_iff.mp parsed
    exact ⟨answered simulation_known,parsed,noError,noRestore,data,fee,by decide,by decide,.nil,Nat.zero_le _⟩

def submission : Submission where
  secretKey
  seed
  signature := ⟨sourceKey.bytes.drop 28,⟨signature,by decide⟩⟩
  envelope := signedXdr

theorem submission_valid : submission.Valid platform state (request true) preparation where
  sign := rfl
  secretKey := rfl
  seed := rfl
  signature := ⟨transactionHash,by decide +kernel,rfl,rfl⟩
  envelope := rfl

end SorobanProxy.Reference
