import SorobanProxy.Crates

/-! The `stellar_xdr` types of ledger entries and transactions. A variant that the proxy
neither builds nor looks into keeps only its encoding or its debug text. -/
namespace SorobanProxy

structure LedgerFootprint where
  readOnly : List LedgerKey
  readWrite : List LedgerKey

structure SorobanResources where
  footprint : LedgerFootprint
  instructions : UInt32
  diskReadBytes : UInt32
  writeBytes : UInt32

inductive SorobanTransactionDataExt where
  | v0
  | v1 (archivedSorobanEntries : List UInt32)

structure SorobanTransactionData where
  ext : SorobanTransactionDataExt
  resources : SorobanResources
  resourceFee : Int64

/-- Copied from a reply into a transaction, and never looked into. -/
structure SorobanAuthorizationEntry where
  xdr : List UInt8
  deriving DecidableEq

inductive LedgerEntryData where
  | account (seqNum : Int64)
  | contractCode (code : List UInt8)
  | other (debug : String)

/-- Of the metadata versions, V3 always has a return value with its Soroban part and V4
may lack it. -/
inductive TransactionMeta where
  | v3 (sorobanMeta : Option ScVal)
  | v4 (sorobanMeta : Option (Option ScVal))
  | other

inductive MuxedAccount where
  | ed25519 (key : Bytes32)
  | muxedEd25519 (id : UInt64) (key : Bytes32)
  deriving DecidableEq

inductive Preconditions where
  | none
  | time (minTime maxTime : UInt64)
  | v2 (xdr : List UInt8)
  deriving DecidableEq

inductive Memo where
  | none
  | text (text : StringM 28)
  | id (id : UInt64)
  | hash (hash : Bytes32)
  | return (hash : Bytes32)
  deriving DecidableEq

structure InvokeContractArgs where
  contractAddress : ScAddress
  functionName : ScSymbol
  args : List ScVal

inductive HostFunction where
  | invokeContract (args : InvokeContractArgs)
  | other (xdr : List UInt8)

structure InvokeHostFunctionOp where
  hostFunction : HostFunction
  auth : List SorobanAuthorizationEntry

inductive OperationBody where
  | invokeHostFunction (op : InvokeHostFunctionOp)
  | other (xdr : List UInt8)

structure Operation where
  sourceAccount : Option MuxedAccount
  body : OperationBody

inductive TransactionExt where
  | v0
  | v1 (data : SorobanTransactionData)

structure Transaction where
  sourceAccount : MuxedAccount
  fee : UInt32
  seqNum : Int64
  cond : Preconditions
  memo : Memo
  operations : List Operation
  ext : TransactionExt

structure DecoratedSignature where
  hint : List UInt8
  signature : BytesM 64
  deriving DecidableEq

structure TransactionV1Envelope where
  tx : Transaction
  signatures : List DecoratedSignature

inductive TransactionEnvelope where
  | txV0 (xdr : List UInt8)
  | tx (v1 : TransactionV1Envelope)
  | txFeeBump (xdr : List UInt8)

structure TransactionSignaturePayload where
  networkId : Bytes32
  taggedTransaction : Transaction

/-- What a remote procedure call answers. -/
structure JsonRpcError where
  code : Int64
  message : String
  data : Option Value

structure JsonRpcResponse where
  result : Option Value
  error : Option JsonRpcError

/-- One item of a WASM module's payload stream. -/
inductive Payload where
  | customSection (name : String) (data : List UInt8)
  | other

/-- The libraries behind the network side of the proxy, besides those of the conversion,
and the build profile's treatment of overflow. -/
structure Platform extends Crates where
  overflowChecks : Bool
  /-- `str::to_lowercase` on text that is not all ASCII, by the Unicode tables. -/
  lowercaseUnicode : String → String
  /-- `serde_json::from_str`, whose error is dropped. -/
  valueFromStr : String → Option Value
  responseFromStr : String → Except String JsonRpcResponse
  /-- The text of a JSON value and the reason phrase of a status, as displayed. -/
  valueToString : Value → String
  statusToString : Nat → String
  debugData : Option Value → String
  debugLedgerEntry : LedgerEntryData → String
  ledgerKeyToBase64 : LedgerKey → Except String String
  ledgerEntryFromBase64 : String → Except String LedgerEntryData
  sorobanDataFromBase64 : String → Except String SorobanTransactionData
  authorizationFromBase64 : String → Except String SorobanAuthorizationEntry
  scvalFromBase64 : String → Except String ScVal
  metaFromBase64 : String → Except String TransactionMeta
  envelopeToBase64 : TransactionEnvelope → Except String String
  payloadToXdr : TransactionSignaturePayload → Except String (List UInt8)
  sha256 : List UInt8 → Bytes32
  /-- The `S...` seed strkey. -/
  seedFromString : String → Option Bytes32
  verifyingKey : Bytes32 → Bytes32
  sign : Bytes32 → Bytes32 → {bytes : List UInt8 // bytes.length = 64}
  parseWasm : List UInt8 → List (Except String Payload)
  specEntriesFromXdr : List UInt8 → Except String (List ScSpecEntry)

end SorobanProxy
