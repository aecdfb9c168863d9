import SorobanProxy.Rpc

/-! Where the contract's interface comes from: the WASM on the ledger under its hash, and
the cache of interfaces that were read before. -/
namespace SorobanProxy

open Library
open Library.Prog (perform ofResult liftExcept)

/-- The Unicode property `White_Space`. -/
def isWhitespace (char : Char) : Bool :=
  let n := char.toNat
  (0x09 ≤ n ∧ n ≤ 0x0D) ∨ n = 0x20 ∨ n = 0x85 ∨ n = 0xA0 ∨ n = 0x1680 ∨ (0x2000 ≤ n ∧ n ≤ 0x200A) ∨
    n = 0x2028 ∨ n = 0x2029 ∨ n = 0x202F ∨ n = 0x205F ∨ n = 0x3000

/-- `str::trim`. -/
def trim (s : String) : String :=
  .ofList ((s.toList.dropWhile isWhitespace).reverse.dropWhile isWhitespace).reverse

/-- `str::to_lowercase`. -/
def toLowercase (p : Platform) (s : String) : String :=
  if s.toList.all fun char => char.toNat < 0x80 then .ofList (s.toList.map Char.toLower)
  else p.lowercaseUnicode s

/-- The form of a hash that the cache is keyed by. -/
def normalizeHash (p : Platform) (wasmHashHex : String) : String := toLowercase p (trim wasmHashHex)

def parseWasmHash (p : Platform) (wasmHashHex : String) : Result Bytes32 := do
  let bytes ← (p.hexDecode (trim wasmHashHex)).mapError fun e => s!"wasm hash must be hex-encoded: {e}"
  if length_eq : bytes.length = 32 then return ⟨bytes,length_eq⟩
  else .error "wasm hash must be exactly 32 bytes (64 hex characters)"

def fetchWasmByHash (p : Platform) (wasmHashHex : String) : AsyncResult String (List UInt8) := do
  let hash ← ofResult (parseWasmHash p wasmHashHex)
  let keyB64 ← ofResult ((p.ledgerKeyToBase64 (.contractCode hash)).mapError fun _ =>
    "failed encoding ledger key")
  let data ← firstLedgerEntry p keyB64
    (s!"no contract WASM found on-chain for hash `{wasmHashHex}` (it may not be uploaded on this network, " ++
      "or the hash is wrong)")
    "failed decoding ContractCode ledger entry"
  match data with
  | .contractCode code => return code
  | other =>
    let other := p.debugLedgerEntry other
    throw s!"expected a ContractCode ledger entry, got {other}"

def contractSpecSection : String := "contractspecv0"

/-- The data of the first custom section with the interface in it. A module that does not
parse is noticed up to there. -/
def specSection : List (Except String Payload) → Result (Option (List UInt8))
  | [] => .ok none
  | .error _ :: _ => .error "failed parsing WASM module"
  | .ok (.customSection name data) :: rest =>
    if name = contractSpecSection then .ok (some data) else specSection rest
  | .ok .other :: rest => specSection rest

def readSpecEntriesFromWasm (p : Platform) (wasm : List UInt8) : Result (List ScSpecEntry) := do
  let data ← okOr (← specSection (p.parseWasm wasm))
    (s!"WASM module has no `{contractSpecSection}` custom section; it may not be a Soroban contract, " ++
      "or was built without contract metadata")
  (p.specEntriesFromXdr data).mapError fun e => s!"failed decoding contract spec entries: {e}"

/-- What is done on a cache miss, before the cache is written. -/
def fetchSpec (p : Platform) (key : String) : AsyncResult String ContractSpec := do
  let wasm ← fetchWasmByHash p key
  let entries ← ofResult (readSpecEntriesFromWasm p wasm)
  return .fromEntries entries

def readCache (key : String) : Async (Option ContractSpec) := perform (Op.readCache key)

def writeCache (key : String) (spec : ContractSpec) : Async Unit := perform (Op.writeCache key spec)

/-- Fetch, or return from cache, the parsed interface for a WASM hash. -/
def getOrFetchSpec (p : Platform) (wasmHashHex : String) : AsyncResult String ContractSpec := do
  let key := normalizeHash p wasmHashHex
  let _ ← ofResult (parseWasmHash p key)
  match ← liftExcept (readCache key) with
  | some spec => return spec
  | none =>
    let spec ← fetchSpec p key
    liftExcept (writeCache key spec)
    return spec

end SorobanProxy
