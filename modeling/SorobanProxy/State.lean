import SorobanProxy.ContractSource
import SorobanProxy.TxBuild

/-! The configuration that an instance starts with, the state that its requests share, and
the startup classification of the contract's functions. -/
namespace SorobanProxy

open Library
open Library.Prog (perform ofResult liftExcept)

structure Config where
  rpcUrl : String
  networkPassphrase : String
  bindAddr : String
  requestTimeoutSecs : UInt64
  /-- The contract that this instance serves, by the hash of its WASM. -/
  contractWasmHash : String
  /-- The deployed instance that calls are sent to. -/
  contractId : String

/-- `env` has the variables that are set to text, those of a local `.env` included. -/
def Config.fromEnv (p : Platform) (env : String → Option String) : Result Config := do
  let rpcUrl ← okOr (env "SOROBAN_RPC_URL")
    "SOROBAN_RPC_URL must be set (e.g. https://soroban-testnet.stellar.org)"
  let networkPassphrase ← okOr (env "SOROBAN_NETWORK_PASSPHRASE")
    "SOROBAN_NETWORK_PASSPHRASE must be set (e.g. 'Test SDF Network ; September 2015')"
  let bindAddr := (env "BIND_ADDR").getD "0.0.0.0:8080"
  let requestTimeoutSecs := ((env "REQUEST_TIMEOUT_SECS").bind fun v => (parseU64 v).toOption).getD 30
  let wasmHash ← okOr (env "CONTRACT_WASM_HASH")
    "CONTRACT_WASM_HASH must be set to the hex-encoded WASM hash to serve"
  let contractWasmHash := normalizeHash p wasmHash
  let _ ← (parseWasmHash p contractWasmHash).mapError fun _ => "CONTRACT_WASM_HASH is invalid"
  let id ← okOr (env "CONTRACT_ID") "CONTRACT_ID must be set to the deployed contract's C... address"
  let contractId := trim id
  let _ ← okOr (p.contractFromString contractId) "CONTRACT_ID is invalid: expected a C... strkey"
  return { rpcUrl, networkPassphrase, bindAddr, requestTimeoutSecs, contractWasmHash, contractId }

/-- The part of the state that is fixed at startup. -/
structure AppState where
  rpc : RpcClient
  networkPassphrase : String
  contractWasmHash : String
  contractId : String

def AppState.new (config : Config) (http : HttpClient) : AppState where
  rpc := .new config.rpcUrl http
  networkPassphrase := config.networkPassphrase
  contractWasmHash := config.contractWasmHash
  contractId := config.contractId

/-- The state that `main` makes of the configuration. -/
def mainState (config : Config) : AppState :=
  let http : HttpClient := { timeoutSecs := config.requestTimeoutSecs }
  .new config http

/-- The part behind locks. -/
structure Shared where
  specCache : OrdMap String ContractSpec
  /-- `true` for a function that is called by GET; empty until startup has filled it. -/
  functionMethods : OrdMap String Bool

def Shared.new : Shared := ⟨.empty,.empty⟩

def readMethods : Async (OrdMap String Bool) := perform Op.readMethods

def writeMethods (methods : OrdMap String Bool) : Async Unit := perform (Op.writeMethods methods)

/-- The entry of a function, POST for a name that has none. -/
def usesGet (methods : OrdMap String Bool) (functionName : String) : Bool :=
  (methods.get functionName).getD false

def shouldUseGet (functionName : String) : Async Bool := do
  return usesGet (← readMethods) functionName

def probeSeqNum : Int64 := 1

/-- An address that belongs to no funded account. -/
def probeSourceAccount (p : Platform) : String :=
  p.publicKeyToString (p.sha256 (utf8 "soroban-api-proxy:startup-probe-account"))

def probeNoArgFunction (p : Platform) (contractId probeAccount name : String) : AsyncResult String Bool := do
  let unsigned ← ofResult (buildUnsignedInvokeTx p probeAccount probeSeqNum contractId name [])
  let unsignedB64 ← ofResult (envelopeToBase64 p unsigned)
  let simResp ← RpcClient.simulateTransaction p unsignedB64
  let sim ← ofResult (parseSimulation p simResp)
  return sim.sorobanData.resources.footprint.readWrite.isEmpty

/-- Whether one function is called by GET. -/
def classifyFunction (p : Platform) (contractId probeAccount : String) (f : ScSpecFunctionV0) : Async Bool :=
  if f.inputs ≠ [] then return false
  else do
    match ← (probeNoArgFunction p contractId probeAccount f.name.toUtf8StringLossy).run with
    | .ok readOnly => return readOnly
    | .error _ => return false

/-- The turns of the loop from some functions on. -/
def classifyFrom (p : Platform) (contractId probeAccount : String) (methods : OrdMap String Bool) :
    List ScSpecFunctionV0 → Async (OrdMap String Bool)
  | [] => return methods
  | f :: rest => do
    let readOnly ← classifyFunction p contractId probeAccount f
    classifyFrom p contractId probeAccount (methods.insert f.name.toUtf8StringLossy readOnly) rest

def classifyFunctions (p : Platform) (contractId : String) (spec : ContractSpec) : Async (OrdMap String Bool) :=
  classifyFrom p contractId (probeSourceAccount p) .empty spec.functions

/-- What `main` does between the configuration and listening. -/
def startup (p : Platform) (state : AppState) : AsyncResult String Unit := do
  let spec ← getOrFetchSpec p state.contractWasmHash
  let methods ← liftExcept (classifyFunctions p state.contractId spec)
  liftExcept (writeMethods methods)

end SorobanProxy
