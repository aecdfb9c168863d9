import SorobanProxy.State

/-! The HTTP handlers: what each request does, and the errors it answers with. -/
namespace SorobanProxy

open Library
open Library.Prog (perform ofResult liftExcept mapError)

inductive AppError where
  | badRequest (message : String)
  | notFound (message : String)
  | methodNotAllowed (message : String)
  | upstream (message : String)
  | internal (message : String)
  deriving DecidableEq

/-- The HTTP status and body of an error. -/
def AppError.intoResponse : AppError → Nat × Value
  | .badRequest message => (400, error message)
  | .notFound message => (404, error message)
  | .methodNotAllowed message => (405, error message)
  | .upstream message => (502, error message)
  | .internal message => (500, error message)
where
  error (message : String) : Value := .obj [("error", .str message)]

abbrev AppResult := AsyncResult AppError

/-- `str::contains`. -/
def contains (s fragment : String) : Bool := s.toList.tails.any fragment.toList.isPrefixOf

def classifyLookupErr (msg : String) : AppError :=
  if contains msg "must be exactly 32 bytes" || contains msg "must be hex-encoded" then .badRequest msg
  else if contains msg "no contract WASM found" then .notFound msg
  else if contains msg "no `contractspecv0`" then .badRequest msg
  else .upstream msg

def health : AppResult Value := pure (.obj [("status", .str "ok")])

def getNetwork (p : Platform) : AppResult Value := mapError (RpcClient.getNetwork p) .upstream

/-- The lookup that every handler of the interface starts with. -/
def lookupSpec (p : Platform) (state : AppState) : AppResult ContractSpec :=
  mapError (getOrFetchSpec p state.contractWasmHash) classifyLookupErr

def getSpec (p : Platform) (state : AppState) : AppResult Value := do
  let spec ← lookupSpec p state
  return spec.toJson

/-- A function of the listing, with the method it is called by. -/
def functionListing (methods : OrdMap String Bool) (f : ScSpecFunctionV0) : Value :=
  let httpMethod := if usesGet methods f.name.toUtf8StringLossy then "GET" else "POST"
  match functionToJson f with
  | .object members => .object (Entries.insert "http_method" (.str httpMethod) members)
  | other => other -- unreachable: `functionToJson` gives an object

def getFunctions (p : Platform) (state : AppState) : AppResult Value := do
  let spec ← lookupSpec p state
  let methods ← liftExcept readMethods
  return .array (spec.functions.map (functionListing methods))

def headerSourceAccount : String := "x-source-account"
def headerSign : String := "x-sign"
def headerSecretKey : String := "x-secret-key"

/-- Header values by their lowercase name; a value need not be text. -/
abbrev HeaderMap := List (String × List UInt8)

/-- `HeaderValue::to_str`: visible ASCII and tabs only. -/
def headerToStr (value : List UInt8) : Option String :=
  if value.all fun b => (32 ≤ b ∧ b < 127) ∨ b = 9 then some (.ofList (value.map fun b => Char.ofNat b.toNat))
  else none

def headerStr (headers : HeaderMap) (name : String) : Except AppError (Option String) :=
  match headers.lookup name with
  | some v =>
    match headerToStr v with
    | some s => .ok (some s)
    | none => .error (.badRequest s!"header `{name}` is not valid UTF-8")
  | none => .ok none

/-- JSON where the text is JSON, else the text itself as a string. -/
def queryValueToJson (p : Platform) (raw : String) : Value := (p.valueFromStr raw).getD (.string raw)

/-- `str::eq_ignore_ascii_case`. -/
def eqIgnoreAsciiCase (a b : String) : Bool := a.toList.map Char.toLower == b.toList.map Char.toLower

structure CommonHeaders where
  sourceAccount : String
  sign : Bool
  secretKey : Option String

def readCommonHeaders (headers : HeaderMap) : Except AppError CommonHeaders := do
  let sourceAccount ← okOr (← headerStr headers headerSourceAccount)
    (.badRequest s!"missing required header `{headerSourceAccount}`")
  let sign := (← headerStr headers headerSign).any fun v => eqIgnoreAsciiCase v "true" || v == "1"
  let secretKey ← headerStr headers headerSecretKey
  return { sourceAccount, sign, secretKey }

/-- One call of a contract function, as the two invoke handlers read it. -/
structure InvokeRequest where
  functionName : String
  args : OrdMap String Value
  sourceAccount : String
  sign : Bool
  secretKey : Option String
  isGet : Bool

/-- The method gate. -/
def methodGate (functionName : String) (funcSpec : ScSpecFunctionV0) (isGet useGet : Bool) :
    Except AppError Unit :=
  if isGet ∧ ¬useGet then
    let reason := if funcSpec.inputs ≠ [] then "it takes arguments" else "it changes contract state"
    .error (.methodNotAllowed
      s!"function `{functionName}` must be called with POST ({reason}); use POST instead of GET")
  else if ¬isGet ∧ useGet then
    .error (.methodNotAllowed
      s!"function `{functionName}` takes no arguments and is read-only; call it with GET instead of POST")
  else .ok ()

/-- The argument loop: a missing argument is converted as null. -/
def convertArgs (p : Platform) (spec : ContractSpec) (args : OrdMap String Value)
    (inputs : List ScSpecFunctionInputV0) : Except AppError (List ScVal) :=
  inputs.mapM fun input =>
    let pname := input.name.toUtf8StringLossy
    let jv := (args.get pname).getD .null
    (jsonToScval p.toCrates spec jv input.type).mapError fun e => .badRequest s!"argument `{pname}`: {e}"

def simulatedNote : String :=
  s!"Sign this XDR yourself and submit it (e.g. via sendTransaction), or resend this request with a " ++
    s!"`{headerSign}: true` header and a `{headerSecretKey}` header to have the proxy sign and submit it on your behalf."

/-- The answer to an unsigned request. -/
def simulatedResponse (p : Platform) (state : AppState) (sim : SimulationOutcome) (transactionXdr : String) :
    Value :=
  let readWrite := sim.sorobanData.resources.footprint.readWrite
  .obj [
    ("status", .str "simulated"),
    ("network_passphrase", .str state.networkPassphrase),
    ("simulated_result", sim.resultJson.getD .null),
    ("min_resource_fee", .str (toString sim.minResourceFee.toInt)),
    ("read_write", .array (readWrite.map (ledgerKeyToJson p.toCrates))),
    ("transaction_xdr", .str transactionXdr),
    ("note", .str simulatedNote),
    ("simulation", sim.raw)]

/-- The turns of the polling loop that are left: the first reply with a status other than
NOT_FOUND. -/
def pollTransaction (p : Platform) (hash : String) : Nat → AppResult (Option Value)
  | 0 => return none
  | turns + 1 => do
    liftExcept (perform (Op.sleep 1000))
    let getResp ← mapError (RpcClient.getTransaction p hash) .upstream
    if (getResp.getStr "status").getD "NOT_FOUND" = "NOT_FOUND" then pollTransaction p hash turns
    else return some getResp

def pollTurns : Nat := 30

/-- The contract's return value in a final reply, wherever the RPC version puts it. -/
def returnValue (p : Platform) (getResp : Value) : Option ScVal :=
  let top := (getResp.getStr "returnValue").bind fun b64 => (p.scvalFromBase64 b64).toOption
  match top with
  | some v => some v
  | none => (getResp.getStr "resultMetaXdr").bind fun b64 => (extractReturnValue p b64).toOption.join

/-- The answer to a signed request. -/
def submittedResponse (p : Platform) (hash : String) (getResp : Value) : Value := .obj [
  ("status", .str ((getResp.getStr "status").getD "UNKNOWN")),
  ("hash", .str hash),
  ("return_value", ((returnValue p getResp).map (scvalToJson p.toCrates)).getD .null),
  ("raw", getResp)]

/-- From sending the signed transaction on. -/
def submit (p : Platform) (signedB64 : String) : AppResult Value := do
  let sendResp ← mapError (RpcClient.sendTransaction p signedB64) .upstream
  if (sendResp.getStr "status").getD "UNKNOWN" = "ERROR" then
    let text := p.valueToString sendResp
    throw (.badRequest s!"network rejected the transaction: {text}")
  else
    let hash ← ofResult (okOr (sendResp.getStr "hash") (.upstream "sendTransaction response had no hash"))
    match ← pollTransaction p hash pollTurns with
    | some getResp => return submittedResponse p hash getResp
    | none => throw (.upstream
      s!"timed out waiting for transaction {hash} to be included in a ledger; it may still confirm later, check getTransaction manually")

/-- From the assembled transaction on. -/
def respond (p : Platform) (state : AppState) (req : InvokeRequest) (sim : SimulationOutcome)
    (assembled : TransactionEnvelope) : AppResult Value :=
  if ¬req.sign then do
    let transactionXdr ← ofResult ((envelopeToBase64 p assembled).mapError .internal)
    return simulatedResponse p state sim transactionXdr
  else do
    let secretKey ← ofResult (okOr req.secretKey
      (.badRequest s!"header `{headerSecretKey}` is required when `{headerSign}: true`"))
    let signed ← ofResult ((signTransaction p assembled state.networkPassphrase secretKey).mapError .badRequest)
    let signedB64 ← ofResult ((envelopeToBase64 p signed).mapError .internal)
    submit p signedB64

/-- From the next sequence number on. -/
def buildAndRespond (p : Platform) (state : AppState) (req : InvokeRequest) (scvals : List ScVal)
    (nextSeq : Int64) : AppResult Value := do
  let unsigned ← ofResult ((buildUnsignedInvokeTx p req.sourceAccount nextSeq state.contractId
    req.functionName scvals).mapError .badRequest)
  let unsignedB64 ← ofResult ((envelopeToBase64 p unsigned).mapError .internal)
  let simResp ← mapError (RpcClient.simulateTransaction p unsignedB64) .upstream
  let sim ← ofResult ((parseSimulation p simResp).mapError .badRequest)
  let assembled ← ofResult ((assembleTransaction p unsigned sim).mapError .internal)
  respond p state req sim assembled

def invokeInner (p : Platform) (state : AppState) (req : InvokeRequest) : AppResult Value := do
  let spec ← lookupSpec p state
  let functionName := req.functionName
  let funcSpec ← ofResult (okOr (spec.function functionName)
    (.notFound s!"contract has no function `{functionName}`"))
  let useGet ← liftExcept (shouldUseGet functionName)
  ofResult (methodGate functionName funcSpec req.isGet useGet)
  let scvals ← ofResult (convertArgs p spec req.args funcSpec.inputs)
  let nextSeq ← mapError (fetchNextSequenceNumber p req.sourceAccount) .badRequest
  buildAndRespond p state req scvals nextSeq

/-- `query` has distinct names, in any order. -/
def invokeGet (p : Platform) (state : AppState) (functionName : String) (query : OrdMap String String)
    (headers : HeaderMap) : AppResult Value := do
  let common ← ofResult (readCommonHeaders headers)
  let args := query.mapValues (queryValueToJson p)
  invokeInner p state { common with functionName, args, isGet := true }

def invokePost (p : Platform) (state : AppState) (functionName : String) (headers : HeaderMap)
    (args : OrdMap String Value) : AppResult Value := do
  let common ← ofResult (readCommonHeaders headers)
  invokeInner p state { common with functionName, args, isGet := false }

end SorobanProxy
