import SorobanProxy.Rpc
import SorobanProxy.Render

/-! Building, simulating, assembling and signing the one transaction that a call becomes. -/
namespace SorobanProxy

open Library
open Library.Prog (perform ofResult liftExcept)

/-- The part of the fee on top of what the simulation says. -/
def inclusionFeeStroops : UInt32 := 100

/-- The message of an addition that overflows. -/
def addOverflow : String := "attempt to add with overflow"

/-- `seq_num + 1` on `i64`, by the build profile: it panics or wraps on the last value. -/
def nextSequence (p : Platform) (seqNum : Int64) : Async Int64 :=
  if p.overflowChecks ∧ seqNum = Int64.maxValue then do
    let never ← perform (.panic addOverflow)
    nomatch never
  else return seqNum + 1

def fetchNextSequenceNumber (p : Platform) (sourceAccount : String) : AsyncResult String Int64 := do
  let pk ← ofResult (okOr (p.publicKeyFromString sourceAccount)
    s!"invalid source_account `{sourceAccount}`: expected a G... strkey")
  let keyB64 ← ofResult (p.ledgerKeyToBase64 (.account pk))
  let data ← firstLedgerEntry p keyB64
    s!"source account `{sourceAccount}` was not found on-chain (has it been funded?)"
    "failed decoding Account ledger entry"
  match data with
  | .account seqNum => liftExcept (nextSequence p seqNum)
  | other =>
    let other := p.debugLedgerEntry other
    throw s!"expected an Account ledger entry, got {other}"

def buildUnsignedInvokeTx (p : Platform) (sourceAccount : String) (nextSeq : Int64)
    (contractId functionName : String) (args : List ScVal) : Result TransactionEnvelope := do
  let sourcePk ← okOr (p.publicKeyFromString sourceAccount)
    s!"invalid source_account `{sourceAccount}`: expected a G... strkey"
  let contract ← okOr (p.contractFromString contractId)
    s!"invalid contract_id `{contractId}`: expected a C... strkey"
  let functionNameSym ← okOr (p.stringFromStr 32 functionName)
    s!"function name `{functionName}` is invalid or too long"
  let args ← vecTryInto args "too many arguments"
  let invokeArgs : InvokeContractArgs := {
    contractAddress := .contract contract
    functionName := functionNameSym
    args }
  let op : Operation := {
    sourceAccount := none
    body := .invokeHostFunction { hostFunction := .invokeContract invokeArgs, auth := [] } }
  let tx : Transaction := {
    sourceAccount := .ed25519 sourcePk
    fee := inclusionFeeStroops
    seqNum := nextSeq
    cond := .none
    memo := .none
    operations := [op]
    ext := .v0 }
  return .tx { tx, signatures := [] }

structure SimulationOutcome where
  sorobanData : SorobanTransactionData
  minResourceFee : Int64
  resultJson : Option Value
  authB64 : List String
  raw : Value

/-- The return value of the first result, where it has one. -/
def simulatedResult (p : Platform) (first : Option Value) : Result (Option ScVal) :=
  match first.bind (Value.getStr "xdr") with
  | some b64 => ((p.scvalFromBase64 b64).mapError fun _ => "failed decoding simulated return value").map some
  | none => .ok none

/-- The authorization entries of the first result; an element that is not text is dropped. -/
def simulatedAuth (first : Option Value) : List String :=
  let auth := (first.bind fun r => (r.get "auth").bind Value.asArray).getD []
  auth.filterMap Value.asStr

def parseSimulation (p : Platform) (resp : Value) : Result SimulationOutcome :=
  match resp.get "error" with
  | some err =>
    let msg := err.asStr.getD (p.valueToString err)
    .error s!"simulation failed: {msg}"
  | none =>
  if (resp.get "restorePreamble").isSome then
    .error ("this call requires restoring archived contract state before it can run; automatic restore is not " ++
      "implemented by this proxy yet")
  else do
    let sorobanData ← (p.sorobanDataFromBase64 (← resp.asStrField p "transactionData")).mapError fun _ =>
      "failed decoding simulated SorobanTransactionData"
    let minResourceFee ← (parseI64 (← resp.asStrField p "minResourceFee")).mapError fun _ =>
      "minResourceFee was not a valid integer"
    let first := (resp.fieldArray p "results").head?
    let result ← simulatedResult p first
    return {
      sorobanData
      minResourceFee
      resultJson := result.map (scvalToJson p.toCrates)
      authB64 := simulatedAuth first
      raw := resp }

/-- `u32::try_from` an `i64`. -/
def u32TryFromI64 (n : Int64) : Option UInt32 :=
  if 0 ≤ n.toInt ∧ n.toInt < 2 ^ 32 then some (.ofNat n.toInt.toNat) else none

/-- `u32::checked_add`. -/
def checkedAdd (a b : UInt32) : Option UInt32 := if a.toNat + b.toNat < 2 ^ 32 then some (a + b) else none

/-- The first operation of a transaction, with the simulated authorization entries. -/
def setAuth (operations : List Operation) (auths : List SorobanAuthorizationEntry) :
    Result (List Operation) :=
  match operations with
  | [] => .error "built transaction unexpectedly has no operations"
  | op :: rest =>
    match op.body with
    | .invokeHostFunction invokeOp => do
      let auth ← vecTryInto auths "too many auth entries"
      return { op with body := .invokeHostFunction { invokeOp with auth } } :: rest
    | .other _ => .ok (op :: rest)

/-- Patches the unsigned transaction with the footprint, fee and authorization entries of
its simulation. -/
def assembleTransaction (p : Platform) (envelope : TransactionEnvelope) (sim : SimulationOutcome) :
    Result TransactionEnvelope :=
  match envelope with
  | .tx v1 => do
    let resourceFee ← okOr (u32TryFromI64 sim.minResourceFee) "simulated resource fee out of range"
    let fee ← okOr (checkedAdd resourceFee inclusionFeeStroops) "computed fee overflowed"
    let tx := { v1.tx with fee, ext := .v1 sim.sorobanData }
    if sim.authB64 = [] then return .tx { v1 with tx }
    else
      let auths ← sim.authB64.mapM fun b64 => (p.authorizationFromBase64 b64).mapError fun _ =>
        "failed decoding simulated authorization entry"
      let operations ← setAuth tx.operations auths
      return .tx { v1 with tx := { tx with operations } }
  | _ => .error "expected a v1 transaction envelope"

/-- The hash that a signature is over. -/
def signatureHash (p : Platform) (networkPassphrase : String) (tx : Transaction) : Result Bytes32 := do
  let networkId := p.sha256 (utf8 networkPassphrase)
  let payloadXdr ← (p.payloadToXdr { networkId, taggedTransaction := tx }).mapError fun _ =>
    "failed encoding transaction signature payload"
  return p.sha256 payloadXdr

/-- A signature with the last four bytes of the key that verifies it. -/
def decorate (p : Platform) (seed hash : Bytes32) : Result DecoratedSignature := do
  let hint := (p.verifyingKey seed).bytes.drop 28
  let signature ← okOr (BytesM.tryFrom 64 (p.sign seed hash).val) "signature encoding failed"
  return { hint, signature }

def signTransaction (p : Platform) (envelope : TransactionEnvelope) (networkPassphrase secretKey : String) :
    Result TransactionEnvelope :=
  match envelope with
  | .tx v1 => do
    let seed ← okOr (p.seedFromString secretKey) "invalid secret_key: expected an S... strkey"
    let txHash ← signatureHash p networkPassphrase v1.tx
    let decorated ← decorate p seed txHash
    return .tx { v1 with signatures := [decorated] }
  | _ => .error "expected a v1 transaction envelope"

def envelopeToBase64 (p : Platform) (envelope : TransactionEnvelope) : Result String :=
  (p.envelopeToBase64 envelope).mapError fun _ => "failed encoding transaction envelope"

/-- The return value in the Soroban part of a transaction's metadata. -/
def extractReturnValue (p : Platform) (resultMetaXdrB64 : String) : Result (Option ScVal) := do
  let txMeta ← (p.metaFromBase64 resultMetaXdrB64).mapError fun _ => "failed decoding resultMetaXdr"
  return match txMeta with
    | .v3 sorobanMeta => sorobanMeta
    | .v4 sorobanMeta => sorobanMeta.join
    | .other => none

end SorobanProxy
