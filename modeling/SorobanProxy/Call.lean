import SorobanProxy.TxBuild
import SorobanProxy.Library.Outcomes

/-! The call that a request asks for, and what building, simulating, assembling and signing
do with it. The three parts of its transaction that a simulation may set are parameters. -/
namespace SorobanProxy

open Library

@[ext] structure Call where
  source : Bytes32
  seqNum : Int64
  contract : Bytes32
  function : ScSymbol
  args : List ScVal

namespace Call

def operation (call : Call) (auth : List SorobanAuthorizationEntry) : Operation where
  sourceAccount := none
  body := .invokeHostFunction {
    hostFunction := .invokeContract {
      contractAddress := .contract call.contract
      functionName := call.function
      args := call.args }
    auth }

def transaction (call : Call) (fee : UInt32) (ext : TransactionExt) (auth : List SorobanAuthorizationEntry) :
    Transaction where
  sourceAccount := .ed25519 call.source
  fee
  seqNum := call.seqNum
  cond := .none
  memo := .none
  operations := [call.operation auth]
  ext

/-- The form that is simulated. -/
def unsigned (call : Call) : TransactionEnvelope := .tx ⟨call.transaction inclusionFeeStroops .v0 [],[]⟩

end Call

variable {p : Platform}

theorem buildUnsignedInvokeTx_eq_ok_iff {sourceAccount contractId functionName : String} {nextSeq : Int64}
    {args : List ScVal} {envelope : TransactionEnvelope} :
    buildUnsignedInvokeTx p sourceAccount nextSeq contractId functionName args = .ok envelope ↔
    ∃ call : Call, p.publicKeyFromString sourceAccount = some call.source ∧ call.seqNum = nextSeq ∧
      p.contractFromString contractId = some call.contract ∧
      p.stringFromStr 32 functionName = some call.function ∧ call.args = args ∧ args.length ≤ u32Max ∧
      envelope = call.unsigned := by
  simp only [buildUnsignedInvokeTx, bind_eq_ok_iff, okOr_eq_ok_iff, vecTryInto_eq_ok_iff, pure_eq_ok_iff]
  constructor
  · rintro ⟨source,sourceOk,contract,contractOk,function,functionOk,_,⟨fits,rfl⟩,rfl⟩
    exact ⟨⟨source,nextSeq,contract,function,args⟩,sourceOk,rfl,contractOk,functionOk,rfl,fits,rfl⟩
  · rintro ⟨call,sourceOk,rfl,contractOk,functionOk,rfl,fits,rfl⟩
    exact ⟨_,sourceOk,_,contractOk,_,functionOk,_,⟨fits,rfl⟩,rfl⟩

/-- An accepted reply is no error and asks for no restore; its two figures are text, and the
rest is read from the first of its results. -/
theorem parseSimulation_eq_ok_iff {resp : Value} {sim : SimulationOutcome} : parseSimulation p resp = .ok sim ↔
    resp.get "error" = none ∧ resp.get "restorePreamble" = none ∧
    (∃ b64, resp.get "transactionData" = some (.string b64) ∧ p.sorobanDataFromBase64 b64 = .ok sim.sorobanData) ∧
    (∃ fee, resp.get "minResourceFee" = some (.string fee) ∧ parseI64 fee = .ok sim.minResourceFee) ∧
    (∃ result, simulatedResult p (resp.fieldArray p "results").head? = .ok result ∧
      sim.resultJson = result.map (scvalToJson p.toCrates)) ∧
    sim.authB64 = simulatedAuth (resp.fieldArray p "results").head? ∧ sim.raw = resp := by
  unfold parseSimulation
  cases noError : resp.get "error" with
  | some err => simp
  | none =>
  cases noRestore : resp.get "restorePreamble" with
  | some preamble => simp
  | none =>
    simp only [Option.isSome_none, Bool.false_eq_true, if_false, bind_eq_ok_iff, mapError_eq_ok_iff,
      Value.asStrField_eq_ok_iff, pure_eq_ok_iff, true_and]
    constructor
    · rintro ⟨b64,data,sorobanData,decoded,text,fee,minResourceFee,parsed,result,read,rfl⟩
      exact ⟨⟨b64,data,decoded⟩,⟨text,fee,parsed⟩,⟨result,read,rfl⟩,rfl,rfl⟩
    · obtain ⟨sorobanData,minResourceFee,resultJson,authB64,raw⟩ := sim
      rintro ⟨⟨b64,data,decoded⟩,⟨text,fee,parsed⟩,⟨result,read,shown⟩,dropped,whole⟩
      dsimp only at shown dropped whole decoded parsed
      subst shown dropped whole
      exact ⟨b64,data,sorobanData,decoded,text,fee,minResourceFee,parsed,result,read,rfl⟩

theorem u32TryFromI64_eq_some_iff {n : Int64} {m : UInt32} :
    u32TryFromI64 n = some m ↔ (m.toNat : Int) = n.toInt := by
  unfold u32TryFromI64
  split_ifs with fits
  · have small : n.toInt.toNat < 2 ^ 32 := by omega
    rw [Option.some_inj,← UInt32.toNat_inj,UInt32.toNat_ofNat_of_lt' small]
    omega
  · have bound := m.toNat_lt
    simp only [false_iff]
    omega

theorem checkedAdd_eq_some_iff {a b m : UInt32} : checkedAdd a b = some m ↔ m.toNat = a.toNat + b.toNat := by
  unfold checkedAdd
  split_ifs with fits
  · rw [Option.some_inj,← UInt32.toNat_inj,UInt32.toNat_add,Nat.mod_eq_of_lt fits]
    exact eq_comm
  · have bound := m.toNat_lt
    simp only [false_iff]
    omega

theorem setAuth_eq_ok_iff {call : Call} {auths : List SorobanAuthorizationEntry} {operations : List Operation} :
    setAuth [call.operation []] auths = .ok operations ↔
      auths.length ≤ u32Max ∧ operations = [call.operation auths] := by
  simp only [setAuth, Call.operation, bind_eq_ok_iff, vecTryInto_eq_ok_iff, pure_eq_ok_iff]
  constructor
  · rintro ⟨_,⟨fits,rfl⟩,rfl⟩
    exact ⟨fits,rfl⟩
  · rintro ⟨fits,rfl⟩
    exact ⟨_,⟨fits,rfl⟩,rfl⟩

/-- Assembly sets the fee, the extension and the authorization of the operation, and nothing else. -/
theorem assembleTransaction_eq_ok_iff {call : Call} {sim : SimulationOutcome} {envelope : TransactionEnvelope} :
    assembleTransaction p call.unsigned sim = .ok envelope ↔
    ∃ (fee : UInt32) (auth : List SorobanAuthorizationEntry), (fee.toNat : Int) = sim.minResourceFee.toInt + 100 ∧
      0 ≤ sim.minResourceFee.toInt ∧
      List.Forall₂ (fun b64 entry => p.authorizationFromBase64 b64 = .ok entry) sim.authB64 auth ∧
      auth.length ≤ u32Max ∧ envelope = .tx ⟨call.transaction fee (.v1 sim.sorobanData) auth,[]⟩ := by
  simp only [assembleTransaction, Call.unsigned, bind_eq_ok_iff, okOr_eq_ok_iff, u32TryFromI64_eq_some_iff,
    checkedAdd_eq_some_iff]
  constructor
  · rintro ⟨resourceFee,exactFee,fee,added,assembled⟩
    have total : (fee.toNat : Int) = sim.minResourceFee.toInt + 100 := by
      rw [added,← exactFee]
      rfl
    refine ⟨fee,?_⟩
    split_ifs at assembled with noAuth
    · refine ⟨[],total,by omega,?_,Nat.zero_le _,(Except.ok.inj assembled).symm⟩
      rw [noAuth]
      exact .nil
    · simp only [bind_eq_ok_iff, mapM_eq_ok_iff, mapError_eq_ok_iff, pure_eq_ok_iff] at assembled
      obtain ⟨auths,decoded,operations,patched,rfl⟩ := assembled
      obtain ⟨fits,rfl⟩ := setAuth_eq_ok_iff.mp patched
      exact ⟨auths,total,by omega,decoded,fits,rfl⟩
  · rintro ⟨fee,auth,total,nonneg,decoded,fits,rfl⟩
    have bound := fee.toNat_lt
    have small : sim.minResourceFee.toInt.toNat < 2 ^ 32 := by omega
    refine ⟨.ofNat sim.minResourceFee.toInt.toNat,?_,fee,?_,?_⟩
    · rw [UInt32.toNat_ofNat_of_lt' small]
      omega
    · rw [UInt32.toNat_ofNat_of_lt' small,show inclusionFeeStroops.toNat = 100 from rfl]
      omega
    · split_ifs with noAuth
      · rw [noAuth] at decoded
        cases decoded
        rfl
      · simp only [bind_eq_ok_iff, mapM_eq_ok_iff, mapError_eq_ok_iff, pure_eq_ok_iff]
        exact ⟨auth,decoded,_,setAuth_eq_ok_iff.mpr ⟨fits,rfl⟩,rfl⟩

/-- The one signature that signing puts in: over the hash of that very transaction, with
the end of the verifying key as its hint. -/
def Signed (p : Platform) (networkPassphrase : String) (seed : Bytes32) (tx : Transaction)
    (decorated : DecoratedSignature) : Prop :=
  ∃ hash, signatureHash p networkPassphrase tx = .ok hash ∧ decorated.signature.bytes = p.sign seed hash ∧
    decorated.hint = (p.verifyingKey seed).bytes.drop 28

theorem signTransaction_eq_ok_iff {tx : Transaction} {networkPassphrase secretKey : String}
    {signatures : List DecoratedSignature} {envelope : TransactionEnvelope} :
    signTransaction p (.tx ⟨tx,signatures⟩) networkPassphrase secretKey = .ok envelope ↔
    ∃ seed decorated, p.seedFromString secretKey = some seed ∧ Signed p networkPassphrase seed tx decorated ∧
      envelope = .tx ⟨tx,[decorated]⟩ := by
  simp only [signTransaction, decorate, Signed, bind_eq_ok_iff, okOr_eq_ok_iff, BytesM.tryFrom_eq_some_iff,
    pure_eq_ok_iff]
  constructor
  · rintro ⟨seed,seedOk,hash,hashOk,_,⟨signature,signatureOk,rfl⟩,rfl⟩
    exact ⟨seed,_,seedOk,⟨hash,hashOk,signatureOk,rfl⟩,rfl⟩
  · rintro ⟨seed,⟨hint,signature⟩,seedOk,⟨hash,hashOk,signatureOk,hintOk⟩,rfl⟩
    exact ⟨seed,seedOk,hash,hashOk,_,⟨signature,signatureOk,by rw [← hintOk]⟩,rfl⟩

theorem envelopeToBase64_eq_ok_iff {envelope : TransactionEnvelope} {b64 : String} :
    envelopeToBase64 p envelope = .ok b64 ↔ p.envelopeToBase64 envelope = .ok b64 := mapError_eq_ok_iff

end SorobanProxy
