import SorobanProxy.Handlers
import SorobanProxy.Call

/-! The trace of one request to `invokeInner`: what it has done when it simulates, sends and
polls, and what it knows then. The trace is exact, so everything that may happen between
two steps is in it. -/
namespace SorobanProxy

open Library
open RpcClient (keysParams transactionParams hashParams)

variable (p : Platform) (state : AppState) (req : InvokeRequest)

/-- The trace of a lookup that gave a spec. -/
inductive SpecLookup (wasmHashHex : String) : Events → ContractSpec → Prop where
  | cached : parseWasmHash p (normalizeHash p wasmHashHex) = .ok wasmHash →
      SpecLookup wasmHashHex [⟨.readCache (normalizeHash p wasmHashHex),some spec⟩] spec
  | fetched : parseWasmHash p (normalizeHash p wasmHashHex) = .ok wasmHash →
      p.ledgerKeyToBase64 (.contractCode wasmHash) = .ok keyB64 → EntryData p reply (.contractCode code) →
      readSpecEntriesFromWasm p code = .ok entries →
      SpecLookup wasmHashHex [
        ⟨.readCache (normalizeHash p wasmHashHex),none⟩,
        ⟨.post "getLedgerEntries" (keysParams [keyB64]),reply⟩,
        ⟨.writeCache (normalizeHash p wasmHashHex) (.fromEntries entries),()⟩] (.fromEntries entries)

/-- The addition ends: it wraps, unless the build profile checks it and it would. -/
def Increments (seqNum next : Int64) : Prop :=
  ¬(p.overflowChecks ∧ seqNum = Int64.maxValue) ∧ next = seqNum + 1

/-- What a request has found when its transaction is assembled. -/
structure Preparation where
  lookup : Events
  spec : ContractSpec
  func : ScSpecFunctionV0
  methods : OrdMap String Bool
  accountKey : String
  accountReply : HttpReply
  call : Call
  unsigned : String
  simReply : HttpReply
  sim : SimulationOutcome
  fee : UInt32
  auth : List SorobanAuthorizationEntry

namespace Preparation

def beforeSimulation (x : Preparation) : Events := x.lookup ++ [
  ⟨.readMethods,x.methods⟩,
  ⟨.post "getLedgerEntries" (keysParams [x.accountKey]),x.accountReply⟩]

def trace (x : Preparation) : Events := x.beforeSimulation ++ [
  ⟨.post "simulateTransaction" (transactionParams x.unsigned),x.simReply⟩]

def assembled (x : Preparation) : Transaction := x.call.transaction x.fee (.v1 x.sim.sorobanData) x.auth

/-- The call is the requested one. Nothing here reads the reply of the simulation. -/
structure Requested (x : Preparation) : Prop where
  lookup : SpecLookup p state.contractWasmHash x.lookup x.spec
  function : x.spec.function req.functionName = some x.func
  gate : methodGate req.functionName x.func req.isGet (usesGet x.methods req.functionName) = .ok ()
  args : List.Forall₂ (fun input v => jsonToScval p.toCrates x.spec
    ((req.args.get input.name.toUtf8StringLossy).getD .null) input.type = .ok v) x.func.inputs x.call.args
  arity : x.call.args.length ≤ u32Max
  source : p.publicKeyFromString req.sourceAccount = some x.call.source
  accountKey : p.ledgerKeyToBase64 (.account x.call.source) = .ok x.accountKey
  seqNum : ∃ seqNum, EntryData p x.accountReply (.account seqNum) ∧ Increments p seqNum x.call.seqNum
  contract : p.contractFromString state.contractId = some x.call.contract
  symbol : p.stringFromStr 32 req.functionName = some x.call.function
  unsigned : p.envelopeToBase64 x.call.unsigned = .ok x.unsigned

/-- The simulation was accepted, and fills the three open parts of the transaction. -/
structure Simulated (x : Preparation) : Prop where
  answered : replyResult p "simulateTransaction" x.simReply = .ok x.sim.raw
  parsed : parseSimulation p x.sim.raw = .ok x.sim
  noError : x.sim.raw.get "error" = none
  noRestore : x.sim.raw.get "restorePreamble" = none
  data : ∃ b64, x.sim.raw.get "transactionData" = some (.string b64) ∧
    p.sorobanDataFromBase64 b64 = .ok x.sim.sorobanData
  resourceFee : ∃ fee, x.sim.raw.get "minResourceFee" = some (.string fee) ∧
    parseI64 fee = .ok x.sim.minResourceFee
  nonneg : 0 ≤ x.sim.minResourceFee.toInt
  fee : (x.fee.toNat : Int) = x.sim.minResourceFee.toInt + 100
  auth : List.Forall₂ (fun b64 entry => p.authorizationFromBase64 b64 = .ok entry) x.sim.authB64 x.auth
  auths : x.auth.length ≤ u32Max

structure Valid (x : Preparation) : Prop where
  requested : x.Requested p state req
  simulated : x.Simulated p

end Preparation

/-- A signed form of a prepared transaction. -/
structure Submission where
  secretKey : String
  seed : Bytes32
  signature : DecoratedSignature
  envelope : String

structure Submission.Valid (x : Preparation) (s : Submission) : Prop where
  sign : req.sign = true
  secretKey : req.secretKey = some s.secretKey
  seed : p.seedFromString s.secretKey = some s.seed
  signature : Signed p state.networkPassphrase s.seed x.assembled s.signature
  envelope : p.envelopeToBase64 (.tx ⟨x.assembled,[s.signature]⟩) = .ok s.envelope

/-- A history that ends with an accepted submission, and the hash it answered. -/
def Sent (history : Events) (hash : String) : Prop :=
  ∃ (x : Preparation) (s : Submission) (reply : HttpReply) (resp : Value),
    x.Valid p state req ∧ s.Valid p state req x ∧
    replyResult p "sendTransaction" reply = .ok resp ∧ resp.getStr "status" ≠ some "ERROR" ∧
    resp.getStr "hash" = some hash ∧
    history = x.trace ++ [⟨.post "sendTransaction" (transactionParams s.envelope),reply⟩]

/-- The status of a polling reply, NOT_FOUND where it is missing or not text. -/
def pollStatus (resp : Value) : String := (resp.getStr "status").getD "NOT_FOUND"

/-- A reply that polling goes on after. -/
def NotFound (reply : HttpReply) : Prop :=
  ∃ resp, replyResult p "getTransaction" reply = .ok resp ∧ pollStatus resp = "NOT_FOUND"

/-- Turns of the polling loop with these replies. -/
def polls (hash : String) (replies : List HttpReply) : Events :=
  replies.flatMap fun reply => [⟨.sleep 1000,()⟩, ⟨.post "getTransaction" (hashParams hash),reply⟩]

/-- What a request does to the shared state: it looks its interface up, and caches what it
did not find. -/
def Accesses (wasmHashHex : String) (history : Events) : Op → Prop
  | .readCache key => key = normalizeHash p wasmHashHex
  | .writeCache key _ => key = normalizeHash p wasmHashHex ∧ ⟨.readCache key,none⟩ ∈ history
  | .writeMethods _ => False
  | _ => True

/-- What holds where an operation is issued. -/
def Allowed (history : Events) : Op → Prop
  | .post method params =>
    (method = "sendTransaction" → ∃ (x : Preparation) (s : Submission), x.Valid p state req ∧
      s.Valid p state req x ∧ history = x.trace ∧ params = transactionParams s.envelope) ∧
    (method = "getTransaction" → ∃ sent hash replies, Sent p state req sent hash ∧
      (∀ reply ∈ replies, NotFound p reply) ∧ replies.length < pollTurns ∧
      history = sent ++ polls hash replies ++ [⟨.sleep 1000,()⟩] ∧ params = hashParams hash)
  | o => Accesses p state.contractWasmHash history o

/-- Any error but the one of the method gate. -/
def AppError.Other : AppError → Prop
  | .methodNotAllowed _ => False
  | _ => True

/-- The method gate refused the request. -/
def Refused (history : Events) (e : AppError) : Prop :=
  ∃ lookup spec func methods, SpecLookup p state.contractWasmHash lookup spec ∧
    spec.function req.functionName = some func ∧
    methodGate req.functionName func req.isGet (usesGet methods req.functionName) = .error e ∧
    history = lookup ++ [⟨.readMethods,methods⟩]

/-- What holds where a response is returned. -/
def Finished (history : Events) : Except AppError Value → Prop
  | .error e => e.Other ∨ Refused p state req history e
  | .ok response =>
    (req.sign = false ∧ ∃ (x : Preparation) (b64 : String), x.Valid p state req ∧ history = x.trace ∧
      p.envelopeToBase64 (.tx ⟨x.assembled,[]⟩) = .ok b64 ∧ response = simulatedResponse p state x.sim b64) ∨
    ∃ (sent : Events) (hash : String) (replies : List HttpReply) (reply : HttpReply) (resp : Value),
      Sent p state req sent hash ∧ (∀ earlier ∈ replies, NotFound p earlier) ∧
      replyResult p "getTransaction" reply = .ok resp ∧ pollStatus resp ≠ "NOT_FOUND" ∧
      history = sent ++ polls hash (replies ++ [reply]) ∧ response = submittedResponse p hash resp

/-- An operation that neither sends a transaction nor asks for one, and leaves the shared
state alone but for reading the classification. -/
def Op.Quiet : Op → Prop
  | .post method _ => method ≠ "sendTransaction" ∧ method ≠ "getTransaction"
  | .sleep _ | .readMethods | .panic _ => True
  | .readCache _ | .writeCache _ _ | .writeMethods _ => False

variable {p state req}

theorem Op.Quiet.allowed {history : Events} {o : Op} (quiet : o.Quiet) : Allowed p state req history o := by
  cases o with
  | post method params => exact ⟨fun send => absurd send quiet.1,fun ask => absurd ask quiet.2⟩
  | sleep | readMethods | panic => trivial
  | readCache | writeCache | writeMethods => exact quiet.elim

theorem okOr_other {α : Type} {x : Option α} {fallback e : AppError} (failed : okOr x fallback = .error e)
    (other : fallback.Other) : e.Other := by
  cases x with
  | some a => cases failed
  | none =>
    obtain rfl := Except.error.inj failed
    exact other

theorem mapError_other {α : Type} {result : Result α} {translate : String → AppError} {e : AppError}
    (failed : result.mapError translate = .error e) (other : ∀ message, (translate message).Other) : e.Other := by
  obtain ⟨message,_,rfl⟩ := mapError_eq_error_iff.mp failed
  exact other message

theorem classifyLookupErr_other (message : String) : (classifyLookupErr message).Other := by
  unfold classifyLookupErr
  split_ifs <;> trivial

theorem convertArgs_other {spec : ContractSpec} {args : OrdMap String Value} {inputs : List ScSpecFunctionInputV0}
    {e : AppError} (failed : convertArgs p spec args inputs = .error e) : e.Other := by
  obtain ⟨_,_,failed⟩ := exists_of_mapM_eq_error failed
  exact mapError_other failed fun _ => trivial

theorem finished_of_mapError {α : Type} {history : Events} {result : Result α} {translate : String → AppError}
    {e : AppError} (other : ∀ message, (translate message).Other) (failed : result.mapError translate = .error e) :
    Finished p state req history (.error e) := .inl (mapError_other failed other)

theorem convertArgs_eq_ok_iff {spec : ContractSpec} {args : OrdMap String Value}
    {inputs : List ScSpecFunctionInputV0} {vs : List ScVal} : convertArgs p spec args inputs = .ok vs ↔
    List.Forall₂ (fun input v => jsonToScval p.toCrates spec
      ((args.get input.name.toUtf8StringLossy).getD .null) input.type = .ok v) inputs vs := by
  simp only [convertArgs, mapM_eq_ok_iff, mapError_eq_ok_iff]

/-- The gate lets one method through, by the entry of the function's name. -/
theorem methodGate_ok_iff {name : String} {f : ScSpecFunctionV0} {isGet useGet : Bool} :
    methodGate name f isGet useGet = .ok () ↔ isGet = useGet := by
  cases isGet <;> cases useGet <;> simp [methodGate]

theorem methodGate_refused_iff {name : String} {f : ScSpecFunctionV0} {isGet useGet : Bool} :
    (∃ message, methodGate name f isGet useGet = .error (.methodNotAllowed message)) ↔ isGet ≠ useGet := by
  cases isGet <;> cases useGet <;> simp [methodGate]

section Stages

-- One rule for each stage, over any discipline that leaves quiet operations alone.
variable {rely : (o : Op) → Resp o → Prop} {allowed : Events → Op → Prop} {history : Events}
  (quiet : ∀ h (o : Op), o.Quiet → allowed h o)
include quiet

theorem nextSequence_holds {seqNum : Int64} :
    Prog.Holds rely allowed (fun h next => h = history ∧ Increments p seqNum next) history
      (nextSequence p seqNum) := by
  unfold nextSequence
  split_ifs with overflow
  · exact ⟨quiet _ _ trivial,fun never _ => nomatch never⟩
  · exact ⟨rfl,overflow,rfl⟩

theorem fetchNextSequenceNumber_holds {sourceAccount : String} :
    Prog.Holds rely allowed (fun h result => ∀ next, result = .ok next →
      ∃ source keyB64, ∃ reply : HttpReply, p.publicKeyFromString sourceAccount = some source ∧
        p.ledgerKeyToBase64 (.account source) = .ok keyB64 ∧
        (∃ seqNum, EntryData p reply (.account seqNum) ∧ Increments p seqNum next) ∧
        h = history ++ [⟨.post "getLedgerEntries" (keysParams [keyB64]),reply⟩]) history
      (fetchNextSequenceNumber p sourceAccount).run := by
  refine .ofResult_bind (fun _ _ => nofun) fun source sourceOk => ?_
  refine .ofResult_bind (fun _ _ => nofun) fun keyB64 keyOk => ?_
  refine .bind (firstLedgerEntry_holds (quiet _ _ ⟨by decide,by decide⟩)) (fun _ _ _ => nofun) ?_
  rintro _ data ⟨reply,rfl,entry⟩
  cases data with
  | account seqNum =>
    refine Prog.holds_liftExcept.mpr ((nextSequence_holds quiet).imp ?_)
    rintro _ _ ⟨rfl,incremented⟩ next same
    obtain rfl := Except.ok.inj same
    exact ⟨source,keyB64,reply,okOr_eq_ok_iff.mp sourceOk,keyOk,⟨seqNum,entry _ rfl,incremented⟩,rfl⟩
  | contractCode code => exact nofun
  | other debug => exact nofun

theorem fetchWasmByHash_holds {wasmHashHex : String} :
    Prog.Holds rely allowed (fun h result => ∀ code, result = .ok code →
      ∃ wasmHash keyB64, ∃ reply : HttpReply, parseWasmHash p wasmHashHex = .ok wasmHash ∧
        p.ledgerKeyToBase64 (.contractCode wasmHash) = .ok keyB64 ∧
        EntryData p reply (.contractCode code) ∧
        h = history ++ [⟨.post "getLedgerEntries" (keysParams [keyB64]),reply⟩]) history
      (fetchWasmByHash p wasmHashHex).run := by
  refine .ofResult_bind (fun _ _ => nofun) fun wasmHash hashOk => ?_
  refine .ofResult_bind (fun _ _ => nofun) fun keyB64 keyOk => ?_
  refine .bind (firstLedgerEntry_holds (quiet _ _ ⟨by decide,by decide⟩)) (fun _ _ _ => nofun) ?_
  rintro _ data ⟨reply,rfl,entry⟩
  cases data with
  | contractCode code =>
    intro _ same
    obtain rfl := Except.ok.inj same
    exact ⟨wasmHash,keyB64,reply,hashOk,mapError_eq_ok_iff.mp keyOk,entry _ rfl,rfl⟩
  | account seqNum => exact nofun
  | other debug => exact nofun

theorem fetchSpec_holds {key : String} :
    Prog.Holds rely allowed (fun h result => ∀ spec, result = .ok spec →
      ∃ wasmHash keyB64 code entries, ∃ reply : HttpReply, parseWasmHash p key = .ok wasmHash ∧
        p.ledgerKeyToBase64 (.contractCode wasmHash) = .ok keyB64 ∧
        EntryData p reply (.contractCode code) ∧ readSpecEntriesFromWasm p code = .ok entries ∧
        spec = .fromEntries entries ∧
        h = history ++ [⟨.post "getLedgerEntries" (keysParams [keyB64]),reply⟩]) history
      (fetchSpec p key).run := by
  refine .bind (fetchWasmByHash_holds quiet) (fun _ _ _ => nofun) fun h code fetched => ?_
  obtain ⟨wasmHash,keyB64,reply,hashOk,keyOk,entry,rfl⟩ := fetched code rfl
  refine .ofResult_bind (fun _ _ => nofun) fun entries entriesOk => ?_
  intro _ same
  obtain rfl := Except.ok.inj same
  exact ⟨wasmHash,keyB64,code,entries,reply,hashOk,keyOk,entry,entriesOk,rfl,rfl⟩

theorem getOrFetchSpec_holds {wasmHashHex : String}
    (access : ∀ h (o : Op), (∀ method params, o ≠ .post method params) → Accesses p wasmHashHex h o → allowed h o) :
    Prog.Holds rely allowed (fun h result => ∀ spec, result = .ok spec →
      ∃ lookup, SpecLookup p wasmHashHex lookup spec ∧ h = history ++ lookup) history
      (getOrFetchSpec p wasmHashHex).run := by
  refine .ofResult_bind (fun _ _ => nofun) fun wasmHash hashOk => ?_
  refine .lift_bind (.perform (access _ _ nofun rfl)) ?_
  rintro _ found rfl
  cases found with
  | some spec =>
    intro _ same
    obtain rfl := Except.ok.inj same
    exact ⟨_,.cached hashOk,rfl⟩
  | none =>
    refine .bind (fetchSpec_holds quiet) (fun _ _ _ => nofun) fun h spec fetched => ?_
    obtain ⟨wasmHash,keyB64,code,entries,reply,hashOk,keyOk,entry,entriesOk,rfl,rfl⟩ := fetched spec rfl
    refine .lift_bind (.perform (access _ _ nofun ⟨rfl,by simp⟩)) ?_
    rintro _ _ rfl _ same
    obtain rfl := Except.ok.inj same
    exact ⟨_,.fetched hashOk keyOk entry entriesOk,by simp⟩

theorem shouldUseGet_holds {functionName : String} :
    Prog.Holds rely allowed (fun h useGet => ∃ methods, useGet = usesGet methods functionName ∧
      h = history ++ [⟨.readMethods,methods⟩]) history (shouldUseGet functionName) := by
  refine Prog.holds_bind.mpr ((Prog.Holds.perform (quiet _ Op.readMethods trivial)).imp ?_)
  rintro _ methods rfl
  exact ⟨methods,rfl,rfl⟩

end Stages

theorem pollTransaction_holds {history sent : Events} {hash : String} {turns : Nat} (replies : List HttpReply)
    (accepted : Sent p state req sent hash) (earlier : ∀ reply ∈ replies, NotFound p reply)
    (counted : replies.length + turns = pollTurns) (trace : history = sent ++ polls hash replies) :
    Prog.Holds rely (Allowed p state req) (fun h result => (∀ e, result = .error e → e.Other) ∧
      ∀ resp, result = .ok (some resp) →
        ∃ (replies : List HttpReply) (reply : HttpReply), (∀ earlier ∈ replies, NotFound p earlier) ∧
          replyResult p "getTransaction" reply = .ok resp ∧ pollStatus resp ≠ "NOT_FOUND" ∧
          h = sent ++ polls hash (replies ++ [reply])) history
      (pollTransaction p hash turns).run := by
  induction turns generalizing history replies with
  | zero => exact ⟨nofun,nofun⟩
  | succ turns ih =>
    refine .lift_bind (.perform trivial) ?_
    rintro _ _ rfl
    refine .mapError_bind (call_holds ⟨fun other => absurd other (by decide),fun _ => ?_⟩) ?_ ?_
    · exact ⟨sent,hash,replies,accepted,earlier,by omega,by rw [trace],rfl⟩
    · intro _ message _
      constructor
      · intro e same
        obtain rfl := Except.error.inj same
        trivial
      · exact nofun
    · rintro _ resp ⟨reply,rfl,answered⟩
      have extended : history ++ [⟨Op.sleep 1000,()⟩] ++ [⟨.post "getTransaction" (hashParams hash),reply⟩] =
          sent ++ polls hash (replies ++ [reply]) := by
        simp [trace,polls]
      rw [extended]
      split_ifs with waiting
      · refine ih _ ?_ (by simp; omega) rfl
        intro other member
        rcases List.mem_append.mp member with before | last
        · exact earlier other before
        · rw [List.mem_singleton.mp last]
          exact ⟨resp,answered.symm,waiting⟩
      · refine ⟨nofun,fun _ same => ?_⟩
        obtain rfl := Option.some.inj (Except.ok.inj same)
        exact ⟨replies,reply,earlier,answered.symm,waiting,rfl⟩

theorem submit_holds {x : Preparation} {s : Submission} (prepared : x.Valid p state req)
    (signed : s.Valid p state req x) :
    Prog.Holds rely (Allowed p state req) (Finished p state req) x.trace (submit p s.envelope).run := by
  refine .mapError_bind (call_holds ⟨fun _ => ⟨x,s,prepared,signed,rfl,rfl⟩,fun other => absurd other (by decide)⟩)
    (fun _ _ _ => .inl trivial) ?_
  rintro _ sendResp ⟨reply,rfl,answered⟩
  split_ifs with rejected
  · exact .inl trivial
  · refine .ofResult_bind (fun _ failed => .inl (okOr_other failed trivial)) fun hash hashOk => ?_
    have accepted : Sent p state req (x.trace ++ [⟨.post "sendTransaction" (transactionParams s.envelope),reply⟩])
        hash := by
      refine ⟨x,s,reply,sendResp,prepared,signed,answered.symm,?_,?_,rfl⟩
      · intro error
        exact rejected (by rw [error]; rfl)
      · exact okOr_eq_ok_iff.mp hashOk
    refine .bind (pollTransaction_holds [] accepted (by simp) (by simp) (by simp [polls]))
      (fun _ e final => .inl (final.1 e rfl)) ?_
    intro h outcome final
    cases outcome with
    | none => exact .inl trivial
    | some getResp =>
      obtain ⟨replies,reply,earlier,answered,status,trace⟩ := final.2 getResp rfl
      exact .inr ⟨_,hash,replies,reply,getResp,accepted,earlier,answered,status,trace,rfl⟩

theorem respond_holds {x : Preparation} (prepared : x.Valid p state req) :
    Prog.Holds rely (Allowed p state req) (Finished p state req) x.trace
      (respond p state req x.sim (.tx ⟨x.assembled,[]⟩)).run := by
  unfold respond
  split_ifs with sign
  · refine .ofResult_bind (fun _ failed => .inl (okOr_other failed trivial)) fun secretKey keyOk => ?_
    refine .ofResult_bind (fun _ => finished_of_mapError fun _ => trivial) fun signed signedOk => ?_
    obtain ⟨seed,signature,seedOk,signatureOk,rfl⟩ :=
      signTransaction_eq_ok_iff.mp (mapError_eq_ok_iff.mp signedOk)
    refine .ofResult_bind (fun _ => finished_of_mapError fun _ => trivial) fun b64 encoded => ?_
    have encoded := envelopeToBase64_eq_ok_iff.mp (mapError_eq_ok_iff.mp encoded)
    exact submit_holds (s := ⟨secretKey,seed,signature,b64⟩) prepared
      ⟨sign,okOr_eq_ok_iff.mp keyOk,seedOk,signatureOk,encoded⟩
  · refine .ofResult_bind (fun _ => finished_of_mapError fun _ => trivial) fun b64 encoded => ?_
    have encoded := envelopeToBase64_eq_ok_iff.mp (mapError_eq_ok_iff.mp encoded)
    exact .inl ⟨Bool.eq_false_iff.mpr sign,x,b64,prepared,rfl,encoded,rfl⟩

/-- Every operation of a request is allowed where it is issued, and its response is one
of the two. -/
theorem invokeInner_holds :
    Prog.Holds rely (Allowed p state req) (Finished p state req) [] (invokeInner p state req).run := by
  have quiet (h : Events) (o : Op) (harmless : o.Quiet) : Allowed p state req h o := harmless.allowed
  have access (h : Events) (o : Op) (local' : ∀ method params, o ≠ .post method params)
      (access : Accesses p state.contractWasmHash h o) : Allowed p state req h o := by
    cases o with
    | post method params => exact absurd rfl (local' method params)
    | _ => exact access
  refine .mapError_bind (getOrFetchSpec_holds quiet access) (fun _ _ _ => .inl (classifyLookupErr_other _))
    fun lookup spec found => ?_
  obtain ⟨_,lookupOk,rfl⟩ := found spec rfl
  refine .ofResult_bind (fun _ failed => .inl (okOr_other failed trivial)) fun func funcOk => ?_
  refine .lift_bind (shouldUseGet_holds quiet) ?_
  rintro _ _ ⟨methods,rfl,rfl⟩
  refine .ofResult_bind (fun _ refused => .inr ⟨lookup,spec,func,methods,lookupOk,?_,refused,rfl⟩) fun _ gate => ?_
  · exact okOr_eq_ok_iff.mp funcOk
  refine .ofResult_bind (fun _ failed => .inl (convertArgs_other failed)) fun args argsOk => ?_
  refine .mapError_bind (fetchNextSequenceNumber_holds quiet) (fun _ _ _ => .inl trivial) fun h next fetched => ?_
  obtain ⟨source,accountKey,accountReply,sourceOk,accountKeyOk,seqNum,rfl⟩ := fetched next rfl
  refine .ofResult_bind (fun _ => finished_of_mapError fun _ => trivial) fun unsigned built => ?_
  obtain ⟨call,callSource,rfl,contractOk,symbolOk,rfl,arity,rfl⟩ :=
    buildUnsignedInvokeTx_eq_ok_iff.mp (mapError_eq_ok_iff.mp built)
  refine .ofResult_bind (fun _ => finished_of_mapError fun _ => trivial) fun unsignedB64 encoded => ?_
  refine .mapError_bind (call_holds (quiet _ _ ⟨by decide,by decide⟩)) (fun _ _ _ => .inl trivial) ?_
  rintro _ simResp ⟨simReply,rfl,answered⟩
  refine .ofResult_bind (fun _ => finished_of_mapError fun _ => trivial) fun sim simOk => ?_
  refine .ofResult_bind (fun _ => finished_of_mapError fun _ => trivial) fun assembled assembledOk => ?_
  obtain ⟨fee,auth,feeOk,nonneg,authOk,auths,rfl⟩ :=
    assembleTransaction_eq_ok_iff.mp (mapError_eq_ok_iff.mp assembledOk)
  have parsed := mapError_eq_ok_iff.mp simOk
  obtain ⟨noError,noRestore,data,resourceFee,_,_,rfl⟩ := parseSimulation_eq_ok_iff.mp parsed
  obtain rfl : source = call.source := Option.some.inj (sourceOk.symm.trans callSource)
  let x : Preparation := ⟨lookup,spec,func,methods,accountKey,accountReply,call,unsignedB64,simReply,sim,fee,auth⟩
  have requested : x.Requested p state req :=
    ⟨lookupOk,okOr_eq_ok_iff.mp funcOk,gate,convertArgs_eq_ok_iff.mp argsOk,arity,callSource,accountKeyOk,seqNum,
      contractOk,symbolOk,envelopeToBase64_eq_ok_iff.mp (mapError_eq_ok_iff.mp encoded)⟩
  have simulated : x.Simulated p :=
    ⟨answered.symm,parsed,noError,noRestore,data,resourceFee,nonneg,feeOk,authOk,auths⟩
  have trace : lookup ++ [⟨.readMethods,methods⟩] ++
      [⟨.post "getLedgerEntries" (keysParams [accountKey]),accountReply⟩] ++
      [⟨.post "simulateTransaction" (transactionParams unsignedB64),simReply⟩] = x.trace := by
    simp [x,Preparation.trace,Preparation.beforeSimulation]
  rw [trace]
  exact respond_holds ⟨requested,simulated⟩

theorem call_only {P : Op → Prop} {method : String} {params : Value} (kind : P (.post method params)) :
    Prog.Only P (RpcClient.call p method params).run := ⟨kind,fun _ => trivial⟩

section Only

variable {P : Op → Prop}

theorem pollTransaction_only (poll : ∀ params, P (.post "getTransaction" params))
    (sleep : ∀ millis, P (.sleep millis)) {hash : String} {turns : Nat} :
    Prog.Only P (pollTransaction p hash turns).run := by
  induction turns with
  | zero => trivial
  | succ turns ih =>
    apply Prog.Only.bind_except (.liftExcept (.perform (sleep _)))
    intro _
    apply Prog.Only.bind_except (.mapError (call_only (poll _)))
    intro getResp
    split_ifs
    · exact ih
    · trivial

variable (ask : ∀ params, P (.post "getLedgerEntries" params))
include ask

theorem firstLedgerEntry_only {keyB64 missing undecodable : String} :
    Prog.Only P (firstLedgerEntry p keyB64 missing undecodable).run := by
  refine .bind_except (call_only (ask _)) fun resp => ?_
  exact .ofResult_bind fun entry _ => .ofResult_bind fun entryXdr _ => trivial

theorem fetchSpec_only {key : String} : Prog.Only P (fetchSpec p key).run := by
  refine .bind_except ?_ fun code => .ofResult_bind fun entries _ => trivial
  refine .ofResult_bind fun wasmHash _ => .ofResult_bind fun keyB64 _ => ?_
  refine .bind_except (firstLedgerEntry_only ask) fun data => ?_
  cases data <;> trivial

theorem lookupSpec_only (read : ∀ key, P (.readCache key)) (write : ∀ key spec, P (.writeCache key spec)) :
    Prog.Only P (lookupSpec p state).run := by
  refine .mapError (.ofResult_bind fun wasmHash _ => .bind_except (.liftExcept (.perform (read _))) fun found => ?_)
  cases found with
  | some spec => trivial
  | none =>
    refine .bind_except (fetchSpec_only ask) fun spec => ?_
    exact .bind_except (.liftExcept (.perform (write _ _))) fun _ => trivial

theorem fetchNextSequenceNumber_only {sourceAccount : String} (panic : P (.panic addOverflow)) :
    Prog.Only P (fetchNextSequenceNumber p sourceAccount).run := by
  refine .ofResult_bind fun pk _ => .ofResult_bind fun keyB64 _ => ?_
  refine .bind_except (firstLedgerEntry_only ask) fun data => ?_
  cases data with
  | account seqNum =>
    apply Prog.Only.liftExcept
    unfold nextSequence
    split_ifs
    · exact ⟨panic,nofun⟩
    · trivial
  | contractCode code => trivial
  | other debug => trivial

end Only

/-- One answered operation, and what is computed from its answer. -/
theorem runs_op (o : Op) (f : Resp o → α) (r : Resp o) :
    Prog.Runs (Prog.perform o >>= fun r => Prog.pure (f r)) [⟨o,r⟩] (f r) := .step r .refl

theorem runs_call {method : String} {params : Value} {reply : HttpReply} {result : Result Value}
    (answered : replyResult p method reply = result) :
    Prog.Runs (RpcClient.call p method params).run [⟨.post method params,reply⟩] result := by
  rw [← answered]
  exact runs_op (.post method params) (replyResult p method) reply

theorem runs_firstLedgerEntry {keyB64 missing undecodable : String} {reply : HttpReply} {data : LedgerEntryData}
    (entry : EntryData p reply data) : Prog.Runs (firstLedgerEntry p keyB64 missing undecodable).run
      [⟨.post "getLedgerEntries" (keysParams [keyB64]),reply⟩] (.ok data) := by
  obtain ⟨resp,entry,b64,answered,first,xdr,decoded⟩ := entry
  refine .cons_bind (runs_call answered) ?_
  refine .ofResult_bind (okOr_eq_ok_iff.mpr first) (.ofResult_bind (Value.asStrField_eq_ok_iff.mpr xdr) ?_)
  rw [decoded]
  exact .refl

theorem runs_fetchNextSequenceNumber {sourceAccount keyB64 : String} {source : Bytes32} {reply : HttpReply}
    {next : Int64} (sourceOk : p.publicKeyFromString sourceAccount = some source)
    (keyOk : p.ledgerKeyToBase64 (.account source) = .ok keyB64)
    (seqNum : ∃ seqNum, EntryData p reply (.account seqNum) ∧ Increments p seqNum next) :
    Prog.Runs (fetchNextSequenceNumber p sourceAccount).run
      [⟨.post "getLedgerEntries" (keysParams [keyB64]),reply⟩] (.ok next) := by
  obtain ⟨seqNum,entry,fits,rfl⟩ := seqNum
  refine .ofResult_bind (okOr_eq_ok_iff.mpr sourceOk) (.ofResult_bind keyOk ?_)
  refine .cons_bind (runs_firstLedgerEntry entry) (Prog.runs_liftExcept ?_)
  rw [nextSequence,if_neg fits]
  exact .refl

theorem runs_getOrFetchSpec {wasmHashHex : String} {lookup : Events} {spec : ContractSpec}
    (found : SpecLookup p wasmHashHex lookup spec) :
    Prog.Runs (getOrFetchSpec p wasmHashHex).run lookup (.ok spec) := by
  have read := runs_op (.readCache (normalizeHash p wasmHashHex)) id
  cases found with
  | cached hashOk => exact .ofResult_bind hashOk (.cons_bind (Prog.runs_liftExcept (read (some spec))) .refl)
  | @fetched _ _ _ _ entries hashOk keyOk entry entriesOk =>
    have written := runs_op (.writeCache (normalizeHash p wasmHashHex) (.fromEntries entries)) id ()
    refine .ofResult_bind hashOk (.cons_bind (Prog.runs_liftExcept (read none)) ?_)
    refine .cons_bind (.cons_bind ?_ (.ofResult_bind entriesOk .refl))
      (.cons_bind (Prog.runs_liftExcept written) .refl)
    refine .ofResult_bind hashOk (.ofResult_bind (mapError_eq_ok_iff.mpr keyOk) ?_)
    exact .cons_bind (runs_firstLedgerEntry entry) .refl

/-- Every valid preparation is what some run of the request comes to. -/
theorem invokeInner_prepares {x : Preparation} (valid : x.Valid p state req) :
    Prog.Steps (invokeInner p state req).run x.trace (respond p state req x.sim (.tx ⟨x.assembled,[]⟩)).run := by
  obtain ⟨requested,simulated⟩ := valid
  have read := runs_op .readMethods (fun methods => usesGet methods req.functionName) x.methods
  rw [Preparation.trace,Preparation.beforeSimulation,List.append_assoc]
  refine .bind_except (Prog.runs_mapError (runs_getOrFetchSpec requested.lookup)) ?_
  refine .ofResult_bind (okOr_eq_ok_iff.mpr requested.function) ?_
  refine .cons_bind (Prog.runs_liftExcept read) ?_
  refine .ofResult_bind requested.gate (.ofResult_bind (convertArgs_eq_ok_iff.mpr requested.args) ?_)
  refine .cons_bind (Prog.runs_mapError
    (runs_fetchNextSequenceNumber requested.source requested.accountKey requested.seqNum)) ?_
  refine .ofResult_bind (mapError_eq_ok_iff.mpr (buildUnsignedInvokeTx_eq_ok_iff.mpr
    ⟨x.call,requested.source,rfl,requested.contract,requested.symbol,rfl,requested.arity,rfl⟩)) ?_
  refine .ofResult_bind (mapError_eq_ok_iff.mpr (envelopeToBase64_eq_ok_iff.mpr requested.unsigned)) ?_
  refine .cons_bind (Prog.runs_mapError (runs_call simulated.answered)) ?_
  refine .ofResult_bind (mapError_eq_ok_iff.mpr simulated.parsed) ?_
  refine .ofResult_bind (mapError_eq_ok_iff.mpr (assembleTransaction_eq_ok_iff.mpr
    ⟨x.fee,x.auth,simulated.fee,simulated.nonneg,simulated.auth,simulated.auths,rfl⟩)) ?_
  exact .refl

theorem invokeInner_returns {x : Preparation} {b64 : String} (valid : x.Valid p state req)
    (unsigned : req.sign = false) (encoded : p.envelopeToBase64 (.tx ⟨x.assembled,[]⟩) = .ok b64) :
    Prog.Runs (invokeInner p state req).run x.trace (.ok (simulatedResponse p state x.sim b64)) := by
  rw [← List.append_nil x.trace]
  apply (invokeInner_prepares valid).append
  rw [respond,if_pos (by simp [unsigned])]
  exact .ofResult_bind (mapError_eq_ok_iff.mpr (envelopeToBase64_eq_ok_iff.mpr encoded)) .refl

/-- Every valid submission is what some run of the request comes to. -/
theorem invokeInner_submits {x : Preparation} {s : Submission} (valid : x.Valid p state req)
    (signed : s.Valid p state req x) :
    Prog.Steps (invokeInner p state req).run x.trace (submit p s.envelope).run := by
  rw [← List.append_nil x.trace]
  apply (invokeInner_prepares valid).append
  rw [respond,if_neg (by simp [signed.sign])]
  refine .ofResult_bind (okOr_eq_ok_iff.mpr signed.secretKey) ?_
  refine .ofResult_bind (mapError_eq_ok_iff.mpr (signTransaction_eq_ok_iff.mpr
    ⟨s.seed,s.signature,signed.seed,signed.signature,rfl⟩)) ?_
  refine .ofResult_bind (mapError_eq_ok_iff.mpr (envelopeToBase64_eq_ok_iff.mpr signed.envelope)) ?_
  exact .refl

theorem invokeInner_sends {x : Preparation} {s : Submission} (valid : x.Valid p state req)
    (signed : s.Valid p state req x) : Prog.Issues (invokeInner p state req).run x.trace
      (.post "sendTransaction" (transactionParams s.envelope)) := by
  rw [← List.append_nil x.trace]
  exact (invokeInner_submits valid signed).issues Prog.issues_op

end SorobanProxy
