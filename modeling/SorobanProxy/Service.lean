import SorobanProxy.Lifetime
import SorobanProxy.Library.Known

/-! The server as a service without state. After startup every lock answers one thing for
good, so a request is planned from the interface, the classification and its own text, and
what is left of it is what it does over the network. -/
namespace SorobanProxy

open Library
open Library.Prog (ofResult liftExcept mapError)

variable (p : Platform) (state : AppState) (spec : ContractSpec) (methods : OrdMap String Bool)

/-- The ledger key under which the sequence number of an account is asked for. -/
def accountKey (sourceAccount : String) : Result String := do
  let pk ← okOr (p.publicKeyFromString sourceAccount)
    s!"invalid source_account `{sourceAccount}`: expected a G... strkey"
  p.ledgerKeyToBase64 (.account pk)

def readSequence (sourceAccount keyB64 : String) : AsyncResult String Int64 := do
  let data ← firstLedgerEntry p keyB64
    s!"source account `{sourceAccount}` was not found on-chain (has it been funded?)"
    "failed decoding Account ledger entry"
  match data with
  | .account seqNum => liftExcept (nextSequence p seqNum)
  | other =>
    let other := p.debugLedgerEntry other
    throw s!"expected an Account ledger entry, got {other}"

/-- What a request comes to before anything is asked of the network. -/
inductive Plan where
  | answer (response : Value)
  | network
  | call (req : InvokeRequest) (args : List ScVal) (keyB64 : String)

/-- The checks of a call that need no network, in their order. -/
def admission (req : InvokeRequest) : Except AppError Plan := do
  let functionName := req.functionName
  let funcSpec ← okOr (spec.function functionName) (.notFound s!"contract has no function `{functionName}`")
  methodGate functionName funcSpec req.isGet (usesGet methods functionName)
  let args ← convertArgs p spec req.args funcSpec.inputs
  let keyB64 ← (accountKey p req.sourceAccount).mapError .badRequest
  return .call req args keyB64

def Request.plan : Request → Except AppError Plan
  | .health => .ok (.answer (.obj [("status", .str "ok")]))
  | .getNetwork => .ok .network
  | .getSpec => .ok (.answer spec.toJson)
  | .getFunctions => .ok (.answer (.array (spec.functions.map (functionListing methods))))
  | .invokeGet functionName query headers => do
    let common ← readCommonHeaders headers
    admission p spec methods { common with functionName, args := query.mapValues (queryValueToJson p), isGet := true }
  | .invokePost functionName headers args => do
    let common ← readCommonHeaders headers
    admission p spec methods { common with functionName, args, isGet := false }

/-- An admitted call, over the network. -/
def transact (req : InvokeRequest) (args : List ScVal) (keyB64 : String) : AppResult Value := do
  let nextSeq ← mapError (readSequence p req.sourceAccount keyB64) .badRequest
  buildAndRespond p state req args nextSeq

def Plan.carryOut : Plan → AppResult Value
  | .answer response => return response
  | .network => getNetwork p
  | .call req args keyB64 => transact p state req args keyB64

/-- A request of the service. -/
def Request.serve (request : Request) : AppResult Value := do
  let plan ← ofResult (request.plan p spec methods)
  plan.carryOut p state

/-- What the locks answer on a state. -/
def locks (a : Shared) : Known Resp
  | .readCache key => some (a.specCache.get key)
  | .readMethods => some a.functionMethods
  | .writeCache _ _ | .writeMethods _ => some ()
  | .post _ _ | .sleep _ | .panic _ => none

variable {p state spec methods}

/-- The checks as one condition. -/
theorem admission_ok_iff {req : InvokeRequest} {plan : Plan} :
    admission p spec methods req = .ok plan ↔ ∃ f args keyB64, spec.function req.functionName = some f ∧
      req.isGet = usesGet methods req.functionName ∧ convertArgs p spec req.args f.inputs = .ok args ∧
      accountKey p req.sourceAccount = .ok keyB64 ∧ plan = .call req args keyB64 := by
  simp only [admission, bind_eq_ok_iff, okOr_eq_ok_iff, mapError_eq_ok_iff, pure_eq_ok_iff]
  constructor
  · rintro ⟨f,found,_,gate,args,converted,keyB64,key,rfl⟩
    exact ⟨f,args,keyB64,found,methodGate_ok_iff.mp gate,converted,key,rfl⟩
  · rintro ⟨f,args,keyB64,found,gate,converted,key,rfl⟩
    exact ⟨f,found,(),methodGate_ok_iff.mpr gate,args,converted,keyB64,key,rfl⟩

section Locks

variable {a : Shared} {o : Op} {r : Resp o}

theorem fits_locks (possible : System.Possible Answers a o r) : (locks a).Fits o r := by
  obtain ⟨b,answer⟩ := possible
  intro known found
  cases answer with
  | post | sleep => cases found
  | _ => exact Option.some.inj found

theorem possible_of_locks (found : locks a o = some r) : System.Possible Answers a o r := by
  cases o with
  | readCache | readMethods | writeCache | writeMethods =>
    obtain rfl := Option.some.inj found
    exact ⟨_,by constructor⟩
  | post | sleep | panic => cases found

/-- No request changes the state that startup leaves, because its lookup finds the interface. -/
theorem fixed_of_kept (kept : Kept (normalizeHash p state.contractWasmHash) spec methods a) :
    System.Fixed Answers (fun request : Request => (request.handler p state).run) a := by
  intro request history o next steps reliable r b answer
  have holds : Prog.Holds (System.Possible Answers a) (Accesses p state.contractWasmHash) (fun _ _ => True) []
      (request.handler p state).run := request.handler_holds
  have access := holds.allowed_of_issues ⟨next,steps⟩ reliable
  cases answer with
  | writeCache =>
    obtain ⟨rfl,missed⟩ := access
    obtain ⟨_,answer⟩ := reliable _ missed
    have unknown := answer.of_readCache.1
    rw [kept.1] at unknown
    cases unknown
  | writeMethods => exact access.elim
  | _ => rfl

end Locks

section Only

-- The part of a call that is left asks nothing of the locks.
variable {P : Op → Prop}

theorem respond_network (send : ∀ params, P (.post "sendTransaction" params))
    (poll : ∀ params, P (.post "getTransaction" params)) (sleep : ∀ millis, P (.sleep millis)) {req : InvokeRequest}
    {sim : SimulationOutcome} {assembled : TransactionEnvelope} :
    Prog.Only P (respond p state req sim assembled).run := by
  unfold respond
  split_ifs
  · refine .ofResult_bind fun secretKey _ => .ofResult_bind fun signed _ => .ofResult_bind fun b64 _ => ?_
    refine .bind_except (.mapError (call_only (send _))) fun sendResp => ?_
    split_ifs
    · trivial
    · refine .ofResult_bind fun hash _ => .bind_except (pollTransaction_only poll sleep) fun found => ?_
      cases found <;> trivial
  · exact .ofResult_bind fun b64 _ => trivial

variable (post : ∀ method params, P (.post method params)) (sleep : ∀ millis, P (.sleep millis))
  (panic : P (.panic addOverflow))
include post

include panic in
theorem readSequence_network {sourceAccount keyB64 : String} :
    Prog.Only P (readSequence p sourceAccount keyB64).run := by
  refine .bind_except (firstLedgerEntry_only (post _)) fun data => ?_
  cases data with
  | account seqNum =>
    apply Prog.Only.liftExcept
    unfold nextSequence
    split_ifs
    · exact .bind (.perform panic) fun never => nomatch never
    · trivial
  | contractCode | other => trivial

include sleep in
theorem buildAndRespond_network {req : InvokeRequest} {args : List ScVal} {nextSeq : Int64} :
    Prog.Only P (buildAndRespond p state req args nextSeq).run := by
  refine .ofResult_bind fun unsigned _ => .ofResult_bind fun unsignedB64 _ => ?_
  refine .bind_except (.mapError (call_only (post _ _))) fun simResp => ?_
  exact .ofResult_bind fun sim _ => .ofResult_bind fun assembled _ =>
    respond_network (post _) (post _) sleep

include sleep panic in
theorem transact_network {req : InvokeRequest} {args : List ScVal} {keyB64 : String} :
    Prog.Only P (transact p state req args keyB64).run :=
  .bind_except (.mapError (readSequence_network post panic)) fun _ => buildAndRespond_network post sleep

include sleep panic in
theorem carryOut_network (plan : Plan) : Prog.Only P (plan.carryOut p state).run := by
  cases plan with
  | answer => trivial
  | network => exact .mapError (call_only (post _ _))
  | call => exact transact_network post sleep panic

end Only

section Handlers

variable {a : Shared} {wasmHash : Bytes32}
  (kept : Kept (normalizeHash p state.contractWasmHash) spec methods a)
  (hashOk : parseWasmHash p (normalizeHash p state.contractWasmHash) = .ok wasmHash)

theorem locks_network (state : AppState) (plan : Plan) :
    (plan.carryOut p state).run.given (locks a) = (plan.carryOut p state).run := by
  have panic : locks a (.panic addOverflow) = none := rfl
  exact Prog.given_of_only (carryOut_network (fun _ _ => rfl) (fun _ => rfl) panic plan)

theorem fetchNextSequenceNumber_eq {sourceAccount : String} : fetchNextSequenceNumber p sourceAccount =
    (ofResult (accountKey p sourceAccount) >>= fun keyB64 => readSequence p sourceAccount keyB64 :
      AsyncResult String Int64) := by
  rw [accountKey,Prog.ofResult_bind,bind_assoc]
  rfl

include kept hashOk

theorem lookupSpec_given : (lookupSpec p state).run.given (locks a) = .pure (.ok spec) := by
  have read : locks a (.readCache (normalizeHash p state.contractWasmHash)) = some (some spec) :=
    congrArg some kept.1
  rw [lookupSpec,getOrFetchSpec,hashOk]
  exact Prog.given_op_some read

theorem lookup_given {next : ContractSpec → AppResult Value} :
    (lookupSpec p state >>= next).run.given (locks a) = (next spec).run.given (locks a) := by
  rw [Prog.given_bind_except,lookupSpec_given kept hashOk]
  rfl

theorem invokeInner_given {req : InvokeRequest} : (invokeInner p state req).run.given (locks a) =
    (ofResult (admission p spec methods req) >>= fun plan => plan.carryOut p state).run := by
  have read : locks a .readMethods = some methods := congrArg some kept.2
  rw [invokeInner,lookup_given kept hashOk]
  simp only [admission, Prog.ofResult_bind, bind_assoc]
  refine Prog.given_ofResult_bind fun func _ => (Prog.given_op_some read).trans ?_
  refine Prog.given_ofResult_bind fun _ _ => Prog.given_ofResult_bind fun args _ => ?_
  rw [fetchNextSequenceNumber_eq]
  cases accountKey p req.sourceAccount with
  | error e => rfl
  | ok keyB64 => exact locks_network state (.call req args keyB64)

/-- What is left of a request is the service's part. -/
theorem handler_given (request : Request) : (request.handler p state).run.given (locks a) =
    (request.serve p state spec methods).run := by
  have read : locks a .readMethods = some methods := congrArg some kept.2
  cases request with
  | health => rfl
  | getNetwork => exact locks_network state .network
  | getSpec => exact lookup_given kept hashOk
  | getFunctions => exact (lookup_given kept hashOk).trans (Prog.given_op_some read)
  | invokeGet functionName query headers =>
    simp only [Request.handler, Request.serve, Request.plan, invokeGet, Prog.ofResult_bind, bind_assoc]
    exact Prog.given_ofResult_bind fun common _ => invokeInner_given kept hashOk
  | invokePost functionName headers args =>
    simp only [Request.handler, Request.serve, Request.plan, invokePost, Prog.ofResult_bind, bind_assoc]
    exact Prog.given_ofResult_bind fun common _ => invokeInner_given kept hashOk

end Handlers

abbrev Service := System Resp Unit Request (Except AppError Value)

/-- A state of the service. The network may answer anything. -/
def Service.Reachable (p : Platform) (state : AppState) (spec : ContractSpec) (methods : OrdMap String Bool)
    (s : Service) : Prop :=
  System.Reachable (System.Free fun _ _ => True) (fun request => (request.serve p state spec methods).run) () s

/-- A task of the server runs as its part of the service does. -/
theorem serve_of_reachable {a : Shared} {wasmHash : Bytes32} {s : Server}
    (kept : Kept (normalizeHash p state.contractWasmHash) spec methods a)
    (hashOk : parseWasmHash p (normalizeHash p state.contractWasmHash) = .ok wasmHash)
    (reach : Server.Reachable p state a s) {t : Task Resp Request (Except AppError Value)} (member : t ∈ s.tasks) :
    Prog.Steps (t.request.serve p state spec methods).run ((locks a).unknown t.history) (t.rest.given (locks a)) := by
  obtain ⟨-,ran⟩ := (System.reachable_iff (fixed_of_kept kept)).mp reach
  obtain ⟨steps,reliable⟩ := ran t member
  rw [← handler_given kept hashOk]
  exact steps.given fun e inside => fits_locks (reliable e inside)

/-- Requests have no influence on each other: the states that the server comes to are
those in which nothing behind the locks has changed and each request has run alone. -/
theorem requests_independent {events : Events} {initial : Shared} (started : Started p state events initial)
    (s : Server) : Server.Reachable p state initial s ↔ s.shared = initial ∧
      ∀ t ∈ s.tasks, Prog.Steps (t.request.handler p state).run t.history t.rest ∧
        Prog.Reliable (System.Possible Answers initial) t.history := by
  obtain ⟨_,_,_,_,_,_,_,kept⟩ := started.kept
  exact System.reachable_iff (fixed_of_kept kept)

theorem service_reachable_iff {a : Shared} {wasmHash : Bytes32}
    (kept : Kept (normalizeHash p state.contractWasmHash) spec methods a)
    (hashOk : parseWasmHash p (normalizeHash p state.contractWasmHash) = .ok wasmHash) (left : Service) :
    Service.Reachable p state spec methods left ↔ ∃ s, Server.Reachable p state a s ∧ s.given (locks a) = left := by
  have left_of (request : Request) := handler_given kept hashOk request
  have open_iff (o : Op) (r : Resp o) (missing : locks a o = none) : True ↔ System.Possible Answers a o r := by
    refine iff_of_true trivial ?_
    cases o with
    | post => exact ⟨_,.post r⟩
    | sleep => exact ⟨_,.sleep⟩
    | panic => exact r.elim
    | _ => cases missing
  rw [Service.Reachable,← funext left_of]
  exact System.reachable_given_iff open_iff (fixed_of_kept kept) (fun _ _ => fits_locks)
    fun _ _ => possible_of_locks

/-- The server is the service: its states are those of the service, with the answers of
the locks put in. -/
theorem server_refines_service {events : Events} {initial : Shared} (started : Started p state events initial) :
    ∃ spec methods, Kept (normalizeHash p state.contractWasmHash) spec methods initial ∧
      ∀ left : Service, Service.Reachable p state spec methods left ↔
        ∃ s, Server.Reachable p state initial s ∧ s.given (locks initial) = left := by
  obtain ⟨_,spec,_,_,found,_,_,kept⟩ := started.kept
  obtain ⟨_,hashOk⟩ := found.hashOk
  exact ⟨spec,_,kept,service_reachable_iff kept hashOk⟩

namespace Reference

def reset : Events := [⟨.post "getNetwork" (.obj []),HttpReply.transport "reset"⟩]

def listed : Events :=
  [⟨.readCache (normalizeHash platform wasmHashHex),some Reference.spec⟩,⟨.readMethods,pingMethods⟩]

/-- Two requests side by side: a reset connection, and the list of the functions. -/
def answering : Server := ⟨pingShared,[
  ⟨.getNetwork,reset,.pure (.error (.upstream "rpc transport error calling getNetwork: reset"))⟩,
  ⟨.getFunctions,listed,.pure (.ok (.array (Reference.spec.functions.map (functionListing pingMethods))))⟩]⟩

theorem getFunctions_listed : Prog.Runs (getFunctions platform Reference.state).run listed
    (.ok (.array (Reference.spec.functions.map (functionListing pingMethods)))) := by
  have looked : SpecLookup platform wasmHashHex _ Reference.spec := .cached parseWasmHash_known
  refine .cons_bind (Prog.runs_mapError (runs_getOrFetchSpec looked)) ?_
  have read : Prog.Runs readMethods [⟨.readMethods,pingMethods⟩] pingMethods := .step _ .refl
  exact .cons_bind (Prog.runs_liftExcept read) .refl

theorem listed_possible : Prog.Reliable (System.Possible Answers pingShared) listed := by
  have cached : pingShared.specCache.get (normalizeHash platform wasmHashHex) = some Reference.spec :=
    reference_cached pingMethods
  intro e member
  simp only [listed, List.mem_cons, List.not_mem_nil, or_false] at member
  rcases member with rfl | rfl
  · exact ⟨pingShared,cached ▸ .readCache⟩
  · exact ⟨pingShared,.readMethods⟩

theorem requests_independent_answering : Server.Reachable platform Reference.state pingShared answering := by
  refine (requests_independent ping_started answering).mpr ⟨rfl,?_⟩
  simp only [answering, List.forall_mem_cons]
  refine ⟨⟨.step _ .refl,?_⟩,⟨getFunctions_listed,listed_possible⟩,by simp⟩
  intro e member
  obtain rfl := List.mem_singleton.mp member
  exact ⟨pingShared,.post _⟩

end Reference

theorem server_refines_service_ping : ∃ spec methods,
    Kept (normalizeHash Reference.platform Reference.state.contractWasmHash) spec methods pingShared ∧
      ∀ left : Service, Service.Reachable Reference.platform Reference.state spec methods left ↔
        ∃ s, Server.Reachable Reference.platform Reference.state pingShared s ∧
          s.given (locks pingShared) = left := server_refines_service ping_started

end SorobanProxy
