import SorobanProxy.Conversion
import SorobanProxy.Planning

/-! What the proxy can be brought to ask of the network: exactly the calls of the functions
of its interface on its contract, with values for the parameters that their types convert
to, and through the escape hatch any others. -/
namespace SorobanProxy

open Library
open RpcClient (keysParams transactionParams)

/-- A call of a function of the interface on the configured contract, for an account that a
header can name and with a sequence number that the network can give. -/
structure Callable (p : Platform) (state : AppState) (spec : ContractSpec) (call : Call) : Prop where
  function : ∃ name f, spec.function name = some f ∧ p.stringFromStr 32 name = some call.function ∧
    List.Forall₂ (fun input v => ∃ given, jsonToScval p.toCrates spec given input.type = .ok v) f.inputs call.args
  arity : call.args.length ≤ u32Max
  contract : p.contractFromString state.contractId = some call.contract
  source : ∃ value account, headerToStr value = some account ∧ p.publicKeyFromString account = some call.source
  accountKey : ∃ keyB64, p.ledgerKeyToBase64 (.account call.source) = .ok keyB64
  seqNum : ∃ (reply : HttpReply) (seqNum : Int64), EntryData p reply (.account seqNum) ∧
    Increments p seqNum call.seqNum

/-- The server can come to a state in which a request has simulated the envelope. -/
def CanSimulate (p : Platform) (state : AppState) (initial : Shared) (b64 : String) : Prop :=
  ∃ s, Server.Reachable p state initial s ∧ ∃ t ∈ s.tasks, ∃ reply : HttpReply,
    ⟨.post "simulateTransaction" (transactionParams b64),reply⟩ ∈ t.history

variable {p : Platform} {state : AppState} {spec : ContractSpec} {methods : OrdMap String Bool} {req : InvokeRequest}
  {args : List ScVal} {keyB64 : String}

theorem accountKey_ok_iff {sourceAccount : String} : accountKey p sourceAccount = .ok keyB64 ↔
    ∃ source, p.publicKeyFromString sourceAccount = some source ∧
      p.ledgerKeyToBase64 (.account source) = .ok keyB64 := by
  simp only [accountKey, bind_eq_ok_iff, okOr_eq_ok_iff]

theorem readSequence_holds {rely : (o : Op) → Resp o → Prop} {allowed : Events → Op → Prop} {history : Events}
    {sourceAccount : String} (ledger : ∀ h params, allowed h (.post "getLedgerEntries" params))
    (panic : ∀ h message, allowed h (.panic message)) :
    Prog.Holds rely allowed (fun _ result => ∀ next, result = .ok next → ∃ (reply : HttpReply) (seqNum : Int64),
      EntryData p reply (.account seqNum) ∧ Increments p seqNum next) history
      (readSequence p sourceAccount keyB64).run := by
  refine .bind (firstLedgerEntry_holds (ledger _ _)) (fun _ _ _ => nofun) ?_
  rintro h data ⟨reply,rfl,entry⟩
  cases data with
  | contractCode code => exact nofun
  | other debug => exact nofun
  | account seqNum =>
    refine Prog.holds_liftExcept.mpr ?_
    unfold nextSequence
    split_ifs with overflow
    · exact ⟨panic _ _,fun never _ => nomatch never⟩
    · intro next same
      obtain rfl := Except.ok.inj same
      exact ⟨reply,seqNum,entry _ rfl,overflow,rfl⟩

/-- The parameters of a simulation are the unsigned envelope of a call with these arguments. -/
def Asks (p : Platform) (state : AppState) (req : InvokeRequest) (args : List ScVal) (o : Op) : Prop :=
  ∀ params, o = .post "simulateTransaction" params → ∃ (call : Call) (b64 : String),
    p.publicKeyFromString req.sourceAccount = some call.source ∧
    (∃ (reply : HttpReply) (seqNum : Int64), EntryData p reply (.account seqNum) ∧ Increments p seqNum call.seqNum) ∧
    p.contractFromString state.contractId = some call.contract ∧
    p.stringFromStr 32 req.functionName = some call.function ∧ call.args = args ∧ args.length ≤ u32Max ∧
    p.envelopeToBase64 call.unsigned = .ok b64 ∧ params = transactionParams b64

theorem asks_of_ne {method : String} {params : Value} (other : method ≠ "simulateTransaction") :
    Asks p state req args (.post method params) := by
  intro _ same
  exact absurd (Op.post.inj same).1 other

theorem transact_asks {rely : (o : Op) → Resp o → Prop} {history : Events} :
    Prog.Holds rely (fun _ o => Asks p state req args o) (fun _ _ => True) history
      (transact p state req args keyB64).run := by
  refine .mapError_bind (readSequence_holds (fun _ _ => asks_of_ne (by decide)) fun _ _ => nofun)
    (fun _ _ _ => trivial) ?_
  intro h next read
  have seqNum := read next rfl
  refine .ofResult_bind (fun _ _ => trivial) fun unsigned built => ?_
  obtain ⟨call,source,rfl,contract,symbol,same,fits,rfl⟩ :=
    buildUnsignedInvokeTx_eq_ok_iff.mp (mapError_eq_ok_iff.mp built)
  refine .ofResult_bind (fun _ _ => trivial) fun b64 encoded => ?_
  have encoded := envelopeToBase64_eq_ok_iff.mp (mapError_eq_ok_iff.mp encoded)
  refine .mapError_bind (call_holds ?_) (fun _ _ _ => trivial) fun h simResp _ => ?_
  · rintro _ ⟨⟩
    exact ⟨call,b64,source,seqNum,contract,symbol,same,fits,encoded,rfl⟩
  refine .ofResult_bind (fun _ _ => trivial) fun sim _ => .ofResult_bind (fun _ _ => trivial) fun assembled _ => ?_
  have later : Prog.Only (Asks p state req args) (respond p state req sim assembled).run :=
    respond_network (fun _ => asks_of_ne (by decide)) (fun _ => asks_of_ne (by decide)) fun _ => nofun
  exact later.holds (fun _ _ => id) h

theorem headerStr_some {headers : HeaderMap} {name text : String} (read : headerStr headers name = .ok (some text)) :
    ∃ value, headerToStr value = some text := by
  unfold headerStr at read
  cases found : headers.lookup name with
  | none => simp [found] at read
  | some value =>
    cases decoded : headerToStr value with
    | none => simp [found,decoded] at read
    | some other =>
      simp only [found, decoded, Except.ok.injEq, Option.some.injEq] at read
      exact ⟨value,read ▸ decoded⟩

theorem sourceAccount_of_headers {headers : HeaderMap} {common : CommonHeaders}
    (read : readCommonHeaders headers = .ok common) : ∃ value, headerToStr value = some common.sourceAccount := by
  simp only [readCommonHeaders, bind_eq_ok_iff, okOr_eq_ok_iff, pure_eq_ok_iff] at read
  obtain ⟨source,sourceOk,account,rfl,_,_,_,_,rfl⟩ := read
  exact headerStr_some sourceOk

/-- A planned call has passed the checks, for an account that a header names. -/
theorem admitted_of_plan {request : Request} (planned : request.plan p spec methods = .ok (.call req args keyB64)) :
    admission p spec methods req = .ok (.call req args keyB64) ∧
      ∃ value, headerToStr value = some req.sourceAccount := by
  cases request with
  | health | getNetwork | getSpec | getFunctions => cases planned
  | invokeGet | invokePost =>
    obtain ⟨common,read,admitted⟩ := bind_eq_ok_iff.mp planned
    obtain ⟨_,_,_,_,_,_,_,same⟩ := admission_ok_iff.mp admitted
    cases same
    exact ⟨admitted,sourceAccount_of_headers read⟩

theorem invocation_of_plan {request : Request} (planned : request.plan p spec methods = .ok (.call req args keyB64)) :
    request.invocation p = some req := by
  cases request with
  | health | getNetwork | getSpec | getFunctions => cases planned
  | invokeGet | invokePost =>
    obtain ⟨common,read,admitted⟩ := bind_eq_ok_iff.mp planned
    obtain ⟨_,_,_,_,_,_,_,same⟩ := admission_ok_iff.mp admitted
    cases same
    rw [Request.invocation,read]
    rfl

/-- Forms of the values under the names of the parameters are arguments that convert to them. -/
theorem exists_args {inputs : List ScSpecFunctionInputV0} (distinct : (inputs.map (·.name.toUtf8StringLossy)).Nodup)
    {values : List ScVal} (each : List.Forall₂ (fun input v =>
      ∃ given, jsonToScval p.toCrates spec given input.type = .ok v) inputs values) :
    ∃ args, convertArgs p spec args inputs = .ok values := by
  obtain ⟨givens,length,converts⟩ := exists_forall₂_zip
    (R := fun (pair : Value × ScSpecFunctionInputV0) v => jsonToScval p.toCrates spec pair.1 pair.2.type = .ok v)
    each.length_eq.symm fun pair member => (List.forall₂_iff_zip.mp each.flip).2 member
  have seconds : (givens.zip inputs).map Prod.snd = inputs := List.map_snd_zip length.ge
  let members := (givens.zip inputs).map fun pair => (pair.2.name.toUtf8StringLossy, pair.1)
  have names : members.map Prod.fst = inputs.map (·.name.toUtf8StringLossy) := by
    rw [← seconds,List.map_map,List.map_map]
    rfl
  have given (pair) (member : pair ∈ givens.zip inputs) :
      (OrdMap.empty.insertAll members).get pair.2.name.toUtf8StringLossy = some pair.1 := by
    have unique : (members.reverse.map Prod.fst).Nodup := by
      rw [List.map_reverse,List.nodup_reverse,names]
      exact distinct
    have inside : (pair.2.name.toUtf8StringLossy, pair.1) ∈ members.reverse :=
      List.mem_reverse.mpr (List.mem_map.mpr ⟨pair,member,rfl⟩)
    rw [OrdMap.get_insertAll,Entries.find_of_mem unique inside]
    rfl
  refine ⟨OrdMap.empty.insertAll members,convertArgs_eq_ok_iff.mpr ?_⟩
  rw [← seconds,List.forall₂_map_left_iff]
  refine List.forall₂_iff_zip.mpr ⟨converts.length_eq,fun {pair v} member => ?_⟩
  rw [given pair (List.of_mem_zip member).1]
  exact (List.forall₂_iff_zip.mp converts).2 member

theorem headers_read {value : List UInt8} {account : String} (header : headerToStr value = some account) :
    readCommonHeaders [(headerSourceAccount, value)] = .ok ⟨account,false,none⟩ := by
  have source : headerStr [(headerSourceAccount, value)] headerSourceAccount = .ok (some account) := by
    simp [headerStr,header]
  have others {name : String} (other : name ≠ headerSourceAccount) :
      headerStr [(headerSourceAccount, value)] name = .ok none := by
    simp [headerStr,List.lookup_cons,beq_false_of_ne other]
  rw [readCommonHeaders,source,others (by decide),others (by decide)]
  rfl

/-- Every callable call is planned for some request, by the method of its name. -/
theorem exists_planned {name account : String} {value : List UInt8} {f : ScSpecFunctionV0} {values : List ScVal}
    (found : spec.function name = some f) (distinct : (f.inputs.map (·.name.toUtf8StringLossy)).Nodup)
    (getter : usesGet methods name = true → f.inputs = [])
    (each : List.Forall₂ (fun input v => ∃ given, jsonToScval p.toCrates spec given input.type = .ok v) f.inputs values)
    (header : headerToStr value = some account) (keyOk : accountKey p account = .ok keyB64) :
    ∃ (request : Request) (req : InvokeRequest),
      request.plan p spec methods = .ok (.call req values keyB64) ∧ req.functionName = name ∧
      req.sourceAccount = account := by
  by_cases uses : usesGet methods name = true
  · have empty : values = [] := by
      rw [getter uses] at each
      cases each
      rfl
    let args : OrdMap String Value := OrdMap.empty.mapValues (queryValueToJson p)
    have converted : convertArgs p spec args f.inputs = .ok values := by
      rw [getter uses,empty]
      rfl
    refine ⟨.invokeGet name .empty [(headerSourceAccount, value)],⟨name,args,account,false,none,true⟩,?_,rfl,rfl⟩
    rw [Request.plan,headers_read header]
    exact admission_ok_iff.mpr ⟨f,values,keyB64,found,uses.symm,converted,keyOk,rfl⟩
  · obtain ⟨args,converted⟩ := exists_args distinct each
    refine ⟨.invokePost name [(headerSourceAccount, value)] args,⟨name,args,account,false,none,false⟩,?_,rfl,rfl⟩
    rw [Request.plan,headers_read header]
    exact admission_ok_iff.mpr ⟨f,values,keyB64,found,(Bool.eq_false_iff.mpr uses).symm,converted,keyOk,rfl⟩

theorem runs_readSequence {sourceAccount : String} {reply : HttpReply} {seqNum next : Int64}
    (entry : EntryData p reply (.account seqNum)) (increments : Increments p seqNum next) :
    Prog.Runs (readSequence p sourceAccount keyB64).run
      [⟨.post "getLedgerEntries" (keysParams [keyB64]),reply⟩] (.ok next) := by
  obtain ⟨fits,rfl⟩ := increments
  refine .cons_bind (runs_firstLedgerEntry entry) (Prog.runs_liftExcept ?_)
  rw [nextSequence,if_neg fits]
  exact .refl

/-- The envelope of an admitted call is simulated, here over a connection that breaks. -/
theorem transact_simulates {call : Call} {b64 : String} {reply : HttpReply} {seqNum : Int64}
    (built : buildUnsignedInvokeTx p req.sourceAccount call.seqNum state.contractId req.functionName call.args =
      .ok call.unsigned) (encoded : p.envelopeToBase64 call.unsigned = .ok b64)
    (entry : EntryData p reply (.account seqNum)) (increments : Increments p seqNum call.seqNum) :
    Prog.Runs (transact p state req call.args keyB64).run [
      ⟨.post "getLedgerEntries" (keysParams [keyB64]),reply⟩,
      ⟨.post "simulateTransaction" (transactionParams b64),HttpReply.transport ""⟩]
      (.error (.upstream "rpc transport error calling simulateTransaction: ")) := by
  refine .cons_bind (Prog.runs_mapError (runs_readSequence entry increments)) ?_
  refine .ofResult_bind (mapError_eq_ok_iff.mpr built) ?_
  refine .ofResult_bind (mapError_eq_ok_iff.mpr (envelopeToBase64_eq_ok_iff.mpr encoded)) ?_
  exact Prog.Runs.bind_error (Prog.runs_mapError (runs_call rfl))

section Kept

variable {a : Shared} {wasmHash : Bytes32} (kept : Kept (normalizeHash p state.contractWasmHash) spec methods a)
  (hashOk : parseWasmHash p (normalizeHash p state.contractWasmHash) = .ok wasmHash)
include kept hashOk

/-- Only an admitted call simulates. -/
theorem plan_of_simulated {s : Server} (reach : Server.Reachable p state a s)
    {t : Task Resp Request (Except AppError Value)} (member : t ∈ s.tasks) {params : Value} {reply : HttpReply}
    (inside : ⟨.post "simulateTransaction" params,reply⟩ ∈ t.history) : ∃ req args keyB64 before,
      t.request.plan p spec methods = .ok (.call req args keyB64) ∧
      Prog.Issues (transact p state req args keyB64).run before (.post "simulateTransaction" params) := by
  have steps := serve_of_reachable kept hashOk reach member
  have inside : ⟨.post "simulateTransaction" params,reply⟩ ∈ traffic t.history := List.mem_filter.mpr ⟨inside,rfl⟩
  obtain ⟨before,after,split⟩ := List.append_of_mem inside
  rw [unknown_locks,serve_eq,split] at steps
  have issued := steps.issues_of_split
  cases planned : t.request.plan p spec methods with
  | error e =>
    rw [planned] at issued
    obtain ⟨_,steps⟩ := issued
    cases steps
  | ok plan =>
    rw [planned] at issued
    cases plan with
    | answer response =>
      obtain ⟨_,steps⟩ := issued
      cases steps
    | network =>
      have only : Prog.Only (fun o => ∀ params, o ≠ .post "simulateTransaction" params) (getNetwork p).run :=
        .mapError (call_only fun params same => absurd (Op.post.inj same).1 (by decide))
      have holds : Prog.Holds (fun _ _ => True) (fun _ o => ∀ params, o ≠ .post "simulateTransaction" params)
          (fun _ _ => True) [] (getNetwork p).run := only.holds (fun _ _ => id) []
      exact absurd rfl (holds.allowed_of_issues issued (fun _ _ => trivial) _)
    | call req args keyB64 => exact ⟨req,args,keyB64,before,rfl,issued⟩

theorem callable_of_simulated {b64 : String} (can : CanSimulate p state a b64) :
    ∃ call, Callable p state spec call ∧ p.envelopeToBase64 call.unsigned = .ok b64 := by
  obtain ⟨s,reach,t,member,reply,inside⟩ := can
  obtain ⟨req,args,keyB64,before,planned,issued⟩ := plan_of_simulated kept hashOk reach member inside
  have asks : Prog.Holds (fun _ _ => True) (fun _ o => Asks p state req args o) (fun _ _ => True) []
      (transact p state req args keyB64).run := transact_asks
  obtain ⟨call,envelope,source,seqNum,contract,symbol,rfl,fits,encoded,same⟩ :=
    asks.allowed_of_issues issued (fun _ _ => trivial) _ rfl
  obtain rfl := RpcClient.transactionParams_injective same
  obtain ⟨admitted,value,header⟩ := admitted_of_plan planned
  obtain ⟨f,_,key,found,_,converted,keyOk,same⟩ := admission_ok_iff.mp admitted
  cases same
  obtain ⟨account,sourceOk,keyOk⟩ := accountKey_ok_iff.mp keyOk
  obtain rfl := Option.some.inj (source.symm.trans sourceOk)
  refine ⟨call,⟨⟨_,f,found,symbol,?_⟩,fits,contract,⟨value,_,header,source⟩,⟨_,keyOk⟩,seqNum⟩,encoded⟩
  exact (convertArgs_eq_ok_iff.mp converted).imp fun _ _ ok => ⟨_,ok⟩

theorem method_of_simulated {s : Server} (reach : Server.Reachable p state a s)
    {t : Task Resp Request (Except AppError Value)} (member : t ∈ s.tasks) {params : Value} {reply : HttpReply}
    (inside : ⟨.post "simulateTransaction" params,reply⟩ ∈ t.history) :
    ∃ req, t.request.invocation p = some req ∧ req.isGet = usesGet methods req.functionName := by
  obtain ⟨req,_,_,_,planned,_⟩ := plan_of_simulated kept hashOk reach member inside
  obtain ⟨_,_,_,_,gate,_⟩ := admission_ok_iff.mp (admitted_of_plan planned).1
  exact ⟨req,invocation_of_plan planned,gate⟩

/-- What a request may do of the service, a request of the server may come to. -/
theorem reached_of_steps {request : Request} {events : Events} {rest : Async (Except AppError Value)}
    (steps : Prog.Steps (request.serve p state spec methods).run events rest) :
    ∃ s, Server.Reachable p state a s ∧ ∃ t ∈ s.tasks, ∀ e ∈ events, e ∈ t.history := by
  let left : Service := ⟨(),[⟨request,events,rest⟩]⟩
  have reach : Service.Reachable p state spec methods left := by
    refine (System.reachable_iff System.fixed_free).mpr ⟨rfl,fun t member => ?_⟩
    obtain rfl := List.mem_singleton.mp member
    exact ⟨steps,fun _ _ => System.possible_free.mpr trivial⟩
  obtain ⟨s,reach,same⟩ := (service_reachable_iff kept hashOk left).mp reach
  have inside : ⟨request,events,rest⟩ ∈ (s.given (locks a)).tasks := same ▸ List.mem_cons_self
  obtain ⟨t,member,same⟩ := List.mem_map.mp inside
  have history : (locks a).unknown t.history = events := congrArg Task.history same
  refine ⟨s,reach,t,member,fun e listed => ?_⟩
  rw [← history] at listed
  exact (Known.mem_unknown_iff.mp listed).1

theorem simulated_of_callable
    (getters : ∀ name f, spec.function name = some f → usesGet methods name = true → f.inputs = [])
    (distinct : ∀ f ∈ spec.functions, (f.inputs.map (·.name.toUtf8StringLossy)).Nodup) {call : Call} {b64 : String}
    (callable : Callable p state spec call) (encoded : p.envelopeToBase64 call.unsigned = .ok b64) :
    CanSimulate p state a b64 := by
  obtain ⟨⟨name,f,found,symbol,each⟩,fits,contract,⟨value,account,header,source⟩,⟨keyB64,keyOk⟩,reply,seqNum,entry,
    increments⟩ := callable
  have key : accountKey p account = .ok keyB64 := accountKey_ok_iff.mpr ⟨_,source,keyOk⟩
  obtain ⟨request,req,planned,rfl,rfl⟩ : ∃ (request : Request) (req : InvokeRequest),
      request.plan p spec methods = .ok (.call req call.args keyB64) ∧ req.functionName = name ∧
        req.sourceAccount = account :=
    exists_planned found (distinct f (List.mem_of_find?_eq_some found)) (getters _ _ found) each header key
  have built : buildUnsignedInvokeTx p req.sourceAccount call.seqNum state.contractId req.functionName call.args =
      .ok call.unsigned := buildUnsignedInvokeTx_eq_ok_iff.mpr ⟨call,source,rfl,contract,symbol,rfl,fits,rfl⟩
  have steps : Prog.Runs (transact p state req call.args keyB64).run _ _ :=
    transact_simulates built encoded entry increments
  have served : (request.serve p state spec methods).run = (transact p state req call.args keyB64).run := by
    rw [serve_eq,planned]
    rfl
  rw [← served] at steps
  obtain ⟨s,reach,t,member,happened⟩ := reached_of_steps kept hashOk steps
  exact ⟨s,reach,t,member,_,happened _ (List.mem_cons_of_mem _ List.mem_cons_self)⟩

end Kept

/-- Over all requests, interleavings and replies, the server simulates nothing but callable
calls, by the methods they are classified by, and where names are different every one of
them. The types of the parameters restrict nothing: any value that has a serde form passes
through the escape hatch. -/
theorem simulated_iff_callable {events : Events} {initial : Shared} (started : Started p state events initial) :
    ∃ spec methods, Kept (normalizeHash p state.contractWasmHash) spec methods initial ∧
      (∀ b64, CanSimulate p state initial b64 →
        ∃ call, Callable p state spec call ∧ p.envelopeToBase64 call.unsigned = .ok b64) ∧
      (∀ s, Server.Reachable p state initial s → ∀ t ∈ s.tasks, ∀ params, ∀ reply : HttpReply,
        ⟨.post "simulateTransaction" params,reply⟩ ∈ t.history →
          ∃ req, t.request.invocation p = some req ∧ req.isGet = usesGet methods req.functionName) ∧
      ((spec.functions.map fun f => f.name.toUtf8StringLossy).Nodup →
        (∀ f ∈ spec.functions, (f.inputs.map (·.name.toUtf8StringLossy)).Nodup) →
        ∀ call b64, Callable p state spec call → p.envelopeToBase64 call.unsigned = .ok b64 →
          CanSimulate p state initial b64) ∧
      ∀ form v ty, p.scvalFromValue form = .ok v → ∃ given, jsonToScval p.toCrates spec given ty = .ok v := by
  obtain ⟨_,spec,_,_,found,probed,_,kept⟩ := started.kept
  obtain ⟨_,hashOk⟩ := found.hashOk
  refine ⟨spec,_,kept,fun b64 can => callable_of_simulated kept hashOk can,?_,?_,?_⟩
  · exact fun s reach t member params reply inside => method_of_simulated kept hashOk reach member inside
  · intro names distinct call b64 callable encoded
    exact simulated_of_callable kept hashOk (fun _ _ => probed.inputs_of_usesGet names) distinct callable encoded
  · intro form v ty formed
    have hatch : (Value.object [("__xdr", form)]).get "__xdr" = some form := by simp [Value.get]
    exact ⟨_,(jsonToScval_hatch hatch ty).trans (by rw [formed]; rfl)⟩

namespace Reference

def sourceAccountBytes : List UInt8 := headerBytes sourceAccount

theorem ping_callable : Callable platform Reference.state Reference.spec preparation.call := by
  have requested := (preparation_valid true).requested
  have header : headerToStr sourceAccountBytes = some sourceAccount := by decide +kernel
  exact ⟨⟨_,_,requested.function,requested.symbol,requested.args.imp fun _ _ ok => ⟨_,ok⟩⟩,requested.arity,
    requested.contract,⟨_,_,header,requested.source⟩,⟨_,requested.accountKey⟩,_,requested.seqNum⟩

end Reference

theorem simulated_iff_callable_ping :
    CanSimulate Reference.platform Reference.state pingShared Reference.unsignedXdr ∧
      ∃ call, Callable Reference.platform Reference.state Reference.spec call ∧
        Reference.platform.envelopeToBase64 call.unsigned = .ok Reference.unsignedXdr := by
  obtain ⟨spec,methods,kept,only,_,every,_⟩ := simulated_iff_callable ping_started
  obtain rfl := ping_spec kept
  have requested := (Reference.preparation_valid true).requested
  have can := every (List.nodup_singleton _) (List.forall_mem_singleton.mpr List.nodup_nil) _ _ Reference.ping_callable
    requested.unsigned
  exact ⟨can,only _ can⟩

end SorobanProxy
