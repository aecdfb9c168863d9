import SorobanProxy.Service

/-! What a request asks of the network is decided before it asks. A request that is refused
for its headers, its function, its method, its arguments or its account never gets there,
and the query of a GET decides nothing. -/
namespace SorobanProxy

open Library
open Library.Prog (ofResult)
open RpcClient (keysParams)

variable {p : Platform} {state : AppState} {spec : ContractSpec} {methods : OrdMap String Bool}

/-- The operations of a history that the locks do not answer: calls, waits and panics. -/
def traffic (events : Events) : Events :=
  events.filter fun e => match e.op with
    | .post _ _ | .sleep _ | .panic _ => true
    | _ => false

theorem unknown_locks (a : Shared) (events : Events) : (locks a).unknown events = traffic events := by
  unfold Known.unknown traffic
  congr 1
  funext e
  obtain ⟨o,r⟩ := e
  cases o <;> rfl

/-- What its plan makes of a request: an error or an answer at once, without traffic, or
else a first call, before which it does not end. -/
def FollowsPlan (planned : Except AppError Plan) (t : Task Resp Request (Except AppError Value)) : Prop :=
  match planned with
  | .error e => traffic t.history = [] ∧ ∀ result, t.rest = .pure result → result = .error e
  | .ok (.answer response) => traffic t.history = [] ∧ ∀ result, t.rest = .pure result → result = .ok response
  | .ok .network => Opens "getNetwork" (.obj [])
  | .ok (.call _ _ keyB64) => Opens "getLedgerEntries" (keysParams [keyB64])
where
  Opens (method : String) (params : Value) : Prop :=
    (traffic t.history = [] ∧ ∀ result, t.rest ≠ .pure result) ∨
      ∃ (reply : HttpReply) (later : Events), traffic t.history = ⟨.post method params,reply⟩ :: later

theorem serve_eq (request : Request) : (request.serve p state spec methods).run =
    match request.plan p spec methods with
    | .ok plan => (plan.carryOut p state).run
    | .error e => .pure (.error e) := by
  rw [Request.serve]
  cases request.plan p spec methods <;> rfl

/-- A program that begins with a call. -/
theorem opens_of_steps {a : Shared} {t : Task Resp Request (Except AppError Value)} {method : String}
    {params : Value} {next : HttpReply → Async (Except AppError Value)}
    (steps : Prog.Steps (.op (.post method params) next) (traffic t.history) (t.rest.given (locks a))) :
    FollowsPlan.Opens t method params := by
  generalize same : traffic t.history = events at steps
  generalize left : t.rest.given (locks a) = rest at steps
  cases steps with
  | refl =>
    refine .inl ⟨same,fun result ended => ?_⟩
    rw [ended] at left
    cases left
  | step reply _ => exact .inr ⟨reply,_,same⟩

theorem pure_of_steps {a : Shared} {t : Task Resp Request (Except AppError Value)} {outcome : Except AppError Value}
    (steps : Prog.Steps (.pure outcome) (traffic t.history) (t.rest.given (locks a))) :
    traffic t.history = [] ∧ ∀ result, t.rest = .pure result → result = outcome := by
  generalize same : traffic t.history = events at steps
  generalize left : t.rest.given (locks a) = rest at steps
  cases steps
  refine ⟨rfl,fun result ended => ?_⟩
  rw [ended] at left
  exact Prog.pure.inj left

/-- Whatever runs beside it, a request follows the plan that the startup interface and
classification make of it. -/
theorem requests_follow_plan {events : Events} {initial : Shared} (started : Started p state events initial) :
    ∃ spec methods, Kept (normalizeHash p state.contractWasmHash) spec methods initial ∧
      ∀ s, Server.Reachable p state initial s → ∀ t ∈ s.tasks, FollowsPlan (t.request.plan p spec methods) t := by
  obtain ⟨_,spec,_,_,found,_,_,kept⟩ := started.kept
  obtain ⟨_,hashOk⟩ := found.hashOk
  refine ⟨spec,_,kept,fun s reach t member => ?_⟩
  have steps := serve_of_reachable kept hashOk reach member
  rw [unknown_locks,serve_eq] at steps
  cases planned : t.request.plan p spec _ with
  | error e =>
    rw [planned] at steps
    exact pure_of_steps steps
  | ok plan =>
    rw [planned] at steps
    cases plan with
    | answer response => exact pure_of_steps steps
    | network => exact opens_of_steps steps
    | call req args keyB64 => exact opens_of_steps steps

def Request.withoutQuery : Request → Request
  | .invokeGet functionName _ headers => .invokeGet functionName .empty headers
  | request => request

/-- The same traffic and the same answers, to requests without their queries. -/
def Service.withoutQueries (s : Service) : Service :=
  ⟨(),s.tasks.map fun t => { t with request := t.request.withoutQuery }⟩

theorem Probed.exists_getter {contractId name : String} {fs : List ScSpecFunctionV0} {probes : Events}
    {outcomes : Entries String Bool} (probed : Probed p contractId fs probes outcomes)
    (member : (name, true) ∈ outcomes) : ∃ f ∈ fs, f.name.toUtf8StringLossy = name ∧ f.inputs = [] := by
  induction probed with
  | nil => cases member
  | cons probe _ ih =>
    rcases List.mem_cons.mp member with same | later
    · obtain ⟨rfl,rfl⟩ := Prod.mk.inj same
      refine ⟨_,List.mem_cons_self,rfl,?_⟩
      cases probe with
      | simulated inputs => exact inputs
    · obtain ⟨f,inside,name,inputs⟩ := ih later
      exact ⟨f,List.mem_cons_of_mem _ inside,name,inputs⟩

/-- With one entry for each name, GET goes to functions without arguments only. -/
theorem Probed.inputs_of_usesGet {contractId name : String} {probes : Events} {outcomes : Entries String Bool}
    {f : ScSpecFunctionV0} (probed : Probed p contractId spec.functions probes outcomes)
    (distinct : (spec.functions.map fun f => f.name.toUtf8StringLossy).Nodup) (found : spec.function name = some f)
    (getter : usesGet (OrdMap.empty.insertAll outcomes) name = true) : f.inputs = [] := by
  have last : lastOutcome name outcomes = some true := by
    rw [usesGet,OrdMap.get_insertAll] at getter
    unfold lastOutcome
    cases outcome : Entries.find name outcomes.reverse with
    | none => simp [outcome] at getter
    | some b => simpa [outcome] using getter
  have member := List.mem_reverse.mp (Entries.mem_of_find last)
  obtain ⟨g,inside,named,inputs⟩ := probed.exists_getter member
  have same : f.name.toUtf8StringLossy = name := by simpa using List.find?_some found
  rwa [List.inj_on_of_nodup_map distinct (List.mem_of_find?_eq_some found) inside (same.trans named.symm)]

section Getters

variable (getters : ∀ name f, spec.function name = some f → usesGet methods name = true → f.inputs = [])
include getters

/-- The arguments of a GET that passes the gate are not read. -/
theorem admission_get (req : InvokeRequest) (args : OrdMap String Value) (get : req.isGet = true) :
    (ofResult (admission p spec methods { req with args }) >>= fun plan => plan.carryOut p state).run =
      (ofResult (admission p spec methods req) >>= fun plan => plan.carryOut p state).run := by
  simp only [admission, get]
  cases found : spec.function req.functionName with
  | none => rfl
  | some f =>
  by_cases getter : usesGet methods req.functionName = true
  · have unread (args : OrdMap String Value) : convertArgs p spec args f.inputs = .ok [] := by
      rw [getters _ _ found getter]
      rfl
    have passed : methodGate req.functionName f true true = .ok () := methodGate_ok_iff.mpr rfl
    simp only [okOr, getter, bind, Except.bind, passed, unread]
    cases accountKey p req.sourceAccount <;> rfl
  · obtain ⟨message,refused⟩ : ∃ message, methodGate req.functionName f true (usesGet methods req.functionName) =
        .error (.methodNotAllowed message) := methodGate_refused_iff.mpr (Ne.symm getter)
    simp only [okOr, bind, Except.bind, refused]

theorem serve_withoutQuery (request : Request) :
    (request.withoutQuery.serve p state spec methods).run = (request.serve p state spec methods).run := by
  cases request with
  | invokeGet functionName query headers =>
    simp only [Request.withoutQuery, Request.serve, Request.plan, Prog.ofResult_bind, bind_assoc]
    cases readCommonHeaders headers with
    | error e => rfl
    | ok common =>
      exact admission_get getters { common with
        functionName, args := query.mapValues (queryValueToJson p), isGet := true } _ rfl
  | _ => rfl

end Getters

theorem reachable_withoutQueries_iff
    (getters : ∀ name f, spec.function name = some f → usesGet methods name = true → f.inputs = []) (left : Service) :
    Service.Reachable p state spec methods left.withoutQueries ↔ Service.Reachable p state spec methods left := by
  unfold Service.Reachable Service.withoutQueries
  rw [System.reachable_iff System.fixed_free,System.reachable_iff System.fixed_free]
  refine and_congr Iff.rfl ?_
  simp only [List.forall_mem_map, System.Ran, serve_withoutQuery getters]

/-- Where the interface has one entry for each name, the query of a GET has no influence:
the network and the callers see the same of a server that is sent no queries. -/
theorem get_query_irrelevant {events : Events} {initial : Shared} (started : Started p state events initial) :
    ∃ spec methods, Kept (normalizeHash p state.contractWasmHash) spec methods initial ∧
      ((spec.functions.map fun f => f.name.toUtf8StringLossy).Nodup → ∀ left : Service,
        (∃ s, Server.Reachable p state initial s ∧ s.given (locks initial) = left) ↔
          ∃ s, Server.Reachable p state initial s ∧ s.given (locks initial) = left.withoutQueries) := by
  obtain ⟨_,spec,_,_,found,probed,_,kept⟩ := started.kept
  obtain ⟨_,hashOk⟩ := found.hashOk
  refine ⟨spec,_,kept,fun distinct left => ?_⟩
  rw [← service_reachable_iff kept hashOk,← service_reachable_iff kept hashOk]
  exact (reachable_withoutQueries_iff (fun _ _ => probed.inputs_of_usesGet distinct) left).symm

theorem requests_follow_plan_ping : ∃ spec methods,
    Kept (normalizeHash Reference.platform Reference.state.contractWasmHash) spec methods pingShared ∧
      ∀ s, Server.Reachable Reference.platform Reference.state pingShared s → ∀ t ∈ s.tasks,
        FollowsPlan (t.request.plan Reference.platform spec methods) t := requests_follow_plan ping_started

theorem ping_spec {methods : OrdMap String Bool}
    (kept : Kept (normalizeHash Reference.platform Reference.state.contractWasmHash) spec methods pingShared) :
    spec = Reference.spec := Option.some.inj (kept.1.symm.trans (reference_cached pingMethods))

theorem get_query_irrelevant_ping : ∃ spec methods,
    Kept (normalizeHash Reference.platform Reference.state.contractWasmHash) spec methods pingShared ∧
      ∀ left : Service,
        (∃ s, Server.Reachable Reference.platform Reference.state pingShared s ∧ s.given (locks pingShared) = left) ↔
          ∃ s, Server.Reachable Reference.platform Reference.state pingShared s ∧
            s.given (locks pingShared) = left.withoutQueries := by
  obtain ⟨spec,methods,kept,irrelevant⟩ := get_query_irrelevant ping_started
  refine ⟨spec,methods,kept,irrelevant ?_⟩
  rw [ping_spec kept]
  exact List.nodup_singleton _

end SorobanProxy
