import SorobanProxy.Pipeline
import SorobanProxy.Library.Interleaving

/-! The server: what the locks answer, what startup leaves behind them, and requests that
run side by side from then on. -/
namespace SorobanProxy

open Library

/-- One operation on the shared state, done under its lock. The network may reply anything. -/
inductive Answers : Shared → (o : Op) → Resp o → Shared → Prop where
  | post (reply : HttpReply) : Answers a (.post method params) reply a
  | sleep : Answers a (.sleep millis) () a
  | readCache : Answers a (.readCache key) (a.specCache.get key) a
  | writeCache : Answers a (.writeCache key spec) () { a with specCache := a.specCache.insert key spec }
  | readMethods : Answers a .readMethods a.functionMethods a
  | writeMethods : Answers a (.writeMethods methods) () { a with functionMethods := methods }

section Answers

variable {a b : Shared}

theorem Answers.of_post {method : String} {params : Value} {reply : HttpReply}
    (answer : Answers a (.post method params) reply b) : b = a := by
  cases answer
  rfl

theorem Answers.of_readCache {key : String} {found : Option ContractSpec}
    (answer : Answers a (.readCache key) found b) : found = a.specCache.get key ∧ b = a := by
  cases answer
  exact ⟨rfl,rfl⟩

theorem Answers.of_writeCache {key : String} {spec : ContractSpec} {r : Unit}
    (answer : Answers a (.writeCache key spec) r b) :
    b = { a with specCache := a.specCache.insert key spec } := by
  cases answer
  rfl

theorem Answers.of_writeMethods {methods : OrdMap String Bool} {r : Unit}
    (answer : Answers a (.writeMethods methods) r b) : b = { a with functionMethods := methods } := by
  cases answer
  rfl

end Answers

/-- A request, by its route and what its handler is given. -/
inductive Request where
  | health
  | getNetwork
  | getSpec
  | getFunctions
  | invokeGet (functionName : String) (query : OrdMap String String) (headers : HeaderMap)
  | invokePost (functionName : String) (headers : HeaderMap) (args : OrdMap String Value)

def Request.handler (p : Platform) (state : AppState) : Request → AppResult Value
  | .health => SorobanProxy.health
  | .getNetwork => SorobanProxy.getNetwork p
  | .getSpec => SorobanProxy.getSpec p state
  | .getFunctions => SorobanProxy.getFunctions p state
  | .invokeGet functionName query headers => SorobanProxy.invokeGet p state functionName query headers
  | .invokePost functionName headers args => SorobanProxy.invokePost p state functionName headers args

/-- The call that a request comes to, if it is one and its headers are read. -/
def Request.invocation (p : Platform) : Request → Option InvokeRequest
  | .invokeGet functionName query headers => (readCommonHeaders headers).toOption.map fun common =>
    { common with functionName, args := query.mapValues (queryValueToJson p), isGet := true }
  | .invokePost functionName headers args => (readCommonHeaders headers).toOption.map fun common =>
    { common with functionName, args, isGet := false }
  | _ => none

/-- The requests that look the interface up. -/
def Request.LooksUp (p : Platform) : Request → Prop
  | .getSpec | .getFunctions => True
  | request => (request.invocation p).isSome

abbrev Server := System Resp Shared Request (Except AppError Value)

variable (p : Platform) (state : AppState)

/-- Startup came to its end, and left this behind the locks. -/
structure Started (events : Events) (initial : Shared) : Prop where
  runs : Prog.Runs (startup p state).run events (.ok ())
  through : System.Through Answers Shared.new events initial

/-- A state of the server that listens after startup. -/
def Server.Reachable (initial : Shared) (s : Server) : Prop :=
  System.Reachable Answers (fun request => (request.handler p state).run) initial s

variable {p state}

theorem Request.handler_invocation {request : Request} {req : InvokeRequest}
    (called : request.invocation p = some req) : request.handler p state = invokeInner p state req := by
  have read_ok {headers : HeaderMap} {common : CommonHeaders}
      (read : (readCommonHeaders headers).toOption = some common) : readCommonHeaders headers = .ok common := by
    cases found : readCommonHeaders headers with
    | ok => simpa [found,Except.toOption] using read
    | error => simp [found,Except.toOption] at read
  cases request with
  | invokeGet functionName query headers =>
    obtain ⟨common,read,rfl⟩ := Option.map_eq_some_iff.mp called
    rw [handler,SorobanProxy.invokeGet,read_ok read]
    rfl
  | invokePost functionName headers args =>
    obtain ⟨common,read,rfl⟩ := Option.map_eq_some_iff.mp called
    rw [handler,SorobanProxy.invokePost,read_ok read]
    rfl
  | _ => cases called

theorem Request.LooksUp.handler_eq {request : Request} (looks : request.LooksUp p) :
    ∃ next, request.handler p state = lookupSpec p state >>= next := by
  have invocation (called : (request.invocation p).isSome) :
      ∃ next, request.handler p state = lookupSpec p state >>= next := by
    obtain ⟨req,called⟩ := Option.isSome_iff_exists.mp called
    exact ⟨_,handler_invocation called⟩
  cases request with
  | getSpec | getFunctions => exact ⟨_,rfl⟩
  | health | getNetwork => cases looks
  | invokeGet | invokePost => exact invocation looks

/-- Every request accesses the shared state as one about the configured contract does. -/
theorem Request.handler_holds {rely : (o : Op) → Resp o → Prop} (request : Request) :
    Prog.Holds rely (Accesses p state.contractWasmHash) (fun _ _ => True) [] (request.handler p state).run := by
  have quiet (h : Events) (o : Op) (harmless : o.Quiet) : Accesses p state.contractWasmHash h o := by
    cases o with
    | readCache | writeCache | writeMethods => exact harmless.elim
    | _ => trivial
  have lookup : Prog.Holds rely (Accesses p state.contractWasmHash) _ []
      (getOrFetchSpec p state.contractWasmHash).run := getOrFetchSpec_holds quiet fun _ _ _ access => access
  have invoke (req : InvokeRequest) : Prog.Holds rely (Accesses p state.contractWasmHash) (fun _ _ => True) []
      (invokeInner p state req).run := by
    refine (invokeInner_holds.allow fun h o allowed => ?_).imp fun _ _ _ => trivial
    cases o with
    | post => trivial
    | _ => exact allowed
  cases request with
  | health => trivial
  | getNetwork => exact Prog.holds_mapError.mpr ((call_holds trivial).imp fun _ _ _ => trivial)
  | getSpec => exact .mapError_bind lookup (fun _ _ _ => trivial) fun _ _ _ => trivial
  | getFunctions =>
    refine .mapError_bind lookup (fun _ _ _ => trivial) fun _ _ _ => ?_
    exact .lift_bind (.perform trivial) fun _ _ _ => trivial
  | invokeGet => exact .ofResult_bind (fun _ _ => trivial) fun _ _ => invoke _
  | invokePost => exact .ofResult_bind (fun _ _ => trivial) fun _ _ => invoke _

end SorobanProxy
