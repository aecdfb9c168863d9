import SorobanProxy.Server
import SorobanProxy.Classification

/-! One interface and one classification for the life of the server. Startup leaves both
behind the locks, and no request changes either, because a lookup that finds its key
fetches nothing. -/
namespace SorobanProxy

open Library
open RpcClient (keysParams)

def verb (isGet : Bool) : String := if isGet then "GET" else "POST"

variable (p : Platform) (state : AppState)

/-- What holds at any time after startup has read an interface and classified it. -/
structure Settled (spec : ContractSpec) (methods : OrdMap String Bool) (s : Server) : Prop where
  cached : s.shared.specCache.get (normalizeHash p state.contractWasmHash) = some spec
  stored : s.shared.functionMethods = methods
  classified : ∀ f ∈ spec.functions, ∃ getter, s.shared.functionMethods.get f.name.toUtf8StringLossy = some getter
  /-- The lookup of a request is one read of the cache, and the rest is run on the interface. -/
  looked : ∀ t ∈ s.tasks, t.request.LooksUp p → ∃ next, t.request.handler p state = lookupSpec p state >>= next ∧
    (t.history = [] ∨ ∃ later, Prog.Steps (next spec).run later t.rest ∧
      t.history = ⟨.readCache (normalizeHash p state.contractWasmHash),some spec⟩ :: later)
  listed : ∀ t ∈ s.tasks, t.request = .getFunctions → ∀ result, t.rest = .pure result →
    result = .ok (.array (spec.functions.map (functionListing methods)))
  /-- Of the two methods the gate lets the listed one through. -/
  gate : ∀ f ∈ spec.functions, ∃ called listed, spec.function f.name.toUtf8StringLossy = some called ∧
    (functionListing methods f).getStr "http_method" = some (verb listed) ∧
    ∀ isGet, methodGate f.name.toUtf8StringLossy called isGet
      (usesGet s.shared.functionMethods f.name.toUtf8StringLossy) = .ok () ↔ isGet = listed
  /-- A finished call was refused for its method just when it had the other one. -/
  answered : ∀ t ∈ s.tasks, ∀ req, t.request.invocation p = some req →
    ∀ f ∈ spec.functions, f.name.toUtf8StringLossy = req.functionName → ∀ result, t.rest = .pure result →
      ((∃ message, result = .error (.methodNotAllowed message)) ↔
        (functionListing methods f).getStr "http_method" ≠ some (verb req.isGet))

/-- What the locks answer while nothing changes. -/
def Constant (key : String) (spec : ContractSpec) (methods : OrdMap String Bool) : (o : Op) → Resp o → Prop
  | .readCache read, found => read = key → found = some spec
  | .readMethods, found => found = methods
  | _, _ => True

variable {p state}

theorem getOrFetchSpec_runs_iff {wasmHashHex : String} {events : Events} {spec : ContractSpec} :
    Prog.Runs (getOrFetchSpec p wasmHashHex).run events (.ok spec) ↔ SpecLookup p wasmHashHex events spec := by
  constructor
  · intro run
    have holds : Prog.Holds (fun _ _ => True) (fun _ _ => True) _ [] (getOrFetchSpec p wasmHashHex).run :=
      getOrFetchSpec_holds (fun _ _ _ => trivial) fun _ _ _ _ => trivial
    obtain ⟨lookup,found,same⟩ := holds.post_of_runs run (fun _ _ => trivial) spec rfl
    rwa [List.append_cancel_left same]
  · exact runs_getOrFetchSpec

theorem startup_runs_iff {events : Events} : Prog.Runs (startup p state).run events (.ok ()) ↔
    ∃ lookup spec probes outcomes, SpecLookup p state.contractWasmHash lookup spec ∧
      Probed p state.contractId spec.functions probes outcomes ∧
      events = lookup ++ probes ++ [⟨.writeMethods (OrdMap.empty.insertAll outcomes),()⟩] := by
  constructor
  · intro run
    obtain ⟨lookup,spec,_,rfl,found,run⟩ := Prog.runs_bind_except_iff.mp run
    obtain ⟨probes,methods,_,rfl,classified,run⟩ := Prog.runs_bind_except_iff.mp run
    obtain ⟨outcomes,probed,rfl⟩ := classifyFunctions_runs_iff.mp (Prog.runs_liftExcept_iff.mp classified)
    obtain ⟨_,_,rfl,final⟩ := Prog.runs_op_iff.mp (Prog.runs_liftExcept_iff.mp run)
    obtain ⟨rfl,_⟩ := Prog.runs_pure_iff.mp final
    exact ⟨lookup,spec,probes,outcomes,getOrFetchSpec_runs_iff.mp found,probed,(List.append_assoc _ _ _).symm⟩
  · rintro ⟨lookup,spec,probes,outcomes,found,probed,rfl⟩
    have written : Prog.Runs (writeMethods (OrdMap.empty.insertAll outcomes))
        [⟨.writeMethods (OrdMap.empty.insertAll outcomes),()⟩] () := Prog.runs_op_iff.mpr ⟨(),[],rfl,.refl⟩
    have classified := classifyFunctions_runs_iff.mpr ⟨outcomes,probed,rfl⟩
    rw [List.append_assoc]
    refine .bind_except (runs_getOrFetchSpec found) ?_
    exact .bind_except (Prog.runs_liftExcept classified) (Prog.runs_liftExcept written)

theorem SpecLookup.through {wasmHashHex : String} {lookup : Events} {spec : ContractSpec} {a b : Shared}
    (found : SpecLookup p wasmHashHex lookup spec) (through : System.Through Answers a lookup b) :
    b.specCache.get (normalizeHash p wasmHashHex) = some spec := by
  cases found with
  | cached =>
    obtain ⟨_,answer,last⟩ := System.through_cons_iff.mp through
    obtain ⟨known,rfl⟩ := answer.of_readCache
    rw [System.through_nil_iff.mp last,known]
  | fetched =>
    obtain ⟨_,_,through⟩ := System.through_cons_iff.mp through
    obtain ⟨_,_,through⟩ := System.through_cons_iff.mp through
    obtain ⟨_,answer,last⟩ := System.through_cons_iff.mp through
    rw [System.through_nil_iff.mp last,answer.of_writeCache]
    simp

theorem Probed.through {contractId : String} {fs : List ScSpecFunctionV0} {probes : Events}
    {outcomes : Entries String Bool} {a b : Shared} (probed : Probed p contractId fs probes outcomes)
    (through : System.Through Answers a probes b) : b = a := by
  induction probed generalizing a with
  | nil => exact System.through_nil_iff.mp through
  | cons probe _ ih =>
    obtain ⟨_,head,tail⟩ := System.through_append_iff.mp through
    rw [ih tail]
    cases probe with
    | inputs | unbuilt => exact System.through_nil_iff.mp head
    | simulated =>
      obtain ⟨_,answer,last⟩ := System.through_cons_iff.mp head
      rw [System.through_nil_iff.mp last,answer.of_post]

/-- The gate and the listing read one entry with one default. -/
theorem functionListing_http_method {methods : OrdMap String Bool} {f : ScSpecFunctionV0} :
    (functionListing methods f).getStr "http_method" = some (verb (usesGet methods f.name.toUtf8StringLossy)) := by
  apply Value.getStr_eq_some_iff.mpr
  have found (members : List (String × Value)) (x : Value) :
      (Value.object (Entries.insert "http_method" x members)).get "http_method" = some x := by
    simp [Value.get,Entries.find_insert]
  exact found _ _

theorem verb_inj {a b : Bool} : verb a = verb b ↔ a = b := by
  revert a b
  decide

theorem Probed.isSome_lastOutcome {contractId : String} {fs : List ScSpecFunctionV0} {probes : Events}
    {outcomes : Entries String Bool} (probed : Probed p contractId fs probes outcomes) {f : ScSpecFunctionV0}
    (member : f ∈ fs) : (lastOutcome f.name.toUtf8StringLossy outcomes).isSome := by
  rw [isSome_lastOutcome_iff,firstOutcome,isSome_find_iff,probed.names]
  exact List.mem_map_of_mem member

theorem isSome_function {spec : ContractSpec} {f : ScSpecFunctionV0} (member : f ∈ spec.functions) :
    ∃ called, spec.function f.name.toUtf8StringLossy = some called := by
  apply Option.isSome_iff_exists.mp
  simp only [ContractSpec.function, List.find?_isSome]
  exact ⟨f,member,by simp⟩

/-- The interface is cached, and the classification is in place. -/
def Kept (key : String) (spec : ContractSpec) (methods : OrdMap String Bool) (a : Shared) : Prop :=
  a.specCache.get key = some spec ∧ a.functionMethods = methods

section Locks

variable {key : String} {spec : ContractSpec} {methods : OrdMap String Bool} {a b : Shared} {o : Op} {r : Resp o}

theorem Kept.constant (kept : Kept key spec methods a) (answer : Answers a o r b) : Constant key spec methods o r := by
  cases answer with
  | readCache =>
    rintro rfl
    exact kept.1
  | readMethods => exact kept.2
  | _ => trivial

/-- The interface would be written only after a lookup that missed it. -/
theorem Kept.answer {wasmHashHex : String} {history : Events}
    (kept : Kept (normalizeHash p wasmHashHex) spec methods a)
    (reliable : Prog.Reliable (Constant (normalizeHash p wasmHashHex) spec methods) history)
    (access : Accesses p wasmHashHex history o) (answer : Answers a o r b) :
    Kept (normalizeHash p wasmHashHex) spec methods b := by
  cases answer with
  | writeCache =>
    obtain ⟨same,missed⟩ := access
    exact nomatch reliable _ missed same
  | writeMethods => exact access.elim
  | _ => exact kept

end Locks

section Task

variable {spec : ContractSpec} {methods : OrdMap String Bool} {req : InvokeRequest} {history : Events}

/-- A call that was refused has the method that the gate refuses. -/
theorem gate_of_refused {message : String} (run : Prog.Runs (invokeInner p state req).run history
      (.error (.methodNotAllowed message)))
    (reliable : Prog.Reliable (Constant (normalizeHash p state.contractWasmHash) spec methods) history) :
    req.isGet ≠ usesGet methods req.functionName := by
  have holds : Prog.Holds (fun _ _ => True) (Allowed p state req) (Finished p state req) []
      (invokeInner p state req).run := invokeInner_holds
  rcases holds.post_of_runs run (fun _ _ => trivial) with other | ⟨lookup,found,func,read,lookupOk,_,gate,trace⟩
  · exact other.elim
  · rw [List.nil_append] at trace
    subst trace
    have same : read = methods := reliable ⟨.readMethods,read⟩ (by simp)
    subst same
    intro fits
    rw [methodGate_ok_iff.mpr fits] at gate
    cases gate

theorem shouldUseGet_constant {key name : String} : Prog.Holds (Constant key spec methods) (fun _ _ => True)
    (fun _ useGet => useGet = usesGet methods name) history (shouldUseGet name) := by
  refine ⟨trivial,fun read known => ?_⟩
  obtain rfl := known
  rfl

variable {wasmHash : Bytes32} (hashOk : parseWasmHash p (normalizeHash p state.contractWasmHash) = .ok wasmHash)
include hashOk

theorem looked_of_steps {next : ContractSpec → AppResult Value} {rest : Async (Except AppError Value)}
    (steps : Prog.Steps (lookupSpec p state >>= next).run history rest)
    (reliable : Prog.Reliable (Constant (normalizeHash p state.contractWasmHash) spec methods) history) :
    history = [] ∨ ∃ later, Prog.Steps (next spec).run later rest ∧
      history = ⟨.readCache (normalizeHash p state.contractWasmHash),some spec⟩ :: later := by
  rw [lookupSpec,getOrFetchSpec,hashOk] at steps
  cases steps with
  | refl => exact .inl rfl
  | step found steps =>
    obtain rfl := reliable _ List.mem_cons_self rfl
    exact .inr ⟨_,steps,rfl⟩

theorem lookupSpec_constant : Prog.Holds (Constant (normalizeHash p state.contractWasmHash) spec methods)
    (fun _ _ => True) (fun _ result => result = .ok spec) history (lookupSpec p state).run := by
  rw [lookupSpec,getOrFetchSpec,hashOk]
  refine ⟨trivial,fun found known => ?_⟩
  obtain rfl := known rfl
  rfl

theorem getFunctions_constant : Prog.Holds (Constant (normalizeHash p state.contractWasmHash) spec methods)
    (fun _ _ => True) (fun _ result => result = .ok (.array (spec.functions.map (functionListing methods))))
    [] (getFunctions p state).run := by
  refine .bind (lookupSpec_constant hashOk) (fun _ _ => nofun) fun _ found same => ?_
  obtain rfl := Except.ok.inj same
  refine ⟨trivial,fun read known => ?_⟩
  obtain rfl := known
  rfl

/-- A call that the gate refuses has no other result. -/
theorem refused_constant {called : ScSpecFunctionV0} {e : AppError}
    (found : spec.function req.functionName = some called)
    (gate : methodGate req.functionName called req.isGet (usesGet methods req.functionName) = .error e) :
    Prog.Holds (Constant (normalizeHash p state.contractWasmHash) spec methods) (fun _ _ => True)
      (fun _ result => result = .error e) [] (invokeInner p state req).run := by
  refine .bind (lookupSpec_constant hashOk) (fun _ _ => nofun) fun _ _ same => ?_
  obtain rfl := Except.ok.inj same
  refine .ofResult_bind (fun _ failed => ?_) fun func resolved => ?_
  · rw [found] at failed
    cases failed
  obtain rfl := Option.some.inj (found.symm.trans (okOr_eq_ok_iff.mp resolved))
  refine .lift_bind shouldUseGet_constant fun _ _ known => ?_
  subst known
  refine .ofResult_bind (fun _ refused => ?_) fun _ passed => ?_
  · obtain rfl := Except.error.inj (refused.symm.trans gate)
    rfl
  · rw [gate] at passed
    cases passed

end Task

/-- Startup leaves an interface and its classification behind the locks. -/
theorem Started.kept {events : Events} {initial : Shared} (started : Started p state events initial) :
    ∃ lookup spec probes outcomes, SpecLookup p state.contractWasmHash lookup spec ∧
      Probed p state.contractId spec.functions probes outcomes ∧
      events = lookup ++ probes ++ [⟨.writeMethods (OrdMap.empty.insertAll outcomes),()⟩] ∧
      Kept (normalizeHash p state.contractWasmHash) spec (OrdMap.empty.insertAll outcomes) initial := by
  obtain ⟨lookup,spec,probes,outcomes,found,probed,rfl⟩ := startup_runs_iff.mp started.runs
  obtain ⟨_,before,last⟩ := System.through_append_iff.mp started.through
  obtain ⟨_,read,probing⟩ := System.through_append_iff.mp before
  have cached := found.through read
  rw [← probed.through probing] at cached
  obtain ⟨_,answer,last⟩ := System.through_cons_iff.mp last
  refine ⟨lookup,spec,probes,outcomes,found,probed,rfl,?_⟩
  rw [System.through_nil_iff.mp last,answer.of_writeMethods]
  exact ⟨cached,rfl⟩

theorem SpecLookup.hashOk {wasmHashHex : String} {lookup : Events} {spec : ContractSpec}
    (found : SpecLookup p wasmHashHex lookup spec) :
    ∃ wasmHash, parseWasmHash p (normalizeHash p wasmHashHex) = .ok wasmHash := by
  cases found with
  | cached hashOk => exact ⟨_,hashOk⟩
  | fetched hashOk => exact ⟨_,hashOk⟩

/-- Startup reads one interface and classifies all its functions. From then on every
request, in any interleaving, looks that interface up in the cache, and for each listed
function the gate lets through exactly the method that is listed. -/
theorem settled_after_startup {events : Events} {initial : Shared} (started : Started p state events initial) :
    ∃ lookup spec probes outcomes methods, SpecLookup p state.contractWasmHash lookup spec ∧
      Probed p state.contractId spec.functions probes outcomes ∧ methods = OrdMap.empty.insertAll outcomes ∧
      events = lookup ++ probes ++ [⟨.writeMethods methods,()⟩] ∧
      ∀ s, Server.Reachable p state initial s → Settled p state spec methods s := by
  obtain ⟨lookup,spec,probes,outcomes,found,probed,rfl,kept⟩ := started.kept
  refine ⟨lookup,spec,probes,outcomes,_,found,probed,rfl,rfl,fun s reach => ?_⟩
  obtain ⟨⟨cached,stored⟩,tasks⟩ := System.Reachable.invariant (fun _ _ _ _ kept => kept.constant)
    (fun _ _ _ _ _ kept reliable => kept.answer reliable) Request.handler_holds kept reach
  obtain ⟨_,hashOk⟩ := found.hashOk
  exact {
    cached
    stored
    classified := by
      intro f member
      obtain ⟨getter,last⟩ := Option.isSome_iff_exists.mp (probed.isSome_lastOutcome member)
      refine ⟨getter,?_⟩
      rw [stored,OrdMap.get_insertAll]
      simpa [lastOutcome] using last
    looked := by
      intro t member looks
      obtain ⟨next,same⟩ : ∃ next, t.request.handler p state = lookupSpec p state >>= next := looks.handler_eq
      obtain ⟨steps,reliable⟩ := tasks t member
      rw [same] at steps
      exact ⟨next,same,looked_of_steps hashOk steps reliable⟩
    listed := by
      intro t member same result finished
      obtain ⟨run,reliable⟩ := tasks t member
      rw [same,finished] at run
      exact (getFunctions_constant hashOk).post_of_runs run reliable
    gate := by
      intro f member
      obtain ⟨called,resolved⟩ := isSome_function member
      refine ⟨called,_,resolved,functionListing_http_method,fun isGet => ?_⟩
      rw [methodGate_ok_iff,stored]
    answered := by
      intro t member req invoked f inside name result finished
      obtain ⟨run,reliable⟩ := tasks t member
      rw [Request.handler_invocation invoked,finished] at run
      rw [functionListing_http_method,Ne,Option.some_inj,verb_inj,name]
      constructor
      · rintro ⟨message,rfl⟩ same
        exact gate_of_refused run reliable same.symm
      · intro other
        obtain ⟨called,resolved⟩ := isSome_function inside
        rw [name] at resolved
        obtain ⟨message,refused⟩ := methodGate_refused_iff.mpr (Ne.symm other)
        exact ⟨message,(refused_constant hashOk resolved refused).post_of_runs run reliable⟩ }

def pingMethods : OrdMap String Bool := OrdMap.empty.insertAll [("ping", true)]

def pingShared : Shared :=
  ⟨OrdMap.empty.insert (normalizeHash Reference.platform Reference.wasmHashHex) Reference.spec,pingMethods⟩

theorem reference_cached (methods : OrdMap String Bool) : (⟨OrdMap.empty.insert
      (normalizeHash Reference.platform Reference.wasmHashHex) Reference.spec,methods⟩ : Shared).specCache.get
        (normalizeHash Reference.platform Reference.wasmHashHex) = some Reference.spec :=
  (OrdMap.get_insert ..).trans (if_pos rfl)

def pingLookup : Events := [
  ⟨.readCache (normalizeHash Reference.platform Reference.wasmHashHex),none⟩,
  ⟨.post "getLedgerEntries" (keysParams [Reference.codeKeyXdr]),
    HttpReply.response 200 (Reference.entriesText Reference.codeEntryXdr)⟩,
  ⟨.writeCache (normalizeHash Reference.platform Reference.wasmHashHex) Reference.spec,()⟩]

theorem ping_lookup : SpecLookup Reference.platform Reference.wasmHashHex pingLookup Reference.spec :=
  .fetched Reference.parseWasmHash_known rfl Reference.code_known rfl

theorem ping_started : Started Reference.platform Reference.state (pingLookup ++ [pingProbe] ++
    [⟨.writeMethods pingMethods,()⟩]) pingShared where
  runs := startup_runs_iff.mpr ⟨_,_,_,_,ping_lookup,ping_probed,rfl⟩
  through := .cons .readCache (.cons (.post _) (.cons .writeCache (.cons (.post _) (.cons .writeMethods .nil))))

/-- The reference server where its function writes. -/
def writingShared : Shared :=
  ⟨OrdMap.empty.insert (normalizeHash Reference.platform Reference.wasmHashHex) Reference.spec,
    OrdMap.empty.insertAll [("ping", false)]⟩

theorem writing_started : Started Reference.platform Reference.state (pingLookup ++ [writingProbe] ++
    [⟨.writeMethods writingShared.functionMethods,()⟩]) writingShared where
  runs := startup_runs_iff.mpr ⟨_,_,_,_,ping_lookup,writing_probed,rfl⟩
  through := .cons .readCache (.cons (.post _) (.cons .writeCache (.cons (.post _) (.cons .writeMethods .nil))))

/-- Everything holds of the reference server. -/
theorem settled_after_startup_ping : ∃ spec methods, ∀ s,
    Server.Reachable Reference.platform Reference.state pingShared s →
    Settled Reference.platform Reference.state spec methods s := by
  obtain ⟨_,spec,_,_,methods,_,_,_,_,settled⟩ := settled_after_startup ping_started
  exact ⟨spec,methods,settled⟩

end SorobanProxy
