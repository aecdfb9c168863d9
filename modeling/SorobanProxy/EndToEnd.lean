import SorobanProxy.Accounting
import SorobanProxy.Arguments
import SorobanProxy.Capability
import SorobanProxy.Startup

/-! What the program makes of a call on a network that answers each request in one way, from
its startup on: which transaction it prepares is said here without its programs and traces,
and it shows and submits this transaction and no other. -/
namespace SorobanProxy

open Library
open RpcClient (keysParams transactionParams)

/-- A transaction for a call, with what it was made from. -/
structure Quote where
  func : ScSpecFunctionV0
  call : Call
  accountKey : String
  unsigned : String
  sim : SimulationOutcome
  fee : UInt32
  auth : List SorobanAuthorizationEntry

def Quote.transaction (q : Quote) : Transaction := q.call.transaction q.fee (.v1 q.sim.sorobanData) q.auth

/-- The quote is the network's for the request under the interface. -/
structure Quote.Valid (p : Platform) (state : AppState) (net : Network) (spec : ContractSpec) (req : InvokeRequest)
    (q : Quote) : Prop where
  function : spec.function req.functionName = some q.func
  method : req.isGet = true ↔ ∃ f, lastFunction spec req.functionName = some f ∧ Getter p net state.contractId f
  args : List.Forall₂ (Bound p spec req.args) q.func.inputs q.call.args
  arity : q.call.args.length ≤ u32Max
  source : p.publicKeyFromString req.sourceAccount = some q.call.source
  contract : p.contractFromString state.contractId = some q.call.contract
  symbol : p.stringFromStr 32 req.functionName = some q.call.function
  accountKey : p.ledgerKeyToBase64 (.account q.call.source) = .ok q.accountKey
  seqNum : ∃ seqNum, EntryData p (net "getLedgerEntries" (keysParams [q.accountKey])) (.account seqNum) ∧
    Increments p seqNum q.call.seqNum
  unsigned : p.envelopeToBase64 q.call.unsigned = .ok q.unsigned
  answered : replyResult p "simulateTransaction" (net "simulateTransaction" (transactionParams q.unsigned)) =
    .ok q.sim.raw
  parsed : parseSimulation p q.sim.raw = .ok q.sim
  fee : (q.fee.toNat : Int) = q.sim.minResourceFee.toInt + 100
  nonneg : 0 ≤ q.sim.minResourceFee.toInt
  auth : List.Forall₂ (fun b64 entry => p.authorizationFromBase64 b64 = .ok entry) q.sim.authB64 q.auth
  auths : q.auth.length ≤ u32Max

variable {p : Platform} {state : AppState} {net : Network} {spec : ContractSpec} {req : InvokeRequest}

/-- The network has at most one quote for a call. -/
theorem Quote.Valid.unique {q other : Quote} (valid : q.Valid p state net spec req)
    (also : other.Valid p state net spec req) : q = other := by
  obtain ⟨f,call,key,b64,sim,fee,auth⟩ := q
  obtain ⟨f',call',key',b64',sim',fee',auth'⟩ := other
  obtain rfl : f = f' := Option.some.inj (valid.function.symm.trans also.function)
  have args : call.args = call'.args :=
    Except.ok.inj ((convertArgs_ok_iff.mpr valid.args).symm.trans (convertArgs_ok_iff.mpr also.args))
  have sources : call.source = call'.source := Option.some.inj (valid.source.symm.trans also.source)
  obtain rfl : key = key' := by
    have keyOk := also.accountKey
    dsimp only at keyOk
    rw [← sources] at keyOk
    exact Except.ok.inj (valid.accountKey.symm.trans keyOk)
  have seqNums : call.seqNum = call'.seqNum := by
    obtain ⟨n,entry,_,next⟩ := valid.seqNum
    obtain ⟨m,entry',_,next'⟩ := also.seqNum
    obtain rfl := LedgerEntryData.account.inj (entry.unique entry')
    exact next.trans next'.symm
  obtain rfl : call = call' := Call.ext sources seqNums (Option.some.inj (valid.contract.symm.trans also.contract))
    (Option.some.inj (valid.symbol.symm.trans also.symbol)) args
  obtain rfl : b64 = b64' := Except.ok.inj (valid.unsigned.symm.trans also.unsigned)
  have raws : sim.raw = sim'.raw := Except.ok.inj (valid.answered.symm.trans also.answered)
  obtain rfl : sim = sim' := by
    have parsed := also.parsed
    dsimp only at parsed
    rw [← raws] at parsed
    exact Except.ok.inj (valid.parsed.symm.trans parsed)
  obtain rfl : fee = fee' := UInt32.toNat_inj.mp (Int.ofNat_inj.mp (valid.fee.trans also.fee.symm))
  obtain rfl : auth = auth' :=
    Except.ok.inj ((mapM_eq_ok_iff.mpr valid.auth).symm.trans (mapM_eq_ok_iff.mpr also.auth))
  rfl

/-- The parts of a preparation that do not tell when it was made. -/
def Preparation.quote (x : Preparation) : Quote where
  func := x.func
  call := x.call
  accountKey := x.accountKey
  unsigned := x.unsigned
  sim := x.sim
  fee := x.fee
  auth := x.auth

/-- The preparation of a quote, by a request that finds the interface in the cache. -/
def Quote.preparation (p : Platform) (state : AppState) (net : Network) (spec : ContractSpec)
    (methods : OrdMap String Bool) (q : Quote) : Preparation where
  lookup := [⟨.readCache (normalizeHash p state.contractWasmHash),some spec⟩]
  spec
  func := q.func
  methods
  accountKey := q.accountKey
  accountReply := net "getLedgerEntries" (keysParams [q.accountKey])
  call := q.call
  unsigned := q.unsigned
  simReply := net "simulateTransaction" (transactionParams q.unsigned)
  sim := q.sim
  fee := q.fee
  auth := q.auth

/-- In some run of the program on the network, startup included, the request comes to this. -/
def Comes (p : Platform) (state : AppState) (net : Network) (request : Request)
    (P : Task Resp Request (Except AppError Value) → Prop) : Prop :=
  ∃ events initial s, Started p state events initial ∧ AnsweredBy net events ∧ Server.Reachable p state initial s ∧
    ∃ t ∈ s.tasks, t.request = request ∧ AnsweredBy net t.history ∧ P t

/-- In every run of the program on the network, startup included, this is so of the request. -/
def Always (p : Platform) (state : AppState) (net : Network) (request : Request)
    (P : Task Resp Request (Except AppError Value) → Prop) : Prop :=
  ∀ events initial s, Started p state events initial → AnsweredBy net events → Server.Reachable p state initial s →
    ∀ t ∈ s.tasks, t.request = request → AnsweredBy net t.history → P t

/-- The answers of the network, and those of the locks on a state. -/
def Replies (net : Network) (a : Shared) : (o : Op) → Resp o → Prop
  | .post method params, reply => reply = net method params
  | o, r => System.Possible Answers a o r

theorem replies_functional {a : Shared} : Prog.Functional (Replies net a) := by
  intro o r s first second
  cases o with
  | post => exact first.trans second.symm
  | sleep => rfl
  | panic => exact r.elim
  | _ => exact (fits_locks first _ rfl).trans (fits_locks second _ rfl).symm

theorem reliable_replies {a : Shared} {history : Events} (possible : Prog.Reliable (System.Possible Answers a) history)
    (asked : AnsweredBy net history) : Prog.Reliable (Replies net a) history := by
  rintro ⟨o,r⟩ member
  cases o with
  | post => exact asked _ _ _ member
  | _ => exact possible _ member

section Quote

variable {methods : OrdMap String Bool}
  (uses : usesGet methods req.functionName = true ↔
    ∃ f, lastFunction spec req.functionName = some f ∧ Getter p net state.contractId f)
include uses

theorem Preparation.Valid.quote {x : Preparation} (valid : x.Valid p state req) (answered : AnsweredBy net x.trace)
    (constant : Prog.Reliable (Constant (normalizeHash p state.contractWasmHash) spec methods) x.trace) :
    x.quote.Valid p state net spec req := by
  obtain ⟨requested,simulated⟩ := valid
  have account : x.accountReply = net "getLedgerEntries" (keysParams [x.accountKey]) :=
    answered _ _ _ (by simp [Preparation.trace,Preparation.beforeSimulation])
  have simulation : x.simReply = net "simulateTransaction" (transactionParams x.unsigned) :=
    answered _ _ _ (by simp [Preparation.trace])
  rw [Preparation.trace,Preparation.beforeSimulation,Prog.reliable_append_iff,Prog.reliable_append_iff] at constant
  obtain ⟨⟨looked,read⟩,-⟩ := constant
  have found : x.spec = spec := requested.lookup.spec_eq looked
  have classified : x.methods = methods := (Prog.reliable_cons_iff.mp read).1
  have gate := methodGate_ok_iff.mp requested.gate
  have args := convertArgs_ok_iff.mp (convertArgs_eq_ok_iff.mpr requested.args)
  rw [found] at args
  rw [classified] at gate
  exact {
    function := found ▸ requested.function
    method := by rw [gate,uses]
    args
    arity := requested.arity
    source := requested.source
    contract := requested.contract
    symbol := requested.symbol
    accountKey := requested.accountKey
    seqNum := account ▸ requested.seqNum
    unsigned := requested.unsigned
    answered := simulation ▸ simulated.answered
    parsed := simulated.parsed
    fee := simulated.fee
    nonneg := simulated.nonneg
    auth := simulated.auth
    auths := simulated.auths }

theorem Quote.Valid.preparation {q : Quote} (valid : q.Valid p state net spec req) {wasmHash : Bytes32}
    (hashOk : parseWasmHash p (normalizeHash p state.contractWasmHash) = .ok wasmHash) :
    (q.preparation p state net spec methods).Valid p state req where
  requested := {
    lookup := .cached hashOk
    function := valid.function
    gate := methodGate_ok_iff.mpr (Bool.eq_iff_iff.mpr (valid.method.trans uses.symm))
    args := convertArgs_eq_ok_iff.mp (convertArgs_ok_iff.mpr valid.args)
    arity := valid.arity
    source := valid.source
    accountKey := valid.accountKey
    seqNum := valid.seqNum
    contract := valid.contract
    symbol := valid.symbol
    unsigned := valid.unsigned }
  simulated := by
    obtain ⟨noError,noRestore,data,resourceFee,_⟩ := parseSimulation_eq_ok_iff.mp valid.parsed
    exact ⟨valid.answered,valid.parsed,noError,noRestore,data,resourceFee,valid.nonneg,valid.fee,valid.auth,valid.auths⟩

end Quote

/-- Whatever a call may do alone on the answers of the network, it comes to in some run. -/
theorem comes_of_steps {methods : OrdMap String Bool} {events history : Events} {initial : Shared} {request : Request}
    {rest : Async (Except AppError Value)} {P : Task Resp Request (Except AppError Value) → Prop}
    (started : Started p state events initial) (answered : AnsweredBy net events)
    (kept : Kept (normalizeHash p state.contractWasmHash) spec methods initial)
    (called : request.invocation p = some req) (steps : Prog.Steps (invokeInner p state req).run history rest)
    (possible : Prog.Reliable (System.Possible Answers initial) history) (asked : AnsweredBy net history)
    (holds : P ⟨request,history,rest⟩) : Comes p state net request P := by
  rw [← Request.handler_invocation called] at steps
  have reach : Server.Reachable p state initial ⟨initial,[⟨request,history,rest⟩]⟩ := by
    refine (System.reachable_iff (fixed_of_kept kept)).mpr ⟨rfl,fun t member => ?_⟩
    obtain rfl := List.mem_singleton.mp member
    exact ⟨steps,possible⟩
  exact ⟨events,initial,_,started,answered,reach,_,List.mem_singleton_self _,rfl,asked,holds⟩

/-- The calls of a quote are answered by the network. -/
theorem Quote.answered (methods : OrdMap String Bool) (q : Quote) :
    AnsweredBy net (q.preparation p state net spec methods).trace := by
  intro method params reply member
  simp only [Preparation.trace, Preparation.beforeSimulation, Quote.preparation, List.mem_append, List.mem_cons,
    List.not_mem_nil, or_false] at member
  rcases member with (same | same | same) | same <;> cases same <;> rfl

theorem Quote.possible {methods : OrdMap String Bool} {initial : Shared} (q : Quote)
    (kept : Kept (normalizeHash p state.contractWasmHash) spec methods initial) :
    Prog.Reliable (System.Possible Answers initial) (q.preparation p state net spec methods).trace := by
  obtain ⟨cached,rfl⟩ := kept
  have read : Answers initial (.readCache (normalizeHash p state.contractWasmHash)) (some spec) initial := by
    rw [← cached]
    exact .readCache
  intro e member
  simp only [Preparation.trace, Preparation.beforeSimulation, Quote.preparation, List.mem_append, List.mem_cons,
    List.not_mem_nil, or_false] at member
  rcases member with (rfl | rfl | rfl) | rfl
  · exact ⟨_,read⟩
  · exact ⟨_,.readMethods⟩
  · exact ⟨_,.post _⟩
  · exact ⟨_,.post _⟩

/-- A call that the network answers has run by itself, with what startup has found on it. -/
theorem task_runs {events : Events} {initial : Shared} {s : Server} {t : Task Resp Request (Except AppError Value)}
    (started : Started p state events initial) (answered : AnsweredBy net events)
    (reach : Server.Reachable p state initial s) (member : t ∈ s.tasks) (called : t.request.invocation p = some req) :
    ∃ spec methods, Readable p state net spec ∧
      (usesGet methods req.functionName = true ↔
        ∃ f, lastFunction spec req.functionName = some f ∧ Getter p net state.contractId f) ∧
      Kept (normalizeHash p state.contractWasmHash) spec methods initial ∧
      Prog.Steps (invokeInner p state req).run t.history t.rest ∧
      Prog.Reliable (System.Possible Answers initial) t.history := by
  obtain ⟨spec,_,outcomes,readable,probed,probing,kept⟩ := started.fetched answered
  obtain ⟨-,ran⟩ := (System.reachable_iff (fixed_of_kept kept)).mp reach
  obtain ⟨steps,possible⟩ := ran t member
  change Prog.Steps (t.request.handler p state).run t.history t.rest at steps
  rw [Request.handler_invocation called] at steps
  exact ⟨spec,_,readable,usesGet_iff probed probing _,kept,steps,possible⟩

/-- A quote can be asked for. -/
theorem Quote.Valid.comes {q : Quote} (readable : Readable p state net spec) (valid : q.Valid p state net spec req)
    {request : Request} (called : request.invocation p = some req)
    {P : Task Resp Request (Except AppError Value) → Prop}
    (run : ∀ x : Preparation, x.Valid p state req → x.quote = q → AnsweredBy net x.trace → ∃ later rest,
      Prog.Steps (invokeInner p state req).run (x.trace ++ later) rest ∧ AnsweredBy net later ∧
        (∀ e ∈ later, ∃ method params, e.op = .post method params) ∧ P ⟨request,x.trace ++ later,rest⟩) :
    Comes p state net request P := by
  obtain ⟨events,initial,started,answered,_⟩ := exists_started readable
  obtain ⟨read,_,outcomes,readable',probed,probing,kept⟩ := started.fetched answered
  obtain rfl := readable.unique readable'
  obtain ⟨_,hashOk⟩ : ∃ wasmHash, parseWasmHash p (normalizeHash p state.contractWasmHash) = .ok wasmHash := by
    obtain ⟨wasmHash,_,_,_,hashOk,_⟩ := readable
    exact ⟨wasmHash,hashOk⟩
  have prepared := valid.preparation (usesGet_iff probed probing req.functionName) hashOk
  obtain ⟨later,rest,steps,askedLater,posts,holds⟩ := run _ prepared rfl (q.answered _)
  refine comes_of_steps started answered kept called steps ?_ (answeredBy_append.mpr ⟨q.answered _,askedLater⟩) holds
  refine Prog.reliable_append_iff.mpr ⟨q.possible kept,fun e member => ?_⟩
  obtain ⟨o,r⟩ := e
  obtain ⟨method,params,rfl⟩ := posts _ member
  exact ⟨_,.post r⟩

section Called

variable {request : Request} (called : request.invocation p = some req)
include called

theorem quote_of_shown (unsigned : req.sign = false) {response : Value}
    (comes : Comes p state net request fun t => t.rest = .pure (.ok response)) :
    ∃ (spec : ContractSpec) (q : Quote) (b64 : String), Readable p state net spec ∧ q.Valid p state net spec req ∧
      p.envelopeToBase64 (.tx ⟨q.transaction,[]⟩) = .ok b64 ∧ response = simulatedResponse p state q.sim b64 := by
  have holds : Prog.Holds (fun _ _ => True) (Allowed p state req) (Finished p state req) []
      (invokeInner p state req).run := invokeInner_holds
  obtain ⟨_,_,_,started,answered,reach,⟨_,_,_⟩,member,rfl,asked,ended⟩ := comes
  obtain ⟨spec,methods,readable,uses,kept,steps,possible⟩ := task_runs started answered reach member called
  subst ended
  rcases holds.post_of_runs steps fun _ _ => trivial with
    ⟨_,x,b64,valid,trace,encoded,shown⟩ | ⟨_,_,_,_,_,⟨_,s,_,_,_,signed,_⟩,_⟩
  · rw [List.nil_append] at trace
    subst trace
    exact ⟨spec,x.quote,b64,readable,valid.quote uses asked (constant_of_possible kept possible),encoded,shown⟩
  · rw [signed.sign] at unsigned
    cases unsigned

theorem shown_of_quote (unsigned : req.sign = false) {q : Quote} {b64 : String} (readable : Readable p state net spec)
    (valid : q.Valid p state net spec req) (encoded : p.envelopeToBase64 (.tx ⟨q.transaction,[]⟩) = .ok b64) :
    Comes p state net request fun t => t.rest = .pure (.ok (simulatedResponse p state q.sim b64)) := by
  refine valid.comes readable called fun x prepared same asked => ⟨[],_,?_,fun _ _ _ => nofun,by simp,rfl⟩
  rw [List.append_nil]
  subst same
  exact invokeInner_returns prepared unsigned encoded

theorem quote_of_sent {params : Value} (comes : Comes p state net request fun t => ∃ reply : HttpReply,
      ⟨.post "sendTransaction" params,reply⟩ ∈ t.history) :
    ∃ (spec : ContractSpec) (q : Quote), Readable p state net spec ∧ q.Valid p state net spec req ∧
      SentUnder p state req.secretKey q.transaction params := by
  have holds : Prog.Holds (fun _ _ => True) (Allowed p state req) (Finished p state req) []
      (invokeInner p state req).run := invokeInner_holds
  obtain ⟨_,_,_,started,answered,reach,⟨_,_,_⟩,member,rfl,asked,reply,sent⟩ := comes
  obtain ⟨spec,methods,readable,uses,kept,steps,possible⟩ := task_runs started answered reach member called
  have constant := constant_of_possible kept possible
  obtain ⟨before,after,split⟩ := List.append_of_mem sent
  dsimp only at split
  subst split
  have issued := holds.allowed_of_issues steps.issues_of_split fun _ _ => trivial
  obtain ⟨x,sub,valid,signed,trace,rfl⟩ := issued.1 rfl
  rw [List.nil_append] at trace
  subst trace
  have quoted := valid.quote uses (answeredBy_append.mp asked).1 (Prog.reliable_append_iff.mp constant).1
  exact ⟨spec,x.quote,readable,quoted,sub.secretKey,sub.seed,sub.signature,sub.envelope,signed.secretKey,signed.seed,
    signed.signature,signed.envelope,rfl⟩

theorem sent_of_quote (signs : req.sign = true) {q : Quote} {params : Value} (readable : Readable p state net spec)
    (valid : q.Valid p state net spec req) (under : SentUnder p state req.secretKey q.transaction params) :
    Comes p state net request fun t => ∃ reply : HttpReply, ⟨.post "sendTransaction" params,reply⟩ ∈ t.history := by
  obtain ⟨text,seed,signature,b64,keyOk,seedOk,signed,encoded,rfl⟩ := under
  refine valid.comes readable called fun x prepared same asked => ?_
  subst same
  have sub : Submission.Valid p state req x ⟨text,seed,signature,b64⟩ := ⟨signs,keyOk,seedOk,signed,encoded⟩
  obtain ⟨next,steps⟩ := invokeInner_sends prepared sub
  let reply : HttpReply := net "sendTransaction" (transactionParams b64)
  refine ⟨[⟨.post "sendTransaction" (transactionParams b64),reply⟩],next reply,steps.snoc reply,
    answeredBy_post.mpr rfl,?_,reply,List.mem_append_right _ (List.mem_singleton_self _)⟩
  intro e member
  obtain rfl := List.mem_singleton.mp member
  exact ⟨_,_,rfl⟩

variable {q : Quote} (readable : Readable p state net spec) (valid : q.Valid p state net spec req)
include readable valid

/-- Where the network has a quote, every run to an end has come by its preparation. -/
theorem runs_of_quote {events : Events} {initial : Shared} {s : Server}
    {t : Task Resp Request (Except AppError Value)} {result : Except AppError Value}
    (started : Started p state events initial) (answered : AnsweredBy net events)
    (reach : Server.Reachable p state initial s) (member : t ∈ s.tasks) (same : t.request = request)
    (asked : AnsweredBy net t.history) (ended : t.rest = .pure result) :
    ∃ x : Preparation, x.Valid p state req ∧ x.quote = q ∧
      ∀ rest, Prog.Steps (invokeInner p state req).run x.trace rest →
        ∃ later, t.history = x.trace ++ later ∧ Prog.Runs rest later result := by
  rw [← same] at called
  obtain ⟨read,methods,readable',uses,kept,steps,possible⟩ := task_runs started answered reach member called
  obtain rfl := readable.unique readable'
  obtain ⟨_,hashOk⟩ : ∃ wasmHash, parseWasmHash p (normalizeHash p state.contractWasmHash) = .ok wasmHash := by
    obtain ⟨wasmHash,_,_,_,hashOk,_⟩ := readable
    exact ⟨wasmHash,hashOk⟩
  rw [ended] at steps
  refine ⟨q.preparation p state net spec methods,valid.preparation uses hashOk,rfl,fun rest through => ?_⟩
  exact through.agree replies_functional steps (reliable_replies (q.possible kept) (q.answered methods))
    (reliable_replies possible asked)

theorem always_shown (unsigned : req.sign = false) {b64 : String}
    (encoded : p.envelopeToBase64 (.tx ⟨q.transaction,[]⟩) = .ok b64) : Always p state net request fun t =>
      ∀ result, t.rest = .pure result → result = .ok (simulatedResponse p state q.sim b64) := by
  intro events initial s started answered reach t member same asked result ended
  obtain ⟨x,prepared,rfl,runs⟩ := runs_of_quote called readable valid started answered reach member same asked ended
  obtain ⟨later,-,last⟩ := runs _ (invokeInner_returns prepared unsigned encoded)
  exact (Prog.runs_pure_iff.mp last).2

theorem always_sent (signs : req.sign = true) {params : Value}
    (under : SentUnder p state req.secretKey q.transaction params) : Always p state net request fun t =>
      ∀ result, t.rest = .pure result → ∃ reply : HttpReply, ⟨.post "sendTransaction" params,reply⟩ ∈ t.history := by
  intro events initial s started answered reach t member same asked result ended
  obtain ⟨text,seed,signature,b64,keyOk,seedOk,signed,encoded,rfl⟩ := under
  obtain ⟨x,prepared,rfl,runs⟩ := runs_of_quote called readable valid started answered reach member same asked ended
  have sub : Submission.Valid p state req x ⟨text,seed,signature,b64⟩ := ⟨signs,keyOk,seedOk,signed,encoded⟩
  obtain ⟨next,steps⟩ := invokeInner_sends prepared sub
  obtain ⟨later,split,last⟩ := runs _ steps
  obtain ⟨reply,rest,rfl,-⟩ := Prog.runs_op_iff.mp last
  refine ⟨reply,?_⟩
  rw [split]
  exact List.mem_append_right _ List.mem_cons_self

end Called

/-- What the program shows and what it submits, on a network that answers each request in
one way, over all its runs: the transaction of the one quote that the network has for the
call under the interface that can be read there. Where it has one, no run ends otherwise. -/
theorem quotes_on_network {request : Request} (called : request.invocation p = some req) :
    (req.sign = false → ∀ response, Comes p state net request (fun t => t.rest = .pure (.ok response)) ↔
      ∃ (spec : ContractSpec) (q : Quote) (b64 : String), Readable p state net spec ∧ q.Valid p state net spec req ∧
        p.envelopeToBase64 (.tx ⟨q.transaction,[]⟩) = .ok b64 ∧ response = simulatedResponse p state q.sim b64) ∧
    (req.sign = true → ∀ params, Comes p state net request (fun t => ∃ reply : HttpReply,
        ⟨.post "sendTransaction" params,reply⟩ ∈ t.history) ↔
      ∃ (spec : ContractSpec) (q : Quote), Readable p state net spec ∧ q.Valid p state net spec req ∧
        SentUnder p state req.secretKey q.transaction params) ∧
    (∀ spec q, Readable p state net spec → Quote.Valid p state net spec req q →
      (req.sign = false → ∀ b64, p.envelopeToBase64 (.tx ⟨q.transaction,[]⟩) = .ok b64 →
        Always p state net request fun t => ∀ result, t.rest = .pure result →
          result = .ok (simulatedResponse p state q.sim b64)) ∧
      (req.sign = true → ∀ params, SentUnder p state req.secretKey q.transaction params →
        Always p state net request fun t => ∀ result, t.rest = .pure result →
          ∃ reply : HttpReply, ⟨.post "sendTransaction" params,reply⟩ ∈ t.history)) ∧
    ∀ first second q other, Readable p state net first → Readable p state net second →
      Quote.Valid p state net first req q → Quote.Valid p state net second req other → q = other := by
  refine ⟨fun unsigned response => ⟨quote_of_shown called unsigned,?_⟩,fun signs params => ⟨quote_of_sent called,?_⟩,
    fun spec q readable valid => ⟨fun unsigned b64 encoded => ?_,fun signs params under => ?_⟩,?_⟩
  · rintro ⟨spec,q,b64,readable,valid,encoded,rfl⟩
    exact shown_of_quote called unsigned readable valid encoded
  · rintro ⟨spec,q,readable,valid,under⟩
    exact sent_of_quote called signs readable valid under
  · exact always_shown called readable valid unsigned encoded
  · exact always_sent called readable valid signs under
  · intro first second q other readable readable' valid also
    obtain rfl := readable.unique readable'
    exact valid.unique also

namespace Reference

/-- A network whose simulations all write. -/
def network : Network := fun method params =>
  if method = "getLedgerEntries" then
    match params with
    | .object [("keys", .array [.string key])] =>
      .response 200 (entriesText (if key = codeKeyXdr then codeEntryXdr else accountEntryXdr))
    | _ => .transport "unsupported"
  else .response 200 (simulationText writingXdr)

/-- `POST /api/ping`. -/
def post : Request := .invokePost "ping" [(headerSourceAccount, sourceAccountBytes)] .empty

theorem post_called : post.invocation platform = some (request true).unsigned := by
  have header : headerToStr sourceAccountBytes = some sourceAccount := by decide +kernel
  rw [post,Request.invocation,headers_read header]
  rfl

theorem network_readable : Readable platform Reference.state network Reference.spec :=
  ⟨_,_,_,_,parseWasmHash_known,rfl,code_known,rfl,rfl⟩

theorem not_getter (f : ScSpecFunctionV0) : ¬Getter platform network Reference.state.contractId f := by
  rintro ⟨_,b64,_,readOnly⟩
  exact writing_not_readOnly readOnly

theorem post_quote :
    preparation.quote.Valid platform Reference.state network Reference.spec (request true).unsigned := by
  have valid : preparation.Valid platform Reference.state (request true).unsigned :=
    (preparation_valid true).resigned false none
  have gate : usesGet preparation.methods "ping" = false := by decide
  have uses : usesGet preparation.methods "ping" = true ↔
      ∃ f, lastFunction Reference.spec "ping" = some f ∧ Getter platform network Reference.state.contractId f := by
    rw [gate]
    refine iff_of_false Bool.false_ne_true ?_
    rintro ⟨f,_,getter⟩
    exact not_getter f getter
  apply valid.quote uses
  · intro method params reply member
    simp only [Preparation.trace, Preparation.beforeSimulation, preparation, List.mem_append, List.mem_cons,
      List.not_mem_nil, or_false] at member
    rcases member with (same | same | same) | same <;> cases same <;> rfl
  · intro e member
    simp only [Preparation.trace, Preparation.beforeSimulation, preparation, List.mem_append, List.mem_cons,
      List.not_mem_nil, or_false] at member
    rcases member with (rfl | rfl | rfl) | rfl
    · exact fun _ => rfl
    · rfl
    · trivial
    · trivial

theorem quotes_on_network_post :
    (Comes platform Reference.state network post fun t =>
      t.rest = .pure (.ok (simulatedResponse platform Reference.state preparation.sim assembledXdr))) ∧
    Always platform Reference.state network post fun t => ∀ result, t.rest = .pure result →
      result = .ok (simulatedResponse platform Reference.state preparation.sim assembledXdr) := by
  obtain ⟨shown,_,always,_⟩ := quotes_on_network post_called
  constructor
  · exact (shown rfl _).mpr ⟨_,_,_,network_readable,post_quote,rfl,rfl⟩
  · exact (always _ _ network_readable post_quote).1 rfl _ rfl

end Reference

end SorobanProxy
