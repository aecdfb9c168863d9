import SorobanProxy.Progress
import SorobanProxy.Envelope
import SorobanProxy.Secrecy

/-! Every submission of a server is accounted for by a signed request: it is made once, in
its request's own run, and of the transaction that an unsigned request would have been
shown. -/
namespace SorobanProxy

open Library
open RpcClient (transactionParams)

variable {p : Platform} {state : AppState}

def Request.signs (p : Platform) (request : Request) : Bool := (request.invocation p).any InvokeRequest.sign

/-- A submission that a call asks for: the history before it prepares the transaction from
the interface and the classification, and the parameters are its signed envelope. -/
def AsksFor (p : Platform) (state : AppState) (spec : ContractSpec) (methods : OrdMap String Bool)
    (request : Request) (before : Events) (params : Value) : Prop :=
  ∃ (req : InvokeRequest) (x : Preparation) (sub : Submission), request.invocation p = some req ∧
    x.spec = spec ∧ x.methods = methods ∧ x.Valid p state req ∧ sub.Valid p state req x ∧
    before = x.trace ∧ params = transactionParams sub.envelope

theorem Probed.calls {contractId method : String} {fs : List ScSpecFunctionV0} {probes : Events}
    {outcomes : Entries String Bool} (probed : Probed p contractId fs probes outcomes)
    (other : "simulateTransaction" ≠ method) : calls method probes = [] := by
  induction probed with
  | nil => rfl
  | cons probe _ ih =>
    rw [calls_append,ih]
    cases probe <;> simp [SorobanProxy.calls,other]

section Kept

variable {spec : ContractSpec} {methods : OrdMap String Bool} {a : Shared} {wasmHash : Bytes32} {s : Server}
  {t : Task Resp Request (Except AppError Value)}
  (kept : Kept (normalizeHash p state.contractWasmHash) spec methods a)

/-- A lookup that the locks answer finds the interface. -/
theorem SpecLookup.spec_eq {wasmHashHex : String} {lookup : Events} {found : ContractSpec}
    (looked : SpecLookup p wasmHashHex lookup found)
    (reliable : Prog.Reliable (Constant (normalizeHash p wasmHashHex) spec methods) lookup) : found = spec := by
  cases looked with
  | cached => exact Option.some.inj (reliable _ List.mem_cons_self rfl)
  | fetched => exact nomatch reliable _ List.mem_cons_self rfl

include kept in
theorem constant_of_possible {history : Events} (reliable : Prog.Reliable (System.Possible Answers a) history) :
    Prog.Reliable (Constant (normalizeHash p state.contractWasmHash) spec methods) history := by
  intro e member
  obtain ⟨b,answer⟩ := reliable e member
  exact kept.constant answer

theorem count_of_none {request : Request} {call : Bool → Nat} (other : request.invocation p = none) :
    request.count p 0 call = 0 := by
  cases request with
  | health | getNetwork | getSpec | getFunctions => rfl
  | invokeGet | invokePost => simp [Request.count,other]

theorem count_of_some {request : Request} {req : InvokeRequest} {network : Nat} {call : Bool → Nat}
    (called : request.invocation p = some req) : request.count p network call = call req.sign := by
  cases request with
  | health | getNetwork | getSpec | getFunctions => cases called
  | invokeGet | invokePost => simp [Request.count,called]

variable (hashOk : parseWasmHash p (normalizeHash p state.contractWasmHash) = .ok wasmHash)
  (reach : Server.Reachable p state a s) (member : t ∈ s.tasks)
include kept hashOk reach member

theorem asksFor_of_send {before after : Events} {params : Value} {reply : HttpReply}
    (sent : t.history = before ++ ⟨.post "sendTransaction" params,reply⟩ :: after) :
    AsksFor p state spec methods t.request before params := by
  obtain ⟨-,ran⟩ := (System.reachable_iff (fixed_of_kept kept)).mp reach
  obtain ⟨steps,reliable⟩ := ran t member
  cases called : t.request.invocation p with
  | none =>
    have most := length_calls_le kept hashOk reach member "sendTransaction"
    rw [if_neg (by decide),count_of_none called,sent,calls_append] at most
    simp [calls] at most
  | some req =>
    rw [sent] at steps reliable
    change Prog.Steps (t.request.handler p state).run _ _ at steps
    rw [Request.handler_invocation called] at steps
    have holds : Prog.Holds (fun _ _ => True) (Allowed p state req) (Finished p state req) []
        (invokeInner p state req).run := invokeInner_holds
    have issued := holds.allowed_of_issues steps.issues_of_split fun _ _ => trivial
    obtain ⟨x,sub,valid,signed,trace,rfl⟩ := issued.1 rfl
    rw [List.nil_append] at trace
    subst trace
    have constant := constant_of_possible kept (Prog.reliable_append_iff.mp reliable).1
    rw [Preparation.trace,Preparation.beforeSimulation,Prog.reliable_append_iff,Prog.reliable_append_iff] at constant
    obtain ⟨⟨looked,read⟩,-⟩ := constant
    exact ⟨req,x,sub,called,valid.requested.lookup.spec_eq looked,(Prog.reliable_cons_iff.mp read).1,valid,signed,rfl,
      rfl⟩

/-- A request submits once where it is a signed call, and else never. -/
theorem length_sends_le : (calls "sendTransaction" t.history).length ≤ if t.request.signs p then 1 else 0 := by
  refine (length_calls_le kept hashOk reach member "sendTransaction").trans ?_
  rw [if_neg (by decide),Request.signs]
  cases called : t.request.invocation p with
  | none =>
    rw [count_of_none called]
    exact Nat.le_refl 0
  | some req =>
    rw [count_of_some called,Option.any_some]
    cases req.sign <;> decide

end Kept

theorem length_flatMap_le {α β : Type} {f : α → List β} {counted : α → Bool} {items : List α}
    (each : ∀ a ∈ items, (f a).length ≤ if counted a then 1 else 0) :
    (items.flatMap f).length ≤ (items.filter counted).length := by
  induction items with
  | nil => exact Nat.le_refl 0
  | cons a items ih =>
    obtain ⟨head,tail⟩ := List.forall_mem_cons.mp each
    rw [List.flatMap_cons,List.length_append,List.filter_cons]
    have rest := ih tail
    split_ifs with counts
    · rw [if_pos counts] at head
      rw [List.length_cons]
      omega
    · rw [if_neg counts] at head
      omega

/-- Over the life of the server, startup included, and whatever runs side by side: every
submission is one that a signed call asks for, under the interface and the classification of
startup, and there are no more submissions than signed calls. -/
theorem submissions_accounted {events : Events} {initial : Shared} (started : Started p state events initial) :
    calls "sendTransaction" events = [] ∧
    ∃ spec methods, Kept (normalizeHash p state.contractWasmHash) spec methods initial ∧
      ∀ s, Server.Reachable p state initial s →
        (∀ t ∈ s.tasks, ∀ before after params reply,
          t.history = before ++ ⟨.post "sendTransaction" params,reply⟩ :: after →
          AsksFor p state spec methods t.request before params) ∧
        (s.tasks.flatMap fun t => calls "sendTransaction" t.history).length ≤
          (s.tasks.filter fun t => t.request.signs p).length := by
  obtain ⟨lookup,spec,probes,_,found,probed,rfl,kept⟩ := started.kept
  obtain ⟨_,hashOk⟩ := found.hashOk
  constructor
  · rw [calls_append,calls_append,found.calls (by decide),probed.calls (by decide)]
    rfl
  · refine ⟨spec,_,kept,fun s reach => ⟨fun t member before after params reply sent => ?_,?_⟩⟩
    · exact asksFor_of_send kept hashOk reach member sent
    · exact length_flatMap_le fun t member => length_sends_le kept hashOk reach member

def InvokeRequest.unsigned (req : InvokeRequest) : InvokeRequest := { req with sign := false, secretKey := none }

def InvokeRequest.signedWith (req : InvokeRequest) (key : String) : InvokeRequest :=
  { req with sign := true, secretKey := some key }

/-- The unsigned request answers with this transaction. -/
def Shows (p : Platform) (state : AppState) (req : InvokeRequest) (events : Events) (b64 : String) : Prop :=
  ∃ response, Prog.Runs (invokeInner p state req.unsigned).run events (.ok response) ∧
    response.get "transaction_xdr" = some (.string b64)

/-- The request that is signed with the key submits this. -/
def Submits (p : Platform) (state : AppState) (req : InvokeRequest) (key : String) (events : Events)
    (params : Value) : Prop :=
  Prog.Issues (invokeInner p state (req.signedWith key)).run events (.post "sendTransaction" params)

section Preview

variable {req : InvokeRequest} {key : String} {events : Events}

/-- Preparing a transaction reads neither the flag nor the key. -/
theorem Preparation.Valid.resigned {x : Preparation} (valid : x.Valid p state req) (sign : Bool)
    (secretKey : Option String) : x.Valid p state { req with sign, secretKey } :=
  ⟨⟨valid.requested.lookup,valid.requested.function,valid.requested.gate,valid.requested.args,valid.requested.arity,
    valid.requested.source,valid.requested.accountKey,valid.requested.seqNum,valid.requested.contract,
    valid.requested.symbol,valid.requested.unsigned⟩,valid.simulated⟩

/-- One trace prepares one transaction. -/
theorem Preparation.Valid.assembled_eq {x y : Preparation} (left : x.Valid p state req) (right : y.Valid p state req)
    (same : x.trace = y.trace) : x.assembled = y.assembled := by
  obtain ⟨before,last⟩ := List.append_inj' same rfl
  have calls : x.call = y.call := left.requested.call_eq right.requested before
  have replies : x.simReply = y.simReply := by
    simp only [List.cons.injEq, Event.mk.injEq, heq_eq_eq, and_true] at last
    exact last.2
  have raws : x.sim.raw = y.sim.raw := by
    have answered := left.simulated.answered
    rw [replies,right.simulated.answered] at answered
    exact (Except.ok.inj answered).symm
  have sims : x.sim = y.sim := by
    have parsed := left.simulated.parsed
    rw [raws,right.simulated.parsed] at parsed
    exact (Except.ok.inj parsed).symm
  have fees : x.fee = y.fee := by
    have first := left.simulated.fee
    have second := right.simulated.fee
    rw [sims,← second] at first
    exact UInt32.toNat_inj.mp (Int.ofNat_inj.mp first)
  have auths : x.auth = y.auth := by
    have decoded := mapM_eq_ok_iff.mpr left.simulated.auth
    rw [sims,mapM_eq_ok_iff.mpr right.simulated.auth] at decoded
    exact (Except.ok.inj decoded).symm
  rw [assembled,assembled,calls,sims,fees,auths]

theorem shows_iff {b64 : String} : Shows p state req events b64 ↔
    ∃ x : Preparation, x.Valid p state req ∧ events = x.trace ∧
      p.envelopeToBase64 (.tx ⟨x.assembled,[]⟩) = .ok b64 := by
  constructor
  · rintro ⟨response,run,shown⟩
    have holds : Prog.Holds (fun _ _ => True) (Allowed p state req.unsigned) (Finished p state req.unsigned) []
        (invokeInner p state req.unsigned).run := invokeInner_holds
    rcases holds.post_of_runs run fun _ _ => trivial with
      ⟨_,x,text,valid,trace,encoded,rfl⟩ | ⟨_,hash,_,_,resp,_,_,_,_,_,rfl⟩
    · rw [get_transactionXdr] at shown
      obtain rfl := Value.string.inj (Option.some.inj shown)
      exact ⟨x,valid.resigned req.sign req.secretKey,trace,encoded⟩
    · rw [get_transactionXdr_submitted] at shown
      cases shown
  · rintro ⟨x,valid,rfl,encoded⟩
    have valid : x.Valid p state req.unsigned := valid.resigned false none
    exact ⟨_,invokeInner_returns valid rfl encoded,get_transactionXdr _ _⟩

theorem submits_iff {params : Value} : Submits p state req key events params ↔
    ∃ x : Preparation, x.Valid p state req ∧ events = x.trace ∧ SentUnder p state (some key) x.assembled params := by
  constructor
  · intro issued
    have holds : Prog.Holds (fun _ _ => True) (Allowed p state (req.signedWith key))
        (Finished p state (req.signedWith key)) [] (invokeInner p state (req.signedWith key)).run := invokeInner_holds
    obtain ⟨x,sub,valid,signed,trace,rfl⟩ := (holds.allowed_of_issues issued fun _ _ => trivial).1 rfl
    rw [List.nil_append] at trace
    exact ⟨x,valid.resigned req.sign req.secretKey,trace,sub.secretKey,sub.seed,sub.signature,sub.envelope,
      signed.secretKey,signed.seed,signed.signature,signed.envelope,rfl⟩
  · rintro ⟨x,valid,rfl,text,seed,signature,b64,keyOk,seedOk,signed,encoded,rfl⟩
    have valid : x.Valid p state (req.signedWith key) := valid.resigned true (some key)
    exact invokeInner_sends (s := ⟨text,seed,signature,b64⟩) valid ⟨rfl,keyOk,seedOk,signed,encoded⟩

/-- What is shown is what is submitted: after the replies on which the unsigned request
shows a transaction, the signed one submits that very transaction under one signature, and
on the replies on which it submits one, the unsigned request shows it. -/
theorem shown_is_submitted :
    (∀ b64, Shows p state req events b64 → ∃ tx, p.envelopeToBase64 (.tx ⟨tx,[]⟩) = .ok b64 ∧
      ∀ params, Submits p state req key events params ↔ SentUnder p state (some key) tx params) ∧
    ∀ params, Submits p state req key events params → ∃ tx, SentUnder p state (some key) tx params ∧
      ∀ b64, Shows p state req events b64 ↔ p.envelopeToBase64 (.tx ⟨tx,[]⟩) = .ok b64 := by
  constructor
  · intro b64 shown
    obtain ⟨x,valid,rfl,encoded⟩ := shows_iff.mp shown
    refine ⟨x.assembled,encoded,fun params => submits_iff.trans ⟨?_,fun sent => ⟨x,valid,rfl,sent⟩⟩⟩
    rintro ⟨y,valid',trace,sent⟩
    rwa [valid.assembled_eq valid' trace]
  · intro params submitted
    obtain ⟨x,valid,rfl,sent⟩ := submits_iff.mp submitted
    refine ⟨x.assembled,sent,fun b64 => shows_iff.trans ⟨?_,fun encoded => ⟨x,valid,rfl,encoded⟩⟩⟩
    rintro ⟨y,valid',trace,encoded⟩
    rwa [valid.assembled_eq valid' trace]

end Preview

namespace Reference

theorem ping_shows : Shows platform Reference.state (request true) preparation.trace assembledXdr :=
  shows_iff.mpr ⟨preparation,preparation_valid true,rfl,rfl⟩

theorem ping_submits :
    Submits platform Reference.state (request true) secretKey preparation.trace (transactionParams signedXdr) := by
  have sub := submission_valid
  exact submits_iff.mpr ⟨preparation,preparation_valid true,rfl,secretKey,seed,submission.signature,signedXdr,rfl,
    sub.seed,sub.signature,sub.envelope,rfl⟩

theorem shown_is_submitted_ping :
    (∃ tx, platform.envelopeToBase64 (.tx ⟨tx,[]⟩) = .ok assembledXdr ∧
      ∀ params, Submits platform Reference.state (request true) secretKey preparation.trace params ↔
        SentUnder platform Reference.state (some secretKey) tx params) ∧
    ∃ tx, SentUnder platform Reference.state (some secretKey) tx (transactionParams signedXdr) ∧
      ∀ b64, Shows platform Reference.state (request true) preparation.trace b64 ↔
        platform.envelopeToBase64 (.tx ⟨tx,[]⟩) = .ok b64 :=
  ⟨shown_is_submitted.1 _ ping_shows,shown_is_submitted.2 _ ping_submits⟩

end Reference

theorem submissions_accounted_ping :
    calls "sendTransaction" (pingLookup ++ [pingProbe] ++ [⟨.writeMethods pingMethods,()⟩]) = [] ∧
    ∃ spec methods,
      Kept (normalizeHash Reference.platform Reference.state.contractWasmHash) spec methods pingShared ∧
      ∀ s, Server.Reachable Reference.platform Reference.state pingShared s →
        (∀ t ∈ s.tasks, ∀ before after params reply,
          t.history = before ++ ⟨.post "sendTransaction" params,reply⟩ :: after →
          AsksFor Reference.platform Reference.state spec methods t.request before params) ∧
        (s.tasks.flatMap fun t => calls "sendTransaction" t.history).length ≤
          (s.tasks.filter fun t => t.request.signs Reference.platform).length := submissions_accounted ping_started

end SorobanProxy
