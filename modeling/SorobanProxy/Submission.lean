import SorobanProxy.Pipeline

/-! Submission safety of one request, over all its traces: nothing is sent unless asked for,
nothing is sent twice, and the answer is the first final one. -/
namespace SorobanProxy

open Library
open RpcClient (transactionParams hashParams)

/-- The remote calls of a method, with their parameters and replies, in order. -/
def calls (method : String) (events : Events) : List (Value × HttpReply) :=
  events.filterMap fun
    | ⟨.post other params,reply⟩ => if other = method then some (params, reply) else none
    | _ => none

variable {p : Platform} {state : AppState} {req : InvokeRequest} {method : String}

theorem calls_append (first second : Events) :
    calls method (first ++ second) = calls method first ++ calls method second := List.filterMap_append

theorem SpecLookup.calls {wasmHashHex : String} {lookup : Events} {spec : ContractSpec}
    (found : SpecLookup p wasmHashHex lookup spec) (other : "getLedgerEntries" ≠ method) :
    calls method lookup = [] := by
  cases found <;> simp [SorobanProxy.calls,other]

/-- No transaction is sent or asked for in a preparation. -/
theorem Preparation.Valid.calls {x : Preparation} (valid : x.Valid p state req)
    (ledger : "getLedgerEntries" ≠ method) (simulation : "simulateTransaction" ≠ method) :
    calls method x.trace = [] := by
  rw [Preparation.trace,Preparation.beforeSimulation,calls_append,calls_append,
    valid.requested.lookup.calls ledger]
  simp [SorobanProxy.calls,ledger,simulation]

theorem calls_polls_other (other : "getTransaction" ≠ method) (hash : String) (replies : List HttpReply) :
    calls method (polls hash replies) = [] := by
  simp [calls,polls,List.filterMap_flatMap,other]

theorem calls_polls (hash : String) (replies : List HttpReply) :
    calls "getTransaction" (polls hash replies) = replies.map fun reply => (hashParams hash, reply) := by
  induction replies with
  | nil => rfl
  | cons reply rest ih =>
    rw [show polls hash (reply :: rest) = [⟨.sleep 1000,()⟩, ⟨.post "getTransaction" (hashParams hash),reply⟩] ++
      polls hash rest from rfl,calls_append,ih]
    rfl

/-- One transaction was sent, its submission was accepted, and none was asked for. -/
theorem Sent.calls {sent : Events} {hash : String} (accepted : Sent p state req sent hash) :
    calls "getTransaction" sent = [] ∧ ∃ params reply resp, calls "sendTransaction" sent = [(params, reply)] ∧
      replyResult p "sendTransaction" reply = .ok resp ∧ resp.getStr "status" ≠ some "ERROR" ∧
      resp.getStr "hash" = some hash := by
  obtain ⟨x,s,reply,resp,valid,_,answered,status,hashOk,rfl⟩ := accepted
  constructor
  · rw [calls_append,valid.calls (by decide) (by decide)]
    rfl
  · refine ⟨transactionParams s.envelope,reply,resp,?_,answered,status,hashOk⟩
    rw [calls_append,valid.calls (by decide) (by decide)]
    rfl

theorem getStr_submitted (hash : String) (resp : Value) :
    (submittedResponse p hash resp).get "status" = some (.string ((resp.getStr "status").getD "UNKNOWN")) ∧
    (submittedResponse p hash resp).get "raw" = some resp := by
  constructor <;> apply Value.get_obj <;> simp [Value.str]

theorem status_of_pollStatus {resp : Value} (final : pollStatus resp ≠ "NOT_FOUND") :
    ∃ status, resp.getStr "status" = some status ∧ status ≠ "NOT_FOUND" := by
  unfold pollStatus at final
  cases found : resp.getStr "status" with
  | none => simp [found] at final
  | some status => exact ⟨status,rfl,by simpa [found] using final⟩

/-- (a) Without the sign flag nothing is sent. (b) A send is the first one, and it comes
right after a valid preparation whose transaction it carries, signed with the decoded key.
(c) A transaction is asked for by the hash that the one accepted send answered, at most
thirty times. (d) A signed response reports the last reply that was asked for, and every
reply before it had no status but NOT_FOUND. -/
theorem submission_safe :
    (req.sign = false → ∀ history params,
      ¬Prog.Issues (invokeInner p state req).run history (.post "sendTransaction" params)) ∧
    (∀ history params, Prog.Issues (invokeInner p state req).run history (.post "sendTransaction" params) →
      calls "sendTransaction" history = [] ∧
      ∃ (x : Preparation) (secretKey : String) (seed : Bytes32) (signature : DecoratedSignature) (b64 : String),
        x.Valid p state req ∧ history = x.trace ∧ req.secretKey = some secretKey ∧
        p.seedFromString secretKey = some seed ∧ p.envelopeToBase64 (.tx ⟨x.assembled,[signature]⟩) = .ok b64 ∧
        params = transactionParams b64) ∧
    (∀ history params, Prog.Issues (invokeInner p state req).run history (.post "getTransaction" params) →
      (calls "getTransaction" history).length < 30 ∧
      ∃ sentParams reply resp hash, calls "sendTransaction" history = [(sentParams, reply)] ∧
        replyResult p "sendTransaction" reply = .ok resp ∧ resp.getStr "status" ≠ some "ERROR" ∧
        resp.getStr "hash" = some hash ∧ params = hashParams hash) ∧
    (req.sign = true → ∀ history response, Prog.Runs (invokeInner p state req).run history (.ok response) →
      ∃ earlier params reply resp status, calls "getTransaction" history = earlier ++ [(params, reply)] ∧
        (∀ before ∈ earlier, NotFound p before.2) ∧ replyResult p "getTransaction" reply = .ok resp ∧
        resp.getStr "status" = some status ∧ status ≠ "NOT_FOUND" ∧
        response.get "status" = some (.string status) ∧ response.get "raw" = some resp) := by
  have holds : Prog.Holds (fun _ _ => True) (Allowed p state req) (Finished p state req) []
      (invokeInner p state req).run := invokeInner_holds
  have reliable (events : Events) : Prog.Reliable (fun _ _ => True) events := fun _ _ => trivial
  refine ⟨?_,?_,?_,?_⟩
  · intro unsigned history params run
    obtain ⟨x,s,_,signed,_⟩ := (holds.allowed_of_issues run (reliable _)).1 rfl
    rw [signed.sign] at unsigned
    cases unsigned
  · intro history params run
    obtain ⟨x,s,valid,signed,trace,rfl⟩ := (holds.allowed_of_issues run (reliable _)).1 rfl
    rw [List.nil_append] at trace
    refine ⟨?_,x,s.secretKey,s.seed,s.signature,s.envelope,valid,trace,signed.secretKey,signed.seed,
      signed.envelope,rfl⟩
    rw [trace]
    exact valid.calls (by decide) (by decide)
  · intro history params run
    obtain ⟨sent,hash,replies,accepted,_,counted,trace,rfl⟩ := (holds.allowed_of_issues run (reliable _)).2 rfl
    rw [List.nil_append] at trace
    obtain ⟨unasked,sentParams,reply,resp,once,answered,status,hashOk⟩ := accepted.calls
    subst trace
    constructor
    · rw [calls_append,calls_append,unasked,calls_polls]
      simpa [calls,pollTurns] using counted
    · refine ⟨sentParams,reply,resp,hash,?_,answered,status,hashOk,rfl⟩
      rw [calls_append,calls_append,once,calls_polls_other (by decide)]
      rfl
  · intro signed history response run
    have finished := holds.post_of_runs run (reliable _)
    rcases finished with ⟨unsigned,_⟩ | ⟨sent,hash,replies,reply,resp,accepted,earlier,answered,final,trace,rfl⟩
    · rw [signed] at unsigned
      cases unsigned
    · rw [List.nil_append] at trace
      subst trace
      obtain ⟨status,found,other⟩ := status_of_pollStatus final
      obtain ⟨unasked,_⟩ := accepted.calls
      obtain ⟨reported,raw⟩ := getStr_submitted (p := p) hash resp
      rw [found] at reported
      refine ⟨replies.map fun reply => (hashParams hash, reply),hashParams hash,reply,resp,status,?_,?_,answered,
        found,other,reported,raw⟩
      · rw [calls_append,unasked,calls_polls]
        simp
      · intro before member
        obtain ⟨reply,inside,rfl⟩ := List.mem_map.mp member
        exact earlier reply inside

end SorobanProxy
