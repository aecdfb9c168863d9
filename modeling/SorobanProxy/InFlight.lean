import Mathlib.Data.List.Infix
import SorobanProxy.Submission
import SorobanProxy.Reference

/-! What the caller learns of a transaction that is in flight. Once a submission is accepted
the request polls for its hash: the response and the timeout carry the hash, and the error
of a failed poll carries only what the failed call says. -/
namespace SorobanProxy

open Library
open RpcClient (transactionParams hashParams)

variable {p : Platform} {state : AppState} {req : InvokeRequest} {hash : String}

theorem contains_iff {s fragment : String} : contains s fragment = true ↔ fragment.toList <:+: s.toList := by
  simp only [contains, List.any_eq_true, List.mem_tails, List.isPrefixOf_iff_prefix]
  constructor
  · rintro ⟨tail,ends,starts⟩
    exact starts.isInfix.trans ends.isInfix
  · intro inside
    obtain ⟨tail,starts,ends⟩ := List.infix_iff_prefix_suffix.mp inside
    exact ⟨tail,ends,starts⟩

theorem contains_append (before fragment after : String) :
    contains (before ++ fragment ++ after) fragment = true :=
  contains_iff.mpr ⟨before.toList,after.toList,by simp⟩

/-- What polling comes to with these replies, within the number of turns. -/
inductive Polled (p : Platform) : Nat → List HttpReply → Except AppError (Option Value) → Prop where
  | timeout : Polled p 0 [] (.ok none)
  | failed : replyResult p "getTransaction" reply = .error message →
      Polled p (turns + 1) [reply] (.error (.upstream message))
  | final : replyResult p "getTransaction" reply = .ok resp → pollStatus resp ≠ "NOT_FOUND" →
      Polled p (turns + 1) [reply] (.ok (some resp))
  | again : NotFound p reply → Polled p turns replies outcome → Polled p (turns + 1) (reply :: replies) outcome

/-- Polling ends with an error exactly when one of its calls fails, and with its error. -/
theorem Polled.error_iff {turns : Nat} {replies : List HttpReply} {outcome : Except AppError (Option Value)}
    (polled : Polled p turns replies outcome) {e : AppError} : outcome = .error e ↔
      ∃ reply ∈ replies, ∃ message, replyResult p "getTransaction" reply = .error message ∧ e = .upstream message := by
  induction polled with
  | timeout => simp
  | failed answered => simp [answered,eq_comm]
  | final answered _ => simp [answered]
  | again waiting _ ih =>
    obtain ⟨resp,answered,_⟩ := waiting
    simp [ih,answered]

/-- What a turn of the polling loop does after its reply. -/
def AfterPoll (p : Platform) (hash : String) (turns : Nat) (reply : HttpReply) (rest : Events)
    (outcome : Except AppError (Option Value)) : Prop :=
  match replyResult p "getTransaction" reply with
  | .error message => rest = [] ∧ outcome = .error (.upstream message)
  | .ok resp =>
    if pollStatus resp = "NOT_FOUND" then Prog.Runs (pollTransaction p hash turns).run rest outcome
    else rest = [] ∧ outcome = .ok (some resp)

theorem runs_pollTurn_iff {turns : Nat} {events : Events} {outcome : Except AppError (Option Value)} :
    Prog.Runs (pollTransaction p hash (turns + 1)).run events outcome ↔ ∃ (reply : HttpReply) (rest : Events),
      events = ⟨.sleep 1000,()⟩ :: ⟨.post "getTransaction" (hashParams hash),reply⟩ :: rest ∧
      AfterPoll p hash turns reply rest outcome := by
  have shape : (pollTransaction p hash (turns + 1)).run =
      .op (.sleep 1000) fun _ => .op (.post "getTransaction" (hashParams hash)) fun (reply : HttpReply) =>
        (Prog.ofResult ((replyResult p "getTransaction" reply).mapError AppError.upstream) >>= fun resp =>
          if pollStatus resp = "NOT_FOUND" then pollTransaction p hash turns else pure (some resp)).run := rfl
  have after (reply : HttpReply) (rest : Events) : Prog.Runs
      (Prog.ofResult ((replyResult p "getTransaction" reply).mapError AppError.upstream) >>= fun resp =>
        if pollStatus resp = "NOT_FOUND" then pollTransaction p hash turns else pure (some resp)).run rest outcome ↔
      AfterPoll p hash turns reply rest outcome := by
    unfold AfterPoll
    cases replyResult p "getTransaction" reply with
    | error message => exact Prog.runs_pure_iff
    | ok resp =>
      simp only [Except.mapError, Prog.ofResult_ok_bind]
      by_cases waiting : pollStatus resp = "NOT_FOUND"
      · rw [if_pos waiting,if_pos waiting]
      · rw [if_neg waiting,if_neg waiting]
        exact Prog.runs_pure_iff
  rw [shape,Prog.runs_op_iff]
  simp only [Prog.runs_op_iff, after]
  constructor
  · rintro ⟨_,_,rfl,reply,rest,rfl,turn⟩
    exact ⟨reply,rest,rfl,turn⟩
  · rintro ⟨reply,rest,rfl,turn⟩
    exact ⟨(),_,rfl,reply,rest,rfl,turn⟩

/-- The runs of the polling loop, by the replies it gets. -/
theorem runs_pollTransaction_iff {turns : Nat} {events : Events} {outcome : Except AppError (Option Value)} :
    Prog.Runs (pollTransaction p hash turns).run events outcome ↔
      ∃ replies, events = polls hash replies ∧ Polled p turns replies outcome := by
  induction turns generalizing events with
  | zero =>
    change Prog.Runs (.pure (.ok none)) events outcome ↔ _
    rw [Prog.runs_pure_iff]
    constructor
    · rintro ⟨rfl,rfl⟩
      exact ⟨[],rfl,.timeout⟩
    · rintro ⟨replies,rfl,polled⟩
      cases polled
      exact ⟨rfl,rfl⟩
  | succ turns ih =>
    rw [runs_pollTurn_iff]
    constructor
    · rintro ⟨reply,rest,rfl,turn⟩
      unfold AfterPoll at turn
      cases answered : replyResult p "getTransaction" reply with
      | error message =>
        rw [answered] at turn
        obtain ⟨rfl,rfl⟩ := turn
        exact ⟨[reply],rfl,.failed answered⟩
      | ok resp =>
        simp only [answered] at turn
        split_ifs at turn with waiting
        · obtain ⟨replies,rfl,polled⟩ := ih.mp turn
          exact ⟨reply :: replies,rfl,.again ⟨resp,answered,waiting⟩ polled⟩
        · obtain ⟨rfl,rfl⟩ := turn
          exact ⟨[reply],rfl,.final answered waiting⟩
    · rintro ⟨_,rfl,polled⟩
      cases polled with
      | @failed reply _ _ answered => exact ⟨reply,[],rfl,by simp [AfterPoll,answered]⟩
      | @final reply _ _ answered done => exact ⟨reply,[],rfl,by simp [AfterPoll,answered,done]⟩
      | @again reply _ replies _ waiting polled =>
        obtain ⟨resp,answered,waiting⟩ := waiting
        refine ⟨reply,polls hash replies,rfl,?_⟩
        simp only [AfterPoll, answered, if_pos waiting]
        exact ih.mpr ⟨replies,rfl,polled⟩

/-- The result of the request, by what polling came to. -/
def polledResult (p : Platform) (hash : String) : Except AppError (Option Value) → Except AppError Value
  | .ok (some resp) => .ok (submittedResponse p hash resp)
  | .ok none => .error (.upstream
    s!"timed out waiting for transaction {hash} to be included in a ledger; it may still confirm later, check getTransaction manually")
  | .error e => .error e

/-- After an accepted submission the request polls for its hash. -/
theorem submit_polls {envelope : String} {reply : HttpReply} {resp : Value}
    (answered : replyResult p "sendTransaction" reply = .ok resp)
    (accepted : resp.getStr "status" ≠ some "ERROR") (hashOk : resp.getStr "hash" = some hash) :
    Prog.Steps (submit p envelope).run [⟨.post "sendTransaction" (transactionParams envelope),reply⟩]
      (pollTransaction p hash pollTurns >>= fun found => Prog.ofResult (polledResult p hash (.ok found))).run := by
  have status : ¬(resp.getStr "status").getD "UNKNOWN" = "ERROR" := by
    cases found : resp.getStr "status" with
    | none => simp
    | some status => simpa [found] using accepted
  apply Prog.Steps.cons_bind (Prog.runs_mapError (runs_call answered))
  rw [if_neg status]
  apply Prog.Steps.ofResult_bind (okOr_eq_ok_iff.mpr hashOk)
  exact Prog.steps_nil_iff.mpr (congrArg ExceptT.run (bind_congr fun found => by cases found <;> rfl))

/-- The runs of a submission that was accepted. -/
theorem runs_submit_iff {envelope : String} {reply : HttpReply} {resp : Value} {rest : Events}
    {result : Except AppError Value} (answered : replyResult p "sendTransaction" reply = .ok resp)
    (accepted : resp.getStr "status" ≠ some "ERROR") (hashOk : resp.getStr "hash" = some hash) :
    Prog.Runs (submit p envelope).run
      (⟨.post "sendTransaction" (transactionParams envelope),reply⟩ :: rest) result ↔
      ∃ replies outcome, rest = polls hash replies ∧ Polled p pollTurns replies outcome ∧
        result = polledResult p hash outcome := by
  have sent := @submit_polls p hash envelope reply resp answered accepted hashOk
  constructor
  · intro run
    rcases Prog.runs_bind_except_cases (sent.rest run) with ⟨e,polling,rfl⟩ | ⟨first,found,_,rfl,polling,last⟩
    · obtain ⟨replies,rfl,polled⟩ := runs_pollTransaction_iff.mp polling
      exact ⟨replies,.error e,rfl,polled,rfl⟩
    · obtain ⟨replies,rfl,polled⟩ := runs_pollTransaction_iff.mp polling
      obtain ⟨rfl,rfl⟩ := Prog.runs_ofResult_iff.mp last
      exact ⟨replies,.ok found,List.append_nil _,polled,rfl⟩
  · rintro ⟨replies,outcome,rfl,polled,rfl⟩
    have polling : Prog.Runs (pollTransaction p hash pollTurns).run (polls hash replies) outcome :=
      runs_pollTransaction_iff.mpr ⟨replies,rfl,polled⟩
    have after : Prog.Runs (pollTransaction p hash pollTurns >>= fun found =>
        Prog.ofResult (polledResult p hash (.ok found))).run (polls hash replies) (polledResult p hash outcome) := by
      cases outcome with
      | error e => exact Prog.Runs.bind_error polling
      | ok found =>
        rw [← List.append_nil (polls hash replies)]
        exact Prog.Steps.bind_except polling .refl
    exact sent.append after

/-- The hash that a submission was accepted with. -/
def Accepted (p : Platform) (events : Events) (hash : String) : Prop :=
  ∃ call ∈ calls "sendTransaction" events, ∃ resp, replyResult p "sendTransaction" call.2 = .ok resp ∧
    resp.getStr "status" ≠ some "ERROR" ∧ resp.getStr "hash" = some hash

/-- The text of an error. -/
def AppError.message : AppError → String
  | .badRequest message | .notFound message | .methodNotAllowed message | .upstream message
  | .internal message => message

/-- The answer tells the caller the hash. -/
def Carries (hash : String) : Except AppError Value → Prop
  | .ok response => response.get "hash" = some (.string hash)
  | .error e => contains e.message hash = true

theorem polledResult_carries (resp : Option Value) : Carries hash (polledResult p hash (.ok resp)) := by
  cases resp with
  | none => exact contains_append "timed out waiting for transaction " hash _
  | some resp =>
    change (submittedResponse p hash resp).get "hash" = some (.string hash)
    apply Value.get_obj <;> simp [Value.str]

theorem exists_split_of_mem_calls {method : String} {events : Events} {call : Value × HttpReply}
    (member : call ∈ calls method events) :
    ∃ before after, events = before ++ ⟨.post method call.1,call.2⟩ :: after := by
  obtain ⟨⟨o,reply⟩,inside,same⟩ := List.mem_filterMap.mp member
  cases o with
  | post other params =>
    simp only [Option.ite_none_right_eq_some, Option.some.injEq] at same
    obtain ⟨rfl,rfl⟩ := same
    exact List.append_of_mem inside
  | _ => cases same

/-- A run with an accepted submission: the preparation, the submission and the polls. -/
theorem accepted_run {events : Events} {result : Except AppError Value}
    (run : Prog.Runs (invokeInner p state req).run events result) (accepted : Accepted p events hash) :
    ∃ replies outcome, calls "getTransaction" events = replies.map (fun reply => (hashParams hash, reply)) ∧
      Polled p pollTurns replies outcome ∧ result = polledResult p hash outcome := by
  obtain ⟨⟨params,reply⟩,member,resp,answered,status,hashOk⟩ := accepted
  obtain ⟨before,after,rfl⟩ := exists_split_of_mem_calls member
  have holds : Prog.Holds (fun _ _ => True) (Allowed p state req) (Finished p state req) []
      (invokeInner p state req).run := invokeInner_holds
  have allowed := holds.allowed_of_issues run.issues_of_split fun _ _ => trivial
  obtain ⟨x,s,valid,signed,trace,rfl⟩ := allowed.1 rfl
  rw [List.nil_append] at trace
  subst trace
  obtain ⟨replies,outcome,rfl,polled,rfl⟩ := (runs_submit_iff answered status hashOk).mp
    ((invokeInner_submits valid signed).rest run)
  refine ⟨replies,outcome,?_,polled,rfl⟩
  rw [calls_append,valid.calls (by decide) (by decide)]
  exact calls_polls hash replies

/-- The answer carries the hash of an accepted submission unless a poll fails with an error
that does not have it. -/
theorem carries_hash_iff {events : Events} {result : Except AppError Value}
    (run : Prog.Runs (invokeInner p state req).run events result) (accepted : Accepted p events hash) :
    Carries hash result ↔ ∀ call ∈ calls "getTransaction" events, ∀ message,
      replyResult p "getTransaction" call.2 = .error message → contains message hash = true := by
  obtain ⟨replies,outcome,called,polled,rfl⟩ := accepted_run run accepted
  rw [called]
  cases outcome with
  | ok found =>
    have answered (reply : HttpReply) (member : reply ∈ replies) (message : String) :
        replyResult p "getTransaction" reply ≠ .error message := by
      intro failed
      have ended := polled.error_iff.mpr ⟨reply,member,message,failed,rfl⟩
      cases ended
    constructor
    · intro _ call member message failed
      obtain ⟨reply,inside,rfl⟩ := List.mem_map.mp member
      exact absurd failed (answered reply inside message)
    · intro _
      exact polledResult_carries found
  | error e =>
    constructor
    · intro carried call member message failed
      obtain ⟨reply,inside,rfl⟩ := List.mem_map.mp member
      obtain rfl := Except.error.inj (polled.error_iff.mpr ⟨reply,inside,message,failed,rfl⟩)
      exact carried
    · intro told
      obtain ⟨reply,inside,message,failed,rfl⟩ := polled.error_iff.mp rfl
      exact told _ (List.mem_map_of_mem inside) message failed

theorem invokeInner_in_flight {x : Preparation} {s : Submission} {reply : HttpReply} {resp : Value}
    {replies : List HttpReply} {outcome : Except AppError (Option Value)} (valid : x.Valid p state req)
    (signed : s.Valid p state req x) (answered : replyResult p "sendTransaction" reply = .ok resp)
    (accepted : resp.getStr "status" ≠ some "ERROR") (hashOk : resp.getStr "hash" = some hash)
    (polled : Polled p pollTurns replies outcome) :
    Prog.Runs (invokeInner p state req).run
      (x.trace ++ ⟨.post "sendTransaction" (transactionParams s.envelope),reply⟩ :: polls hash replies)
      (polledResult p hash outcome) := by
  apply (invokeInner_submits valid signed).append
  exact (runs_submit_iff answered accepted hashOk).mpr ⟨replies,outcome,rfl,polled,rfl⟩

namespace Reference

theorem pending_known : replyResult platform "sendTransaction" (.response 200 pendingText) = .ok pending := by
  apply answered
  exact responseFromStr_known (by simp [knownReplies])

theorem status_known {known : String} (name : known = "NOT_FOUND" ∨ known = "SUCCESS") :
    replyResult platform "getTransaction" (.response 200 (statusText known)) = .ok (status known) := by
  apply answered
  apply responseFromStr_known
  rcases name with rfl | rfl <;> simp [knownReplies]

theorem get_pending : pending.getStr "status" = some "PENDING" ∧ pending.getStr "hash" = some hashHex := by
  constructor <;> apply Value.getStr_eq_some_iff.mpr <;> apply Value.get_obj <;> simp [Value.str]

theorem pollStatus_status (name : String) : pollStatus (status name) = name := by
  have found : (status name).getStr "status" = some name := by
    apply Value.getStr_eq_some_iff.mpr
    apply Value.get_obj <;> simp [Value.str]
  rw [pollStatus,found]
  rfl

/-- The events of a request whose submission is accepted. -/
def inFlight (replies : List HttpReply) : Events :=
  preparation.trace ++
    ⟨.post "sendTransaction" (transactionParams signedXdr),.response 200 pendingText⟩ :: polls hashHex replies

theorem runs_inFlight {replies : List HttpReply} {outcome : Except AppError (Option Value)}
    (polled : Polled platform pollTurns replies outcome) :
    Prog.Runs (invokeInner platform Reference.state (request true)).run (inFlight replies)
      (polledResult platform hashHex outcome) := by
  obtain ⟨pendingStatus,hashOk⟩ := get_pending
  apply invokeInner_in_flight (preparation_valid true) submission_valid pending_known _ hashOk polled
  rw [pendingStatus]
  decide

theorem inFlight_accepted (replies : List HttpReply) : Accepted platform (inFlight replies) hashHex := by
  obtain ⟨pendingStatus,hashOk⟩ := get_pending
  refine ⟨(transactionParams signedXdr, .response 200 pendingText),?_,pending,pending_known,?_,hashOk⟩
  · rw [inFlight,calls_append]
    exact List.mem_append_right _ List.mem_cons_self
  · rw [pendingStatus]
    decide

/-- The transaction is found by the second poll. -/
def found : List HttpReply := [.response 200 (statusText "NOT_FOUND"), .response 200 (statusText "SUCCESS")]

theorem found_polled : Polled platform pollTurns found (.ok (some (status "SUCCESS"))) := by
  apply Polled.again ⟨status "NOT_FOUND",status_known (.inl rfl),pollStatus_status _⟩
  apply Polled.final (status_known (.inr rfl))
  rw [pollStatus_status]
  decide

theorem carries_hash_found :
    Carries hashHex (polledResult platform hashHex (.ok (some (status "SUCCESS")))) ↔
      ∀ call ∈ calls "getTransaction" (inFlight found), ∀ message,
        replyResult platform "getTransaction" call.2 = .error message → contains message hashHex = true :=
  carries_hash_iff (runs_inFlight found_polled) (inFlight_accepted found)

/-- The connection is reset during the first poll. -/
theorem hash_lost : ¬∀ (p : Platform) (state : AppState) (req : InvokeRequest) (events : Events)
    (result : Except AppError Value) (hash : String), req.sign = true →
      Prog.Runs (invokeInner p state req).run events result → Accepted p events hash → Carries hash result := by
  intro claimed
  have failed : replyResult platform "getTransaction" (.transport "reset") =
      .error "rpc transport error calling getTransaction: reset" := rfl
  have lost := claimed _ _ _ _ _ _ rfl (runs_inFlight (.failed failed)) (inFlight_accepted _)
  change contains "rpc transport error calling getTransaction: reset" hashHex = true at lost
  exact absurd lost (by decide +kernel)

end Reference
end SorobanProxy
