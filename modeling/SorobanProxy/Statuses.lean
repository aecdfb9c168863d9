import SorobanProxy.InFlight
import SorobanProxy.Accounting
import SorobanProxy.Library.Failures

/-! What the status of an answer tells of the transaction. An error other than a bad gateway
means that nothing was submitted, or that the network refused the submission; only a bad
gateway may leave a transaction in flight. -/
namespace SorobanProxy

open Library
open Library.Prog (Errs)
open RpcClient (transactionParams)

variable {p : Platform} {state : AppState} {req : InvokeRequest}

/-- The status that axum gives an answer. -/
def httpStatus : Except AppError Value → Nat
  | .ok _ => 200
  | .error e => e.intoResponse.1

/-- What has become of the transaction of a request. -/
inductive Fate where
  | unsent
  | rejected
  /-- The submission failed, or its answer has no hash. -/
  | unknown
  | accepted (hash : String)
  deriving DecidableEq

/-- What the network's reply to a submission says. -/
def replyFate (p : Platform) (reply : HttpReply) : Fate :=
  match replyResult p "sendTransaction" reply with
  | .error _ => .unknown
  | .ok resp =>
    if resp.getStr "status" = some "ERROR" then .rejected
    else match resp.getStr "hash" with
      | none => .unknown
      | some hash => .accepted hash

/-- The first submission counts, and there is no other. -/
def fate (p : Platform) (events : Events) : Fate :=
  match calls "sendTransaction" events with
  | [] => .unsent
  | (_, reply) :: _ => replyFate p reply

/-- The answers that each fate leaves possible. -/
inductive AnswersFate (p : Platform) (sign : Bool) : Fate → Except AppError Value → Prop where
  | shown (response : Value) : sign = false → AnswersFate p sign .unsent (.ok response)
  | failed (e : AppError) : AnswersFate p sign .unsent (.error e)
  | rejected (message : String) : AnswersFate p sign .rejected (.error (.badRequest message))
  | unknown (message : String) : AnswersFate p sign .unknown (.error (.upstream message))
  | found (hash : String) (resp : Value) : sign = true →
      AnswersFate p sign (.accepted hash) (.ok (submittedResponse p hash resp))
  | lost (hash message : String) : AnswersFate p sign (.accepted hash) (.error (.upstream message))

/-- What a status tells of a request and its history. -/
structure StatusTells (p : Platform) (sign : Bool) (events : Events) (status : Nat) : Prop where
  known : status ∈ [200, 400, 404, 405, 500, 502]
  ok : status = 200 → fate p events = .unsent ∧ sign = false ∨
    ∃ hash : String, fate p events = .accepted hash ∧ sign = true
  badRequest : status = 400 → fate p events = .unsent ∨ fate p events = .rejected
  unasked : status = 404 ∨ status = 405 → traffic events = []
  internal : status = 500 → fate p events = .unsent
  badGateway : status = 502 → fate p events ≠ .rejected

theorem replyFate_ne_unsent (reply : HttpReply) : replyFate p reply ≠ .unsent := by
  unfold replyFate
  cases replyResult p "sendTransaction" reply with
  | error message => exact nofun
  | ok resp =>
    dsimp only
    split_ifs
    · exact nofun
    · cases resp.getStr "hash" <;> exact nofun

theorem fate_unsent_iff {events : Events} : fate p events = .unsent ↔ calls "sendTransaction" events = [] := by
  unfold fate
  cases calls "sendTransaction" events with
  | nil => simp
  | cons call rest => simpa using replyFate_ne_unsent call.2

/-- What a submission answers is decided by the reply, and after a hash by the polls. -/
theorem submit_answers {envelope : String} {reply : HttpReply} {rest : Events} {result : Except AppError Value}
    (run : Prog.Runs (submit p envelope).run
      (⟨.post "sendTransaction" (transactionParams envelope),reply⟩ :: rest) result) :
    AnswersFate p true (replyFate p reply) result := by
  let sent : Library.Event Resp := ⟨.post "sendTransaction" (transactionParams envelope),reply⟩
  have ends {outcome : Except AppError Value} (ended : Prog.Runs (submit p envelope).run [sent] outcome) :
      result = outcome := (Prog.runs_pure_iff.mp (ended.rest run)).2
  unfold replyFate
  cases answered : replyResult p "sendTransaction" reply with
  | error message =>
    rw [ends (Prog.Runs.bind_error (Prog.runs_mapError (runs_call answered)))]
    exact .unknown message
  | ok resp =>
    have called : Prog.Runs (Prog.mapError (RpcClient.sendTransaction p envelope) AppError.upstream).run [sent]
        (.ok resp) := Prog.runs_mapError (runs_call answered)
    have status : (resp.getStr "status").getD "UNKNOWN" = "ERROR" ↔ resp.getStr "status" = some "ERROR" := by
      cases resp.getStr "status" <;> simp
    dsimp only
    by_cases refused : resp.getStr "status" = some "ERROR"
    · rw [if_pos refused,ends (Prog.Steps.cons_bind called (by rw [if_pos (status.mpr refused)]; exact .refl))]
      exact .rejected _
    · rw [if_neg refused]
      cases hashOk : resp.getStr "hash" with
      | none =>
        have unnamed : okOr (resp.getStr "hash") (AppError.upstream "sendTransaction response had no hash") =
            .error (.upstream "sendTransaction response had no hash") := by rw [hashOk]; rfl
        rw [ends (Prog.Steps.cons_bind called (by rw [if_neg (mt status.mp refused),unnamed]; exact .refl))]
        exact .unknown _
      | some hash =>
        obtain ⟨replies,outcome,_,polled,rfl⟩ := (runs_submit_iff answered refused hashOk).mp run
        cases outcome with
        | ok found =>
          cases found with
          | some resp => exact .found hash resp rfl
          | none => exact .lost hash _
        | error e =>
          obtain ⟨_,_,message,_,rfl⟩ := polled.error_iff.mp rfl
          exact .lost hash message

/-- The answer of a call, whatever the network replies. -/
theorem call_answers {events : Events} {result : Except AppError Value}
    (run : Prog.Runs (invokeInner p state req).run events result) : AnswersFate p req.sign (fate p events) result := by
  have holds : Prog.Holds (fun _ _ => True) (Allowed p state req) (Finished p state req) []
      (invokeInner p state req).run := invokeInner_holds
  cases sends : calls "sendTransaction" events with
  | nil =>
    rw [fate_unsent_iff.mpr sends]
    cases result with
    | error e => exact .failed e
    | ok response =>
      rcases holds.post_of_runs run fun _ _ => trivial with ⟨unsigned,_⟩ | ⟨sent,hash,_,_,_,accepted,_,_,_,trace,_⟩
      · exact .shown response unsigned
      · obtain ⟨_,params,reply,_,once,_⟩ := accepted.calls
        rw [List.nil_append] at trace
        rw [trace,calls_append,once] at sends
        cases sends
  | cons call others =>
    obtain ⟨before,after,rfl⟩ := exists_split_of_mem_calls (sends ▸ List.mem_cons_self)
    obtain ⟨x,s,valid,signed,trace,params⟩ := (holds.allowed_of_issues run.issues_of_split fun _ _ => trivial).1 rfl
    rw [List.nil_append] at trace
    subst trace
    have first : fate p (x.trace ++ ⟨.post "sendTransaction" call.1,call.2⟩ :: after) = replyFate p call.2 := by
      unfold fate
      rw [calls_append,valid.calls (by decide) (by decide)]
      rfl
    rw [first,signed.sign]
    rw [params] at run
    exact submit_answers ((invokeInner_submits valid signed).rest run)

/-- An error of the function's name or its method. -/
def AppError.Unrouted : AppError → Prop
  | .notFound _ | .methodNotAllowed _ => True
  | _ => False

theorem mapError_routed {α : Type} {result : Result α} {translate : String → AppError}
    (routed : ∀ message, ¬(translate message).Unrouted) (e : AppError) (failed : result.mapError translate = .error e) :
    ¬e.Unrouted := by
  obtain ⟨message,_,rfl⟩ := mapError_eq_error_iff.mp failed
  exact routed message

theorem pollTransaction_errs {hash : String} {turns : Nat} :
    Errs (fun e : AppError => ¬e.Unrouted) (pollTransaction p hash turns).run := by
  induction turns with
  | zero => exact nofun
  | succ turns ih =>
    refine .bind (fun _ => nofun) fun _ => .bind (.mapError fun _ => id) fun getResp => ?_
    split_ifs
    · exact ih
    · exact nofun

theorem okOr_routed {α : Type} {found : Option α} {fallback : AppError} (routed : ¬fallback.Unrouted) (e : AppError)
    (failed : okOr found fallback = .error e) : ¬e.Unrouted := by
  cases found with
  | some a => cases failed
  | none =>
    obtain rfl := Except.error.inj failed
    exact routed

theorem submit_errs {envelope : String} : Errs (fun e : AppError => ¬e.Unrouted) (submit p envelope).run := by
  refine .bind (.mapError fun _ => id) fun sendResp => ?_
  split_ifs
  · intro e same
    obtain rfl := Except.error.inj same
    exact id
  · refine .ofResult_bind (okOr_routed id) fun hash => .bind pollTransaction_errs fun found => ?_
    cases found with
    | some getResp => exact nofun
    | none =>
      intro e same
      obtain rfl := Except.error.inj same
      exact id

theorem respond_errs {sim : SimulationOutcome} {assembled : TransactionEnvelope} :
    Errs (fun e : AppError => ¬e.Unrouted) (respond p state req sim assembled).run := by
  unfold respond
  split_ifs
  · refine .ofResult_bind (okOr_routed id) fun secretKey => ?_
    refine .ofResult_bind (mapError_routed fun _ => id) fun signed => ?_
    exact .ofResult_bind (mapError_routed fun _ => id) fun signedB64 => submit_errs
  · exact .ofResult_bind (mapError_routed fun _ => id) fun transactionXdr => nofun

theorem transact_errs {args : List ScVal} {keyB64 : String} :
    Errs (fun e : AppError => ¬e.Unrouted) (transact p state req args keyB64).run := by
  refine .bind (.mapError fun _ => id) fun nextSeq => ?_
  refine .ofResult_bind (mapError_routed fun _ => id) fun unsigned => ?_
  refine .ofResult_bind (mapError_routed fun _ => id) fun unsignedB64 => ?_
  refine .bind (.mapError fun _ => id) fun simResp => ?_
  refine .ofResult_bind (mapError_routed fun _ => id) fun sim => ?_
  exact .ofResult_bind (mapError_routed fun _ => id) fun assembled => respond_errs

theorem statusTells_of_answers {sign : Bool} {events : Events} {result : Except AppError Value}
    (answers : AnswersFate p sign (fate p events) result)
    (unasked : ∀ e, result = .error e → e.Unrouted → traffic events = []) :
    StatusTells p sign events (httpStatus result) := by
  generalize same : fate p events = outcome at answers
  cases answers with
  | shown response unsigned => exact ⟨by simp [httpStatus],fun _ => .inl ⟨same,unsigned⟩,nofun,nofun,nofun,nofun⟩
  | failed e =>
    have quiet := unasked e rfl
    cases e with
    | badRequest message =>
      exact ⟨by simp [httpStatus,AppError.intoResponse],nofun,fun _ => .inl same,nofun,nofun,nofun⟩
    | notFound message =>
      exact ⟨by simp [httpStatus,AppError.intoResponse],nofun,nofun,fun _ => quiet trivial,nofun,nofun⟩
    | methodNotAllowed message =>
      exact ⟨by simp [httpStatus,AppError.intoResponse],nofun,nofun,fun _ => quiet trivial,nofun,nofun⟩
    | upstream message =>
      exact ⟨by simp [httpStatus,AppError.intoResponse],nofun,nofun,nofun,nofun,fun _ => by simp [same]⟩
    | internal message => exact ⟨by simp [httpStatus,AppError.intoResponse],nofun,nofun,nofun,fun _ => same,nofun⟩
  | rejected message => exact ⟨by simp [httpStatus,AppError.intoResponse],nofun,fun _ => .inr same,nofun,nofun,nofun⟩
  | unknown message =>
    exact ⟨by simp [httpStatus,AppError.intoResponse],nofun,nofun,nofun,nofun,fun _ => by simp [same]⟩
  | found hash resp signed => exact ⟨by simp [httpStatus],fun _ => .inr ⟨hash,same,signed⟩,nofun,nofun,nofun,nofun⟩
  | lost hash message =>
    exact ⟨by simp [httpStatus,AppError.intoResponse],nofun,nofun,nofun,nofun,fun _ => by simp [same]⟩

section Kept

variable {spec : ContractSpec} {methods : OrdMap String Bool} {a : Shared} {wasmHash : Bytes32} {s : Server}
  {t : Task Resp Request (Except AppError Value)} {result : Except AppError Value}
  (kept : Kept (normalizeHash p state.contractWasmHash) spec methods a)
  (hashOk : parseWasmHash p (normalizeHash p state.contractWasmHash) = .ok wasmHash)
  (reach : Server.Reachable p state a s) (member : t ∈ s.tasks) (ended : t.rest = .pure result)
include kept hashOk reach member ended

/-- The name and the method are checked before anything is asked of the network. -/
theorem traffic_of_unrouted {e : AppError} (failed : result = .error e) (unrouted : e.Unrouted) :
    traffic t.history = [] := by
  have run := serve_of_reachable kept hashOk reach member
  rw [unknown_locks,ended,failed,serve_eq] at run
  cases planned : t.request.plan p spec methods with
  | error refused =>
    rw [planned] at run
    exact (Prog.runs_pure_iff.mp run).1
  | ok plan =>
    rw [planned] at run
    cases plan with
    | answer response => exact (Prog.runs_pure_iff.mp run).1
    | network =>
      have errs : Errs (fun e : AppError => ¬e.Unrouted) (getNetwork p).run := .mapError fun _ => id
      exact absurd unrouted (errs.of_runs run)
    | call req args keyB64 => exact absurd unrouted (transact_errs.of_runs run)

theorem task_answers : AnswersFate p (t.request.signs p) (fate p t.history) result := by
  obtain ⟨-,ran⟩ := (System.reachable_iff (fixed_of_kept kept)).mp reach
  obtain ⟨run,-⟩ := ran t member
  cases called : t.request.invocation p with
  | some req =>
    have signs : t.request.signs p = req.sign := by rw [Request.signs,called,Option.any_some]
    change Prog.Steps (t.request.handler p state).run t.history t.rest at run
    rw [ended,Request.handler_invocation called] at run
    rw [signs]
    exact call_answers run
  | none =>
    have most := length_calls_le kept hashOk reach member "sendTransaction"
    rw [if_neg (by decide),count_of_none called,Nat.le_zero,List.length_eq_zero_iff] at most
    rw [fate_unsent_iff.mpr most]
    cases result with
    | ok response => exact .shown response (by rw [Request.signs,called,Option.any_none])
    | error e => exact .failed e

end Kept

/-- Whatever runs beside it, the status of an answer tells what has become of the request's
transaction. -/
theorem status_tells_fate {events : Events} {initial : Shared} (started : Started p state events initial) {s : Server}
    (reach : Server.Reachable p state initial s) {t : Task Resp Request (Except AppError Value)} (member : t ∈ s.tasks)
    {result : Except AppError Value} (ended : t.rest = .pure result) :
    StatusTells p (t.request.signs p) t.history (httpStatus result) := by
  obtain ⟨_,spec,_,_,found,_,_,kept⟩ := started.kept
  obtain ⟨_,hashOk⟩ := found.hashOk
  apply statusTells_of_answers (task_answers kept hashOk reach member ended)
  intro e failed unrouted
  exact traffic_of_unrouted kept hashOk reach member ended failed unrouted

namespace Reference

theorem status_tells_fate_submitted : StatusTells platform true (inFlight found) 200 := by
  have signs : signedPost.signs platform = true := by
    rw [Request.signs,signedPost_called]
    rfl
  rw [← signs]
  exact status_tells_fate writing_started submitted_reachable (List.mem_singleton_self _) rfl

end Reference
end SorobanProxy
