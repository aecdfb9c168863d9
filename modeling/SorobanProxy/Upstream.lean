import SorobanProxy.Reference
import SorobanProxy.Library.Failures

/-! Remote calls that fail while a request is served. Each ends the request at once, with
the text of its own error; the kind of error is chosen where the call is made. -/
namespace SorobanProxy

open Library
open Library.Prog (Sure GivesUp)
open RpcClient (keysParams transactionParams)

variable {p : Platform} {state : AppState} {req : InvokeRequest}

/-- The call returned an error: the transport, the status, the body or the service failed. -/
def CallFailed (p : Platform) : (o : Op) → Resp o → String → Prop
  | .post method _, reply, message => replyResult p method reply = .error message
  | _, _, _ => False

/-- The error is the call's own, of a call of that method. -/
def OwnError (method : String) (o : Op) (message e : String) : Prop :=
  (∃ params, o = .post method params) ∧ e = message

theorem call_givesUp {method : String} {params : Value} :
    GivesUp (CallFailed p) (OwnError method) (RpcClient.call p method params).run := by
  intro reply
  refine ⟨fun message failed => ⟨.error message,?_,message,rfl,⟨params,rfl⟩,rfl⟩,trivial⟩
  exact congrArg Prog.pure failed

theorem firstLedgerEntry_givesUp {keyB64 missing undecodable : String} :
    GivesUp (CallFailed p) (OwnError "getLedgerEntries") (firstLedgerEntry p keyB64 missing undecodable).run := by
  refine .bind call_givesUp fun resp => ?_
  refine .ofResult_bind fun entry _ => .ofResult_bind fun entryXdr _ => ?_
  exact .ofResult

theorem nextSequence_sure {seqNum : Int64} : Sure (CallFailed p) (nextSequence p seqNum) := by
  unfold nextSequence
  split_ifs
  · exact fun never => nomatch never
  · trivial

theorem fetchNextSequenceNumber_givesUp {sourceAccount : String} :
    GivesUp (CallFailed p) (OwnError "getLedgerEntries") (fetchNextSequenceNumber p sourceAccount).run := by
  refine .ofResult_bind fun pk _ => .ofResult_bind fun keyB64 _ => ?_
  refine .bind firstLedgerEntry_givesUp fun data => ?_
  cases data with
  | account seqNum => exact .liftExcept nextSequence_sure
  | contractCode code => trivial
  | other debug => trivial

/-- How a failed call is reported: the lookup of the sequence number as the client's fault,
the others as upstream errors. -/
def reportedAs (method message : String) : AppError :=
  if method = "getLedgerEntries" then .badRequest message else .upstream message

def Reported (o : Op) (message : String) (e : AppError) : Prop :=
  ∃ method params, o = .post method params ∧ e = reportedAs method message

theorem upstream_givesUp {method : String} {params : Value} (other : method ≠ "getLedgerEntries") :
    GivesUp (CallFailed p) Reported (Prog.mapError (RpcClient.call p method params) AppError.upstream).run := by
  refine .mapError call_givesUp ?_
  rintro o message e ⟨⟨params,rfl⟩,rfl⟩
  exact ⟨method,params,rfl,(if_neg other).symm⟩

theorem pollTransaction_givesUp {hash : String} {turns : Nat} :
    GivesUp (CallFailed p) Reported (pollTransaction p hash turns).run := by
  induction turns with
  | zero => trivial
  | succ turns ih =>
    refine .bind (.liftExcept (.perform fun _ _ => id)) fun _ => ?_
    refine .bind (upstream_givesUp (by decide)) fun getResp => ?_
    split_ifs
    · exact ih
    · trivial

theorem submit_givesUp {signedB64 : String} : GivesUp (CallFailed p) Reported (submit p signedB64).run := by
  refine .bind (upstream_givesUp (by decide)) fun sendResp => ?_
  split_ifs
  · trivial
  · refine .ofResult_bind fun hash _ => .bind pollTransaction_givesUp fun outcome => ?_
    cases outcome <;> trivial

theorem respond_givesUp {sim : SimulationOutcome} {assembled : TransactionEnvelope} :
    GivesUp (CallFailed p) Reported (respond p state req sim assembled).run := by
  unfold respond
  split_ifs
  · refine .ofResult_bind fun secretKey _ => .ofResult_bind fun signed _ => .ofResult_bind fun signedB64 _ => ?_
    exact submit_givesUp
  · refine .ofResult_bind fun transactionXdr _ => ?_
    trivial

/-- What a request does once it has its interface. -/
theorem invokeInner_after_lookup (p : Platform) (state : AppState) (req : InvokeRequest) :
    ∃ rest : ContractSpec → AppResult Value, invokeInner p state req = lookupSpec p state >>= rest ∧
      ∀ spec, GivesUp (CallFailed p) Reported (rest spec).run := by
  refine ⟨_,rfl,fun spec => ?_⟩
  refine .ofResult_bind fun funcSpec _ => ?_
  refine .bind (.liftExcept (.bind (.perform fun _ _ => id) fun _ => trivial)) fun useGet => ?_
  refine .ofResult_bind fun _ _ => .ofResult_bind fun scvals _ => ?_
  refine .bind (.mapError fetchNextSequenceNumber_givesUp ?_) fun nextSeq => ?_
  · rintro o message e ⟨⟨params,rfl⟩,rfl⟩
    exact ⟨_,params,rfl,(if_pos rfl).symm⟩
  refine .ofResult_bind fun unsigned _ => .ofResult_bind fun unsignedB64 _ => ?_
  refine .bind (upstream_givesUp (by decide)) fun simResp => ?_
  refine .ofResult_bind fun sim _ => .ofResult_bind fun assembled _ => ?_
  exact respond_givesUp

/-- The run ends with a failed call that the request made itself: after the lookup of its
interface, when it has read the classification. -/
def EndsInFailedCall (p : Platform) (events : Events) (method message : String) : Prop :=
  ∃ before methods params reply, events = before ++ [⟨.post method params,reply⟩] ∧
    ⟨.readMethods,methods⟩ ∈ before ∧ replyResult p method reply = .error message

/-- A failed call is the last event of a run, and this is how it is reported. -/
theorem failedCall_reported {before after : Events} {methods : OrdMap String Bool} {method message : String}
    {params : Value} {reply : HttpReply} {result : Except AppError Value}
    (run : Prog.Runs (invokeInner p state req).run (before ++ ⟨.post method params,reply⟩ :: after) result)
    (read : ⟨.readMethods,methods⟩ ∈ before) (failed : replyResult p method reply = .error message) :
    after = [] ∧ result = .error (reportedAs method message) := by
  obtain ⟨rest,shape,gives⟩ := invokeInner_after_lookup p state req
  have unread {events : Events} {outcome : Except AppError ContractSpec}
      (through : Prog.Runs (lookupSpec p state).run events outcome) : ⟨.readMethods,methods⟩ ∉ events := by
    have only : Prog.Only (· ≠ .readMethods) (lookupSpec p state).run := lookupSpec_only nofun nofun nofun
    intro member
    exact only.of_steps through _ member rfl
  rw [shape] at run
  rcases Prog.runs_bind_except_cases run with ⟨e,through,_⟩ | ⟨first,spec,second,split,through,later⟩
  · exact absurd (List.mem_append_left _ read) (unread through)
  · -- the classification is read after the lookup, so the failed call is in what follows it
    rcases List.append_eq_append_iff.mp split with ⟨middle,rfl,_⟩ | ⟨middle,rfl,rfl⟩
    · exact absurd (List.mem_append_left _ read) (unread through)
    · obtain ⟨rfl,e,rfl,method',params',same,rfl⟩ := (gives spec).of_runs later failed
      cases same
      exact ⟨rfl,rfl⟩

/-- The failed call is reported as an upstream error unless it was for the sequence number. -/
theorem failedCall_upstream_iff {events : Events} {e : AppError} {method message : String}
    (run : Prog.Runs (invokeInner p state req).run events (.error e))
    (failed : EndsInFailedCall p events method message) :
    (∃ text, e = .upstream text) ↔ method ≠ "getLedgerEntries" := by
  obtain ⟨before,methods,params,reply,rfl,read,failed⟩ := failed
  obtain ⟨_,same⟩ := failedCall_reported run read failed
  obtain rfl := Except.error.inj same
  unfold reportedAs
  split_ifs with sequence
  · simp [sequence]
  · simp [sequence]

/-- Whatever is wrong with the service when the sequence number is looked up, the request
ends with the client at fault. -/
theorem invokeInner_account_fails {x : Preparation} {reply : HttpReply} {message : String}
    (requested : x.Requested p state req) (failed : replyResult p "getLedgerEntries" reply = .error message) :
    Prog.Runs (invokeInner p state req).run
      (x.lookup ++ [⟨.readMethods,x.methods⟩, ⟨.post "getLedgerEntries" (keysParams [x.accountKey]),reply⟩])
      (.error (.badRequest message)) := by
  have read := runs_op .readMethods (fun methods => usesGet methods req.functionName) x.methods
  have asked : Prog.Runs (fetchNextSequenceNumber p req.sourceAccount).run
      [⟨.post "getLedgerEntries" (keysParams [x.accountKey]),reply⟩] (.error message) := by
    refine .ofResult_bind (okOr_eq_ok_iff.mpr requested.source) (.ofResult_bind requested.accountKey ?_)
    exact Prog.Runs.bind_error (Prog.Runs.bind_error (runs_call failed))
  apply Prog.Steps.bind_except (Prog.runs_mapError (runs_getOrFetchSpec requested.lookup))
  apply Prog.Steps.ofResult_bind (okOr_eq_ok_iff.mpr requested.function)
  apply Prog.Steps.cons_bind (Prog.runs_liftExcept read)
  apply Prog.Steps.ofResult_bind requested.gate
  apply Prog.Steps.ofResult_bind (convertArgs_eq_ok_iff.mpr requested.args)
  exact Prog.Runs.bind_error (Prog.runs_mapError asked)

theorem invokeInner_send_fails {x : Preparation} {s : Submission} {reply : HttpReply} {message : String}
    (valid : x.Valid p state req) (signed : s.Valid p state req x)
    (failed : replyResult p "sendTransaction" reply = .error message) :
    Prog.Runs (invokeInner p state req).run
      (x.trace ++ [⟨.post "sendTransaction" (transactionParams s.envelope),reply⟩])
      (.error (.upstream message)) :=
  (invokeInner_submits valid signed).append (Prog.Runs.bind_error (Prog.runs_mapError (runs_call failed)))

namespace Reference

/-- The connection is refused when the transaction is sent. -/
theorem failedCall_upstream_send :
    (∃ text, AppError.upstream "rpc transport error calling sendTransaction: refused" = .upstream text) ↔
      "sendTransaction" ≠ "getLedgerEntries" := by
  have failed : replyResult platform "sendTransaction" (.transport "refused") =
      .error "rpc transport error calling sendTransaction: refused" := rfl
  apply failedCall_upstream_iff (invokeInner_send_fails (preparation_valid true) submission_valid failed)
  refine ⟨_,preparation.methods,_,_,rfl,?_,failed⟩
  simp [Preparation.trace,Preparation.beforeSimulation]

/-- The connection is refused when the sequence number is looked up. -/
theorem sequence_failure_blames_client :
    ¬∀ (p : Platform) (state : AppState) (req : InvokeRequest) (events : Events) (e : AppError)
      (method message : String), Prog.Runs (invokeInner p state req).run events (.error e) →
        EndsInFailedCall p events method message → ∃ text, e = .upstream text := by
  intro claimed
  have failed : replyResult platform "getLedgerEntries" (.transport "refused") =
      .error "rpc transport error calling getLedgerEntries: refused" := rfl
  have run := invokeInner_account_fails (preparation_valid true).requested failed
  obtain ⟨_,same⟩ := claimed _ _ _ _ _ "getLedgerEntries" _ run
    ⟨preparation.lookup ++ [⟨.readMethods,preparation.methods⟩],preparation.methods,
      keysParams [preparation.accountKey],.transport "refused",by simp,by simp,failed⟩
  cases same

end Reference
end SorobanProxy
