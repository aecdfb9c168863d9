import SorobanProxy.InFlight
import SorobanProxy.Planning
import SorobanProxy.Library.Budget

/-! How much a request does. The bounds hold for every price of an operation, so one of them
counts operations, one counts the calls of a method, and one adds up the waiting. -/
namespace SorobanProxy

open Library
open Library.Prog (perform ofResult liftExcept mapError Spends)

/-- The price of a call by its method, of a wait by its length, and of an access to the
shared state. -/
structure Prices where
  call : String → Nat
  wait : Nat → Nat
  access : Nat

def Prices.cost (prices : Prices) : Op → Nat
  | .post method _ => prices.call method
  | .sleep millis => prices.wait millis
  | .readCache _ | .writeCache _ _ | .readMethods | .writeMethods _ | .panic _ => prices.access

namespace Prices

variable (prices : Prices)

/-- One turn of the polling loop. -/
def poll : Nat := prices.wait 1000 + prices.call "getTransaction"

/-- The lookup of the interface, where it is not cached. -/
def lookup : Nat := prices.access + (prices.call "getLedgerEntries" + prices.access)

/-- Sending a transaction and polling for it; nothing where the request is not signed. -/
def submission (sign : Bool) : Nat :=
  if sign then prices.call "sendTransaction" + pollTurns * prices.poll else 0

/-- An admitted call. -/
def transaction (sign : Bool) : Nat :=
  prices.call "getLedgerEntries" + (prices.call "simulateTransaction" + prices.submission sign)

theorem transaction_le (sign : Bool) : prices.transaction sign ≤ prices.transaction true := by
  cases sign with
  | true => exact Nat.le_refl _
  | false =>
    unfold transaction submission
    simp

end Prices

variable {p : Platform} {state : AppState} {prices : Prices}

theorem call_spends {method : String} {params : Value} :
    Spends prices.cost (prices.call method) (RpcClient.call p method params).run :=
  .bind (m := 0) (.perform (Nat.le_refl _)) fun _ => trivial

theorem pollTransaction_spends {hash : String} {turns : Nat} :
    Spends prices.cost (turns * prices.poll) (pollTransaction p hash turns).run := by
  induction turns with
  | zero => trivial
  | succ turns ih =>
    rw [Nat.succ_mul,Nat.add_comm,Prices.poll,Nat.add_assoc]
    apply Spends.bind_except (.liftExcept (.perform (Nat.le_refl _)))
    intro _
    apply Spends.bind_except (.mapError call_spends)
    intro getResp
    split_ifs
    · exact ih
    · trivial

theorem respond_spends {req : InvokeRequest} {sim : SimulationOutcome} {assembled : TransactionEnvelope} :
    Spends prices.cost (prices.submission req.sign) (respond p state req sim assembled).run := by
  unfold respond Prices.submission
  split_ifs with sign
  · refine .ofResult_bind fun secretKey _ => .ofResult_bind fun signed _ => .ofResult_bind fun b64 _ => ?_
    refine .bind_except (.mapError call_spends) fun sendResp => ?_
    split_ifs
    · trivial
    · refine .ofResult_bind fun hash _ => Spends.bind_except (m := 0) pollTransaction_spends fun found => ?_
      cases found <;> trivial
  · exact .ofResult_bind fun b64 _ => trivial

theorem firstLedgerEntry_spends {keyB64 missing undecodable : String} :
    Spends prices.cost (prices.call "getLedgerEntries") (firstLedgerEntry p keyB64 missing undecodable).run := by
  refine Spends.bind_except (m := 0) call_spends fun resp => ?_
  exact .ofResult_bind fun entry _ => .ofResult_bind fun entryXdr _ => trivial

theorem readSequence_spends {sourceAccount keyB64 : String} :
    Spends prices.cost (prices.call "getLedgerEntries") (readSequence p sourceAccount keyB64).run := by
  refine Spends.bind_except (m := 0) firstLedgerEntry_spends fun data => ?_
  cases data with
  | account seqNum =>
    apply Spends.liftExcept
    unfold nextSequence
    split_ifs
    · intro never
      exact nomatch never
    · trivial
  | contractCode | other => trivial

theorem fetchSpec_spends {key : String} :
    Spends prices.cost (prices.call "getLedgerEntries") (fetchSpec p key).run := by
  refine Spends.bind_except (m := 0) ?_ fun code => .ofResult_bind fun entries _ => trivial
  refine .ofResult_bind fun wasmHash _ => .ofResult_bind fun keyB64 _ => ?_
  refine Spends.bind_except (m := 0) firstLedgerEntry_spends fun data => ?_
  cases data <;> trivial

theorem lookupSpec_spends : Spends prices.cost prices.lookup (lookupSpec p state).run := by
  refine .mapError (.ofResult_bind fun wasmHash _ => ?_)
  refine .bind_except (.liftExcept (.perform (Nat.le_refl _))) fun found => ?_
  cases found with
  | some spec => trivial
  | none =>
    refine .bind_except fetchSpec_spends fun spec => ?_
    exact Spends.bind_except (m := 0) (.liftExcept (.perform (Nat.le_refl _))) fun _ => trivial

theorem buildAndRespond_spends {req : InvokeRequest} {args : List ScVal} (nextSeq : Int64) :
    Spends prices.cost (prices.call "simulateTransaction" + prices.submission req.sign)
      (buildAndRespond p state req args nextSeq).run := by
  refine .ofResult_bind fun unsigned _ => .ofResult_bind fun unsignedB64 _ => ?_
  refine .bind_except (.mapError call_spends) fun simResp => ?_
  exact .ofResult_bind fun sim _ => .ofResult_bind fun assembled _ => respond_spends

theorem transact_spends {req : InvokeRequest} {args : List ScVal} {keyB64 : String} :
    Spends prices.cost (prices.transaction req.sign) (transact p state req args keyB64).run :=
  .bind_except (.mapError readSequence_spends) buildAndRespond_spends

theorem invokeInner_spends {req : InvokeRequest} :
    Spends prices.cost (prices.lookup + (prices.access + prices.transaction req.sign))
      (invokeInner p state req).run := by
  refine .bind_except lookupSpec_spends fun spec => .ofResult_bind fun funcSpec _ => ?_
  refine .bind_except (.liftExcept (Spends.bind (m := 0) (.perform (Nat.le_refl _)) fun _ => trivial)) fun useGet => ?_
  refine .ofResult_bind fun _ _ => .ofResult_bind fun scvals _ => ?_
  rw [fetchNextSequenceNumber_eq]
  exact .bind_except (.mapError (.ofResult_bind fun keyB64 _ => readSequence_spends)) buildAndRespond_spends

/-- A request of the server, at any time. -/
def Request.price (prices : Prices) : Request → Nat
  | .health => 0
  | .getNetwork => prices.call "getNetwork"
  | .getSpec => prices.lookup
  | .getFunctions => prices.lookup + prices.access
  | .invokeGet _ _ _ | .invokePost _ _ _ => prices.lookup + (prices.access + prices.transaction true)

theorem handler_spends (request : Request) :
    Spends prices.cost (request.price prices) (request.handler p state).run := by
  cases request with
  | health => trivial
  | getNetwork => exact .mapError call_spends
  | getSpec => exact Spends.bind_except (m := 0) lookupSpec_spends fun _ => trivial
  | getFunctions =>
    refine .bind_except lookupSpec_spends fun spec => ?_
    exact Spends.bind_except (m := 0) (.liftExcept (.perform (Nat.le_refl _))) fun _ => trivial
  | invokeGet | invokePost =>
    refine .ofResult_bind fun common _ => invokeInner_spends.mono ?_
    exact Nat.add_le_add_left (Nat.add_le_add_left (prices.transaction_le _) _) _

/-- A number for the requests that go to the network after startup: the one about the
network itself, and calls by whether they are signed. -/
def Request.count (p : Platform) (network : Nat) (call : Bool → Nat) : Request → Nat
  | .getNetwork => network
  | request => (request.invocation p).elim 0 fun req => call req.sign

theorem count_le {network network' : Nat} {call call' : Bool → Nat} (networks : network ≤ network')
    (each : ∀ sign, call sign ≤ call' sign) (request : Request) :
    request.count p network call ≤ request.count p network' call' := by
  cases request with
  | getNetwork => exact networks
  | health | getSpec | getFunctions => exact Nat.le_refl 0
  | invokeGet functionName query headers =>
    simp only [Request.count]
    cases Request.invocation p (.invokeGet functionName query headers) with
    | none => exact Nat.le_refl 0
    | some req => exact each req.sign
  | invokePost functionName headers args =>
    simp only [Request.count]
    cases Request.invocation p (.invokePost functionName headers args) with
    | none => exact Nat.le_refl 0
    | some req => exact each req.sign

theorem serve_spends {spec : ContractSpec} {methods : OrdMap String Bool} (request : Request) :
    Spends prices.cost (request.count p (prices.call "getNetwork") prices.transaction)
      (request.serve p state spec methods).run := by
  cases request with
  | health | getSpec | getFunctions => trivial
  | getNetwork => exact .mapError call_spends
  | invokeGet | invokePost =>
    refine .ofResult_bind fun plan planned => ?_
    obtain ⟨common,read,admitted⟩ := bind_eq_ok_iff.mp planned
    obtain ⟨_,args,keyB64,_,_,_,_,rfl⟩ := admission_ok_iff.mp admitted
    simp only [Request.count, Request.invocation, read]
    exact transact_spends

/-- The price of a request by the number of its operations. -/
def Prices.unit : Prices := ⟨fun _ => 1,fun _ => 1,1⟩

theorem price_unit_le (request : Request) : request.price .unit ≤ 67 := by
  cases request with
  | health | getNetwork | getSpec | getFunctions => decide
  | invokeGet | invokePost => exact Nat.le_refl 67

theorem cost_unit : Prices.unit.cost = fun _ => 1 := by
  funext o
  cases o <;> rfl

/-- A task has answered its request, or is stuck where adding one to a sequence number overflows. -/
def Settles (t : Task Resp Request (Except AppError Value)) : Prop :=
  (∃ result, t.rest = .pure result) ∨ ∃ next, t.rest = .op (.panic addOverflow) next

/-- The operation is no panic but that of an addition. -/
def Op.Adds (o : Op) : Prop := ∀ message, o = .panic message → message = addOverflow

theorem handler_adds (request : Request) : Prog.Only Op.Adds (request.handler p state).run := by
  have post (method : String) (params : Value) : (Op.post method params).Adds := nofun
  have sleep (millis : Nat) : (Op.sleep millis).Adds := nofun
  have lookup : Prog.Only Op.Adds (lookupSpec p state).run := lookupSpec_only (post _) (fun _ => nofun) fun _ _ => nofun
  have read : Prog.Only Op.Adds readMethods := .perform nofun
  have invoke (req : InvokeRequest) : Prog.Only Op.Adds (invokeInner p state req).run := by
    refine .bind_except lookup fun spec => .ofResult_bind fun func _ => ?_
    refine .bind_except (.liftExcept (.bind read fun _ => trivial)) fun useGet => ?_
    refine .ofResult_bind fun _ _ => .ofResult_bind fun scvals _ => ?_
    have overflow : (Op.panic addOverflow).Adds := fun _ same => (Op.panic.inj same).symm
    exact .bind_except (.mapError (fetchNextSequenceNumber_only (post _) overflow)) fun _ =>
      buildAndRespond_network post sleep
  cases request with
  | health => trivial
  | getNetwork => exact .mapError (call_only (post _ _))
  | getSpec => exact .bind_except lookup fun _ => trivial
  | getFunctions => exact .bind_except lookup fun _ => .bind_except (.liftExcept read) fun _ => trivial
  | invokeGet | invokePost => exact .ofResult_bind fun _ _ => invoke _

/-- An operation without an answer is a panic. -/
theorem exists_answer_iff {a : Shared} {o : Op} :
    (∃ r b, Answers a o r b) ↔ ∀ message, o ≠ .panic message := by
  cases o with
  | post method params => exact iff_of_true ⟨.transport "",a,.post _⟩ nofun
  | sleep => exact iff_of_true ⟨(),a,.sleep⟩ nofun
  | readCache => exact iff_of_true ⟨_,a,.readCache⟩ nofun
  | writeCache => exact iff_of_true ⟨(),_,.writeCache⟩ nofun
  | readMethods => exact iff_of_true ⟨_,a,.readMethods⟩ nofun
  | writeMethods => exact iff_of_true ⟨(),_,.writeMethods⟩ nofun
  | panic message =>
    refine iff_of_false ?_ fun other => other message rfl
    rintro ⟨never,_⟩
    exact nomatch never

theorem settles_iff {a : Shared} {t : Task Resp Request (Except AppError Value)} (adds : Prog.Only Op.Adds t.rest) :
    Settles t ↔ ∀ o next, t.rest = .op o next → ∀ r b, ¬Answers a o r b := by
  obtain ⟨request,history,rest⟩ := t
  cases rest with
  | pure result => exact iff_of_true (.inl ⟨result,rfl⟩) fun o next other => nomatch other
  | op o next =>
    constructor
    · rintro (⟨_,other⟩ | ⟨_,same⟩) o' next' same' r b answer
      · cases other
      · cases same
        cases same'
        exact nomatch r
    · intro blocked
      by_contra unsettled
      have answered : ∀ message, o ≠ .panic message := by
        rintro message rfl
        obtain rfl := adds.1 message rfl
        exact unsettled (.inr ⟨next,rfl⟩)
      obtain ⟨r,b,answer⟩ := (exists_answer_iff (a := a)).mpr answered
      exact blocked o next rfl r b answer

/-- While no further request arrives, there are at most 67 turns for each request, in
whatever order the tasks take them, and a turn is missing only where every task has
answered its request or is stuck at the overflow of a sequence number. -/
theorem requests_answered {initial : Shared} {s last : Server} {turns : Nat}
    (reach : Server.Reachable p state initial s)
    (serving : System.Serving Answers (fun request => (request.handler p state).run) turns s last) :
    turns ≤ 67 * s.tasks.length ∧
      ((∀ next, ¬System.Serves Answers (fun request : Request => (request.handler p state).run) last next) ↔
        ∀ t ∈ last.tasks, Settles t) := by
  have each (request : Request) : Spends (fun _ => 1) (request.price .unit) (request.handler p state).run := by
    rw [← cost_unit]
    exact handler_spends request
  constructor
  · have total := serving.bounded each reach
    have most : ((s.tasks.map Task.request).map (Request.price .unit)).sum ≤ s.tasks.length * 67 := by
      have each (price : Nat) (member : price ∈ (s.tasks.map Task.request).map (Request.price .unit)) : price ≤ 67 := by
        obtain ⟨request,_,rfl⟩ := List.mem_map.mp member
        exact price_unit_le request
      simpa using List.sum_le_card_nsmul _ 67 each
    omega
  · rw [System.idle_iff]
    refine forall₂_congr fun t member => (settles_iff ?_).symm
    exact (handler_adds t.request).rest ((reach.serving serving).steps member)

def Prices.callsOf (method : String) : Prices := ⟨fun other => if other = method then 1 else 0,fun _ => 0,0⟩

def Prices.waiting : Prices := ⟨fun _ => 0,id,0⟩

/-- The milliseconds that are waited in a history. -/
def waited (events : Events) : Nat :=
  (events.map fun e => match e.op with
    | .sleep millis => millis
    | _ => 0).sum

/-- How often a call may use a method. -/
def callQuota (sign : Bool) (method : String) : Nat :=
  if method = "getLedgerEntries" ∨ method = "simulateTransaction" then 1
  else if sign ∧ method = "sendTransaction" then 1
  else if sign ∧ method = "getTransaction" then pollTurns
  else 0

theorem spent_traffic (prices : Prices) (free : prices.access = 0) (events : Events) :
    Prog.spent prices.cost (traffic events) = Prog.spent prices.cost events := by
  induction events with
  | nil => rfl
  | cons e events ih =>
    obtain ⟨o,r⟩ := e
    cases o with
    | post | sleep | panic =>
      simp only [Prog.spent, traffic, List.filter_cons_of_pos, List.map_cons, List.sum_cons] at ih ⊢
      rw [ih]
    | _ =>
      simp only [Prog.spent, traffic, List.filter_cons_of_neg, Bool.false_eq_true, not_false_eq_true, List.map_cons,
        List.sum_cons, Prices.cost, free, Nat.zero_add] at ih ⊢
      exact ih

theorem spent_callsOf (method : String) (events : Events) :
    Prog.spent (Prices.callsOf method).cost events = (calls method events).length := by
  induction events with
  | nil => rfl
  | cons e events ih =>
    obtain ⟨o,r⟩ := e
    cases o with
    | post other params =>
      by_cases same : other = method
      · simp only [Prog.spent, calls, List.map_cons, List.sum_cons, List.filterMap_cons, Prices.cost, Prices.callsOf,
          if_pos same, List.length_cons] at ih ⊢
        omega
      · simp only [Prog.spent, calls, List.map_cons, List.sum_cons, List.filterMap_cons, Prices.cost, Prices.callsOf,
          if_neg same] at ih ⊢
        omega
    | _ =>
      simp only [Prog.spent, calls, List.map_cons, List.sum_cons, List.filterMap_cons, Prices.cost,
        Prices.callsOf] at ih ⊢
      omega

theorem spent_waiting (events : Events) : Prog.spent Prices.waiting.cost events = waited events := by
  unfold Prog.spent waited
  congr 2
  funext e
  obtain ⟨o,r⟩ := e
  cases o <;> rfl

theorem transaction_callsOf_le (sign : Bool) (method : String) :
    (Prices.callsOf method).transaction sign ≤ callQuota sign method := by
  simp only [Prices.transaction, Prices.submission, Prices.poll, Prices.callsOf, callQuota, eq_comm (b := method)]
  cases sign with
  | false =>
    by_cases ledger : method = "getLedgerEntries"
    · simp [ledger]
    · by_cases simulation : method = "simulateTransaction" <;> simp [ledger,simulation]
  | true =>
    by_cases ledger : method = "getLedgerEntries"
    · simp [ledger]
    by_cases simulation : method = "simulateTransaction"
    · simp [simulation]
    by_cases send : method = "sendTransaction"
    · simp [send]
    by_cases poll : method = "getTransaction" <;> simp [ledger,simulation,send,poll]

theorem transaction_waiting (sign : Bool) : Prices.waiting.transaction sign = if sign then 30000 else 0 := by
  cases sign <;> rfl

section Kept

variable {spec : ContractSpec} {methods : OrdMap String Bool} {a : Shared} {wasmHash : Bytes32} {s : Server}
  {t : Task Resp Request (Except AppError Value)}
  (kept : Kept (normalizeHash p state.contractWasmHash) spec methods a)
  (hashOk : parseWasmHash p (normalizeHash p state.contractWasmHash) = .ok wasmHash)
  (reach : Server.Reachable p state a s) (member : t ∈ s.tasks)
include kept hashOk reach member

theorem spent_le (prices : Prices) (free : prices.access = 0) :
    Prog.spent prices.cost t.history ≤ t.request.count p (prices.call "getNetwork") prices.transaction := by
  have steps := serve_of_reachable kept hashOk reach member
  rw [unknown_locks] at steps
  rw [← spent_traffic prices free]
  exact ((serve_spends t.request).of_steps steps).1

theorem length_calls_le (method : String) : (calls method t.history).length ≤
    t.request.count p (if method = "getNetwork" then 1 else 0) fun sign => callQuota sign method := by
  rw [← spent_callsOf]
  refine (spent_le kept hashOk reach member _ rfl).trans (count_le ?_ (transaction_callsOf_le · method) t.request)
  simp [Prices.callsOf,eq_comm]

theorem waited_le : waited t.history ≤ t.request.count p 0 fun sign => if sign then 30000 else 0 := by
  rw [← spent_waiting]
  refine (spent_le kept hashOk reach member _ rfl).trans (count_le (Nat.le_refl 0) (fun sign => ?_) t.request)
  exact (transaction_waiting sign).le

end Kept

/-- After startup a request makes at most the calls of its kind, whatever is replied: none
unless it asks for the network or is a call, and a submission with its half a minute of
polling only where the call is signed. -/
theorem traffic_bounded {events : Events} {initial : Shared} (started : Started p state events initial) {s : Server}
    (reach : Server.Reachable p state initial s) {t : Task Resp Request (Except AppError Value)}
    (member : t ∈ s.tasks) :
    (∀ method, (calls method t.history).length ≤
      t.request.count p (if method = "getNetwork" then 1 else 0) fun sign => callQuota sign method) ∧
    waited t.history ≤ t.request.count p 0 fun sign => if sign then 30000 else 0 := by
  obtain ⟨_,spec,_,_,found,_,_,kept⟩ := started.kept
  obtain ⟨_,hashOk⟩ := found.hashOk
  exact ⟨length_calls_le kept hashOk reach member,waited_le kept hashOk reach member⟩

namespace Reference

def asking : Server := ⟨pingShared,[⟨.getNetwork,[],(Request.handler platform Reference.state .getNetwork).run⟩]⟩

def asked : Server := ⟨pingShared,[⟨.getNetwork,reset,
  .pure (.error (.upstream "rpc transport error calling getNetwork: reset"))⟩]⟩

theorem asking_reachable : Server.Reachable platform Reference.state pingShared asking :=
  .tail .refl (.arrive Request.getNetwork)

theorem asking_serves :
    System.Serves Answers (fun request => (request.handler platform Reference.state).run) asking asked :=
  ⟨.answer [] [] Request.getNetwork [] _ (Answers.post _),rfl⟩

theorem requests_answered_asked : 1 ≤ 67 * asking.tasks.length ∧
    ((∀ next, ¬System.Serves Answers (fun request : Request => (request.handler platform Reference.state).run)
      asked next) ↔ ∀ t ∈ asked.tasks, Settles t) :=
  requests_answered asking_reachable (.tail .refl asking_serves)

/-- `POST /api/ping`, signed. -/
def signedPost : Request := .invokePost "ping" signedHeaders .empty

theorem signedPost_called : signedPost.invocation platform = some (request true) := by
  rw [signedPost,Request.invocation,signedHeaders_read]
  rfl

/-- Its transaction is found by the second poll. -/
def submitted : Server := ⟨writingShared,[⟨signedPost,inFlight found,
  .pure (polledResult platform hashHex (.ok (some (status "SUCCESS"))))⟩]⟩

theorem inFlight_possible (replies : List HttpReply) :
    Prog.Reliable (System.Possible Answers writingShared) (inFlight replies) := by
  have cached : writingShared.specCache.get (normalizeHash platform wasmHashHex) = some Reference.spec :=
    reference_cached _
  intro e member
  simp only [inFlight, Preparation.trace, Preparation.beforeSimulation, preparation, List.mem_append, List.mem_cons,
    List.not_mem_nil, or_false] at member
  rcases member with ((rfl | rfl | rfl) | rfl) | rfl | polled
  · exact ⟨writingShared,cached ▸ .readCache⟩
  · exact ⟨writingShared,.readMethods⟩
  · exact ⟨writingShared,.post _⟩
  · exact ⟨writingShared,.post _⟩
  · exact ⟨writingShared,.post _⟩
  · obtain ⟨reply,_,turn⟩ := List.mem_flatMap.mp polled
    simp only [List.mem_cons, List.not_mem_nil, or_false] at turn
    rcases turn with rfl | rfl
    · exact ⟨writingShared,.sleep⟩
    · exact ⟨writingShared,.post _⟩

theorem submitted_reachable : Server.Reachable platform Reference.state writingShared submitted := by
  obtain ⟨_,_,_,_,_,_,_,kept⟩ := writing_started.kept
  refine (System.reachable_iff (fixed_of_kept kept)).mpr ⟨rfl,List.forall_mem_singleton.mpr ?_⟩
  have run := runs_inFlight found_polled
  rw [← Request.handler_invocation signedPost_called] at run
  exact ⟨run,inFlight_possible found⟩

theorem traffic_bounded_submitted :
    (∀ method, (calls method (inFlight found)).length ≤
      signedPost.count platform (if method = "getNetwork" then 1 else 0) fun sign => callQuota sign method) ∧
    waited (inFlight found) ≤ signedPost.count platform 0 fun sign => if sign then 30000 else 0 :=
  traffic_bounded writing_started submitted_reachable (List.mem_singleton_self _)

end Reference
end SorobanProxy
