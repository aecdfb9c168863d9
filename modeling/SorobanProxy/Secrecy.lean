import SorobanProxy.Pipeline
import SorobanProxy.Library.Oracle

/-! What a request does with the secret key. A request is compared with itself under another
key, against the same surroundings: an unsigned request does not read the key, and a signed
one shows it in the signature of what it sends and nowhere else. -/
namespace SorobanProxy

open Library
open Library.Prog (ofResult liftExcept mapError)
open RpcClient (transactionParams)

variable (p : Platform) (state : AppState)

/-- What a request does before it looks at its key. -/
def prepare (req : InvokeRequest) : AppResult (SimulationOutcome × TransactionEnvelope) := do
  let spec ← lookupSpec p state
  let functionName := req.functionName
  let funcSpec ← ofResult (okOr (spec.function functionName)
    (.notFound s!"contract has no function `{functionName}`"))
  let useGet ← liftExcept (shouldUseGet functionName)
  ofResult (methodGate functionName funcSpec req.isGet useGet)
  let scvals ← ofResult (convertArgs p spec req.args funcSpec.inputs)
  let nextSeq ← mapError (fetchNextSequenceNumber p req.sourceAccount) .badRequest
  let unsigned ← ofResult ((buildUnsignedInvokeTx p req.sourceAccount nextSeq state.contractId
    functionName scvals).mapError .badRequest)
  let unsignedB64 ← ofResult ((envelopeToBase64 p unsigned).mapError .internal)
  let simResp ← mapError (RpcClient.simulateTransaction p unsignedB64) .upstream
  let sim ← ofResult ((parseSimulation p simResp).mapError .badRequest)
  let assembled ← ofResult ((assembleTransaction p unsigned sim).mapError .internal)
  return (sim, assembled)

/-- What a signed request makes of its key. -/
def signedEnvelope (key : Option String) (assembled : TransactionEnvelope) : Except AppError String := do
  let secretKey ← okOr key (.badRequest s!"header `{headerSecretKey}` is required when `{headerSign}: true`")
  let signed ← (signTransaction p assembled state.networkPassphrase secretKey).mapError .badRequest
  (envelopeToBase64 p signed).mapError .internal

def InvokeRequest.withKey (req : InvokeRequest) (key : Option String) : InvokeRequest :=
  { req with secretKey := key }

variable {p state} {req : InvokeRequest} {key key' : Option String}

theorem invokeInner_eq_prepare : invokeInner p state req =
    prepare p state req >>= fun prepared => respond p state req prepared.1 prepared.2 := by
  simp only [invokeInner, buildAndRespond, prepare, bind_assoc, pure_bind]

theorem prepare_withKey : prepare p state (req.withKey key) = prepare p state req := rfl

theorem respond_unsigned {sim : SimulationOutcome} {assembled : TransactionEnvelope} (unsigned : req.sign = false) :
    respond p state (req.withKey key) sim assembled = respond p state (req.withKey key') sim assembled := by
  have unsigned (key : Option String) : ¬(req.withKey key).sign := by simp [InvokeRequest.withKey,unsigned]
  rw [respond,respond,if_pos (unsigned key),if_pos (unsigned key')]

theorem respond_signed {sim : SimulationOutcome} {assembled : TransactionEnvelope} (signed : req.sign = true) :
    respond p state (req.withKey key) sim assembled = ofResult (signedEnvelope p state key assembled) >>= submit p := by
  rw [respond,if_neg (by simp [InvokeRequest.withKey,signed])]
  simp only [signedEnvelope, Prog.ofResult_bind, bind_assoc]
  rfl

/-- The operation sends a transaction. -/
def Op.IsSend : Op → Prop
  | .post method _ => method = "sendTransaction"
  | _ => False

theorem Op.isSend_post (params : Value) : (Op.post "sendTransaction" params).IsSend := rfl

instance : DecidablePred Op.IsSend := fun o => by
  cases o <;> unfold Op.IsSend <;> infer_instance

theorem submit_after_send (p : Platform) : ∃ rest : Value → AppResult Value,
    (∀ envelope, submit p envelope = mapError (RpcClient.sendTransaction p envelope) .upstream >>= rest) ∧
    ∀ sendResp, Prog.Only (fun o => ¬o.IsSend) (rest sendResp).run := by
  refine ⟨_,fun _ => rfl,fun sendResp => ?_⟩
  split_ifs
  · trivial
  · apply Prog.Only.ofResult_bind
    intro hash _
    apply Prog.Only.bind_except (pollTransaction_only (by simp [Op.IsSend]) fun _ => id)
    intro found
    cases found <;> trivial

theorem submit_eq_op (p : Platform) : ∃ afterSend : HttpReply → Async (Except AppError Value),
    (∀ envelope, (submit p envelope).run = .op (.post "sendTransaction" (transactionParams envelope)) afterSend) ∧
    ∀ reply, Prog.Only (fun o => ¬o.IsSend) (afterSend reply) := by
  obtain ⟨rest,shape,only⟩ := submit_after_send p
  refine ⟨fun reply => (ofResult ((replyResult p "sendTransaction" reply).mapError AppError.upstream) >>= rest).run,
    fun envelope => ?_,fun reply => ?_⟩
  · rw [shape]
    rfl
  · exact Prog.Only.ofResult_bind fun sendResp _ => only sendResp

theorem prepare_only : Prog.Only (fun o => ¬o.IsSend) (prepare p state req).run := by
  apply Prog.Only.bind_except (lookupSpec_only (by simp [Op.IsSend]) (fun _ => id) fun _ _ => id)
  intro spec
  refine .ofResult_bind fun funcSpec _ => .bind_except (.liftExcept ?_) fun useGet => ?_
  · exact .bind (.perform id) fun _ => trivial
  refine .ofResult_bind fun _ _ => .ofResult_bind fun scvals _ => ?_
  refine .bind_except (.mapError (fetchNextSequenceNumber_only (by simp [Op.IsSend]) id)) fun nextSeq => ?_
  refine .ofResult_bind fun unsigned _ => .ofResult_bind fun unsignedB64 _ => ?_
  refine .bind_except (.mapError (call_only (by simp [Op.IsSend]))) fun simResp => ?_
  exact .ofResult_bind fun sim _ => .ofResult_bind fun assembled _ => trivial

/-- A transaction was signed under the key, and is sent with these parameters. -/
def SentUnder (p : Platform) (state : AppState) (key : Option String) (tx : Transaction) (params : Value) : Prop :=
  ∃ text seed signature envelope, key = some text ∧ p.seedFromString text = some seed ∧
    Signed p state.networkPassphrase seed tx signature ∧
    p.envelopeToBase64 (.tx ⟨tx,[signature]⟩) = .ok envelope ∧ params = transactionParams envelope

/-- Whether there is a key, and whether it decodes. -/
def keyKind (p : Platform) (key : Option String) : Option Bool := key.map fun text => (p.seedFromString text).isSome

theorem signedEnvelope_ok {assembled : TransactionEnvelope} {envelope : String}
    (signed : signedEnvelope p state key assembled = .ok envelope) :
    ∃ v1, assembled = .tx v1 ∧ SentUnder p state key v1.tx (transactionParams envelope) := by
  obtain ⟨text,keyOk,signed⟩ := bind_eq_ok_iff.mp signed
  obtain ⟨result,signed,encoded⟩ := bind_eq_ok_iff.mp signed
  have encoded := envelopeToBase64_eq_ok_iff.mp (mapError_eq_ok_iff.mp encoded)
  cases assembled with
  | tx v1 =>
    obtain ⟨seed,signature,seedOk,signatureOk,rfl⟩ := signTransaction_eq_ok_iff.mp (mapError_eq_ok_iff.mp signed)
    exact ⟨v1,rfl,text,seed,signature,envelope,okOr_eq_ok_iff.mp keyOk,seedOk,signatureOk,encoded,rfl⟩
  | txV0 xdr => cases signed
  | txFeeBump xdr => cases signed

theorem decorate_ne_error {seed hash : Bytes32} {message : String} : decorate p seed hash ≠ .error message := by
  have fits : BytesM.tryFrom 64 (p.sign seed hash).val = some ⟨_,Nat.le_of_eq (p.sign seed hash).property⟩ :=
    BytesM.tryFrom_eq_some_iff.mpr rfl
  rw [decorate,fits]
  intro failed
  cases failed

/-- The errors of a key that decodes do not depend on the key. -/
theorem signedEnvelope_error {text : String} {seed : Bytes32} {v1 : TransactionV1Envelope} {e : AppError}
    (seedOk : p.seedFromString text = some seed)
    (failed : signedEnvelope p state (some text) (.tx v1) = .error e) :
    (∃ message, signatureHash p state.networkPassphrase v1.tx = .error message ∧ e = .badRequest message) ∨
    (∃ hash, signatureHash p state.networkPassphrase v1.tx = .ok hash) ∧
      e = .internal "failed encoding transaction envelope" := by
  rcases bind_eq_error_iff.mp failed with absent | ⟨_,same,failed⟩
  · cases absent
  cases same
  rcases bind_eq_error_iff.mp failed with unsigned | ⟨envelope,signed,failed⟩
  · obtain ⟨message,refused,rfl⟩ := mapError_eq_error_iff.mp unsigned
    rcases bind_eq_error_iff.mp refused with undecoded | ⟨_,_,refused⟩
    · rw [seedOk] at undecoded
      cases undecoded
    rcases bind_eq_error_iff.mp refused with unhashed | ⟨hash,_,refused⟩
    · exact .inl ⟨message,unhashed,rfl⟩
    rcases bind_eq_error_iff.mp refused with undecorated | ⟨_,_,never⟩
    · exact absurd undecorated decorate_ne_error
    · cases never
  · obtain ⟨_,_,_,⟨hash,hashed,_⟩,_⟩ := signTransaction_eq_ok_iff.mp (mapError_eq_ok_iff.mp signed)
    obtain ⟨message,unencoded,rfl⟩ := mapError_eq_error_iff.mp failed
    obtain ⟨_,_,rfl⟩ := mapError_eq_error_iff.mp unencoded
    exact .inr ⟨⟨hash,hashed⟩,rfl⟩

theorem keyKind_some_true {key : Option String} (decodes : keyKind p key = some true) :
    ∃ text seed, key = some text ∧ p.seedFromString text = some seed := by
  obtain ⟨text,rfl,seedOk⟩ := Option.map_eq_some_iff.mp decodes
  obtain ⟨seed,seedOk⟩ := Option.isSome_iff_exists.mp seedOk
  exact ⟨text,seed,rfl,seedOk⟩

theorem keyKind_some_false {key : Option String} (undecoded : keyKind p key = some false) :
    ∃ text, key = some text ∧ p.seedFromString text = none := by
  obtain ⟨text,rfl,none⟩ := Option.map_eq_some_iff.mp undecoded
  rw [Option.isSome_eq_false_iff,Option.isNone_iff_eq_none] at none
  exact ⟨text,rfl,none⟩

/-- A key that does not decode is refused in the same words as every other. -/
theorem signedEnvelope_undecoded {text text' : String} {assembled : TransactionEnvelope}
    (undecoded : p.seedFromString text = none) (undecoded' : p.seedFromString text' = none) :
    signedEnvelope p state (some text) assembled = signedEnvelope p state (some text') assembled := by
  have same : signTransaction p assembled state.networkPassphrase text =
      signTransaction p assembled state.networkPassphrase text' := by
    cases assembled with
    | tx v1 => rw [signTransaction,signTransaction,undecoded,undecoded']
    | txV0 xdr => rfl
    | txFeeBump xdr => rfl
  simp only [signedEnvelope, okOr, bind, Except.bind, same]

theorem signedEnvelope_tx_error_eq {v1 : TransactionV1Envelope} {e e' : AppError}
    (kind : keyKind p key = keyKind p key') (failed : signedEnvelope p state key (.tx v1) = .error e)
    (failed' : signedEnvelope p state key' (.tx v1) = .error e') : e = e' := by
  have kind' := kind.symm
  cases known : keyKind p key with
  | none =>
    rw [known] at kind'
    obtain rfl := Option.map_eq_none_iff.mp known
    obtain rfl := Option.map_eq_none_iff.mp kind'
    exact Except.error.inj (failed.symm.trans failed')
  | some decodes =>
    rw [known] at kind'
    cases decodes with
    | true =>
      obtain ⟨text,seed,rfl,seedOk⟩ := keyKind_some_true known
      obtain ⟨text',seed',rfl,seedOk'⟩ := keyKind_some_true kind'
      rcases signedEnvelope_error seedOk failed with ⟨message,unhashed,rfl⟩ | ⟨⟨hash,hashed⟩,rfl⟩
      · rcases signedEnvelope_error seedOk' failed' with ⟨message',unhashed',rfl⟩ | ⟨⟨hash,hashed⟩,_⟩
        · rw [Except.error.inj (unhashed.symm.trans unhashed')]
        · cases unhashed.symm.trans hashed
      · rcases signedEnvelope_error seedOk' failed' with ⟨message',unhashed,_⟩ | ⟨_,rfl⟩
        · cases hashed.symm.trans unhashed
        · rfl
    | false =>
      obtain ⟨text,rfl,undecoded⟩ := keyKind_some_false known
      obtain ⟨text',rfl,undecoded'⟩ := keyKind_some_false kind'
      rw [signedEnvelope_undecoded undecoded undecoded'] at failed
      exact Except.error.inj (failed.symm.trans failed')

/-- Keys of a kind that fail with one transaction fail alike. -/
theorem signedEnvelope_error_eq {assembled : TransactionEnvelope} {e e' : AppError}
    (kind : keyKind p key = keyKind p key') (failed : signedEnvelope p state key assembled = .error e)
    (failed' : signedEnvelope p state key' assembled = .error e') : e = e' := by
  have other {assembled : TransactionEnvelope} (refused : ∀ text,
      signTransaction p assembled state.networkPassphrase text = .error "expected a v1 transaction envelope") :
      signedEnvelope p state key assembled = signedEnvelope p state key' assembled := by
    cases key with
    | none =>
      obtain rfl := Option.map_eq_none_iff.mp kind.symm
      rfl
    | some text =>
      obtain ⟨text',rfl,_⟩ := Option.map_eq_some_iff.mp kind.symm
      simp only [signedEnvelope, refused, okOr, bind, Except.bind]
  cases assembled with
  | tx v1 => exact signedEnvelope_tx_error_eq kind failed failed'
  | txV0 xdr =>
    rw [other fun _ => rfl] at failed
    exact Except.error.inj (failed.symm.trans failed')
  | txFeeBump xdr =>
    rw [other fun _ => rfl] at failed
    exact Except.error.inj (failed.symm.trans failed')

/-- The trace of the request under a key. -/
def traceWith (p : Platform) (state : AppState) (req : InvokeRequest) (oracle : Oracle Resp) (key : Option String) :
    Trace Resp (Except AppError Value) := oracle.run [] (invokeInner p state (req.withKey key)).run

def Unsent {α : Type} (t : Trace Resp α) : Prop := ∀ o ∈ t.issued, ¬o.IsSend

/-- What is issued before a transaction is sent. -/
def upToSend {α : Type} (t : Trace Resp α) : List Op := t.issued.takeWhile fun o => ¬o.IsSend

/-- The operation without the envelope that it sends. -/
def Op.conceal : Op → Op
  | .post method params => .post method (if method = "sendTransaction" then .null else params)
  | o => o

def concealEvent : Library.Event Resp → Library.Event Resp
  | ⟨.post method params,reply⟩ => ⟨Op.conceal (.post method params),reply⟩
  | e => e

def concealTrace {α : Type} (t : Trace Resp α) : Trace Resp α where
  events := t.events.map concealEvent
  ending := match t.ending with
    | .returned result => .returned result
    | .unanswered o => .unanswered o.conceal

theorem concealTrace_after {α : Type} (events : Events) (t : Trace Resp α) :
    concealTrace (t.after events) = (concealTrace t).after (events.map concealEvent) := by
  simp [concealTrace,Trace.after]

/-- Surroundings that do not look into the envelopes they are sent. -/
structure Blind (oracle : Oracle Resp) : Prop where
  history : ∀ h h' o, h.map concealEvent = h'.map concealEvent → oracle h o = oracle h' o
  envelope : ∀ h params params', oracle h (.post "sendTransaction" params) = oracle h (.post "sendTransaction" params')

/-- The trace of a signed request from the assembled transaction on. -/
def signedTrace (p : Platform) (oracle : Oracle Resp) (before : Events) :
    Except AppError String → Trace Resp (Except AppError Value)
  | .error e => ⟨[],.returned (.error e)⟩
  | .ok envelope => oracle.run before (submit p envelope).run

/-- A signed request does the same under every key, up to what signing gives. -/
theorem traceWith_cases (p : Platform) (state : AppState) (signed : req.sign = true) (oracle : Oracle Resp) :
    (∃ t, Unsent t ∧ ∀ key, traceWith p state req oracle key = t) ∨
    ∃ before assembled, (∀ e ∈ before, ¬Op.IsSend (Event.op e)) ∧ ∀ key, traceWith p state req oracle key =
      (signedTrace p oracle before (signedEnvelope p state key assembled)).after before := by
  have only : ∀ o ∈ (oracle.run [] (prepare p state req).run).issued, ¬o.IsSend := Oracle.issued_only prepare_only
  have shape (key : Option String) : traceWith p state req oracle key = oracle.run [] (prepare p state req >>=
      fun prepared => ofResult (signedEnvelope p state key prepared.2) >>= submit p).run := by
    rw [traceWith,invokeInner_eq_prepare,prepare_withKey]
    simp only [respond_signed signed]
  simp only [shape, ExceptT.run_bind, Oracle.run_bind]
  generalize oracle.run [] (prepare p state req).run = t at only
  obtain ⟨events,ending⟩ := t
  cases ending with
  | unanswered o => exact .inl ⟨⟨events,.unanswered o⟩,only,fun _ => rfl⟩
  | returned result =>
    cases result with
    | error e =>
      refine .inl ⟨⟨events,.returned (.error e)⟩,only,fun _ => ?_⟩
      change (⟨events ++ [],_⟩ : Trace Resp (Except AppError Value)) = _
      rw [List.append_nil]
      rfl
    | ok prepared =>
      refine .inr ⟨events,prepared.2,?_,fun key => ?_⟩
      · intro e member
        exact only e.op (List.mem_append_left _ (List.mem_map_of_mem member))
      · change ((oracle.run ([] ++ events) (ofResult (signedEnvelope p state key prepared.2) >>= submit p).run).after
          events) = _
        cases signedEnvelope p state key prepared.2 with
        | error e => rfl
        | ok envelope => rfl

/-- A submission sends its envelope, and then no other. -/
theorem submit_issued (p : Platform) (oracle : Oracle Resp) (before : Events) (envelope : String) :
    ∃ later, (oracle.run before (submit p envelope).run).issued =
      .post "sendTransaction" (transactionParams envelope) :: later ∧ ∀ o ∈ later, ¬o.IsSend := by
  obtain ⟨afterSend,shape,only⟩ := submit_eq_op p
  rw [shape,Oracle.run_op]
  cases oracle before (.post "sendTransaction" (transactionParams envelope)) with
  | none => exact ⟨[],rfl,by simp⟩
  | some reply => exact ⟨_,Trace.issued_after _ _,Oracle.issued_only (only reply)⟩

/-- Blind surroundings answer the submissions of two envelopes alike, and what follows. -/
theorem submit_concealed {oracle : Oracle Resp} (blind : Blind oracle) (before : Events)
    (envelope envelope' : String) : concealTrace (oracle.run before (submit p envelope).run) =
      concealTrace (oracle.run before (submit p envelope').run) := by
  obtain ⟨afterSend,shape,_⟩ := submit_eq_op p
  rw [shape,shape,Oracle.run_op,Oracle.run_op,
    blind.envelope before (transactionParams envelope) (transactionParams envelope')]
  cases oracle before (.post "sendTransaction" (transactionParams envelope')) with
  | none => rfl
  | some reply =>
    have same :
        oracle.run (before ++ [⟨.post "sendTransaction" (transactionParams envelope),reply⟩]) (afterSend reply) =
        oracle.run (before ++ [⟨.post "sendTransaction" (transactionParams envelope'),reply⟩]) (afterSend reply) := by
      apply Oracle.run_congr
      intro events o
      apply blind.history
      simp [concealEvent,Op.conceal]
    simp only [same]
    rfl

section Signed

variable {oracle : Oracle Resp} {before : Events} (quiet : ∀ e ∈ before, ¬Op.IsSend (Event.op e))
  {signed : Except AppError String}
include quiet

theorem signedTrace_upToSend : upToSend ((signedTrace p oracle before signed).after before) = before.map Event.op := by
  have none : (signedTrace p oracle before signed).issued.takeWhile (fun o => ¬o.IsSend) = [] := by
    cases signed with
    | error e => rfl
    | ok envelope =>
      obtain ⟨later,issued,_⟩ := submit_issued p oracle before envelope
      rw [signedTrace,issued]
      exact List.takeWhile_cons_of_neg (by simp [Op.IsSend])
  rw [upToSend,Trace.issued_after,List.takeWhile_append_of_pos,none,List.append_nil]
  intro o member
  obtain ⟨e,inside,rfl⟩ := List.mem_map.mp member
  simpa using quiet e inside

theorem signedTrace_sends_iff {o : Op} (send : o.IsSend) :
    o ∈ ((signedTrace p oracle before signed).after before).issued ↔
      ∃ envelope, signed = .ok envelope ∧ o = .post "sendTransaction" (transactionParams envelope) := by
  have early : o ∉ before.map Event.op := by
    intro member
    obtain ⟨e,inside,rfl⟩ := List.mem_map.mp member
    exact quiet e inside send
  rw [Trace.issued_after,List.mem_append,or_iff_right early]
  cases signed with
  | error e => simp [signedTrace,Trace.issued]
  | ok envelope =>
    obtain ⟨later,issued,only⟩ := submit_issued p oracle before envelope
    have late : o ∉ later := fun member => only o member send
    simp [signedTrace,issued,late]

theorem signedTrace_unsent_iff :
    Unsent ((signedTrace p oracle before signed).after before) ↔ ∃ e, signed = .error e := by
  constructor
  · intro unsent
    cases signed with
    | error e => exact ⟨e,rfl⟩
    | ok envelope =>
      exact absurd (Op.isSend_post _)
        (unsent _ ((signedTrace_sends_iff quiet (Op.isSend_post _)).mpr ⟨envelope,rfl,rfl⟩))
  · rintro ⟨e,rfl⟩ o member send
    obtain ⟨_,never,_⟩ := (signedTrace_sends_iff quiet send).mp member
    cases never

end Signed

/-- What two keys may change in the traces of one signed request: the signature in the
envelope that is sent, and which of the fixed refusals an unusable key gets. -/
structure SignatureOnly (p : Platform) (state : AppState) (oracle : Oracle Resp) (key key' : Option String)
    (one other : Trace Resp (Except AppError Value)) : Prop where
  upToSend : upToSend one = upToSend other
  envelopes : ∀ params params', .post "sendTransaction" params ∈ one.issued →
    .post "sendTransaction" params' ∈ other.issued →
    ∃ tx, SentUnder p state key tx params ∧ SentUnder p state key' tx params'
  concealed : ¬Unsent one → ¬Unsent other → Blind oracle → concealTrace one = concealTrace other
  unsent : Unsent one → Unsent other → keyKind p key = keyKind p key' → one = other
  unencoded : ¬Unsent one → Unsent other → keyKind p key' = some true →
    other.ending = .returned (.error (.internal "failed encoding transaction envelope"))

theorem signedTrace_signatureOnly {oracle : Oracle Resp} {before : Events} {assembled : TransactionEnvelope}
    (quiet : ∀ e ∈ before, ¬Op.IsSend (Event.op e)) : SignatureOnly p state oracle key key'
      ((signedTrace p oracle before (signedEnvelope p state key assembled)).after before)
      ((signedTrace p oracle before (signedEnvelope p state key' assembled)).after before) where
  upToSend := by rw [signedTrace_upToSend quiet,signedTrace_upToSend quiet]
  envelopes := by
    intro params params' sent sent'
    obtain ⟨envelope,signed,same⟩ := (signedTrace_sends_iff quiet (Op.isSend_post _)).mp sent
    obtain ⟨envelope',signed',same'⟩ := (signedTrace_sends_iff quiet (Op.isSend_post _)).mp sent'
    obtain ⟨v1,rfl,under⟩ := signedEnvelope_ok signed
    obtain ⟨_,shared,under'⟩ := signedEnvelope_ok signed'
    cases shared
    cases same
    cases same'
    exact ⟨v1.tx,under,under'⟩
  concealed := by
    rw [signedTrace_unsent_iff quiet,signedTrace_unsent_iff quiet]
    intro sent sent' blind
    cases signed : signedEnvelope p state key assembled with
    | error e => exact absurd ⟨e,signed⟩ sent
    | ok envelope =>
      cases signed' : signedEnvelope p state key' assembled with
      | error e => exact absurd ⟨e,signed'⟩ sent'
      | ok envelope' =>
        rw [concealTrace_after,concealTrace_after,signedTrace,signedTrace,
          submit_concealed blind before envelope envelope']
  unsent := by
    rw [signedTrace_unsent_iff quiet,signedTrace_unsent_iff quiet]
    rintro ⟨e,failed⟩ ⟨e',failed'⟩ kind
    rw [failed,failed',signedEnvelope_error_eq kind failed failed']
  unencoded := by
    rw [signedTrace_unsent_iff quiet,signedTrace_unsent_iff quiet]
    rintro sent ⟨e,failed⟩ decodes
    cases signed : signedEnvelope p state key assembled with
    | error e => exact absurd ⟨e,signed⟩ sent
    | ok envelope =>
      obtain ⟨v1,rfl,_,_,_,_,_,_,⟨hash,hashed,_⟩,_⟩ := signedEnvelope_ok signed
      obtain ⟨text,seed,rfl,seedOk⟩ := keyKind_some_true decodes
      rcases signedEnvelope_error seedOk failed with ⟨message,unhashed,_⟩ | ⟨_,rfl⟩
      · cases hashed.symm.trans unhashed
      · rw [failed]
        rfl

/-- Under another key an unsigned request does the same, and a signed one the same up to its
signature. -/
theorem secretKey_noninterference (p : Platform) (state : AppState) (req : InvokeRequest) (oracle : Oracle Resp)
    (key key' : Option String) :
    (req.sign = false → traceWith p state req oracle key = traceWith p state req oracle key') ∧
    (req.sign = true → SignatureOnly p state oracle key key' (traceWith p state req oracle key)
      (traceWith p state req oracle key')) := by
  constructor
  · intro unsigned
    have same (prepared : SimulationOutcome × TransactionEnvelope) :
        respond p state (req.withKey key) prepared.1 prepared.2 =
          respond p state (req.withKey key') prepared.1 prepared.2 := respond_unsigned unsigned
    rw [traceWith,traceWith,invokeInner_eq_prepare,invokeInner_eq_prepare,prepare_withKey,prepare_withKey]
    simp only [same]
  · intro signed
    rcases traceWith_cases p state signed oracle with ⟨t,unsent,same⟩ | ⟨before,assembled,quiet,shape⟩
    · rw [same,same]
      exact {
        upToSend := rfl
        envelopes := fun _ _ sent => absurd rfl (unsent _ sent)
        concealed := fun sent => absurd unsent sent
        unsent := fun _ _ _ => rfl
        unencoded := fun sent => absurd unsent sent }
    · rw [shape,shape]
      exact signedTrace_signatureOnly quiet

end SorobanProxy
