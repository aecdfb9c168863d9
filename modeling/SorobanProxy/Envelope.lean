import SorobanProxy.Reference

/-! The envelope that a request returns or sends: the requested call, whatever the
simulation answers. -/
namespace SorobanProxy

open Library
open RpcClient (transactionParams)

/-- Letters, digits and underscores. -/
def Identifier (s : String) : Prop := ∀ char ∈ s.toList, char.isAlphanum ∨ char = '_'

instance (s : String) : Decidable (Identifier s) := List.decidableBAll _ s.toList

theorem Identifier.plain {s : String} (identifier : Identifier s) : Plain s := by
  intro member
  rcases identifier _ member with letter | underscore
  · exact absurd letter (by decide)
  · exact absurd underscore (by decide)

variable {p : Platform} {state : AppState} {req : InvokeRequest}

theorem EntryData.unique {reply : HttpReply} {a b : LedgerEntryData} (first : EntryData p reply a)
    (second : EntryData p reply b) : a = b := by
  obtain ⟨resp,entry,b64,answered,head,xdr,decoded⟩ := first
  obtain ⟨_,_,_,answered',head',xdr',decoded'⟩ := second
  obtain rfl := Except.ok.inj (answered.symm.trans answered')
  obtain rfl := Option.some.inj (head.symm.trans head')
  obtain rfl := Value.string.inj (Option.some.inj (xdr.symm.trans xdr'))
  exact Except.ok.inj (decoded.symm.trans decoded')

theorem SpecLookup.unique {wasmHashHex : String} {lookup : Events} {a b : ContractSpec}
    (first : SpecLookup p wasmHashHex lookup a) (second : SpecLookup p wasmHashHex lookup b) : a = b := by
  cases first with
  | cached =>
    cases second
    rfl
  | fetched =>
    generalize same : ContractSpec.fromEntries _ = a at second ⊢
    cases second
    rfl

/-- Requests with the same trace up to the simulation are the same call. -/
theorem Preparation.Requested.call_eq {x y : Preparation} (left : x.Requested p state req)
    (right : y.Requested p state req) (same : x.beforeSimulation = y.beforeSimulation) : x.call = y.call := by
  obtain ⟨lookups,others⟩ := List.append_inj' same rfl
  simp only [List.cons.injEq, Event.mk.injEq, heq_eq_eq, true_and, and_true] at others
  have specs : x.spec = y.spec := by
    have found := right.lookup
    rw [← lookups] at found
    exact left.lookup.unique found
  have funcs : x.func = y.func := by
    have found := left.function
    rw [specs,right.function] at found
    exact (Option.some.inj found).symm
  have args : x.call.args = y.call.args := by
    have converted := convertArgs_eq_ok_iff.mpr left.args
    rw [specs,funcs,convertArgs_eq_ok_iff.mpr right.args] at converted
    exact (Except.ok.inj converted).symm
  have replies : x.accountReply = y.accountReply := by
    obtain ⟨_,_,replies⟩ := others
    exact replies
  have seqNums : x.call.seqNum = y.call.seqNum := by
    obtain ⟨n,entry,_,next⟩ := left.seqNum
    obtain ⟨m,entry',_,next'⟩ := right.seqNum
    rw [replies] at entry
    obtain rfl := LedgerEntryData.account.inj (entry.unique entry')
    rw [next,next']
  exact Call.ext (Option.some.inj (left.source.symm.trans right.source)) seqNums
    (Option.some.inj (left.contract.symm.trans right.contract))
    (Option.some.inj (left.symbol.symm.trans right.symbol)) args

theorem get_transactionXdr (sim : SimulationOutcome) (b64 : String) :
    (simulatedResponse p state sim b64).get "transaction_xdr" = some (.string b64) := by
  apply Value.get_obj <;> simp [Value.str]

theorem get_transactionXdr_submitted (hash : String) (resp : Value) :
    (submittedResponse p hash resp).get "transaction_xdr" = none := by
  apply Value.get_obj_eq_none
  simp

/-- What is returned is the assembled call without a signature, what is sent is the
assembled call with one signature over it, and the call was settled before the simulation. -/
theorem envelope_calls_requested (text : p.TextLaw) (identifier : Identifier req.functionName) :
    (∀ history response b64, Prog.Runs (invokeInner p state req).run history (.ok response) →
      response.get "transaction_xdr" = some (.string b64) →
      ∃ x : Preparation, x.Valid p state req ∧ history = x.trace ∧
        x.call.function.bytes = utf8 req.functionName ∧
        p.envelopeToBase64 (.tx ⟨x.assembled,[]⟩) = .ok b64) ∧
    (∀ history params, Prog.Issues (invokeInner p state req).run history (.post "sendTransaction" params) →
      ∃ (x : Preparation) (secretKey : String) (seed : Bytes32) (signature : DecoratedSignature) (b64 : String),
        x.Valid p state req ∧ history = x.trace ∧ x.call.function.bytes = utf8 req.functionName ∧
        req.secretKey = some secretKey ∧ p.seedFromString secretKey = some seed ∧
        Signed p state.networkPassphrase seed x.assembled signature ∧
        p.envelopeToBase64 (.tx ⟨x.assembled,[signature]⟩) = .ok b64 ∧ params = transactionParams b64) ∧
    ∀ x y : Preparation, x.Valid p state req → y.Valid p state req →
      x.beforeSimulation = y.beforeSimulation → x.call = y.call := by
  have named {x : Preparation} (valid : x.Valid p state req) : x.call.function.bytes = utf8 req.functionName :=
    (text.some_iff identifier.plain).mp valid.requested.symbol
  have holds : Prog.Holds (fun _ _ => True) (Allowed p state req) (Finished p state req) []
      (invokeInner p state req).run := invokeInner_holds
  have reliable (events : Events) : Prog.Reliable (fun _ _ => True) events := fun _ _ => trivial
  refine ⟨?_,?_,?_⟩
  · intro history response b64 run returned
    have finished := holds.post_of_runs run (reliable _)
    rcases finished with ⟨_,x,xdr,valid,trace,encoded,rfl⟩ | ⟨_,hash,_,_,resp,_,_,_,_,_,rfl⟩
    · rw [get_transactionXdr] at returned
      obtain rfl := Value.string.inj (Option.some.inj returned)
      exact ⟨x,valid,trace,named valid,encoded⟩
    · rw [get_transactionXdr_submitted] at returned
      cases returned
  · intro history params run
    have issued := holds.allowed_of_issues run (reliable _)
    obtain ⟨x,s,valid,signed,trace,rfl⟩ := issued.1 rfl
    exact ⟨x,s.secretKey,s.seed,s.signature,s.envelope,valid,trace,named valid,signed.secretKey,signed.seed,
      signed.signature,signed.envelope,rfl⟩
  · intro x y left right same
    exact left.requested.call_eq right.requested same

/-- The reference request comes to both ends, with the envelopes that the theorem gives. -/
theorem envelope_calls_requested_ping :
    (∃ x : Preparation, x.Valid Reference.platform Reference.state (Reference.request false) ∧
      Reference.platform.envelopeToBase64 (.tx ⟨x.assembled,[]⟩) = .ok Reference.assembledXdr) ∧
    ∃ (x : Preparation) (signature : DecoratedSignature),
      x.Valid Reference.platform Reference.state (Reference.request true) ∧
      Reference.platform.envelopeToBase64 (.tx ⟨x.assembled,[signature]⟩) = .ok Reference.signedXdr := by
  constructor
  · obtain ⟨returned,_,_⟩ := @envelope_calls_requested Reference.platform Reference.state
      (Reference.request false) Reference.platform_text (by decide)
    obtain ⟨x,valid,_,_,encoded⟩ := returned _ _ _
      (invokeInner_returns (Reference.preparation_valid false) rfl rfl) (get_transactionXdr _ _)
    exact ⟨x,valid,encoded⟩
  · obtain ⟨_,sent,_⟩ := @envelope_calls_requested Reference.platform Reference.state
      (Reference.request true) Reference.platform_text (by decide)
    obtain ⟨x,_,_,signature,b64,valid,_,_,_,_,_,encoded,params⟩ := sent _ _
      (invokeInner_sends (Reference.preparation_valid true) Reference.submission_valid)
    rw [← RpcClient.transactionParams_injective params] at encoded
    exact ⟨x,signature,valid,encoded⟩

end SorobanProxy
