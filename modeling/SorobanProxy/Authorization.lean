import SorobanProxy.Reference

/-! The authorization entries on their way from a simulation into the transaction. Elements
that are text are decoded, all or none; an element that is not text is left out. -/
namespace SorobanProxy

open Library

variable {p : Platform} {resp first : Value} {elements rest : List Value} {unsigned : TransactionEnvelope}

/-- The authorization entries of the invocation in an envelope. -/
def TransactionEnvelope.authorization : TransactionEnvelope → Option (List SorobanAuthorizationEntry)
  | .tx v1 =>
    match v1.tx.operations with
    | ⟨_,.invokeHostFunction op⟩ :: _ => some op.auth
    | _ => none
  | _ => none

/-- The element is the text of the entry. -/
def DecodesTo (p : Platform) (element : Value) (entry : SorobanAuthorizationEntry) : Prop :=
  ∃ b64, element = .string b64 ∧ p.authorizationFromBase64 b64 = .ok entry

/-- Every element is in the assembled operation, in its place, and an element that is not
an entry's text makes the pipeline fail. -/
structure AuthKept (p : Platform) (unsigned : TransactionEnvelope) (resp : Value) (elements : List Value) : Prop where
  entries : ∀ sim envelope, parseSimulation p resp = .ok sim → assembleTransaction p unsigned sim = .ok envelope →
    ∃ auth, envelope.authorization = some auth ∧ List.Forall₂ (DecodesTo p) elements auth
  refused : (∃ element ∈ elements, ∀ entry, ¬DecodesTo p element entry) →
    ∀ sim envelope, parseSimulation p resp = .ok sim → assembleTransaction p unsigned sim ≠ .ok envelope

/-- All that is checked of a reply with `first` for its first result and these texts among
its authorization entries. -/
structure Acceptable (p : Platform) (resp first : Value) (texts : List String) : Prop where
  noError : resp.get "error" = none
  noRestore : resp.get "restorePreamble" = none
  data : ∃ b64 data, resp.get "transactionData" = some (.string b64) ∧ p.sorobanDataFromBase64 b64 = .ok data
  fee : ∃ text fee, resp.get "minResourceFee" = some (.string text) ∧ parseI64 text = .ok fee ∧
    0 ≤ fee.toInt ∧ fee.toInt + 100 < 2 ^ 32
  result : ∀ b64, first.get "xdr" = some (.string b64) → ∃ v, p.scvalFromBase64 b64 = .ok v
  auth : ∀ b64 ∈ texts, ∃ entry, p.authorizationFromBase64 b64 = .ok entry
  fits : texts.length ≤ u32Max

theorem simulatedResult_ok_iff : (∃ result, simulatedResult p (some first) = .ok result) ↔
    ∀ b64, first.get "xdr" = some (.string b64) → ∃ v, p.scvalFromBase64 b64 = .ok v := by
  rw [simulatedResult,Option.bind_some]
  cases text : first.getStr "xdr" with
  | none =>
    refine iff_of_true ⟨none,rfl⟩ fun b64 given => ?_
    rw [Value.getStr_eq_some_iff.mpr given] at text
    cases text
  | some b64 =>
    have given := Value.getStr_eq_some_iff.mp text
    simp only [map_eq_ok_iff, mapError_eq_ok_iff, given, Option.some.injEq, Value.string.injEq, forall_eq']
    constructor
    · rintro ⟨_,v,decoded,_⟩
      exact ⟨v,decoded⟩
    · rintro ⟨v,decoded⟩
      exact ⟨_,v,decoded,rfl⟩

/-- Where all elements are text, none is left out. -/
theorem eq_map_texts (all : ∀ element ∈ elements, element.asStr ≠ none) :
    elements = (elements.filterMap Value.asStr).map .string := by
  induction elements with
  | nil => rfl
  | cons element rest ih =>
    obtain ⟨s,text⟩ := Option.ne_none_iff_exists'.mp (all element List.mem_cons_self)
    rw [List.filterMap_cons_some text,List.map_cons,← ih fun other later => all other (List.mem_cons_of_mem _ later),
      Value.asStr_eq_some_iff.mp text]

section Reply

variable (results : resp.get "results" = some (.array (first :: rest)))
    (array : first.get "auth" = some (.array elements))
include results array

theorem parseSimulation_first_iff {sim : SimulationOutcome} : parseSimulation p resp = .ok sim ↔
    resp.get "error" = none ∧ resp.get "restorePreamble" = none ∧
    (∃ b64, resp.get "transactionData" = some (.string b64) ∧ p.sorobanDataFromBase64 b64 = .ok sim.sorobanData) ∧
    (∃ fee, resp.get "minResourceFee" = some (.string fee) ∧ parseI64 fee = .ok sim.minResourceFee) ∧
    (∃ result, simulatedResult p (some first) = .ok result ∧ sim.resultJson = result.map (scvalToJson p.toCrates)) ∧
    sim.authB64 = elements.filterMap Value.asStr ∧ sim.raw = resp := by
  have head : (resp.fieldArray p "results").head? = some first := by
    simp [Value.fieldArray,Value.field,results,okOr,Value.asArray]
  have auth : simulatedAuth (some first) = elements.filterMap Value.asStr := by
    simp [simulatedAuth,array,Value.asArray]
  rw [parseSimulation_eq_ok_iff,head,auth]

/-- The pipeline succeeds just on acceptable replies. -/
theorem exists_assembled_iff (call : Call) :
    (∃ sim envelope, parseSimulation p resp = .ok sim ∧ assembleTransaction p call.unsigned sim = .ok envelope) ↔
      Acceptable p resp first (elements.filterMap Value.asStr) := by
  constructor
  · rintro ⟨sim,envelope,parsed,assembled⟩
    obtain ⟨noError,noRestore,⟨b64,data,decoded⟩,⟨text,fee,parsedFee⟩,⟨result,read,_⟩,texts,_⟩ :=
      (parseSimulation_first_iff results array).mp parsed
    obtain ⟨total,auth,exact,nonneg,each,fits,_⟩ := assembleTransaction_eq_ok_iff.mp assembled
    have bound := total.toNat_lt
    rw [texts] at each
    constructor
    · exact noError
    · exact noRestore
    · exact ⟨b64,_,data,decoded⟩
    · exact ⟨text,_,fee,parsedFee,nonneg,by omega⟩
    · exact simulatedResult_ok_iff.mp ⟨result,read⟩
    · intro b64 member
      obtain ⟨entry,_,decoded⟩ := forall₂_mem_left each member
      exact ⟨entry,decoded⟩
    · rw [each.length_eq]
      exact fits
  · intro ok
    obtain ⟨b64,data,given,decoded⟩ := ok.data
    obtain ⟨text,fee,givenFee,parsedFee,nonneg,small⟩ := ok.fee
    obtain ⟨result,read⟩ := simulatedResult_ok_iff.mpr ok.result
    obtain ⟨auth,each⟩ := exists_forall₂_iff.mpr ok.auth
    have total : (UInt32.ofNat (fee.toInt + 100).toNat).toNat = (fee.toInt + 100).toNat :=
      UInt32.toNat_ofNat_of_lt' (by norm_num [UInt32.size]; omega)
    refine ⟨⟨data,fee,_,_,resp⟩,_,(parseSimulation_first_iff results array).mpr ⟨ok.noError,ok.noRestore,
      ⟨b64,given,decoded⟩,⟨text,givenFee,parsedFee⟩,⟨result,read,rfl⟩,rfl,rfl⟩,
      assembleTransaction_eq_ok_iff.mpr ⟨.ofNat (fee.toInt + 100).toNat,auth,?_,nonneg,each,?_,rfl⟩⟩
    · rw [total]
      dsimp only
      omega
    · rw [← each.length_eq]
      exact ok.fits

/-- Every authorization entry is kept, or the pipeline fails, unless an element is not text
and the reply is acceptable without it. -/
theorem authKept_iff {sourceAccount contractId functionName : String} {nextSeq : Int64} {args : List ScVal}
    (built : buildUnsignedInvokeTx p sourceAccount nextSeq contractId functionName args = .ok unsigned) :
    AuthKept p unsigned resp elements ↔
      ¬((∃ element ∈ elements, element.asStr = none) ∧
        Acceptable p resp first (elements.filterMap Value.asStr)) := by
  obtain ⟨call,_,_,_,_,_,_,rfl⟩ := buildUnsignedInvokeTx_eq_ok_iff.mp built
  constructor
  · rintro kept ⟨⟨element,member,noText⟩,ok⟩
    obtain ⟨sim,envelope,parsed,assembled⟩ := (exists_assembled_iff results array call).mpr ok
    obtain ⟨auth,_,each⟩ := kept.entries sim envelope parsed assembled
    obtain ⟨entry,_,b64,rfl,_⟩ := forall₂_mem_left each member
    cases noText
  · intro lost
    have entries (sim envelope) (parsed : parseSimulation p resp = .ok sim)
        (assembled : assembleTransaction p call.unsigned sim = .ok envelope) :
        ∃ auth, envelope.authorization = some auth ∧ List.Forall₂ (DecodesTo p) elements auth := by
      have ok := (exists_assembled_iff results array call).mp ⟨sim,envelope,parsed,assembled⟩
      have all : ∀ element ∈ elements, element.asStr ≠ none := fun element member noText =>
        lost ⟨⟨element,member,noText⟩,ok⟩
      obtain ⟨_,_,_,_,_,texts,_⟩ := (parseSimulation_first_iff results array).mp parsed
      obtain ⟨fee,auth,_,_,each,_,rfl⟩ := assembleTransaction_eq_ok_iff.mp assembled
      refine ⟨auth,rfl,?_⟩
      rw [eq_map_texts all,List.forall₂_map_left_iff,← texts]
      exact each.imp fun b64 entry decoded => ⟨b64,rfl,decoded⟩
    refine ⟨entries,?_⟩
    rintro ⟨element,member,undecodable⟩ sim envelope parsed assembled
    obtain ⟨auth,_,each⟩ := entries sim envelope parsed assembled
    obtain ⟨entry,_,decoded⟩ := forall₂_mem_left each member
    exact undecodable entry decoded

end Reply

namespace Reference

/-- A reply to a simulation with one authorization element. -/
def authReply (element : Value) : Value := .obj [
  ("transactionData", .str readingXdr),
  ("minResourceFee", .str "12345"),
  ("results", .array [.obj [("auth", .array [element])]])]

theorem authReply_results (element : Value) :
    (authReply element).get "results" = some (.array [.obj [("auth", .array [element])]]) :=
  Value.get_obj (by simp) (by simp)

theorem authReply_auth (element : Value) :
    (Value.obj [("auth", .array [element])]).get "auth" = some (.array [element]) :=
  Value.get_obj (by simp) (by simp)

theorem ping_built : buildUnsignedInvokeTx platform sourceAccount 42 contractId "ping" [] =
    .ok (Call.unsigned ⟨sourceKey,42,contract,ping.name,[]⟩) :=
  buildUnsignedInvokeTx_eq_ok_iff.mpr ⟨⟨sourceKey,42,contract,ping.name,[]⟩,rfl,rfl,rfl,
    (platform_text.some_iff (show Plain "ping" by decide)).mpr rfl,rfl,Nat.zero_le _,rfl⟩

theorem authKept_iff_text : AuthKept platform (Call.unsigned ⟨sourceKey,42,contract,ping.name,[]⟩)
    (authReply (.str "AAAA")) [.str "AAAA"] ↔
    ¬((∃ element ∈ [Value.str "AAAA"], element.asStr = none) ∧
      Acceptable platform (authReply (.str "AAAA")) (.obj [("auth", .array [.str "AAAA"])])
        ([Value.str "AAAA"].filterMap Value.asStr)) :=
  authKept_iff (authReply_results _) (authReply_auth _) ping_built

/-- Nothing else of the reply is refused. -/
theorem authReply_acceptable (element : Value) :
    Acceptable platform (authReply element) (.obj [("auth", .array [element])]) [] where
  noError := Value.get_obj_eq_none (by simp)
  noRestore := Value.get_obj_eq_none (by simp)
  data := ⟨readingXdr,readingData,Value.get_obj (by simp) (by simp [Value.str]),rfl⟩
  fee := ⟨"12345",12345,Value.get_obj (by simp) (by simp [Value.str]),by decide,by decide,by decide⟩
  result b64 given := by
    rw [Value.get_obj_eq_none (by simp)] at given
    cases given
  auth := by simp
  fits := Nat.zero_le _

/-- A number among the authorization entries is left out, and the rest is assembled. -/
theorem auth_element_dropped : ¬∀ (p : Platform) (resp first : Value) (rest elements : List Value)
    (unsigned : TransactionEnvelope) (sourceAccount contractId functionName : String) (nextSeq : Int64)
    (args : List ScVal), resp.get "results" = some (.array (first :: rest)) →
    first.get "auth" = some (.array elements) →
    buildUnsignedInvokeTx p sourceAccount nextSeq contractId functionName args = .ok unsigned →
    AuthKept p unsigned resp elements := by
  intro always
  let element := Value.number (.ofU32 5)
  have kept := always platform _ _ _ _ _ _ _ _ _ _ (authReply_results element) (authReply_auth element) ping_built
  obtain ⟨sim,envelope,parsed,assembled⟩ :=
    (exists_assembled_iff (authReply_results element) (authReply_auth element) _).mpr (authReply_acceptable element)
  refine kept.refused ⟨element,List.mem_singleton_self _,?_⟩ sim envelope parsed assembled
  rintro entry ⟨b64,text,_⟩
  exact Value.noConfusion text

end Reference
end SorobanProxy
