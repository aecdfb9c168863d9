import SorobanProxy.Envelope
import SorobanProxy.Service

/-! Startup on a network that answers each request in one way. It comes to its end exactly
when the interface can be read, whatever becomes of the probes, and each name is called by
the method that its own probe decides. -/
namespace SorobanProxy

open Library
open RpcClient (keysParams transactionParams)

/-- One reply for each request. -/
abbrev Network := String → Value → HttpReply

/-- The calls of the history were answered by the network. -/
def AnsweredBy (net : Network) (events : Events) : Prop :=
  ∀ method params, ∀ reply : HttpReply, ⟨.post method params,reply⟩ ∈ events → reply = net method params

variable (p : Platform) (state : AppState) (net : Network)

/-- The network has the WASM, with this interface in it. -/
def Readable (spec : ContractSpec) : Prop :=
  ∃ wasmHash keyB64 code entries, parseWasmHash p (normalizeHash p state.contractWasmHash) = .ok wasmHash ∧
    p.ledgerKeyToBase64 (.contractCode wasmHash) = .ok keyB64 ∧
    EntryData p (net "getLedgerEntries" (keysParams [keyB64])) (.contractCode code) ∧
    readSpecEntriesFromWasm p code = .ok entries ∧ spec = .fromEntries entries

/-- A function without arguments whose simulation the network accepts, and that writes nothing. -/
def Getter (contractId : String) (f : ScSpecFunctionV0) : Prop :=
  f.inputs = [] ∧ ∃ b64, ProbeCall p contractId f.name.toUtf8StringLossy b64 ∧
    ReadOnly p (net "simulateTransaction" (transactionParams b64))

/-- The last function of that name. -/
def lastFunction (spec : ContractSpec) (name : String) : Option ScSpecFunctionV0 :=
  spec.functions.reverse.find? fun f => f.name.toUtf8StringLossy == name

variable {p state net}

theorem answeredBy_append {first second : Events} :
    AnsweredBy net (first ++ second) ↔ AnsweredBy net first ∧ AnsweredBy net second := by
  constructor
  · intro answered
    constructor
    · exact fun method params reply member => answered method params reply (List.mem_append_left _ member)
    · exact fun method params reply member => answered method params reply (List.mem_append_right _ member)
  · rintro ⟨early,late⟩ method params reply member
    rcases List.mem_append.mp member with member | member
    · exact early method params reply member
    · exact late method params reply member

theorem answeredBy_cons {e : Library.Event Resp} {events : Events} :
    AnsweredBy net (e :: events) ↔ AnsweredBy net [e] ∧ AnsweredBy net events := by
  rw [← answeredBy_append,List.singleton_append]

theorem answeredBy_post {method : String} {params : Value} {reply : HttpReply} :
    AnsweredBy net [⟨.post method params,reply⟩] ↔ reply = net method params := by
  constructor
  · exact fun answered => answered method params reply (List.mem_singleton_self _)
  · rintro rfl method' params' reply' member
    cases List.mem_singleton.mp member
    rfl

theorem answeredBy_of_silent {events : Events} (silent : ∀ e ∈ events, ∀ method params, e.op ≠ .post method params) :
    AnsweredBy net events := fun method params _ member => absurd rfl (silent _ member method params)

/-- One network has one interface under a hash. -/
theorem Readable.unique {first second : ContractSpec} (readable : Readable p state net first)
    (other : Readable p state net second) : first = second := by
  obtain ⟨_,_,_,_,hashOk,keyOk,entry,entriesOk,rfl⟩ := readable
  obtain ⟨_,_,_,_,hashOk',keyOk',entry',entriesOk',rfl⟩ := other
  obtain rfl := Except.ok.inj (hashOk.symm.trans hashOk')
  obtain rfl := Except.ok.inj (keyOk.symm.trans keyOk')
  obtain rfl := LedgerEntryData.contractCode.inj (entry.unique entry')
  rw [Except.ok.inj (entriesOk.symm.trans entriesOk')]

theorem Probe.getter_iff {contractId : String} {f : ScSpecFunctionV0} {events : Events} {getter : Bool}
    (probe : Probe p contractId f events getter) (answered : AnsweredBy net events) :
    getter = true ↔ Getter p net contractId f := by
  cases probe with
  | inputs some => exact iff_of_false (by simp) fun found => some found.1
  | unbuilt _ noCall => exact iff_of_false (by simp) fun ⟨_,b64,call,_⟩ => noCall b64 call
  | @simulated b64 _ reply none call meaning =>
    rw [answeredBy_post.mp answered] at meaning
    refine meaning.trans ⟨fun readOnly => ⟨none,b64,call,readOnly⟩,?_⟩
    rintro ⟨_,other,call',readOnly⟩
    rwa [call.unique call']

variable (p net) in
/-- Every function has a probe, whatever the network replies. -/
theorem exists_probe (contractId : String) (f : ScSpecFunctionV0) : ∃ events getter,
    Probe p contractId f events getter ∧ AnsweredBy net events ∧ ∀ a, System.Through Answers a events a := by
  have silent : AnsweredBy net [] := answeredBy_of_silent (by simp)
  by_cases inputs : f.inputs = []
  · by_cases called : ∃ b64, ProbeCall p contractId f.name.toUtf8StringLossy b64
    · obtain ⟨b64,call⟩ := called
      refine ⟨_,_,.simulated inputs call probeResult_iff,answeredBy_post.mpr rfl,fun a => ?_⟩
      exact .cons (.post _) .nil
    · exact ⟨[],false,.unbuilt inputs (not_exists.mp called),silent,fun _ => .nil⟩
  · exact ⟨[],false,.inputs inputs,silent,fun _ => .nil⟩

variable (p net) in
theorem exists_probed (contractId : String) (fs : List ScSpecFunctionV0) : ∃ events outcomes,
    Probed p contractId fs events outcomes ∧ AnsweredBy net events ∧ ∀ a, System.Through Answers a events a := by
  induction fs with
  | nil => exact ⟨[],[],.nil,answeredBy_of_silent (by simp),fun _ => .nil⟩
  | cons f fs ih =>
    obtain ⟨events,getter,probe,answered,through⟩ := exists_probe p net contractId f
    obtain ⟨rest,outcomes,probed,answered',through'⟩ := ih
    refine ⟨_,_,.cons probe probed,answeredBy_append.mpr ⟨answered,answered'⟩,fun a => ?_⟩
    exact System.through_append_iff.mpr ⟨a,through a,through' a⟩

theorem Probed.outcomes {contractId : String} {fs : List ScSpecFunctionV0} {events : Events}
    {outcomes : Entries String Bool} (probed : Probed p contractId fs events outcomes)
    (answered : AnsweredBy net events) :
    List.Forall₂ (fun f outcome => f.name.toUtf8StringLossy = outcome.1 ∧
      (outcome.2 = true ↔ Getter p net contractId f)) fs outcomes := by
  induction probed with
  | nil => exact .nil
  | cons probe _ ih =>
    obtain ⟨early,late⟩ := answeredBy_append.mp answered
    exact .cons ⟨rfl,probe.getter_iff early⟩ (ih late)

/-- A table is searched as the list that it was made from. -/
theorem find_related {α β : Type} {S : α → β → Prop} {name : α → String} {xs : List α} {entries : Entries String β}
    (related : List.Forall₂ (fun x entry => name x = entry.1 ∧ S x entry.2) xs entries) (key : String) :
    Option.Rel S (xs.find? fun x => name x == key) (Entries.find key entries) := by
  induction related with
  | nil => exact .none
  | @cons x entry _ _ head _ ih =>
    obtain ⟨other,value⟩ := entry
    obtain ⟨rfl,same⟩ := head
    rw [Entries.find_cons]
    by_cases found : key = name x
    · rw [if_pos found,List.find?_cons_of_pos (by simp [found])]
      exact .some same
    · rw [if_neg found,List.find?_cons_of_neg (by simpa using Ne.symm found)]
      exact ih

/-- The last function of a name decides its method. -/
theorem usesGet_iff {contractId : String} {spec : ContractSpec} {events : Events} {outcomes : Entries String Bool}
    (probed : Probed p contractId spec.functions events outcomes) (answered : AnsweredBy net events) (name : String) :
    usesGet (OrdMap.empty.insertAll outcomes) name = true ↔
      ∃ f, lastFunction spec name = some f ∧ Getter p net contractId f := by
  have related : Option.Rel (fun (f : ScSpecFunctionV0) getter => getter = true ↔ Getter p net contractId f)
      (spec.functions.reverse.find? fun f => f.name.toUtf8StringLossy == name) (Entries.find name outcomes.reverse) :=
    find_related (List.rel_reverse (probed.outcomes answered)) name
  have uses : usesGet (OrdMap.empty.insertAll outcomes) name = (Entries.find name outcomes.reverse).getD false := by
    simp [usesGet]
  rw [uses,lastFunction]
  generalize spec.functions.reverse.find? _ = called at related
  generalize Entries.find name outcomes.reverse = outcome at related
  cases related with
  | none => simp
  | some same => simpa using same

/-- A fresh server looks its interface up on the network. -/
theorem Started.fetched {events : Events} {initial : Shared} (started : Started p state events initial)
    (answered : AnsweredBy net events) : ∃ spec probes outcomes, Readable p state net spec ∧
      Probed p state.contractId spec.functions probes outcomes ∧ AnsweredBy net probes ∧
      Kept (normalizeHash p state.contractWasmHash) spec (OrdMap.empty.insertAll outcomes) initial := by
  obtain ⟨lookup,spec,probes,outcomes,found,probed,rfl,kept⟩ := started.kept
  obtain ⟨early,_⟩ := answeredBy_append.mp answered
  obtain ⟨asked,probing⟩ := answeredBy_append.mp early
  refine ⟨spec,probes,outcomes,?_,probed,probing,kept⟩
  cases found with
  | cached =>
    obtain ⟨_,answer,_⟩ := System.through_cons_iff.mp started.through
    cases answer.of_readCache.1
  | fetched hashOk keyOk entry entriesOk =>
    rw [asked _ _ _ (List.mem_cons_of_mem _ List.mem_cons_self)] at entry
    exact ⟨_,_,_,_,hashOk,keyOk,entry,entriesOk,rfl⟩

/-- The interface that a fresh server has is one that can be read. -/
theorem Started.readable {events : Events} {initial : Shared} {spec : ContractSpec}
    (started : Started p state events initial) (answered : AnsweredBy net events)
    (cached : initial.specCache.get (normalizeHash p state.contractWasmHash) = some spec) :
    Readable p state net spec := by
  obtain ⟨read,_,_,readable,_,_,kept,_⟩ := started.fetched answered
  rwa [← Option.some.inj (kept.symm.trans cached)]

/-- A fresh server calls a name by the method of its last function. -/
theorem Started.usesGet_iff {events : Events} {initial : Shared} {spec : ContractSpec}
    (started : Started p state events initial) (answered : AnsweredBy net events)
    (readable : Readable p state net spec) (name : String) : usesGet initial.functionMethods name = true ↔
      ∃ f, lastFunction spec name = some f ∧ Getter p net state.contractId f := by
  obtain ⟨read,_,outcomes,readable',probed,probing,_,methods⟩ := started.fetched answered
  obtain rfl := readable.unique readable'
  rw [methods]
  exact SorobanProxy.usesGet_iff probed probing name

/-- Where the interface can be read, startup comes to its end. -/
theorem exists_started {spec : ContractSpec} (readable : Readable p state net spec) : ∃ events initial,
    Started p state events initial ∧ AnsweredBy net events ∧
      initial.specCache.get (normalizeHash p state.contractWasmHash) = some spec := by
  obtain ⟨wasmHash,keyB64,code,entries,hashOk,keyOk,entry,entriesOk,rfl⟩ := readable
  obtain ⟨probes,outcomes,probed,answered,through⟩ := exists_probed p net state.contractId
    (ContractSpec.fromEntries entries).functions
  let spec := ContractSpec.fromEntries entries
  let cache := OrdMap.empty.insert (normalizeHash p state.contractWasmHash) spec
  have found := SpecLookup.fetched hashOk keyOk entry entriesOk
  refine ⟨_,⟨cache,OrdMap.empty.insertAll outcomes⟩,⟨startup_runs_iff.mpr ⟨_,_,_,_,found,probed,rfl⟩,?_⟩,?_,?_⟩
  · have filled : System.Through Answers ⟨cache,.empty⟩ probes ⟨cache,.empty⟩ := through _
    refine System.through_append_iff.mpr ⟨_,System.through_append_iff.mpr ⟨_,?_,filled⟩,.cons .writeMethods .nil⟩
    exact .cons .readCache (.cons (.post _) (.cons .writeCache .nil))
  · refine answeredBy_append.mpr ⟨answeredBy_append.mpr ⟨?_,answered⟩,answeredBy_of_silent (by simp)⟩
    refine answeredBy_cons.mpr ⟨answeredBy_of_silent (by simp),answeredBy_cons.mpr ⟨answeredBy_post.mpr rfl,?_⟩⟩
    exact answeredBy_of_silent (by simp)
  · rw [OrdMap.get_insert]
    exact if_pos rfl

/-- Startup is decided by the network: it comes to its end exactly with the interface that
can be read, however the probes are answered, and a name is called by GET exactly when the
last function of that name is a getter to its own probe. -/
theorem startup_on_network (p : Platform) (state : AppState) (net : Network) :
    (∀ spec, Readable p state net spec ↔ ∃ events initial, Started p state events initial ∧ AnsweredBy net events ∧
      initial.specCache.get (normalizeHash p state.contractWasmHash) = some spec) ∧
    ∀ events initial spec name, Started p state events initial → AnsweredBy net events → Readable p state net spec →
      (usesGet initial.functionMethods name = true ↔
        ∃ f, lastFunction spec name = some f ∧ Getter p net state.contractId f) := by
  refine ⟨fun spec => ⟨exists_started,?_⟩,?_⟩
  · rintro ⟨_,_,started,answered,cached⟩
    exact started.readable answered cached
  · intro events initial spec name started answered readable
    exact started.usesGet_iff answered readable name

end SorobanProxy
