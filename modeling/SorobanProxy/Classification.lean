import SorobanProxy.Reference

/-! The startup classification of functions, and what the method gate makes of it. The
classification keeps the last entry of a name, the invocation takes the first. -/
namespace SorobanProxy

open Library
open RpcClient (transactionParams)

variable (p : Platform) (contractId : String)

/-- The reply is a successful simulation that writes nothing. -/
def ReadOnly (reply : HttpReply) : Prop :=
  ∃ resp sim, replyResult p "simulateTransaction" reply = .ok resp ∧ parseSimulation p resp = .ok sim ∧
    sim.sorobanData.resources.footprint.readWrite = []

/-- The call of a function without arguments, as the probe simulates it. -/
def ProbeCall (name b64 : String) : Prop :=
  ∃ unsigned, buildUnsignedInvokeTx p (probeSourceAccount p) probeSeqNum contractId name [] = .ok unsigned ∧
    p.envelopeToBase64 unsigned = .ok b64

/-- The probe of one entry, with the call that it makes, if any, and whether the entry is
a getter: it takes no inputs and its simulation succeeded and writes nothing. -/
inductive Probe (f : ScSpecFunctionV0) : Events → Bool → Prop where
  | inputs : f.inputs ≠ [] → Probe f [] false
  | unbuilt : f.inputs = [] → (∀ b64, ¬ProbeCall p contractId f.name.toUtf8StringLossy b64) → Probe f [] false
  | simulated : f.inputs = [] → ProbeCall p contractId f.name.toUtf8StringLossy b64 →
      (getter = true ↔ ReadOnly p reply) →
      Probe f [⟨.post "simulateTransaction" (transactionParams b64),reply⟩] getter

/-- The probes of all entries in order, and for each its name with whether it is a getter. -/
inductive Probed : List ScSpecFunctionV0 → Events → Entries String Bool → Prop where
  | nil : Probed [] [] []
  | cons : Probe p contractId f events getter → Probed fs rest outcomes →
      Probed (f :: fs) (events ++ rest) ((f.name.toUtf8StringLossy, getter) :: outcomes)

/-- A name's first entry is the one that is invoked. -/
def firstOutcome (name : String) (outcomes : Entries String Bool) : Option Bool :=
  Entries.find name outcomes

def lastOutcome (name : String) (outcomes : Entries String Bool) : Option Bool :=
  Entries.find name outcomes.reverse

variable {p contractId}

theorem Probed.names {fs : List ScSpecFunctionV0} {events : Events} {outcomes : Entries String Bool}
    (probed : Probed p contractId fs events outcomes) :
    outcomes.map Prod.fst = fs.map fun f => StringM.toUtf8StringLossy f.name := by
  induction probed with
  | nil => rfl
  | cons _ _ ih => rw [List.map_cons,List.map_cons,ih]

/-- What a probe makes of a reply. -/
def probeResult (p : Platform) (reply : HttpReply) : Result Bool := do
  let sim ← parseSimulation p (← replyResult p "simulateTransaction" reply)
  return sim.sorobanData.resources.footprint.readWrite.isEmpty

theorem probeResult_iff {reply : HttpReply} : (probeResult p reply).toOption.getD false = true ↔ ReadOnly p reply := by
  have success : (probeResult p reply).toOption.getD false = true ↔ probeResult p reply = .ok true := by
    cases probeResult p reply <;> simp [Except.toOption]
  rw [success]
  simp only [probeResult, ReadOnly, bind_eq_ok_iff, pure_eq_ok_iff, List.isEmpty_iff]
  constructor
  · rintro ⟨resp,answered,sim,parsed,empty⟩
    exact ⟨resp,sim,answered,parsed,empty⟩
  · rintro ⟨resp,sim,answered,parsed,empty⟩
    exact ⟨resp,answered,sim,parsed,empty⟩

theorem probeNoArgFunction_built {name b64 : String} (call : ProbeCall p contractId name b64) :
    (probeNoArgFunction p contractId (probeSourceAccount p) name).run =
      .op (.post "simulateTransaction" (transactionParams b64)) fun reply => .pure (probeResult p reply) := by
  obtain ⟨unsigned,built,encoded⟩ := call
  rw [probeNoArgFunction,built,Prog.ofResult_ok_bind,envelopeToBase64_eq_ok_iff.mpr encoded,
    Prog.ofResult_ok_bind,RpcClient.simulateTransaction,call_bind]
  refine congrArg (Prog.op _) (funext fun reply => ?_)
  rw [probeResult]
  cases replyResult p "simulateTransaction" reply with
  | error e => rfl
  | ok resp =>
    change _ = Prog.pure (parseSimulation p resp >>= _)
    rw [Prog.ofResult_ok_bind]
    cases parseSimulation p resp <;> rfl

theorem probeNoArgFunction_unbuilt {name : String} (noCall : ∀ b64, ¬ProbeCall p contractId name b64) :
    ∃ e, (probeNoArgFunction p contractId (probeSourceAccount p) name).run = .pure (.error e) := by
  rw [probeNoArgFunction]
  cases built : buildUnsignedInvokeTx p (probeSourceAccount p) probeSeqNum contractId name [] with
  | error e => exact ⟨e,rfl⟩
  | ok unsigned =>
    rw [Prog.ofResult_ok_bind]
    cases encoded : envelopeToBase64 p unsigned with
    | error e => exact ⟨e,rfl⟩
    | ok b64 => exact absurd ⟨unsigned,built,envelopeToBase64_eq_ok_iff.mp encoded⟩ (noCall b64)

theorem ProbeCall.unique {name a b : String} (first : ProbeCall p contractId name a)
    (second : ProbeCall p contractId name b) : a = b := by
  obtain ⟨unsigned,built,encoded⟩ := first
  obtain ⟨_,built',encoded'⟩ := second
  obtain rfl := Except.ok.inj (built.symm.trans built')
  exact Except.ok.inj (encoded.symm.trans encoded')

theorem classifyFunction_called {f : ScSpecFunctionV0} {b64 : String} (inputs : f.inputs = [])
    (call : ProbeCall p contractId f.name.toUtf8StringLossy b64) :
    classifyFunction p contractId (probeSourceAccount p) f =
      .op (.post "simulateTransaction" (transactionParams b64)) fun reply =>
        .pure ((probeResult p reply).toOption.getD false) := by
  rw [classifyFunction,if_neg (not_not.mpr inputs),probeNoArgFunction_built call,Prog.op_bind]
  refine congrArg (Prog.op _) (funext fun reply => ?_)
  rw [Prog.pure_bind]
  cases probeResult p reply <;> rfl

/-- The runs of one turn of the loop are the probes of its entry. -/
theorem classifyFunction_runs_iff {f : ScSpecFunctionV0} {events : Events} {getter : Bool} :
    Prog.Runs (classifyFunction p contractId (probeSourceAccount p) f) events getter ↔
      Probe p contractId f events getter := by
  by_cases inputs : f.inputs = []
  · by_cases called : ∃ b64, ProbeCall p contractId f.name.toUtf8StringLossy b64
    · obtain ⟨b64,call⟩ := called
      rw [classifyFunction_called inputs call,Prog.runs_op_iff]
      constructor
      · rintro ⟨reply,rest,rfl,run⟩
        obtain ⟨rfl,rfl⟩ := Prog.runs_pure_iff.mp run
        exact .simulated inputs call probeResult_iff
      · intro probe
        cases probe with
        | inputs some => exact absurd inputs some
        | unbuilt _ none => exact absurd call (none b64)
        | @simulated _ getter reply _ other meaning =>
          obtain rfl := call.unique other
          have same := Bool.eq_iff_iff.mpr (meaning.trans probeResult_iff.symm)
          exact ⟨reply,[],rfl,Prog.runs_pure_iff.mpr ⟨rfl,same⟩⟩
    · rw [not_exists] at called
      obtain ⟨e,same⟩ := probeNoArgFunction_unbuilt called
      rw [classifyFunction,if_neg (not_not.mpr inputs),same,Prog.pure_bind]
      refine Prog.runs_pure_iff.trans ⟨?_,fun probe => ?_⟩
      · rintro ⟨rfl,rfl⟩
        exact .unbuilt inputs called
      · cases probe with
        | inputs some => exact absurd inputs some
        | unbuilt => exact ⟨rfl,rfl⟩
        | simulated _ call => exact absurd call (called _)
  · rw [classifyFunction,if_pos inputs]
    refine Prog.runs_pure_iff.trans ⟨?_,fun probe => ?_⟩
    · rintro ⟨rfl,rfl⟩
      exact .inputs inputs
    · cases probe with
      | inputs => exact ⟨rfl,rfl⟩
      | unbuilt none => exact absurd none inputs
      | simulated none => exact absurd none inputs

/-- The runs of the loop are the probes of its entries. -/
theorem classifyFrom_runs_iff {fs : List ScSpecFunctionV0} {start methods : OrdMap String Bool}
    {events : Events} : Prog.Runs (classifyFrom p contractId (probeSourceAccount p) start fs) events methods ↔
      ∃ outcomes, Probed p contractId fs events outcomes ∧ methods = start.insertAll outcomes := by
  induction fs generalizing start events with
  | nil =>
    refine Prog.runs_pure_iff.trans ⟨?_,?_⟩
    · rintro ⟨rfl,rfl⟩
      exact ⟨[],.nil,rfl⟩
    · rintro ⟨_,probed,rfl⟩
      cases probed
      exact ⟨rfl,rfl⟩
  | cons f rest ih =>
    refine Prog.runs_bind_iff.trans ⟨?_,?_⟩
    · rintro ⟨first,getter,second,rfl,head,tail⟩
      obtain ⟨outcomes,probed,rfl⟩ := ih.mp tail
      exact ⟨_,.cons (classifyFunction_runs_iff.mp head) probed,rfl⟩
    · rintro ⟨_,probed,rfl⟩
      cases probed with
      | cons probe probed =>
        exact ⟨_,_,_,rfl,classifyFunction_runs_iff.mpr probe,ih.mpr ⟨_,probed,rfl⟩⟩

theorem classifyFunctions_runs_iff {spec : ContractSpec} {events : Events} {methods : OrdMap String Bool} :
    Prog.Runs (classifyFunctions p contractId spec) events methods ↔
      ∃ outcomes, Probed p contractId spec.functions events outcomes ∧ methods = OrdMap.empty.insertAll outcomes :=
  classifyFrom_runs_iff

/-- The events of a probe tell its outcome. -/
theorem Probe.unique {f : ScSpecFunctionV0} {events events' rest rest' : Events} {getter getter' : Bool}
    (first : Probe p contractId f events getter) (second : Probe p contractId f events' getter')
    (same : events ++ rest = events' ++ rest') : getter = getter' ∧ rest = rest' := by
  cases first with
  | inputs some =>
    cases second with
    | inputs => exact ⟨rfl,same⟩
    | unbuilt none => exact absurd none some
    | simulated none => exact absurd none some
  | unbuilt none noCall =>
    cases second with
    | inputs some => exact absurd none some
    | unbuilt => exact ⟨rfl,same⟩
    | simulated _ call => exact absurd call (noCall _)
  | simulated none call meaning =>
    cases second with
    | inputs some => exact absurd none some
    | unbuilt _ noCall => exact absurd call (noCall _)
    | simulated _ other meaning' =>
      obtain rfl := call.unique other
      simp only [List.cons_append, List.nil_append, List.cons.injEq, Event.mk.injEq, heq_eq_eq, true_and] at same
      obtain ⟨rfl,rfl⟩ := same
      exact ⟨Bool.eq_iff_iff.mpr (meaning.trans meaning'.symm),rfl⟩

theorem Probed.uncons {f : ScSpecFunctionV0} {fs : List ScSpecFunctionV0} {events : Events}
    {outcomes : Entries String Bool} (probed : Probed p contractId (f :: fs) events outcomes) :
    ∃ head getter tail rest, events = head ++ tail ∧ outcomes = (f.name.toUtf8StringLossy, getter) :: rest ∧
      Probe p contractId f head getter ∧ Probed p contractId fs tail rest := by
  cases probed with
  | cons probe rest => exact ⟨_,_,_,_,rfl,rfl,probe,rest⟩

theorem Probed.unique {fs : List ScSpecFunctionV0} {events : Events} {outcomes outcomes' : Entries String Bool}
    (first : Probed p contractId fs events outcomes) (second : Probed p contractId fs events outcomes') :
    outcomes = outcomes' := by
  induction fs generalizing events outcomes outcomes' with
  | nil =>
    cases first
    cases second
    rfl
  | cons f fs ih =>
    obtain ⟨_,_,_,_,rfl,rfl,probe,rest⟩ := first.uncons
    obtain ⟨_,_,_,_,same,rfl,probe',rest'⟩ := second.uncons
    obtain ⟨rfl,rfl⟩ := probe.unique probe' same
    rw [ih rest rest']

/-- What the documentation says of a name: a GET call of it passes the method gate only if
the entry that is then invoked is a getter, and if that entry is one, POST is refused. -/
def GetReserved (spec : ContractSpec) (methods : OrdMap String Bool) (outcomes : Entries String Bool)
    (name : String) : Prop :=
  ∀ f getter, spec.function name = some f → firstOutcome name outcomes = some getter →
    (methodGate name f true (usesGet methods name) = .ok () → getter = true) ∧
    (getter = true → ∃ message, methodGate name f false (usesGet methods name) = .error (.methodNotAllowed message))

theorem isSome_find_iff {name : String} {outcomes : Entries String Bool} :
    (Entries.find name outcomes).isSome ↔ name ∈ outcomes.map Prod.fst := by
  rw [Option.isSome_iff_ne_none,Ne,Entries.find_eq_none_iff,not_not]

theorem isSome_function_iff {spec : ContractSpec} {name : String} {outcomes : Entries String Bool}
    (names : outcomes.map Prod.fst = spec.functions.map fun f => StringM.toUtf8StringLossy f.name) :
    (spec.function name).isSome ↔ (firstOutcome name outcomes).isSome := by
  rw [firstOutcome,isSome_find_iff,names]
  simp [ContractSpec.function]

theorem isSome_lastOutcome_iff {name : String} {outcomes : Entries String Bool} :
    (lastOutcome name outcomes).isSome ↔ (firstOutcome name outcomes).isSome := by
  rw [lastOutcome,firstOutcome,isSome_find_iff,isSome_find_iff,List.map_reverse,List.mem_reverse]

/-- GET is reserved for the getters of a name exactly when its first and its last entry
are both getters or both none. -/
theorem get_reserved_iff {entries : List ScSpecEntry} {events : Events} {methods : OrdMap String Bool}
    {outcomes : Entries String Bool}
    (run : Prog.Runs (classifyFunctions p contractId (.fromEntries entries)) events methods)
    (probed : Probed p contractId (ContractSpec.functionEntries entries) events outcomes) (name : String) :
    GetReserved (.fromEntries entries) methods outcomes name ↔
      firstOutcome name outcomes = lastOutcome name outcomes := by
  rw [← ContractSpec.fromEntries_functions] at probed
  obtain ⟨_,again,rfl⟩ := classifyFunctions_runs_iff.mp run
  obtain rfl := probed.unique again
  have resolved : ((ContractSpec.fromEntries entries).function name).isSome ↔ (firstOutcome name outcomes).isSome :=
    isSome_function_iff probed.names
  have both : (lastOutcome name outcomes).isSome ↔ (firstOutcome name outcomes).isSome := isSome_lastOutcome_iff
  have uses : usesGet (OrdMap.empty.insertAll outcomes) name = (lastOutcome name outcomes).getD false := by
    simp [usesGet,lastOutcome]
  simp only [GetReserved, methodGate_ok_iff, methodGate_refused_iff, uses]
  cases first : firstOutcome name outcomes with
  | none =>
    have last : lastOutcome name outcomes = none := by simpa [first] using both
    simp [last]
  | some getter =>
    obtain ⟨f,found⟩ := Option.isSome_iff_exists.mp (resolved.mpr (by simp [first]))
    obtain ⟨kept,last⟩ := Option.isSome_iff_exists.mp (both.mpr (by simp [first]))
    rw [last]
    constructor
    · intro reserved
      obtain ⟨getOnly,postRefused⟩ := reserved f getter found rfl
      cases getter with
      | true => exact congrArg some (Bool.eq_true_of_not_eq_false (postRefused rfl).symm).symm
      | false => exact congrArg some (Bool.eq_false_iff.mpr fun get => nomatch getOnly get.symm).symm
    · rintro same _ _ _ ⟨⟩
      obtain rfl := Option.some.inj same
      exact ⟨Eq.symm,by rintro rfl; exact nofun⟩

/-- An entry of the same name that takes an argument. -/
def pingWithArgument : ScSpecFunctionV0 :=
  { Reference.ping with inputs := [⟨.empty,⟨utf8 "x",by decide⟩,.u32⟩] }

/-- The probe of the function, answered by resources that write nothing. -/
def pingProbe : Library.Event Resp :=
  ⟨.post "simulateTransaction" (transactionParams Reference.probeXdr),
    HttpReply.response 200 (Reference.simulationText Reference.readingXdr)⟩

theorem pingProbe_call : ProbeCall Reference.platform Reference.contractId "ping" Reference.probeXdr := by
  let call : Call := ⟨Reference.probeKey,probeSeqNum,Reference.contract,Reference.ping.name,[]⟩
  have source : Reference.platform.publicKeyFromString (probeSourceAccount Reference.platform) =
      some Reference.probeKey := by decide +kernel
  have symbol : Reference.platform.stringFromStr 32 "ping" = some Reference.ping.name :=
    (Reference.platform_text.some_iff (by decide)).mpr rfl
  exact ⟨call.unsigned,buildUnsignedInvokeTx_eq_ok_iff.mpr ⟨call,source,rfl,rfl,symbol,rfl,Nat.zero_le _,rfl⟩,rfl⟩

theorem pingProbe_readOnly : ReadOnly Reference.platform
    (.response 200 (Reference.simulationText Reference.readingXdr)) := by
  have known : Reference.platform.responseFromStr (Reference.simulationText Reference.readingXdr) =
      .ok ⟨Reference.simulation Reference.readingXdr,none⟩ :=
    Reference.responseFromStr_known (by simp [Reference.knownReplies])
  exact ⟨_,_,Reference.answered known,Reference.parseSimulation_known rfl,rfl⟩

theorem ping_probe : Probe Reference.platform Reference.contractId Reference.ping [pingProbe] true := by
  have call := pingProbe_call
  rw [← Reference.ping_name] at call
  exact .simulated rfl call (iff_of_true rfl pingProbe_readOnly)

theorem ping_probed : Probed Reference.platform Reference.contractId [Reference.ping] [pingProbe] [("ping", true)] := by
  rw [← Reference.ping_name]
  exact .cons ping_probe .nil

/-- The probe of a function that writes. -/
def writingProbe : Library.Event Resp :=
  ⟨.post "simulateTransaction" (transactionParams Reference.probeXdr),
    HttpReply.response 200 (Reference.simulationText Reference.writingXdr)⟩

theorem writing_not_readOnly :
    ¬ReadOnly Reference.platform (.response 200 (Reference.simulationText Reference.writingXdr)) := by
  rintro ⟨resp,sim,answer,parsed,quiet⟩
  have simulated := (Reference.preparation_valid true).simulated
  obtain rfl : resp = Reference.preparation.sim.raw := Except.ok.inj (answer.symm.trans simulated.answered)
  obtain rfl : sim = Reference.preparation.sim := Except.ok.inj (parsed.symm.trans simulated.parsed)
  cases quiet

theorem writing_probed :
    Probed Reference.platform Reference.contractId [Reference.ping] [writingProbe] [("ping", false)] := by
  have call := pingProbe_call
  rw [← Reference.ping_name] at call ⊢
  exact .cons (.simulated rfl call (iff_of_false Bool.false_ne_true writing_not_readOnly)) .nil

/-- With one entry of the name, GET is reserved. -/
theorem get_reserved_iff_ping :
    GetReserved (.fromEntries [.functionV0 Reference.ping]) (OrdMap.empty.insertAll [("ping", true)])
      [("ping", true)] "ping" :=
  (get_reserved_iff (classifyFunctions_runs_iff.mpr ⟨_,ping_probed,rfl⟩) ping_probed "ping").mpr rfl

/-- A stream that repeats the name, with an argument in the first entry only. -/
def repeatedPing : List ScSpecEntry := [.functionV0 pingWithArgument, .functionV0 Reference.ping]

def repeatedOutcomes : Entries String Bool := [("ping", false), ("ping", true)]

/-- GET of the repeated name passes the gate, and invokes the entry that takes an argument. -/
theorem get_invokes_argument_taker :
    Prog.Runs (classifyFunctions Reference.platform Reference.contractId (.fromEntries repeatedPing)) [pingProbe]
      (OrdMap.empty.insertAll repeatedOutcomes) ∧
    Probed Reference.platform Reference.contractId (ContractSpec.functionEntries repeatedPing) [pingProbe]
      repeatedOutcomes ∧
    ¬GetReserved (.fromEntries repeatedPing) (OrdMap.empty.insertAll repeatedOutcomes) repeatedOutcomes "ping" := by
  have name : StringM.toUtf8StringLossy pingWithArgument.name = "ping" := Reference.ping_name
  have probed : Probed Reference.platform Reference.contractId [pingWithArgument, Reference.ping] [pingProbe]
      repeatedOutcomes := by
    have first : Probe Reference.platform Reference.contractId pingWithArgument [] false :=
      .inputs (by simp [pingWithArgument])
    have both := Probed.cons first ping_probed
    rwa [name] at both
  refine ⟨classifyFunctions_runs_iff.mpr ⟨_,probed,rfl⟩,probed,fun reserved => ?_⟩
  have found : (ContractSpec.fromEntries repeatedPing).function "ping" = some pingWithArgument :=
    List.find?_cons_of_pos (by rw [name]; rfl)
  have wrong := (reserved pingWithArgument false found rfl).1 (methodGate_ok_iff.mpr rfl)
  cases wrong

end SorobanProxy
