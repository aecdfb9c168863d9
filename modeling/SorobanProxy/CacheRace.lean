import SorobanProxy.Lifetime
import SorobanProxy.Envelope
import SorobanProxy.Normalization
import SorobanProxy.Library.Failures

/-! Lookups of interfaces that race. Between the read of the cache and the write others may
fetch and write the same key; what they write is the same, so the cache holds one interface
for each hash, under one key. -/
namespace SorobanProxy

open Library
open RpcClient (keysParams)

variable (p : Platform) (wasmOf : Bytes32 → List UInt8)

/-- The service has one module for each hash: a reply with the code of a hash has that one. -/
def OneModule : (o : Op) → Resp o → Prop
  | .post method params, reply => ∀ hash keyB64 code, method = "getLedgerEntries" → params = keysParams [keyB64] →
    p.ledgerKeyToBase64 (.contractCode hash) = .ok keyB64 → EntryData p reply (.contractCode code) →
    code = wasmOf hash
  | _, _ => True

/-- What the locks answer, and the service. -/
def LookupAnswers (a : Shared) (o : Op) (r : Resp o) (b : Shared) : Prop := Answers a o r b ∧ OneModule p wasmOf o r

/-- Lookups by the texts they were called with. -/
abbrev Lookups := System Resp Shared String (Except String ContractSpec)

def lookupProgram (wasmHashHex : String) : Async (Except String ContractSpec) := (getOrFetchSpec p wasmHashHex).run

def Lookups.Turn : Lookups → Lookups → Prop := System.Turn (LookupAnswers p wasmOf) (lookupProgram p)

/-- A state of any number of lookups that began with an empty cache. -/
def Lookups.Reachable (s : Lookups) : Prop :=
  System.Reachable (LookupAnswers p wasmOf) (lookupProgram p) Shared.new s

/-- The interface in the module of a hash. -/
def InterfaceOf (hash : Bytes32) (spec : ContractSpec) : Prop :=
  ∃ entries, readSpecEntriesFromWasm p (wasmOf hash) = .ok entries ∧ spec = .fromEntries entries

/-- A cached interface is that of the hash that its key denotes. -/
def Sound (a : Shared) : Prop := ∀ key spec, a.specCache.get key = some spec →
  ∃ wasmHashHex hash, key = normalizeHash p wasmHashHex ∧ parseWasmHash p key = .ok hash ∧
    InterfaceOf p wasmOf hash spec

variable {p wasmOf}

theorem InterfaceOf.unique {hash : Bytes32} {spec spec' : ContractSpec} (first : InterfaceOf p wasmOf hash spec)
    (second : InterfaceOf p wasmOf hash spec') : spec = spec' := by
  obtain ⟨entries,read,rfl⟩ := first
  obtain ⟨entries',read',rfl⟩ := second
  rw [Except.ok.inj (read.symm.trans read')]

/-- The operation writes the cache. -/
def Op.WritesCache : Op → Prop
  | .writeCache _ _ => True
  | _ => False

/-- The spec that an operation writes. -/
def Written : (o : Op) → Resp o → ContractSpec → Prop
  | .writeCache _ spec, _, written => written = spec
  | _, _, _ => False

theorem written_writes {o : Op} {r : Resp o} {spec : ContractSpec} (written : Written o r spec) : o.WritesCache := by
  cases o with
  | writeCache => trivial
  | _ => exact written.elim

/-- A lookup that writes returns at once, with what it wrote. -/
theorem getOrFetchSpec_last {wasmHashHex : String} :
    Prog.Last Written (fun _ spec result => result = .ok spec) (getOrFetchSpec p wasmHashHex).run := by
  have quiet {α : Type} {x : Async α} (only : Prog.Only (fun o => ¬o.WritesCache) x) : Prog.Sure Written x :=
    .of_only only fun _ _ _ other written => other (written_writes written)
  refine .bind_except trivial fun _ => .bind_except (quiet (.liftExcept (.perform id))) fun found => ?_
  cases found with
  | some spec => trivial
  | none =>
    refine .bind_except (quiet (fetchSpec_only fun _ => id)) fun spec => ?_
    have wrote (key : String) : Prog.Last Written (fun _ spec result => result = .ok spec)
        (.op (.writeCache key spec) fun _ => .pure (.ok spec) : Async (Except String ContractSpec)) := by
      exact fun _ => ⟨fun _ same => ⟨.ok spec,rfl,congrArg Except.ok same.symm⟩,trivial⟩
    exact wrote _

theorem SpecLookup.of_write {wasmHashHex key : String} {spec written : ContractSpec} {lookup : Events}
    (found : SpecLookup p wasmHashHex lookup spec) (member : ⟨.writeCache key written,()⟩ ∈ lookup) :
    key = normalizeHash p wasmHashHex := by
  cases found with
  | cached =>
    simp only [List.mem_singleton, Event.mk.injEq, reduceCtorEq, false_and] at member
  | fetched =>
    simp only [List.mem_cons, Event.mk.injEq, reduceCtorEq, false_and, false_or, List.not_mem_nil, or_false,
      Op.writeCache.injEq] at member
    exact member.1.1

/-- What a lookup returns, when the cache and the service answered as they should. -/
theorem SpecLookup.interfaceOf {wasmHashHex : String} {spec : ContractSpec} {lookup : Events}
    (found : SpecLookup p wasmHashHex lookup spec) (service : ∀ e ∈ lookup, OneModule p wasmOf e.op e.resp)
    (cache : ∀ spec, ⟨.readCache (normalizeHash p wasmHashHex),some spec⟩ ∈ lookup →
      ∃ hash, parseWasmHash p (normalizeHash p wasmHashHex) = .ok hash ∧ InterfaceOf p wasmOf hash spec) :
    ∃ hash, parseWasmHash p (normalizeHash p wasmHashHex) = .ok hash ∧ InterfaceOf p wasmOf hash spec := by
  cases found with
  | cached => exact cache spec List.mem_cons_self
  | @fetched hash keyB64 reply code entries hashOk keyOk entry entriesOk =>
    have asked := service ⟨.post "getLedgerEntries" (keysParams [keyB64]),reply⟩
      (List.mem_cons_of_mem _ List.mem_cons_self)
    obtain rfl : code = wasmOf hash := asked hash keyB64 code rfl rfl keyOk entry
    exact ⟨hash,hashOk,entries,entriesOk,rfl⟩

/-- What a lookup relies on: the cache is sound where it was read, and the service has one
module for each hash. -/
def Relied (p : Platform) (wasmOf : Bytes32 → List UInt8) : (o : Op) → Resp o → Prop
  | .readCache key, found => ∀ spec, found = some spec →
    ∃ hash, parseWasmHash p key = .ok hash ∧ InterfaceOf p wasmOf hash spec
  | o, r => OneModule p wasmOf o r

theorem Relied.oneModule {o : Op} {r : Resp o} (relied : Relied p wasmOf o r) : OneModule p wasmOf o r := by
  cases o with
  | readCache key => trivial
  | _ => exact relied

theorem SpecLookup.relied {wasmHashHex : String} {spec : ContractSpec} {lookup : Events}
    (found : SpecLookup p wasmHashHex lookup spec) (reliable : Prog.Reliable (Relied p wasmOf) lookup) :
    ∃ hash, parseWasmHash p (normalizeHash p wasmHashHex) = .ok hash ∧ InterfaceOf p wasmOf hash spec :=
  found.interfaceOf (fun e member => (reliable e member).oneModule) fun spec member => reliable _ member spec rfl

/-- A write is the last operation of a lookup that succeeds, and is sound. -/
theorem write_sound {wasmHashHex key : String} {spec : ContractSpec} {history : Events}
    {next : Unit → Async (Except String ContractSpec)}
    (steps : Prog.Steps (getOrFetchSpec p wasmHashHex).run history (.op (.writeCache key spec) next))
    (reliable : Prog.Reliable (Relied p wasmOf) history) : next () = .pure (.ok spec) ∧
      key = normalizeHash p wasmHashHex ∧ ∃ hash, parseWasmHash p key = .ok hash ∧ InterfaceOf p wasmOf hash spec := by
  obtain ⟨_,stops,rfl⟩ := (getOrFetchSpec_last.steps steps ()).1 spec rfl
  have run := steps.snoc ()
  rw [stops] at run
  have found := getOrFetchSpec_runs_iff.mp run
  have keyOk := found.of_write (List.mem_append_right _ (List.mem_singleton.mpr rfl))
  refine ⟨stops,keyOk,?_⟩
  rw [keyOk]
  refine found.relied fun e member => ?_
  rcases List.mem_append.mp member with early | last
  · exact reliable e early
  · rw [List.mem_singleton.mp last]
    trivial

theorem Sound.relied {a b : Shared} {o : Op} {r : Resp o} (sound : Sound p wasmOf a)
    (answer : LookupAnswers p wasmOf a o r b) : Relied p wasmOf o r := by
  obtain ⟨answer,service⟩ := answer
  cases answer with
  | readCache =>
    intro spec found
    obtain ⟨_,hash,_,hashOk,interface⟩ := sound _ spec found
    exact ⟨hash,hashOk,interface⟩
  | _ => exact service

theorem Sound.turn {a b : Shared} {o : Op} {r : Resp o} {wasmHashHex : String} {history : Events}
    {next : Resp o → Async (Except String ContractSpec)} (sound : Sound p wasmOf a)
    (reliable : Prog.Reliable (Relied p wasmOf) history)
    (steps : Prog.Steps (lookupProgram p wasmHashHex) history (.op o next))
    (answer : LookupAnswers p wasmOf a o r b) : Sound p wasmOf b := by
  obtain ⟨answer,_⟩ := answer
  cases answer with
  | @writeCache key spec =>
    obtain ⟨_,keyOk,hash,hashOk,interface⟩ := write_sound steps reliable
    intro other found present
    by_cases same : other = key
    · simp only [OrdMap.get_insert, if_pos same, Option.some.injEq] at present
      rw [same,← present]
      exact ⟨wasmHashHex,hash,keyOk,hashOk,interface⟩
    · simp only [OrdMap.get_insert, if_neg same] at present
      exact sound other found present
  | _ => exact sound

theorem lookups_invariant {s : Lookups} (reach : Lookups.Reachable p wasmOf s) : Sound p wasmOf s.shared ∧
    ∀ t ∈ s.tasks, Prog.Steps (lookupProgram p t.request) t.history t.rest ∧
      Prog.Reliable (Relied p wasmOf) t.history := by
  refine System.Reachable.invariant_of_steps (fun _ _ _ _ sound => sound.relied) ?_ ?_ reach
  · intro _ _ _ _ _ _ _ sound reliable steps answer
    exact sound.turn reliable steps answer
  · intro key spec present
    simp [Shared.new] at present

theorem Sound.unique {a : Shared} {key : String} {spec spec' : ContractSpec} {hash : Bytes32}
    (sound : Sound p wasmOf a) (present : a.specCache.get key = some spec)
    (hashOk : parseWasmHash p key = .ok hash) (interface : InterfaceOf p wasmOf hash spec') : spec' = spec := by
  obtain ⟨_,hash',_,hashOk',interface'⟩ := sound key spec present
  obtain rfl := Except.ok.inj (hashOk.symm.trans hashOk')
  exact interface.unique interface'

/-- What a turn of a lookup does to the cache: nothing, unless the lookup succeeds with it. -/
theorem Lookups.answer_cases {before after : List (Task Resp String (Except String ContractSpec))} {a b : Shared}
    {wasmHashHex : String} {history : Events} {o : Op} {r : Resp o} {next : Resp o → Async (Except String ContractSpec)}
    (reach : Lookups.Reachable p wasmOf ⟨a,before ++ ⟨wasmHashHex,history,.op o next⟩ :: after⟩)
    (answer : LookupAnswers p wasmOf a o r b) : b.specCache = a.specCache ∨ ∃ hash spec,
      next r = .pure (.ok spec) ∧ parseWasmHash p (normalizeHash p wasmHashHex) = .ok hash ∧
      InterfaceOf p wasmOf hash spec ∧ b.specCache = a.specCache.insert (normalizeHash p wasmHashHex) spec := by
  obtain ⟨steps,reliable⟩ := (lookups_invariant reach).2 _ (List.mem_append_right _ List.mem_cons_self)
  obtain ⟨answer,_⟩ := answer
  cases answer with
  | @writeCache key spec =>
    obtain ⟨stops,keyOk,hash,hashOk,interface⟩ := write_sound steps reliable
    rw [keyOk] at hashOk
    exact .inr ⟨hash,spec,stops,hashOk,interface,by rw [keyOk]⟩
  | _ => exact .inl rfl

theorem Lookups.turn_keeps {s later : Lookups} (reach : Lookups.Reachable p wasmOf s)
    (turn : Lookups.Turn p wasmOf s later) {key : String} {spec : ContractSpec}
    (present : s.shared.specCache.get key = some spec) : later.shared.specCache.get key = some spec := by
  have sound := (lookups_invariant reach).1
  cases turn with
  | arrive => exact present
  | answer before after wasmHashHex history next answer =>
    rcases Lookups.answer_cases reach answer with same | ⟨hash,written,_,hashOk,interface,same⟩
    · exact same ▸ present
    · change OrdMap.get _ key = some spec
      rw [same,OrdMap.get_insert]
      split_ifs with overwritten
      · rw [← overwritten] at hashOk
        rw [sound.unique present hashOk interface]
      · exact present

/-- What holds of the cache whatever lookups race. -/
structure RaceSafe (p : Platform) (wasmOf : Bytes32 → List UInt8) (s : Lookups) : Prop where
  /-- A lookup returns the interface of the hash that its text denotes. -/
  returned : ∀ t ∈ s.tasks, ∀ spec, t.rest = .pure (.ok spec) →
    ∃ hash, parseWasmHash p t.request = .ok hash ∧ InterfaceOf p wasmOf hash spec
  /-- A turn that changes the cache is the last of a lookup that succeeds. -/
  written : ∀ before after wasmHashHex history o next r a b,
    s = ⟨a,before ++ ⟨wasmHashHex,history,.op o next⟩ :: after⟩ → LookupAnswers p wasmOf a o r b →
      b.specCache = a.specCache ∨ ∃ spec, next r = .pure (.ok spec) ∧
        b.specCache = a.specCache.insert (normalizeHash p wasmHashHex) spec
  /-- A lookup that failed has written nothing. -/
  failed : ∀ t ∈ s.tasks, ∀ e, t.rest = .pure (.error e) → ∀ event ∈ t.history, ¬event.op.WritesCache
  /-- An entry stays as it is. -/
  kept : ∀ later, Relation.ReflTransGen (Lookups.Turn p wasmOf) s later → ∀ key spec,
    s.shared.specCache.get key = some spec → later.shared.specCache.get key = some spec
  decoded : ∀ key spec, s.shared.specCache.get key = some spec → ∃ hash : Bytes32, p.hexDecode key = .ok hash.bytes
  distinct : ∀ key key' spec spec' (hash : Bytes32), s.shared.specCache.get key = some spec →
    s.shared.specCache.get key' = some spec' → p.hexDecode key = .ok hash.bytes →
    p.hexDecode key' = .ok hash.bytes → key = key'

/-- Every key of the cache is its hash in lower case. -/
theorem Sound.key_eq {a : Shared} {key : String} {spec : ContractSpec} (law : HashTextLaw p)
    (sound : Sound p wasmOf a) (present : a.specCache.get key = some spec) :
    ∃ hash : Bytes32, key = Hex.encode hash.bytes ∧ p.hexDecode key = .ok hash.bytes := by
  obtain ⟨wasmHashHex,hash,keyOk,hashOk,_⟩ := sound key spec present
  rw [keyOk] at hashOk
  have canonical := (law.normalized hashOk).2
  rw [← keyOk] at canonical
  refine ⟨hash,canonical,?_⟩
  rw [law.hex,canonical]
  exact Hex.decode_encode hash.bytes

/-- Lookups that race, whatever their texts and their order. -/
theorem lookups_race_safe (law : HashTextLaw p) {s : Lookups} (reach : Lookups.Reachable p wasmOf s) :
    RaceSafe p wasmOf s := by
  obtain ⟨sound,tasks⟩ := lookups_invariant reach
  exact {
    returned := by
      intro t member spec finished
      obtain ⟨run,reliable⟩ := tasks t member
      rw [finished] at run
      obtain ⟨hash,hashOk,interface⟩ := (getOrFetchSpec_runs_iff.mp run).relied reliable
      exact ⟨hash,(law.normalized hashOk).1,interface⟩
    written := by
      rintro before after wasmHashHex history o next r a b rfl answer
      rcases Lookups.answer_cases reach answer with same | ⟨_,spec,stops,_,_,same⟩
      · exact .inl same
      · exact .inr ⟨spec,stops,same⟩
    failed := by
      intro t member e finished event inside writes
      obtain ⟨run,_⟩ := tasks t member
      rw [finished] at run
      obtain ⟨before,after,split⟩ := List.append_of_mem inside
      rw [split] at run
      obtain ⟨o,r⟩ := event
      cases o with
      | writeCache key spec => cases (getOrFetchSpec_last.of_runs run (f := spec) rfl).2
      | _ => exact writes
    kept := by
      intro later turns key spec present
      suffices kept : Lookups.Reachable p wasmOf later ∧ later.shared.specCache.get key = some spec from kept.2
      induction turns with
      | refl => exact ⟨reach,present⟩
      | tail _ turn ih =>
        obtain ⟨reach,present⟩ := ih
        exact ⟨.tail reach turn,Lookups.turn_keeps reach turn present⟩
    decoded := by
      intro key spec present
      obtain ⟨hash,_,decoded⟩ := sound.key_eq law present
      exact ⟨hash,decoded⟩
    distinct := by
      intro key key' spec spec' hash present present' decoded decoded'
      obtain ⟨first,keyOk,known⟩ := sound.key_eq law present
      obtain ⟨second,keyOk',known'⟩ := sound.key_eq law present'
      rw [keyOk,keyOk',Except.ok.inj (known.symm.trans decoded),Except.ok.inj (known'.symm.trans decoded')] }

/-- A lookup that finds nothing in the cache comes to its write, and returns what it writes. -/
theorem lookup_misses {text key keyB64 : String} {hash : Bytes32} {reply : HttpReply} {code : List UInt8}
    {entries : List ScSpecEntry} (same : normalizeHash p text = key) (hashOk : parseWasmHash p key = .ok hash)
    (keyOk : p.ledgerKeyToBase64 (.contractCode hash) = .ok keyB64) (entry : EntryData p reply (.contractCode code))
    (entriesOk : readSpecEntriesFromWasm p code = .ok entries) : ∃ next,
      Prog.Steps (lookupProgram p text)
        [⟨.readCache key,none⟩, ⟨.post "getLedgerEntries" (keysParams [keyB64]),reply⟩]
        (.op (.writeCache key (.fromEntries entries)) next) ∧ next () = .pure (.ok (.fromEntries entries)) := by
  subst same
  have run : Prog.Runs (lookupProgram p text) ([⟨.readCache (normalizeHash p text),none⟩,
      ⟨.post "getLedgerEntries" (keysParams [keyB64]),reply⟩] ++
      [⟨.writeCache (normalizeHash p text) (.fromEntries entries),()⟩]) (.ok (.fromEntries entries)) :=
    runs_getOrFetchSpec (.fetched hashOk keyOk entry entriesOk)
  obtain ⟨next,steps⟩ := run.issues_of_split
  obtain ⟨_,stops,rfl⟩ := (getOrFetchSpec_last.steps steps ()).1 (.fromEntries entries) rfl
  exact ⟨next,steps,stops⟩

namespace Reference

theorem platform_hashText : HashTextLaw platform where
  hex _ _ := Iff.rfl
  lowercase s := by
    refine ⟨s.toList.map fun char => [char],?_,?_⟩
    · rw [List.forall₂_map_right_iff,List.forall₂_same]
      intro char _
      refine ⟨by simp,by simp,fun other => ?_⟩
      cases digit : Hex.digitValue char with
      | none => simp [digit]
      | some n => exact absurd (Hex.toNat_lt_of_digitValue digit) (Nat.not_lt.mpr other)
    · rw [← List.flatMap_def,List.flatMap_singleton']
      rfl

/-- The key of the hash. -/
def key : String := normalizeHash platform wasmHashHex

/-- The hash in upper case, with white space around it. -/
def spelled : String := " 46AA254128AEAC9CFFD311E9792BD0FA24DF8D0CF9FE33A0831FF1D76CC06D71\n"

theorem normalize_spelled : normalizeHash platform spelled = key := by
  simp only [key, normalizeHash, toLowercase, trim, String.toList_ofList]
  decide +kernel

/-- A lookup that found nothing in the cache, up to its write. -/
def missed : Events := [
  ⟨.readCache key,none⟩,
  ⟨.post "getLedgerEntries" (keysParams [codeKeyXdr]),HttpReply.response 200 (entriesText codeEntryXdr)⟩]

def written : Library.Event Resp := ⟨.writeCache key spec,()⟩

/-- Two lookups of one hash after a race: both missed, and the second wrote first. -/
def raced : Lookups where
  shared := ⟨(OrdMap.empty.insert key spec).insert key spec,.empty⟩
  tasks := [⟨wasmHashHex,missed ++ [written],.pure (.ok spec)⟩, ⟨spelled,missed ++ [written],.pure (.ok spec)⟩]

theorem lookup_steps {text : String} (same : normalizeHash platform text = key) : ∃ next,
    Prog.Steps (lookupProgram platform text) missed (.op (.writeCache key spec) next) ∧ next () = .pure (.ok spec) :=
  lookup_misses same parseWasmHash_known rfl code_known rfl

theorem service_answers (a : Shared) (params : Value) : LookupAnswers platform (fun _ => wasm) a
    (.post "getLedgerEntries" params) (.response 200 (entriesText codeEntryXdr)) a :=
  ⟨.post _,fun _ _ _ _ _ _ entry => LedgerEntryData.contractCode.inj (entry.unique code_known)⟩

theorem missed_through : System.Through (LookupAnswers platform fun _ => wasm) Shared.new missed Shared.new :=
  .cons ⟨.readCache,trivial⟩ (.cons (service_answers _ _) .nil)

theorem written_through (a : Shared) : System.Through (LookupAnswers platform fun _ => wasm) a [written]
    { a with specCache := a.specCache.insert key spec } :=
  .cons ⟨.writeCache,trivial⟩ .nil

theorem raced_reachable : Lookups.Reachable platform (fun _ => wasm) raced := by
  obtain ⟨first,firstSteps,firstStops⟩ := lookup_steps (show normalizeHash platform wasmHashHex = key from rfl)
  obtain ⟨second,secondSteps,secondStops⟩ := lookup_steps normalize_spelled
  have wrote := secondSteps.snoc ()
  rw [secondStops] at wrote
  have writes := (Prog.Steps.refl : Prog.Steps (.op (Op.writeCache key spec) first) [] _).snoc ()
  rw [firstStops] at writes
  have arrived : Lookups.Reachable platform (fun _ => wasm) ⟨Shared.new,
      [⟨wasmHashHex,[],lookupProgram platform wasmHashHex⟩, ⟨spelled,[],lookupProgram platform spelled⟩]⟩ :=
    .tail (.single (.arrive wasmHashHex)) (.arrive spelled)
  -- the first lookup misses, then the second runs to its end, and then the first writes
  have firstMissed := arrived.trans (System.turns_of_steps [] _ firstSteps missed_through)
  have secondWrote := firstMissed.trans (System.turns_of_steps [_] [] wrote
    (System.through_append_iff.mpr ⟨_,missed_through,written_through _⟩))
  exact secondWrote.trans (System.turns_of_steps [] _ writes (written_through _))

/-- The cache is safe after that race. -/
theorem lookups_race_safe_raced : RaceSafe platform (fun _ => wasm) raced :=
  lookups_race_safe platform_hashText raced_reachable

end Reference
end SorobanProxy
