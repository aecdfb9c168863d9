import SorobanProxy.CacheRace
import SorobanProxy.Capability
import SorobanProxy.Integers
import SorobanProxy.Normalization
import SorobanProxy.Startup

/-! The instance that an environment asks for. The configuration is read from the text of
its variables once; what the text leaves open (the letter case of the hash, white space)
decides nothing later, and what startup has checked no request is refused for. -/
namespace SorobanProxy

open Library
open RpcClient (keysParams)

/-- What an instance serves, on which network, and how it asks for it. -/
@[ext] structure Instance where
  rpcUrl : String
  requestTimeoutSecs : UInt64
  networkPassphrase : String
  wasmHash : Bytes32
  contractId : String
  contract : Bytes32

/-- The state of the instance, with the hash in lower case. -/
def Instance.state (inst : Instance) : AppState where
  rpc := .new inst.rpcUrl ⟨inst.requestTimeoutSecs⟩
  networkPassphrase := inst.networkPassphrase
  contractWasmHash := Hex.encode inst.wasmHash.bytes
  contractId := inst.contractId

/-- The timeout that a variable asks for: its number, or half a minute where it has none. -/
def AsksTimeout (text : Option String) (seconds : UInt64) : Prop :=
  (∃ digits, text = some digits ∧ parseU64 digits = .ok seconds) ∨
    (∀ digits, text = some digits → ∀ n, parseU64 digits ≠ .ok n) ∧ seconds = 30

/-- The variables ask for the instance. -/
structure Configures (p : Platform) (env : String → Option String) (inst : Instance) : Prop where
  rpcUrl : env "SOROBAN_RPC_URL" = some inst.rpcUrl
  requestTimeoutSecs : AsksTimeout (env "REQUEST_TIMEOUT_SECS") inst.requestTimeoutSecs
  networkPassphrase : env "SOROBAN_NETWORK_PASSPHRASE" = some inst.networkPassphrase
  wasmHash : ∃ text, env "CONTRACT_WASM_HASH" = some text ∧ Hex.decode (trim text) = .ok inst.wasmHash.bytes
  contractId : ∃ text, env "CONTRACT_ID" = some text ∧ trim text = inst.contractId
  contract : p.contractFromString inst.contractId = some inst.contract

/-- The variables with a configuration's own values. -/
def Config.written (config : Config) : String → Option String
  | "SOROBAN_RPC_URL" => some config.rpcUrl
  | "SOROBAN_NETWORK_PASSPHRASE" => some config.networkPassphrase
  | "BIND_ADDR" => some config.bindAddr
  | "REQUEST_TIMEOUT_SECS" => some (toString config.requestTimeoutSecs.toNat)
  | "CONTRACT_WASM_HASH" => some config.contractWasmHash
  | "CONTRACT_ID" => some config.contractId
  | _ => none

/-- The network has a WASM of that hash, with this interface in it. -/
def Serves (p : Platform) (net : Network) (wasmHash : Bytes32) (spec : ContractSpec) : Prop :=
  ∃ keyB64 code entries, p.ledgerKeyToBase64 (.contractCode wasmHash) = .ok keyB64 ∧
    EntryData p (net "getLedgerEntries" (keysParams [keyB64])) (.contractCode code) ∧
    readSpecEntriesFromWasm p code = .ok entries ∧ spec = .fromEntries entries

variable {p : Platform} {env : String → Option String} {config : Config} {inst : Instance}

theorem trim_trim (s : String) : trim (trim s) = trim s := (trimmed_trim s).trim_eq

/-- Neither letter case nor white space counts in the hash that is configured. -/
theorem HashTextLaw.parse_normalized_iff (law : HashTextLaw p) {s : String} {hash : Bytes32} :
    parseWasmHash p (normalizeHash p s) = .ok hash ↔ Hex.decode (trim s) = .ok hash.bytes := by
  constructor
  · intro read
    rw [← law.hex,← parseWasmHash_eq_ok_iff]
    exact (law.normalized read).1
  · intro denoted
    have ascii : ∀ char ∈ (trim s).toList, char.toNat < 0x80 := by
      intro char member
      obtain ⟨_,digit⟩ := (Hex.decodeChars_ok_iff.mp denoted).digits char member
      exact Hex.toNat_lt_of_digitValue digit
    rw [parseWasmHash_eq_ok_iff,(law.trimmed_normalizeHash s).trim_eq,law.hex,Hex.decode,normalizeHash,
      toLowercase_ascii ascii,Hex.decodeChars_map_toLower]
    exact denoted

theorem trimmed_encode (bytes : List UInt8) : Trimmed (Hex.encode bytes).toList := by
  have table := Hex.forall_ascii
    (P := fun char => ∀ n, Hex.digitValue char = some n → isWhitespace char = false) (by decide)
  have digits : ∀ char ∈ (Hex.encode bytes).toList, isWhitespace char = false := by
    intro char member
    obtain ⟨n,digit⟩ := (Hex.decodeChars_ok_iff.mp (Hex.decode_encode bytes)).digits char member
    exact table char (Hex.toNat_lt_of_digitValue digit) n digit
  constructor
  · exact fun char head => digits char (List.mem_of_head? head)
  · exact fun char last => digits char (List.mem_reverse.mp (List.mem_of_head? last))

theorem HashTextLaw.parse_encode (law : HashTextLaw p) (wasmHash : Bytes32) :
    parseWasmHash p (normalizeHash p (Hex.encode wasmHash.bytes)) = .ok wasmHash := by
  rw [law.parse_normalized_iff,(trimmed_encode _).trim_eq,Hex.decode_encode]

theorem asksTimeout_iff {text : Option String} {seconds : UInt64} :
    AsksTimeout text seconds ↔ (text.bind fun v => (parseU64 v).toOption).getD 30 = seconds := by
  cases text with
  | none => simp [AsksTimeout,eq_comm]
  | some digits =>
    simp only [AsksTimeout, Option.some.injEq, forall_eq', exists_eq_left', Option.bind_some]
    cases parseU64 digits <;> simp [Except.toOption,eq_comm]

theorem fromEnv_eq_ok_iff : Config.fromEnv p env = .ok config ↔
    env "SOROBAN_RPC_URL" = some config.rpcUrl ∧
    env "SOROBAN_NETWORK_PASSPHRASE" = some config.networkPassphrase ∧
    (env "BIND_ADDR").getD "0.0.0.0:8080" = config.bindAddr ∧
    AsksTimeout (env "REQUEST_TIMEOUT_SECS") config.requestTimeoutSecs ∧
    (∃ text, env "CONTRACT_WASM_HASH" = some text ∧ normalizeHash p text = config.contractWasmHash) ∧
    (∃ wasmHash, parseWasmHash p config.contractWasmHash = .ok wasmHash) ∧
    (∃ text, env "CONTRACT_ID" = some text ∧ trim text = config.contractId) ∧
    ∃ contract, p.contractFromString config.contractId = some contract := by
  obtain ⟨_,_,_,_,_,_⟩ := config
  rw [asksTimeout_iff]
  simp only [Config.fromEnv, bind_eq_ok_iff, okOr_eq_ok_iff, mapError_eq_ok_iff, pure_eq_ok_iff, Config.mk.injEq]
  constructor
  · rintro ⟨_,url,_,passphrase,text,hash,wasmHash,read,id,contractId,contract,known,rfl,rfl,bind,timeout,rfl,rfl⟩
    exact ⟨url,passphrase,bind,timeout,⟨text,hash,rfl⟩,⟨wasmHash,read⟩,⟨id,contractId,rfl⟩,contract,known⟩
  · rintro ⟨url,passphrase,bind,timeout,⟨text,hash,rfl⟩,⟨wasmHash,read⟩,⟨id,contractId,rfl⟩,contract,known⟩
    exact ⟨_,url,_,passphrase,text,hash,wasmHash,read,id,contractId,contract,known,rfl,rfl,bind,timeout,rfl,rfl⟩

theorem AsksTimeout.unique {text : Option String} {seconds other : UInt64} (asked : AsksTimeout text seconds)
    (again : AsksTimeout text other) : seconds = other :=
  (asksTimeout_iff.mp asked).symm.trans (asksTimeout_iff.mp again)

theorem Configures.unique {other : Instance} (asked : Configures p env inst) (again : Configures p env other) :
    inst = other := by
  obtain ⟨url,timeout,network,⟨_,hash,denoted⟩,⟨_,named,trimmed⟩,known⟩ := asked
  obtain ⟨url',timeout',network',⟨_,hash',denoted'⟩,⟨_,named',trimmed'⟩,known'⟩ := again
  have texts := Option.some.inj (hash.symm.trans hash')
  have ids := Option.some.inj (named.symm.trans named')
  rw [texts] at denoted
  rw [ids] at trimmed
  have contractIds := trimmed.symm.trans trimmed'
  rw [contractIds] at known
  exact Instance.ext (Option.some.inj (url.symm.trans url')) (timeout.unique timeout')
    (Option.some.inj (network.symm.trans network')) (Bytes32.ext (Except.ok.inj (denoted.symm.trans denoted')))
    contractIds (Option.some.inj (known.symm.trans known'))

/-- What an environment asks for, the configuration loads. -/
theorem Configures.loads (law : HashTextLaw p) (asked : Configures p env inst) :
    ∃ config, Config.fromEnv p env = .ok config := by
  obtain ⟨url,timeout,passphrase,⟨text,hash,denoted⟩,⟨id,named,trimmed⟩,known⟩ := asked
  -- The values get names, as comparing them with the fields would evaluate them.
  obtain ⟨bindAddr,bound⟩ : ∃ addr, (env "BIND_ADDR").getD "0.0.0.0:8080" = addr := ⟨_,rfl⟩
  obtain ⟨key,same⟩ : ∃ key, normalizeHash p text = key := ⟨_,rfl⟩
  have hashOk := law.parse_normalized_iff.mpr denoted
  rw [same] at hashOk
  exact ⟨⟨_,inst.networkPassphrase,bindAddr,_,key,inst.contractId⟩,fromEnv_eq_ok_iff.mpr
    ⟨url,passphrase,bound,timeout,⟨text,hash,same⟩,⟨_,hashOk⟩,⟨id,named,trimmed⟩,_,known⟩⟩

/-- What the configuration loads, the environment asks for. -/
theorem exists_configures (law : HashTextLaw p) (loaded : Config.fromEnv p env = .ok config) :
    ∃ inst, Configures p env inst ∧ mainState config = inst.state := by
  obtain ⟨url,passphrase,_,timeout,⟨text,hash,same⟩,⟨wasmHash,read⟩,⟨id,named,trimmed⟩,contract,known⟩ :=
    fromEnv_eq_ok_iff.mp loaded
  rw [← same] at read
  let inst : Instance :=
    ⟨config.rpcUrl,config.requestTimeoutSecs,config.networkPassphrase,wasmHash,config.contractId,contract⟩
  refine ⟨inst,⟨url,timeout,passphrase,⟨text,hash,law.parse_normalized_iff.mp read⟩,⟨id,named,trimmed⟩,known⟩,?_⟩
  have key : config.contractWasmHash = Hex.encode wasmHash.bytes := by rw [← same,(law.normalized read).2]
  rw [mainState,AppState.new,key]
  rfl

theorem Configures.state_eq (law : HashTextLaw p) (asked : Configures p env inst)
    (loaded : Config.fromEnv p env = .ok config) : mainState config = inst.state := by
  obtain ⟨other,again,same⟩ := exists_configures law loaded
  rw [same,asked.unique again]

/-- The state tells what the instance was asked for, and the contract has one key. -/
theorem Instance.state_inj {other : Instance} (same : inst.state = other.state)
    (known : p.contractFromString inst.contractId = some inst.contract)
    (known' : p.contractFromString other.contractId = some other.contract) : inst = other := by
  obtain ⟨url,seconds,passphrase,wasmHash,contractId,contract⟩ := inst
  obtain ⟨url',seconds',passphrase',wasmHash',contractId',contract'⟩ := other
  obtain ⟨rpc,rfl,hash,rfl⟩ := AppState.mk.inj same
  obtain ⟨http,rfl⟩ := RpcClient.mk.inj rpc
  obtain rfl := HttpClient.mk.inj http
  have bytes := congrArg Hex.decode hash
  rw [Hex.decode_encode,Hex.decode_encode] at bytes
  obtain rfl := Bytes32.ext (Except.ok.inj bytes)
  obtain rfl := Option.some.inj (known.symm.trans known')
  rfl

/-- Two environments start the same instance when they ask for the same one. -/
theorem Configures.same_iff (law : HashTextLaw p) (asked : Configures p env inst)
    (loaded : Config.fromEnv p env = .ok config) {env' : String → Option String} {config' : Config}
    (loaded' : Config.fromEnv p env' = .ok config') :
    mainState config' = mainState config ↔ Configures p env' inst := by
  rw [asked.state_eq law loaded]
  constructor
  · intro same
    obtain ⟨other,asked',same'⟩ := exists_configures law loaded'
    rwa [← Instance.state_inj (same'.symm.trans same) asked'.contract asked.contract]
  · exact fun asked' => asked'.state_eq law loaded'

/-- A configuration that is written back is loaded as it is. -/
theorem fromEnv_written (law : HashTextLaw p) (loaded : Config.fromEnv p env = .ok config) :
    Config.fromEnv p config.written = .ok config := by
  obtain ⟨_,_,_,_,⟨text,_,same⟩,⟨wasmHash,read⟩,⟨id,_,trimmed⟩,known⟩ := fromEnv_eq_ok_iff.mp loaded
  have key : normalizeHash p config.contractWasmHash = config.contractWasmHash := by
    rw [← same] at read ⊢
    rw [(law.normalized read).2]
    exact (law.normalized (law.parse_encode wasmHash)).2
  have timeout : parseU64 (toString config.requestTimeoutSecs.toNat) = .ok config.requestTimeoutSecs :=
    parseU64_toString _
  refine fromEnv_eq_ok_iff.mpr ⟨rfl,rfl,rfl,.inl ⟨_,rfl,timeout⟩,⟨_,rfl,key⟩,⟨wasmHash,read⟩,⟨_,rfl,?_⟩,known⟩
  rw [← trimmed,trim_trim]

/-- An instance comes to listen just where its WASM is served, whatever becomes of the probes. -/
theorem Instance.serves_iff (law : HashTextLaw p) {net : Network} {spec : ContractSpec} :
    Serves p net inst.wasmHash spec ↔ ∃ events initial, Started p inst.state events initial ∧
      AnsweredBy net events ∧ initial.specCache.get (Hex.encode inst.wasmHash.bytes) = some spec := by
  have hashOk : parseWasmHash p (normalizeHash p inst.state.contractWasmHash) = .ok inst.wasmHash :=
    law.parse_encode _
  have key : normalizeHash p inst.state.contractWasmHash = Hex.encode inst.wasmHash.bytes := (law.normalized hashOk).2
  constructor
  · rintro ⟨keyB64,code,entries,served⟩
    rw [← key]
    exact exists_started ⟨_,keyB64,code,entries,hashOk,served⟩
  · rintro ⟨events,initial,started,answered,cached⟩
    rw [← key] at cached
    obtain ⟨_,keyB64,code,entries,hashOk',served⟩ := started.readable answered cached
    obtain rfl := Except.ok.inj (hashOk.symm.trans hashOk')
    exact ⟨keyB64,code,entries,served⟩

/-- An admitted call is refused before its simulation for its name or its arity only. -/
theorem built_iff {state : AppState} {spec : ContractSpec} {methods : OrdMap String Bool} {request : Request}
    {req : InvokeRequest} {args : List ScVal} {keyB64 : String}
    (contract : ∃ contract, p.contractFromString state.contractId = some contract)
    (planned : request.plan p spec methods = .ok (.call req args keyB64)) (nextSeq : Int64) :
    (∃ envelope, buildUnsignedInvokeTx p req.sourceAccount nextSeq state.contractId req.functionName args =
        .ok envelope) ↔
      (∃ function, p.stringFromStr 32 req.functionName = some function) ∧ args.length ≤ u32Max := by
  obtain ⟨admitted,_⟩ := admitted_of_plan planned
  obtain ⟨_,_,_,_,_,_,keyOk,same⟩ := admission_ok_iff.mp admitted
  cases same
  obtain ⟨source,sourceOk,_⟩ := accountKey_ok_iff.mp keyOk
  obtain ⟨contract,known⟩ := contract
  constructor
  · rintro ⟨_,built⟩
    obtain ⟨call,_,_,_,symbol,_,fits,_⟩ := buildUnsignedInvokeTx_eq_ok_iff.mp built
    exact ⟨⟨_,symbol⟩,fits⟩
  · rintro ⟨⟨function,symbol⟩,fits⟩
    let call : Call := ⟨source,nextSeq,contract,function,args⟩
    exact ⟨_,buildUnsignedInvokeTx_eq_ok_iff.mpr ⟨call,sourceOk,rfl,known,symbol,rfl,fits,rfl⟩⟩

/-- A configuration loads just where the environment asks for an instance. It is written back
as it is, other environments start the same instance when they ask for it in whatever spelling,
startup then waits for the WASM of its hash alone, and no admitted call is refused for the
contract. -/
theorem environment_configures_instance (law : HashTextLaw p) (env : String → Option String) :
    ((∃ config, Config.fromEnv p env = .ok config) ↔ ∃ inst, Configures p env inst) ∧
    ∀ config inst, Config.fromEnv p env = .ok config → Configures p env inst →
      Config.fromEnv p config.written = .ok config ∧
      (∀ env' config', Config.fromEnv p env' = .ok config' →
        (mainState config' = mainState config ↔ Configures p env' inst)) ∧
      (∀ net spec, Serves p net inst.wasmHash spec ↔ ∃ events initial, Started p (mainState config) events initial ∧
        AnsweredBy net events ∧ initial.specCache.get config.contractWasmHash = some spec) ∧
      ∀ spec methods (request : Request) req args keyB64 nextSeq,
        request.plan p spec methods = .ok (.call req args keyB64) →
        ((∃ envelope, buildUnsignedInvokeTx p req.sourceAccount nextSeq config.contractId req.functionName args =
          .ok envelope) ↔
        (∃ function, p.stringFromStr 32 req.functionName = some function) ∧ args.length ≤ u32Max) := by
  refine ⟨⟨fun ⟨config,loaded⟩ => ?_,fun ⟨inst,asked⟩ => asked.loads law⟩,?_⟩
  · obtain ⟨inst,asked,_⟩ := exists_configures law loaded
    exact ⟨inst,asked⟩
  · intro config inst loaded asked
    have state := asked.state_eq law loaded
    have key : config.contractWasmHash = Hex.encode inst.wasmHash.bytes := congrArg AppState.contractWasmHash state
    refine ⟨fromEnv_written law loaded,fun _ _ loaded' => asked.same_iff law loaded loaded',fun net spec => ?_,?_⟩
    · rw [state,key]
      exact inst.serves_iff law
    · intro spec methods request req args keyB64 nextSeq planned
      have known : ∃ contract, p.contractFromString inst.state.contractId = some contract := ⟨_,asked.contract⟩
      rw [← state] at known
      exact built_iff known planned nextSeq

namespace Reference

def environment (wasmHashText : String) : String → Option String
  | "SOROBAN_RPC_URL" => some rpcUrl
  | "SOROBAN_NETWORK_PASSPHRASE" => some networkPassphrase
  | "CONTRACT_WASM_HASH" => some wasmHashText
  | "CONTRACT_ID" => some contractId
  | _ => none

theorem environment_configures {text : String} (denoted : Hex.decode (trim text) = .ok wasmHash.bytes) :
    Configures platform (environment text) ⟨rpcUrl,30,networkPassphrase,wasmHash,contractId,contract⟩ where
  rpcUrl := rfl
  requestTimeoutSecs := .inr ⟨nofun,rfl⟩
  networkPassphrase := rfl
  wasmHash := ⟨_,rfl,denoted⟩
  contractId := ⟨_,rfl,by decide⟩
  contract := by decide +kernel

theorem environment_configures_instance_spelled : ∃ config,
    Config.fromEnv platform (environment spelled) = .ok config ∧ Config.fromEnv platform config.written = .ok config ∧
    ∀ config', Config.fromEnv platform (environment wasmHashHex) = .ok config' →
      mainState config' = mainState config := by
  have denoted : Hex.decode (trim spelled) = .ok wasmHash.bytes := by decide
  have plain : Hex.decode (trim wasmHashHex) = .ok wasmHash.bytes := by decide
  obtain ⟨loads,decides⟩ := environment_configures_instance platform_hashText (environment spelled)
  obtain ⟨config,loaded⟩ := loads.mpr ⟨_,environment_configures denoted⟩
  obtain ⟨back,same,_⟩ := decides config _ loaded (environment_configures denoted)
  exact ⟨config,loaded,back,fun config' loaded' => (same _ config' loaded').mpr (environment_configures plain)⟩

end Reference
end SorobanProxy
