import SorobanProxy.Transaction
import SorobanProxy.Scval
import SorobanProxy.Library.Interaction
import SorobanProxy.Library.Outcomes

/-! What the proxy does to its surroundings, and the JSON-RPC client on top of it. -/
namespace SorobanProxy

open Library
open Library.Prog (perform ofResult)

inductive HttpReply where
  /-- Sending failed. -/
  | transport (error : String)
  /-- Reading the body failed. -/
  | body (error : String)
  | response (status : Nat) (text : String)

/-- One operation on the shared state or the network. Each state operation is done under
its lock, and a panic has no answer. The id of a request is left out: no reply is
compared with it. -/
inductive Op where
  | post (method : String) (params : Value)
  | sleep (millis : Nat)
  | readCache (key : String)
  | writeCache (key : String) (spec : ContractSpec)
  | readMethods
  | writeMethods (methods : OrdMap String Bool)
  | panic (message : String)

abbrev Resp : Op → Type
  | .post _ _ => HttpReply
  | .sleep _ => Unit
  | .readCache _ => Option ContractSpec
  | .writeCache _ _ => Unit
  | .readMethods => OrdMap String Bool
  | .writeMethods _ => Unit
  | .panic _ => Empty

abbrev Async := Prog Resp

/-- Asynchronous code that may fail. -/
abbrev AsyncResult (ε α : Type) := ExceptT ε Async α

abbrev Events := List (Library.Event Resp)

/-- The result that a reply to a call stands for. -/
def replyResult (p : Platform) (method : String) : HttpReply → Result Value
  | .transport e => .error s!"rpc transport error calling {method}: {e}"
  | .body e => .error s!"failed reading rpc response body for {method}: {e}"
  | .response status text =>
    if ¬(200 ≤ status ∧ status < 300) then
      let status := p.statusToString status
      .error s!"rpc http error calling {method}: status={status} body={text}"
    else
      match p.responseFromStr text with
      | .error e => .error s!"failed parsing rpc response for {method}: {e} body={text}"
      | .ok parsed =>
        match parsed.error with
        | some err =>
          let code := err.code.toInt
          let message := err.message
          let data := p.debugData err.data
          .error s!"rpc error calling {method}: code={code} message={message} data={data}"
        | none => okOr parsed.result s!"rpc response for {method} had neither result nor error"

/-- Of the HTTP client only the timeout is chosen, in seconds. -/
structure HttpClient where
  timeoutSecs : UInt64

/-- The client of the RPC endpoint. Its counter of request ids is left to the wire. -/
structure RpcClient where
  http : HttpClient
  url : String

namespace RpcClient

def new (url : String) (http : HttpClient) : RpcClient := { http, url }

def call (p : Platform) (method : String) (params : Value) : AsyncResult String Value :=
  ExceptT.mk do
    let reply ← perform (.post method params)
    return replyResult p method reply

/-- `keys` are base64-encoded XDR `LedgerKey` values. -/
def keysParams (keys : List String) : Value := .obj [("keys", .array (keys.map .str))]

/-- `envelopeXdr` is a base64-encoded XDR `TransactionEnvelope`. -/
def transactionParams (envelopeXdr : String) : Value := .obj [("transaction", .str envelopeXdr)]

def hashParams (hash : String) : Value := .obj [("hash", .str hash)]

theorem transactionParams_injective : Function.Injective transactionParams := by
  intro a b same
  have get (envelopeXdr : String) : (transactionParams envelopeXdr).get "transaction" = some (.str envelopeXdr) := by
    apply Value.get_obj <;> simp
  have member := get a
  rw [same,get b] at member
  exact (Value.string.inj (Option.some.inj member)).symm

def getNetwork (p : Platform) : AsyncResult String Value := call p "getNetwork" (.obj [])

def getLedgerEntries (p : Platform) (keys : List String) : AsyncResult String Value :=
  call p "getLedgerEntries" (keysParams keys)

def simulateTransaction (p : Platform) (envelopeXdr : String) : AsyncResult String Value :=
  call p "simulateTransaction" (transactionParams envelopeXdr)

def sendTransaction (p : Platform) (envelopeXdr : String) : AsyncResult String Value :=
  call p "sendTransaction" (transactionParams envelopeXdr)

def getTransaction (p : Platform) (hash : String) : AsyncResult String Value :=
  call p "getTransaction" (hashParams hash)

end RpcClient

namespace Value

def field (p : Platform) (name : String) (v : Value) : Result Value :=
  let text := p.valueToString v
  okOr (v.get name) s!"expected field `{name}` in rpc response: {text}"

def asStrField (p : Platform) (name : String) (v : Value) : Result String := do
  let text := p.valueToString v
  okOr (← v.field p name).asStr s!"expected field `{name}` to be a string in: {text}"

/-- The array under a name, empty where there is none. -/
def fieldArray (p : Platform) (name : String) (v : Value) : List Value :=
  match v.field p name with
  | .ok found => found.asArray.getD []
  | .error _ => []

theorem asStrField_eq_ok_iff {p : Platform} {name s : String} {v : Value} :
    v.asStrField p name = .ok s ↔ v.get name = some (.string s) := by
  simp [asStrField,field,asStr_eq_some_iff]

/-- The string under a name. -/
def getStr (name : String) (v : Value) : Option String := (v.get name).bind asStr

theorem getStr_eq_some_iff {name s : String} {v : Value} :
    v.getStr name = some s ↔ v.get name = some (.string s) := by
  simp [getStr,Option.bind_eq_some_iff,asStr_eq_some_iff]

end Value

/-- What the two ledger lookups share: the data of the first entry under a key. -/
def firstLedgerEntry (p : Platform) (keyB64 missing undecodable : String) : AsyncResult String LedgerEntryData := do
  let resp ← RpcClient.getLedgerEntries p [keyB64]
  let entry ← ofResult (okOr (resp.fieldArray p "entries").head? missing)
  let entryXdr ← ofResult (entry.asStrField p "xdr")
  ofResult ((p.ledgerEntryFromBase64 entryXdr).mapError fun _ => undecodable)

/-- The reply has an entry, and the first one decodes to that data. -/
def EntryData (p : Platform) (reply : HttpReply) (data : LedgerEntryData) : Prop :=
  ∃ resp entry b64, replyResult p "getLedgerEntries" reply = .ok resp ∧
    (resp.fieldArray p "entries").head? = some entry ∧ entry.get "xdr" = some (.string b64) ∧
    p.ledgerEntryFromBase64 b64 = .ok data

section Holds

variable {p : Platform} {rely : (o : Op) → Resp o → Prop} {allowed : Events → Op → Prop} {history : Events}

theorem call_holds {method : String} {params : Value} (issued : allowed history (.post method params)) :
    Prog.Holds rely allowed (fun h result => ∃ reply : HttpReply, h = history ++ [⟨.post method params,reply⟩] ∧
      result = replyResult p method reply) history (RpcClient.call p method params).run :=
  ⟨issued,fun reply _ => ⟨reply,rfl,rfl⟩⟩

theorem call_bind {method : String} {params : Value} {f : Value → AsyncResult String α} :
    (RpcClient.call p method params >>= f).run = .op (.post method params) fun (reply : HttpReply) =>
      (ofResult (replyResult p method reply) >>= f).run := rfl

theorem firstLedgerEntry_holds {keyB64 missing undecodable : String}
    (issued : allowed history (.post "getLedgerEntries" (RpcClient.keysParams [keyB64]))) :
    Prog.Holds rely allowed (fun h result => ∃ reply : HttpReply,
      h = history ++ [⟨.post "getLedgerEntries" (RpcClient.keysParams [keyB64]),reply⟩] ∧
      ∀ data, result = .ok data → EntryData p reply data) history
      (firstLedgerEntry p keyB64 missing undecodable).run := by
  refine .bind (call_holds issued) ?_ ?_
  · rintro _ e ⟨reply,rfl,_⟩
    exact ⟨reply,rfl,nofun⟩
  · rintro _ resp ⟨reply,rfl,answered⟩
    refine .ofResult_bind (fun e _ => ⟨reply,rfl,nofun⟩) fun entry first => ?_
    refine .ofResult_bind (fun e _ => ⟨reply,rfl,nofun⟩) fun b64 xdr => ⟨reply,rfl,fun data decoded => ?_⟩
    exact ⟨resp,entry,b64,answered.symm,okOr_eq_ok_iff.mp first,Value.asStrField_eq_ok_iff.mp xdr,
      mapError_eq_ok_iff.mp decoded⟩

end Holds
end SorobanProxy
