import Mathlib.Data.List.Flatten
import Mathlib.Data.List.Induction
import SorobanProxy.Lifetime
import SorobanProxy.Library.Implementation

/-! The JSON-RPC client on the wire. Every call draws an id from a counter that all requests
share, and sends it in its body; a call is both, and nothing comes of the id. -/
namespace SorobanProxy

open Library
open Library.Prog (perform Expands Within)

inductive WireOp where
  /-- `next_id.fetch_add(1, Relaxed)`. -/
  | nextId
  /-- An HTTP request to the RPC endpoint, with its JSON body. -/
  | send (body : Value)
  /-- An operation that is not a call. -/
  | other (o : Op)

abbrev WireResp : WireOp → Type
  | .nextId => UInt64
  | .send _ => HttpReply
  | .other o => Resp o

abbrev WireEvents := List (Library.Event WireResp)

def requestBody (id : UInt64) (method : String) (params : Value) : Value := .obj [
  ("jsonrpc", .str "2.0"),
  ("id", .number (.posInt id)),
  ("method", .str method),
  ("params", params)]

/-- What each operation comes to on the wire. -/
def onWire : (o : Op) → Prog WireResp (Resp o)
  | .post method params => do
    let id ← perform WireOp.nextId
    perform (WireOp.send (requestBody id method params))
  | .sleep millis => perform (WireOp.other (.sleep millis))
  | .readCache key => perform (WireOp.other (.readCache key))
  | .writeCache key spec => perform (WireOp.other (.writeCache key spec))
  | .readMethods => perform (WireOp.other .readMethods)
  | .writeMethods methods => perform (WireOp.other (.writeMethods methods))
  | .panic message => perform (WireOp.other (.panic message))

structure Wire where
  shared : Shared
  nextId : UInt64

/-- The ids begin at one. -/
def Wire.new : Wire := ⟨.new,1⟩

/-- The counter wraps around. -/
inductive WireAnswers : Wire → (o : WireOp) → WireResp o → Wire → Prop where
  | nextId : WireAnswers w .nextId w.nextId { w with nextId := w.nextId + 1 }
  | send (reply : HttpReply) : WireAnswers w (.send body) reply w
  | other : Answers w.shared o r b → WireAnswers w (.other o) r { w with shared := b }

/-- Where an operation stands: the draw of the id, the request with it, or the one step of
an operation that is not a call. -/
inductive Stage : (o : Op) → WireEvents → (low : WireOp) → (WireResp low → Prog WireResp (Resp o)) → Prop where
  | draw : Stage (.post method params) [] .nextId fun n => .op (.send (requestBody n method params)) .pure
  | send (n : UInt64) : Stage (.post method params) [⟨.nextId,n⟩] (.send (requestBody n method params)) .pure
  | other : Stage o [] (.other o) .pure

theorem stage_of_steps {o : Op} {pending : WireEvents} {low : WireOp} {k : WireResp low → Prog WireResp (Resp o)}
    (steps : Prog.Steps (onWire o) pending (.op low k)) : Stage o pending low k := by
  cases o with
  | post method params =>
    rcases steps with _ | ⟨n,steps⟩
    · exact .draw
    · rcases steps with _ | ⟨reply,steps⟩
      · exact .send n
      · cases steps
  | _ =>
    rcases steps with _ | ⟨r,steps⟩
    · exact .other
    · cases steps

theorem onWire_implements : Implements onWire Wire.shared WireAnswers Answers where
  proper o v := by
    cases o <;> nofun
  silent := by
    intro o pending low k steps a r b answer low' k' later
    cases stage_of_steps steps with
    | draw =>
      cases answer
      rfl
    | send | other => cases later
  effect := by
    intro o pending low k steps a r b answer v done
    cases stage_of_steps steps with
    | draw => cases done
    | send =>
      cases answer
      exact .post _
    | other =>
      cases done
      cases answer with
      | other answer => exact answer
  possible := by
    intro a o v b answer
    cases answer with
    | post reply =>
      refine ⟨_,{ a with nextId := a.nextId + 1 },.step a.nextId (.step reply .refl),?_,rfl⟩
      exact .cons .nextId (.cons (.send reply) .nil)
    | sleep => exact ⟨_,_,.step () .refl,.cons (.other .sleep) .nil,rfl⟩
    | readCache => exact ⟨_,_,.step _ .refl,.cons (.other .readCache) .nil,rfl⟩
    | writeCache => exact ⟨_,_,.step () .refl,.cons (.other .writeCache) .nil,rfl⟩
    | readMethods => exact ⟨_,_,.step _ .refl,.cons (.other .readMethods) .nil,rfl⟩
    | writeMethods => exact ⟨_,_,.step () .refl,.cons (.other .writeMethods) .nil,rfl⟩

theorem requestBody_get (n : UInt64) (method : String) (params : Value) :
    (requestBody n method params).get "id" = some (.number (.posInt n)) ∧
    (requestBody n method params).get "method" = some (.str method) ∧
    (requestBody n method params).get "params" = some params := by
  refine ⟨?_,?_,?_⟩ <;> exact Value.get_obj (by simp) (by simp)

/-- A call is read from the members of its body. -/
def forgetEvent : Library.Event WireResp → Option (Library.Event Resp)
  | ⟨.nextId,_⟩ => none
  | ⟨.send body,reply⟩ => some ⟨.post ((body.getStr "method").getD "") ((body.get "params").getD .null),reply⟩
  | ⟨.other o,r⟩ => some ⟨o,r⟩

/-- The operations without the ids. -/
def forget (events : WireEvents) : Events := events.filterMap forgetEvent

/-- The ids that are drawn from the counter. -/
def drawn (events : WireEvents) : List UInt64 := events.filterMap fun
  | ⟨.nextId,n⟩ => some n
  | _ => none

/-- The ids that are sent in a body. -/
def sent (events : WireEvents) : List UInt64 := events.filterMap fun
  | ⟨.send body,_⟩ => (body.get "id").bind Value.asU64
  | _ => none

/-- The bodies are requests of the protocol. -/
def WellSpoken (events : WireEvents) : Prop :=
  ∀ e ∈ events, ∀ body, e.op = .send body → ∃ n method params, body = requestBody n method params

theorem forgetEvent_send (n : UInt64) (method : String) (params : Value) (reply : HttpReply) :
    forgetEvent ⟨.send (requestBody n method params),reply⟩ = some ⟨.post method params,reply⟩ := by
  obtain ⟨_,named,given⟩ := requestBody_get n method params
  rw [forgetEvent,Value.getStr,named,given]
  rfl

theorem onWire_run {o : Op} {r : Resp o} {run : WireEvents} (runs : Prog.Runs (onWire o) run r) :
    forget run = [⟨o,r⟩] ∧ sent run = drawn run ∧ WellSpoken run := by
  cases o with
  | post method params =>
    rcases runs with _ | ⟨n,runs⟩
    rcases runs with _ | ⟨reply,runs⟩
    cases runs
    obtain ⟨numbered,_,_⟩ := requestBody_get n method params
    refine ⟨?_,?_,?_⟩
    · rw [forget,List.filterMap_cons_none rfl,List.filterMap_cons_some (forgetEvent_send n method params _)]
      rfl
    · simp [sent,drawn,numbered,Value.asU64,Number.asU64]
    · intro e member body sends
      rcases List.mem_cons.mp member with rfl | last
      · cases sends
      · obtain rfl := List.mem_singleton.mp last
        cases sends
        exact ⟨n,method,params,rfl⟩
  | _ =>
    rcases runs with _ | ⟨r,runs⟩
    cases runs
    refine ⟨rfl,rfl,fun e member body sends => ?_⟩
    obtain rfl := List.mem_singleton.mp member
    cases sends

theorem wellSpoken_append {first second : WireEvents} (spoken : WellSpoken first) (later : WellSpoken second) :
    WellSpoken (first ++ second) := by
  intro e member
  rcases List.mem_append.mp member with early | late
  · exact spoken e early
  · exact later e late

theorem expands_forget {events : Events} {low : WireEvents} (expands : Expands onWire events low) :
    forget low = events ∧ sent low = drawn low ∧ WellSpoken low := by
  induction expands with
  | nil => exact ⟨rfl,rfl,nofun⟩
  | snoc _ runs ih =>
    obtain ⟨same,ids,spoken⟩ := ih
    obtain ⟨same',ids',spoken'⟩ := onWire_run runs
    refine ⟨?_,?_,wellSpoken_append spoken spoken'⟩
    · rw [forget,List.filterMap_append]
      exact congrArg₂ _ same same'
    · rw [sent,drawn,List.filterMap_append,List.filterMap_append]
      exact congrArg₂ _ ids ids'

/-- A call under way has drawn its id, and that is all. -/
theorem within_pending {α : Type} {rest : Async α} {pending : WireEvents} {left : Prog WireResp α}
    (within : Within onWire rest pending left) : forget pending = [] ∧ sent pending = [] ∧ WellSpoken pending ∧
      ∀ a, left = .pure a ↔ rest = .pure a := by
  cases within with
  | ended =>
    refine ⟨rfl,rfl,nofun,fun a => ?_⟩
    rw [Prog.pure.injEq,Prog.pure.injEq]
  | amid steps =>
    cases stage_of_steps steps with
    | draw | other => exact ⟨rfl,rfl,nofun,fun a => by simp⟩
    | send n =>
      refine ⟨rfl,rfl,fun e member body sends => ?_,fun a => by simp⟩
      obtain rfl := List.mem_singleton.mp member
      cases sends

abbrev WireServer := System WireResp Wire Request (Except AppError Value)

variable (p : Platform) (state : AppState)

structure Wire.Started (events : WireEvents) (initial : Wire) : Prop where
  runs : Prog.Runs ((startup p state).run.carriedOut onWire) events (.ok ())
  through : System.Through WireAnswers Wire.new events initial

def WireServer.Reachable (initial : Wire) (s : WireServer) : Prop :=
  System.Reachable WireAnswers (fun request => (request.handler p state).run.carriedOut onWire) initial s

/-- The same requests with the same operations and results, but for the ids. -/
structure Forgets (low : WireServer) (s : Server) : Prop where
  shared : s.shared = low.shared.shared
  tasks : List.Forall₂ (fun lowTask t => lowTask.request = t.request ∧ forget lowTask.history = t.history ∧
    ∀ result, lowTask.rest = .pure result ↔ t.rest = .pure result) low.tasks s.tasks

variable {p state}

theorem forgets_of_carries {low : WireServer} {s : Server} (shared : s.shared = low.shared.shared)
    (carries : List.Forall₂ (Task.Carries onWire) low.tasks s.tasks) : Forgets low s := by
  refine ⟨shared,carries.imp fun lowTask t carried => ?_⟩
  obtain ⟨request,done,pending,whole,expands,within⟩ := carried
  obtain ⟨same,_,_⟩ := expands_forget expands
  obtain ⟨silent,_,_,ends⟩ := within_pending within
  refine ⟨request,?_,ends⟩
  rw [whole,forget,List.filterMap_append]
  rw [forget] at same silent
  rw [same,silent,List.append_nil]

theorem Wire.Started.started {events : WireEvents} {initial : Wire} (started : Wire.Started p state events initial) :
    SorobanProxy.Started p state (forget events) initial.shared := by
  obtain ⟨high,runs,expands⟩ := Prog.runs_carriedOut_iff.mp started.runs
  rw [(expands_forget expands).1]
  exact ⟨runs,System.Through.of_expands onWire_implements expands started.through⟩

theorem Started.onWire {events : Events} {initial : Shared} (started : Started p state events initial) :
    ∃ low wire, Wire.Started p state low wire ∧ forget low = events ∧ wire.shared = initial := by
  have before : System.Through Answers Wire.new.shared events initial := started.through
  obtain ⟨low,wire,expands,through,same⟩ := System.Through.exists_expands onWire_implements before
  exact ⟨low,wire,⟨Prog.runs_carriedOut_iff.mpr ⟨events,started.runs,expands⟩,through⟩,(expands_forget expands).1,same⟩

/-- The server on the wire is the server: its startups, and its states from any shared state
and any number in the counter, are those of the server with an id in each call. -/
theorem wire_refines_server (p : Platform) (state : AppState) :
    (∀ events initial, Wire.Started p state events initial → Started p state (forget events) initial.shared) ∧
    (∀ events initial, Started p state events initial →
      ∃ low wire, Wire.Started p state low wire ∧ forget low = events ∧ wire.shared = initial) ∧
    ∀ initial : Wire,
      (∀ low, WireServer.Reachable p state initial low →
        ∃ s, Server.Reachable p state initial.shared s ∧ Forgets low s) ∧
      ∀ s, Server.Reachable p state initial.shared s →
        ∃ low, WireServer.Reachable p state initial low ∧ Forgets low s := by
  refine ⟨fun _ _ started => started.started,fun _ _ started => started.onWire,fun initial => ⟨?_,?_⟩⟩
  · intro low reach
    obtain ⟨s,reached,shared,carries⟩ := System.Reachable.carries onWire_implements reach
    exact ⟨s,reached,forgets_of_carries shared carries⟩
  · intro s reach
    obtain ⟨low,reached,shared,carries⟩ := System.Reachable.carried onWire_implements reach
    exact ⟨low,reached,forgets_of_carries shared carries⟩

/-- The reference server starts on the wire, and comes there to all its states. -/
theorem wire_refines_server_ping : ∃ low wire, Wire.Started Reference.platform Reference.state low wire ∧
    forget low = pingLookup ++ [pingProbe] ++ [⟨.writeMethods pingMethods,()⟩] ∧ wire.shared = pingShared ∧
    ∀ s, Server.Reachable Reference.platform Reference.state pingShared s →
      ∃ low, WireServer.Reachable Reference.platform Reference.state wire low ∧ Forgets low s := by
  obtain ⟨_,starts,states⟩ := wire_refines_server Reference.platform Reference.state
  obtain ⟨low,wire,started,forgotten,shared⟩ := starts _ _ ping_started
  refine ⟨low,wire,started,forgotten,shared,?_⟩
  rw [← shared]
  exact (states wire).2

/-- So many ids from one on. -/
def ids (first : UInt64) (count : Nat) : List UInt64 := (List.range count).map fun i => first + .ofNat i

theorem ids_succ (first : UInt64) (count : Nat) :
    ids first (count + 1) = ids first count ++ [first + .ofNat count] := by
  rw [ids,List.range_succ,List.map_append]
  rfl

theorem ids_add (first : UInt64) (count more : Nat) :
    ids first (count + more) = ids first count ++ ids (first + .ofNat count) more := by
  rw [ids,List.range_add,List.map_append,List.map_map,ids,ids]
  refine congrArg _ (List.map_congr_left fun i _ => ?_)
  rw [Function.comp_apply,UInt64.ofNat_add,UInt64.add_assoc]

theorem ids_nodup {first : UInt64} {count : Nat} (few : count ≤ 2 ^ 64) : (ids first count).Nodup := by
  refine List.Nodup.map_on ?_ List.nodup_range
  intro i below j below' same
  have small := List.mem_range.mp below
  have small' := List.mem_range.mp below'
  have offsets := congrArg UInt64.toNat ((UInt64.add_right_inj first).mp same)
  have size : UInt64.size = 2 ^ 64 := rfl
  rwa [UInt64.toNat_ofNat_of_lt' (by omega),UInt64.toNat_ofNat_of_lt' (by omega)] at offsets

theorem ofNat_succ (first : UInt64) (count : Nat) : first + .ofNat (count + 1) = first + .ofNat count + 1 := by
  rw [UInt64.ofNat_add,← UInt64.add_assoc]
  rfl

theorem drawn_append (first second : WireEvents) : drawn (first ++ second) = drawn first ++ drawn second :=
  List.filterMap_append

/-- Only a draw moves the counter. -/
theorem WireAnswers.draws {a b : Wire} {low : WireOp} {r : WireResp low} (answer : WireAnswers a low r b) :
    drawn [⟨low,r⟩] = [a.nextId] ∧ b.nextId = a.nextId + 1 ∨ drawn [⟨low,r⟩] = [] ∧ b.nextId = a.nextId := by
  cases answer with
  | nextId => exact .inl ⟨rfl,rfl⟩
  | send | other => exact .inr ⟨rfl,rfl⟩

/-- One program alone draws in order. -/
theorem drawn_of_through {a b : Wire} {events : WireEvents} (through : System.Through WireAnswers a events b) :
    ∃ count, drawn events = ids a.nextId count ∧ b.nextId = a.nextId + .ofNat count := by
  induction events using List.reverseRecOn generalizing b with
  | nil =>
    obtain rfl := System.through_nil_iff.mp through
    exact ⟨0,rfl,(UInt64.add_zero _).symm⟩
  | append_singleton events e ih =>
    obtain ⟨low,r⟩ := e
    obtain ⟨c,before,last⟩ := System.through_append_iff.mp through
    obtain ⟨count,earlier,counter⟩ := ih before
    obtain ⟨_,answer,last⟩ := System.through_cons_iff.mp last
    obtain rfl := System.through_nil_iff.mp last
    rw [drawn_append,earlier]
    rcases answer.draws with ⟨one,moves⟩ | ⟨none,stays⟩
    · refine ⟨count + 1,?_,?_⟩
      · rw [one,ids_succ,counter]
      · rw [moves,counter,ofNat_succ]
    · exact ⟨count,by rw [none,List.append_nil],stays.trans counter⟩

/-- The ids of all tasks, in the order of the tasks. -/
def WireServer.drawn (s : WireServer) : List UInt64 := s.tasks.flatMap fun t => SorobanProxy.drawn t.history

def WireServer.sent (s : WireServer) : List UInt64 := s.tasks.flatMap fun t => SorobanProxy.sent t.history

/-- Programs side by side draw each id once. -/
theorem drawn_of_reachable {initial : Wire} {s : WireServer} (reach : WireServer.Reachable p state initial s) :
    ∃ count, s.drawn.Perm (ids initial.nextId count) ∧ s.shared.nextId = initial.nextId + .ofNat count := by
  induction reach with
  | refl => exact ⟨0,.refl _,(UInt64.add_zero _).symm⟩
  | tail _ turn ih =>
    obtain ⟨count,perm,counter⟩ := ih
    cases turn with
    | arrive i =>
      refine ⟨count,?_,counter⟩
      simpa [WireServer.drawn,drawn] using perm
    | @answer low a r b before after i history next answer =>
      rcases answer.draws with ⟨one,moves⟩ | ⟨none,stays⟩
      · refine ⟨count + 1,?_,?_⟩
        · rw [ids_succ,← counter]
          have moved (early late : List UInt64) (n : UInt64) : (early ++ n :: late).Perm (early ++ late ++ [n]) :=
            List.perm_middle.trans (List.perm_append_singleton _ _).symm
          refine .trans ?_ (perm.append_right [a.nextId])
          simpa [WireServer.drawn,drawn_append,one] using
            moved (before.flatMap (fun t => drawn t.history) ++ drawn history)
              (after.flatMap fun t => drawn t.history) _
        · rw [moves,counter,ofNat_succ]
      · refine ⟨count,?_,stays.trans counter⟩
        simpa [WireServer.drawn,drawn_append,none] using perm

theorem carries_sent {lowTask : Task WireResp Request (Except AppError Value)}
    {t : Task Resp Request (Except AppError Value)} (carries : Task.Carries onWire lowTask t) :
    (sent lowTask.history).Sublist (drawn lowTask.history) ∧ WellSpoken lowTask.history := by
  obtain ⟨_,done,pending,whole,expands,within⟩ := carries
  obtain ⟨_,same,spoken⟩ := expands_forget expands
  obtain ⟨_,none,spoken',_⟩ := within_pending within
  rw [whole]
  refine ⟨?_,wellSpoken_append spoken spoken'⟩
  rw [drawn_append,sent,List.filterMap_append]
  rw [sent] at same none
  rw [same,none,List.append_nil]
  exact List.sublist_append_left _ _

/-- A task sends the ids that it has drawn itself, in their order. -/
theorem WireServer.Reachable.spoken {initial : Wire} {s : WireServer} (reach : WireServer.Reachable p state initial s) :
    ∀ t ∈ s.tasks, (SorobanProxy.sent t.history).Sublist (SorobanProxy.drawn t.history) ∧ WellSpoken t.history := by
  obtain ⟨_,_,_,carries⟩ := System.Reachable.carries onWire_implements reach
  intro t member
  obtain ⟨_,_,carried⟩ := forall₂_mem_left carries member
  exact carries_sent carried

/-- Ids are not used twice. Startup and all requests together draw the numbers from one on,
each once. Startup sends the ids that it has drawn, each task sends such that it has drawn
itself, each at most once, and so no id is sent twice until the counter comes round. -/
theorem request_ids_distinct {events : WireEvents} {initial : Wire} (started : Wire.Started p state events initial)
    {s : WireServer} (reach : WireServer.Reachable p state initial s) :
    ∃ count, (drawn events ++ s.drawn).Perm (ids 1 count) ∧ s.shared.nextId = 1 + .ofNat count ∧
      WellSpoken events ∧ sent events = drawn events ∧
      (∀ t ∈ s.tasks, WellSpoken t.history ∧ (sent t.history).Sublist (drawn t.history)) ∧
      (count ≤ 2 ^ 64 → (sent events ++ s.sent).Nodup) := by
  obtain ⟨count,first,counter⟩ := drawn_of_through started.through
  obtain ⟨more,later,counter'⟩ := drawn_of_reachable reach
  obtain ⟨_,_,expands⟩ := Prog.runs_carriedOut_iff.mp started.runs
  obtain ⟨_,same,spoken⟩ := expands_forget expands
  rw [counter] at later counter'
  have perm : (drawn events ++ s.drawn).Perm (ids 1 (count + more)) := by
    rw [first,ids_add]
    exact later.append_left _
  have sublist : (sent events ++ s.sent).Sublist (drawn events ++ s.drawn) := by
    rw [same]
    exact (List.Sublist.flatMap_right _ fun t member => (reach.spoken t member).1).append_left _
  refine ⟨count + more,perm,?_,spoken,same,fun t member => (reach.spoken t member).symm,fun few => ?_⟩
  · rw [counter',UInt64.ofNat_add,← UInt64.add_assoc]
    rfl
  · exact sublist.nodup (perm.nodup_iff.mpr (ids_nodup few))

/-- After startup a request for the network has come in and has drawn its id. -/
theorem asked_reachable (initial : Wire) : ∃ s,
    WireServer.Reachable Reference.platform Reference.state initial s ∧ s.drawn = [initial.nextId] := by
  have arrived : WireServer.Reachable Reference.platform Reference.state initial ⟨initial,[] ++ [⟨.getNetwork,[],
      (Request.handler Reference.platform Reference.state .getNetwork).run.carriedOut onWire⟩]⟩ :=
    .tail .refl (.arrive _)
  exact ⟨_,arrived.tail (.answer [] [] _ _ _ .nextId),rfl⟩

theorem request_ids_distinct_ping : ∃ events initial s count,
    WireServer.Reachable Reference.platform Reference.state initial s ∧ s.drawn ≠ [] ∧
      (drawn events ++ s.drawn).Perm (ids 1 count) ∧ s.shared.nextId = 1 + .ofNat count ∧
      WellSpoken events ∧ sent events = drawn events ∧
      (∀ t ∈ s.tasks, WellSpoken t.history ∧ (sent t.history).Sublist (drawn t.history)) ∧
      (count ≤ 2 ^ 64 → (sent events ++ s.sent).Nodup) := by
  obtain ⟨events,initial,started,_,_⟩ := ping_started.onWire
  obtain ⟨s,reach,asked⟩ := asked_reachable initial
  obtain ⟨count,distinct⟩ := request_ids_distinct started reach
  exact ⟨events,initial,s,count,reach,by simp [asked],distinct⟩

end SorobanProxy
