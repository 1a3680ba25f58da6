import Geobench.Engine.Streaming
import Mathlib.Data.List.Perm.Basic

/-!
# The task pool of the engine

Requests are put on one queue. The worker moves them into a pool of tasks, under the hash of their
request config, then takes up to a batch of the first entry, generates for it and puts the replies on
the queues of the requests. Puts and the steps of the worker interleave in any way.

The pool runs every request of an entry with the arguments of the request that opened it. So requests
are served with their own adapter and settings as long as a request that joins an entry asks for the
same generation (`requests_served`). A request for another adapter with the same
config is run with the adapter of the entry (`joined_request_gets_other_adapter`).

A batch whose call raises an exception stops the worker for good (`stopped_run`). In the
engine of the server, which is strict, a request that cannot be encoded raises one.
-/

namespace Geobench.Engine

open Library List

/-! ## The state -/

/-- The loop of the worker: it empties the queue, then serves a batch. An exception stops
it. -/
inductive Phase where
  | fetching
  | serving
  | stopped

/-- A call of the worker: the arguments it was made with, its requests with their queues,
and the adapters that were loaded. -/
structure Call (Request Encoded : Type) where
  kwargs : InferKwargs Encoded
  data : List (Request × ℕ)
  adaptersPool : AdaptersPool

/-- The engine between two steps. Every submission has a queue of its own; the
submissions, the calls and all that was put on the queues are recorded. -/
structure AsyncState (Request Encoded Error Key : Type) where
  queue : List (Request × InferKwargs Encoded × ℕ)
  taskPool : List (Key × InferKwargs Encoded × List (Request × ℕ))
  adaptersPool : AdaptersPool
  phase : Phase
  submitted : List (Request × InferKwargs Encoded)
  calls : List (Call Request Encoded)
  replies : List (ℕ × Option (Reply Error))

/-- A caller submits a request, or the worker makes a step. -/
inductive Event (Request Encoded : Type) where
  | submit (inferRequest : Request) (kwargs : InferKwargs Encoded)
  | work

section Pool

variable {Request Encoded Key : Type} [DecidableEq Key]

/-- Append a request to the entry of a key, or open the entry. -/
def addTask (key : Key) (kwargs : InferKwargs Encoded) (item : Request × ℕ) :
    List (Key × InferKwargs Encoded × List (Request × ℕ)) →
      List (Key × InferKwargs Encoded × List (Request × ℕ))
  | [] => [(key, kwargs, [item])]
  | (key', kwargs', data) :: rest =>
    if key' = key then (key', kwargs', data ++ [item]) :: rest
    else (key', kwargs', data) :: addTask key kwargs item rest

def entryKwargs (key : Key) :
    List (Key × InferKwargs Encoded × List (Request × ℕ)) → Option (InferKwargs Encoded)
  | [] => none
  | (key', kwargs', _) :: rest => if key' = key then some kwargs' else entryKwargs key rest

end Pool

namespace TransformersEngine

variable {Request Encoded Error Key : Type} [DecidableEq Key]
  (engine : TransformersEngine Request Encoded Error) (info : RequestConfig → Key)

/-- The number of requests of an entry that are served together. -/
def batchSize (data : List (Request × ℕ)) : ℕ :=
  if engine.maxBatchSize ≤ 0 then data.length else engine.maxBatchSize.toNat

/-- What the worker puts on the queues of a batch. -/
def deliver (queueList : List ℕ) : InferOutput Error → List (ℕ × Option (Reply Error))
  | .full replies => queueList.zip (replies.map some)
  | .stream yields => streamSends queueList yields

/-- Serve a batch of the first entry. -/
def serve (state : AsyncState Request Encoded Error Key) (key : Key)
    (kwargs : InferKwargs Encoded) (data : List (Request × ℕ))
    (rest : List (Key × InferKwargs Encoded × List (Request × ℕ))) :
    AsyncState Request Encoded Error Key :=
  let batch := data.take (engine.batchSize data)
  let remainData := data.drop (engine.batchSize data)
  let taskPool := if remainData = [] then rest else (key, kwargs, remainData) :: rest
  match engine.infer state.calls.length state.adaptersPool (batch.map Prod.fst) kwargs with
  | .error _ => { state with taskPool := taskPool, phase := .stopped }
  | .ok (adaptersPool, output) => { state with
      taskPool := taskPool
      adaptersPool := adaptersPool
      phase := .fetching
      calls := state.calls ++ [⟨kwargs, batch, state.adaptersPool⟩]
      replies := state.replies ++ deliver (batch.map Prod.snd) output }

def work (state : AsyncState Request Encoded Error Key) : AsyncState Request Encoded Error Key :=
  match state.phase with
  | .fetching =>
    match state.queue with
    | [] => { state with phase := .serving }
    | (inferRequest, kwargs, queue) :: rest => { state with
        queue := rest
        taskPool := addTask (info kwargs.requestConfig) kwargs (inferRequest, queue)
          state.taskPool }
  | .serving =>
    match state.taskPool with
    | [] => { state with phase := .fetching }
    | (key, kwargs, data) :: rest => engine.serve state key kwargs data rest
  | .stopped => state

def step (state : AsyncState Request Encoded Error Key) :
    Event Request Encoded → AsyncState Request Encoded Error Key
  | .submit inferRequest kwargs => { state with
      queue := state.queue ++ [(inferRequest, kwargs, state.submitted.length)]
      submitted := state.submitted ++ [(inferRequest, kwargs)] }
  | .work => engine.work info state

/-- The engine after any order of submissions and steps of the worker. -/
def run (state : AsyncState Request Encoded Error Key) (events : List (Event Request Encoded)) :
    AsyncState Request Encoded Error Key :=
  events.foldl (engine.step info) state

end TransformersEngine

/-- The engine before any submission. -/
def AsyncState.initial (Request Encoded Error Key : Type) : AsyncState Request Encoded Error Key :=
  ⟨[], [], ∅, .fetching, [], [], []⟩

/-! ## Requests that are served -/

namespace TransformersEngine

variable {Request Encoded Error Key : Type} [DecidableEq Key]
  (engine : TransformersEngine Request Encoded Error) (info : RequestConfig → Key)

/-- Two calls would generate alike: both or none streams, and every batch is generated
with the same adapter, config and inputs. -/
def SameTreatment (kwargs other : InferKwargs Encoded) : Prop :=
  kwargs.requestConfig.stream = other.requestConfig.stream ∧
    ∀ inputs, engine.generateKwargs kwargs inputs = engine.generateKwargs other inputs

/-- No adapter of the name of the requested one is loaded, except it itself. -/
def AdapterFree (adaptersPool : AdaptersPool) (inferRequests : List Request)
    (kwargs : InferKwargs Encoded) : Prop :=
  encoded (inferRequests.map engine.encode) ≠ [] →
    ∀ adapter, (engine.callSettings inferRequests kwargs).adapterRequest = some adapter →
      ∀ loaded, adaptersPool.lookup adapter.name = some loaded → loaded = adapter

/-- The condition on a step: a request that joins an entry of the pool asks for the
generation of the entry, and a batch that is served raises no exception and finds no other
adapter under the name of its own. -/
def Meets (state : AsyncState Request Encoded Error Key) : Event Request Encoded → Prop
  | .submit _ _ => True
  | .work =>
    match state.phase with
    | .fetching =>
      ∀ inferRequest kwargs queue rest, state.queue = (inferRequest, kwargs, queue) :: rest →
        ∀ entry, entryKwargs (info kwargs.requestConfig) state.taskPool = some entry →
          engine.SameTreatment entry kwargs
    | .serving =>
      ∀ key kwargs data rest, state.taskPool = (key, kwargs, data) :: rest →
        engine.Answers ((data.take (engine.batchSize data)).map Prod.fst) kwargs ∧
          engine.AdapterFree state.adaptersPool
            ((data.take (engine.batchSize data)).map Prod.fst) kwargs
    | .stopped => True

/-- Every step of a run meets the condition. -/
def MeetsAll : AsyncState Request Encoded Error Key → List (Event Request Encoded) → Prop
  | _, [] => True
  | state, event :: events =>
    engine.Meets info state event ∧ MeetsAll (engine.step info state event) events

/-- What the queue of a request gets: its error, or the response or the chunks of its own
row; after a stream, the end marker. -/
def ownReplies (number : ℕ) (call : Call Request Encoded) (position : ℕ)
    (inferRequest : Request) : List (Option (Reply Error)) :=
  let inferRequests := call.data.map Prod.fst
  let row := rowOf (inferRequests.map engine.encode) position
  let yields := engine.callYields number call.adaptersPool inferRequests call.kwargs
  match engine.encode inferRequest with
  | .error error =>
    if call.kwargs.requestConfig.stream then
      yields.map (fun _ => some (.error error)) ++ [none]
    else [some (.error error)]
  | .ok _ =>
    if call.kwargs.requestConfig.stream then
      yields.map (fun res => res[row]?.join.map .chunk) ++ [none]
    else [(engine.callResponses number call.adaptersPool inferRequests call.kwargs)[row]?.map
      .response]

end TransformersEngine

namespace AsyncState

variable {Request Encoded Error Key : Type} [DecidableEq Key]

def callQueues (calls : List (Call Request Encoded)) : List ℕ :=
  calls.flatMap fun call => call.data.map Prod.snd

def poolQueues (taskPool : List (Key × InferKwargs Encoded × List (Request × ℕ))) : List ℕ :=
  taskPool.flatMap fun entry => entry.2.2.map Prod.snd

/-- The queues of the requests that were run, of those in the pool and of those that
wait. -/
def queues (state : AsyncState Request Encoded Error Key) : List ℕ :=
  callQueues state.calls ++ poolQueues state.taskPool ++ state.queue.map fun item => item.2.2

/-- A request of a call is one that was submitted, for the generation of the call. -/
def RunsAsSubmitted (engine : TransformersEngine Request Encoded Error)
    (submitted : List (Request × InferKwargs Encoded)) (kwargs : InferKwargs Encoded)
    (item : Request × ℕ) : Prop :=
  ∃ own, submitted[item.2]? = some (item.1, own) ∧ engine.SameTreatment kwargs own

/-- The adapter a call asked for is the one loaded under its name. -/
def LoadsAdapter (engine : TransformersEngine Request Encoded Error)
    (call : Call Request Encoded) : Prop :=
  encoded ((call.data.map Prod.fst).map engine.encode) ≠ [] →
    ∀ adapter, (engine.callSettings (call.data.map Prod.fst) call.kwargs).adapterRequest =
        some adapter →
      (TransformersEngine.loadAdapter call.adaptersPool (some adapter)).lookup adapter.name =
        some adapter

/-- The requests submitted so far are served: each one is run once or still to be run, it
is run with its own settings and adapter, and its queue gets its own replies and nothing
else. -/
structure Served (engine : TransformersEngine Request Encoded Error)
    (state : AsyncState Request Encoded Error Key) : Prop where
  once : state.queues.Perm (List.range state.submitted.length)
  ownSettings : ∀ call ∈ state.calls, ∀ item ∈ call.data,
    ∃ own, state.submitted[item.2]? = some (item.1, own) ∧
      call.kwargs.requestConfig.stream = own.requestConfig.stream ∧
      engine.callSettings (call.data.map Prod.fst) call.kwargs =
        engine.callSettings (call.data.map Prod.fst) own
  ownAdapter : ∀ call ∈ state.calls, LoadsAdapter engine call
  ownReplies : ∀ (number : ℕ) call, state.calls[number]? = some call →
    ∀ (position : ℕ) inferRequest queue, call.data[position]? = some (inferRequest, queue) →
      Channels.sentOn queue state.replies = engine.ownReplies number call position inferRequest
  silent : ∀ queue, (∀ call ∈ state.calls, queue ∉ call.data.map Prod.snd) →
    Channels.sentOn queue state.replies = []

end AsyncState

/-! ## What a batch gets -/

namespace TransformersEngine

section Deliver

variable {Request Encoded Error : Type} {engine : TransformersEngine Request Encoded Error}
  {number : ℕ} {adaptersPool : AdaptersPool} {kwargs : InferKwargs Encoded}
  {data : List (Request × ℕ)}

theorem mem_deliver {queueList : List ℕ} {output : InferOutput Error} {queue : ℕ}
    (member : queue ∈ (deliver queueList output).map Prod.fst) : queue ∈ queueList := by
  cases output with
  | full replies =>
    obtain ⟨⟨queue, item⟩, inZip, rfl⟩ := mem_map.mp member
    exact (of_mem_zip inZip).1
  | stream yields => exact mem_streamSends member

/-- The queue of a request gets the replies of its own row, or its error. -/
theorem sentOn_deliver (distinct : (data.map Prod.snd).Nodup) {position : ℕ}
    {inferRequest : Request} {queue : ℕ}
    (isItem : data[position]? = some (inferRequest, queue)) :
    Channels.sentOn queue (deliver (data.map Prod.snd)
        (engine.answered number adaptersPool (data.map Prod.fst) kwargs)) =
      engine.ownReplies number ⟨kwargs, data, adaptersPool⟩ position inferRequest := by
  have isQueue : (data.map Prod.snd)[position]? = some queue := by
    rw [getElem?_map, isItem]
    rfl
  have isResult : ((data.map Prod.fst).map engine.encode)[position]? =
      some (engine.encode inferRequest) := by
    rw [getElem?_map, getElem?_map, isItem]
    rfl
  -- the entries of a list of a stream are those of the rows
  have rows {res : List (Option ChatCompletionStreamResponse)}
      (yielded : res ∈ engine.callYields number adaptersPool (data.map Prod.fst) kwargs) :
      (res.map (Option.map (@Reply.chunk Error))).length =
        (encoded ((data.map Prod.fst).map engine.encode)).length := by
    rw [length_map]
    exact length_of_mem_callYields yielded
  have rowsFull : ((engine.callResponses number adaptersPool (data.map Prod.fst) kwargs).map
      (@Reply.response Error)).length =
        (encoded ((data.map Prod.fst).map engine.encode)).length := by
    rw [length_map, length_callResponses]
  rw [answered, ownReplies]
  dsimp only
  cases isStream : kwargs.requestConfig.stream with
  | true =>
    simp only [↓reduceIte]
    cases result : engine.encode inferRequest with
    | error failure =>
      rw [result] at isResult
      apply sentOn_streamSends distinct isQueue
      refine map_map.trans (Eq.trans ?_ map_map.symm)
      apply map_congr_left
      intro res yielded
      exact getElem?_inOrder_error (fun error => some (Reply.error error)) (rows yielded)
        isResult
    | ok input =>
      rw [result] at isResult
      apply sentOn_streamSends distinct isQueue
      refine map_map.trans (Eq.trans ?_ map_map.symm)
      apply map_congr_left
      intro res yielded
      have inside : rowOf ((data.map Prod.fst).map engine.encode) position < res.length := by
        rw [length_of_mem_callYields yielded]
        exact rowOf_lt isResult
      refine (getElem?_inOrder_ok (fun error => some (Reply.error error)) (rows yielded)
        isResult).trans ?_
      rw [getElem?_map, Function.comp_apply, getElem?_eq_getElem inside]
      rfl
  | false =>
    simp only [Bool.false_eq_true, ↓reduceIte]
    cases result : engine.encode inferRequest with
    | error failure =>
      rw [result] at isResult
      apply sentOn_zip distinct isQueue
      rw [getElem?_map, getElem?_inOrder_error Reply.error rowsFull isResult]
      rfl
    | ok input =>
      rw [result] at isResult
      have inside := rowOf_lt isResult
      rw [← rowsFull, length_map] at inside
      apply sentOn_zip distinct isQueue
      rw [getElem?_map, getElem?_inOrder_ok Reply.error rowsFull isResult,
        getElem?_map, getElem?_eq_getElem inside]
      rfl

end Deliver

end TransformersEngine

/-! ## The invariant of the engine -/

namespace AsyncState

variable {Request Encoded Error Key : Type}
  {engine : TransformersEngine Request Encoded Error} {info : RequestConfig → Key}
  {state : AsyncState Request Encoded Error Key}

/-- What holds between two steps. -/
structure Inv (engine : TransformersEngine Request Encoded Error)
    (state : AsyncState Request Encoded Error Key) : Prop where
  going : state.phase ≠ .stopped
  once : state.queues.Perm (List.range state.submitted.length)
  waiting : ∀ item ∈ state.queue, state.submitted[item.2.2]? = some (item.1, item.2.1)
  pooled : ∀ entry ∈ state.taskPool, entry.2.2 ≠ [] ∧
    ∀ item ∈ entry.2.2, RunsAsSubmitted engine state.submitted entry.2.1 item
  ran : ∀ call ∈ state.calls, LoadsAdapter engine call ∧
    ∀ item ∈ call.data, RunsAsSubmitted engine state.submitted call.kwargs item
  replied : ∀ (number : ℕ) call, state.calls[number]? = some call →
    ∀ (position : ℕ) inferRequest queue, call.data[position]? = some (inferRequest, queue) →
      Channels.sentOn queue state.replies = engine.ownReplies number call position inferRequest
  silent : ∀ queue, (∀ call ∈ state.calls, queue ∉ call.data.map Prod.snd) →
    Channels.sentOn queue state.replies = []

/-- What the invariant says about the requests. -/
theorem Inv.served (inv : state.Inv engine) : state.Served engine where
  once := inv.once
  ownSettings := by
    intro call member item isItem
    obtain ⟨own, isOwn, sameStream, sameSettings⟩ := (inv.ran call member).2 item isItem
    exact ⟨own, isOwn, sameStream, sameSettings _⟩
  ownAdapter := fun call member => (inv.ran call member).1
  ownReplies := inv.replied
  silent := inv.silent

theorem Inv.initial (engine : TransformersEngine Request Encoded Error) :
    (AsyncState.initial Request Encoded Error Key).Inv engine where
  going := nofun
  once := .refl _
  waiting := nofun
  pooled := nofun
  ran := nofun
  replied := nofun
  silent := fun _ _ => rfl

/-! ### Submissions -/

variable [DecidableEq Key]

/-- A submission stays what it was when others follow. -/
theorem RunsAsSubmitted.mono {submitted : List (Request × InferKwargs Encoded)}
    {kwargs : InferKwargs Encoded} {item : Request × ℕ}
    (runs : RunsAsSubmitted engine submitted kwargs item)
    (further : List (Request × InferKwargs Encoded)) :
    RunsAsSubmitted engine (submitted ++ further) kwargs item := by
  obtain ⟨own, isOwn, same⟩ := runs
  refine ⟨own, ?_, same⟩
  rw [getElem?_append_left (List.getElem?_eq_some_iff.mp isOwn).1, isOwn]

/-- A submission keeps the invariant. -/
theorem Inv.submit (inv : state.Inv engine) (inferRequest : Request)
    (kwargs : InferKwargs Encoded) :
    (engine.step info state (.submit inferRequest kwargs)).Inv engine where
  going := inv.going
  once := by
    have further : (engine.step info state (.submit inferRequest kwargs)).queues =
        state.queues ++ [state.submitted.length] := by
      simp only [queues, TransformersEngine.step, map_append, map_cons, map_nil, append_assoc]
    rw [further]
    simp only [TransformersEngine.step, length_append, length_cons, length_nil,
      Nat.zero_add, range_succ]
    exact inv.once.append_right _
  waiting := by
    intro item member
    rcases mem_append.mp member with earlier | new
    · have isOwn := inv.waiting item earlier
      exact (getElem?_append_left (List.getElem?_eq_some_iff.mp isOwn).1).trans isOwn
    · cases mem_singleton.mp new
      exact getElem?_concat_length
  pooled := fun entry member => ⟨(inv.pooled entry member).1,
    fun item isItem => ((inv.pooled entry member).2 item isItem).mono _⟩
  ran := fun call member => ⟨(inv.ran call member).1,
    fun item isItem => ((inv.ran call member).2 item isItem).mono _⟩
  replied := inv.replied
  silent := inv.silent

/-! ### Fetching -/

theorem queues_addTask (key : Key) (kwargs : InferKwargs Encoded) (item : Request × ℕ)
    (taskPool : List (Key × InferKwargs Encoded × List (Request × ℕ))) :
    (poolQueues (addTask key kwargs item taskPool)).Perm (poolQueues taskPool ++ [item.2]) := by
  induction taskPool with
  | nil => exact .refl _
  | cons entry rest ih =>
    obtain ⟨key', kwargs', data⟩ := entry
    rw [addTask]
    split
    · simp only [poolQueues, flatMap_cons, map_append, map_cons, map_nil, append_assoc]
      exact perm_append_comm.append_left _
    · rw [poolQueues, poolQueues, flatMap_cons, flatMap_cons, append_assoc]
      exact ih.append_left _

variable {key : Key}

/-- What holds of the requests of the entries holds after a task was added. -/
theorem forall_addTask (good : InferKwargs Encoded → Request × ℕ → Prop)
    {kwargs : InferKwargs Encoded} {item : Request × ℕ}
    {taskPool : List (Key × InferKwargs Encoded × List (Request × ℕ))}
    (pooled : ∀ entry ∈ taskPool, entry.2.2 ≠ [] ∧ ∀ item ∈ entry.2.2, good entry.2.1 item)
    (opens : good kwargs item)
    (joins : ∀ entry, entryKwargs key taskPool = some entry → good entry item) :
    ∀ entry ∈ addTask key kwargs item taskPool,
      entry.2.2 ≠ [] ∧ ∀ item ∈ entry.2.2, good entry.2.1 item := by
  induction taskPool with
  | nil =>
    intro entry member
    cases mem_singleton.mp member
    refine ⟨nofun, ?_⟩
    intro item' isItem
    cases mem_singleton.mp isItem
    exact opens
  | cons first rest ih =>
    obtain ⟨key', kwargs', data⟩ := first
    intro entry member
    rw [entryKwargs] at joins
    rw [addTask] at member
    split at member
    · rename_i sameKey
      rw [if_pos sameKey] at joins
      rcases mem_cons.mp member with rfl | later
      · refine ⟨append_ne_nil_of_right_ne_nil _ nofun, ?_⟩
        intro item' isItem
        rcases mem_append.mp isItem with earlier | new
        · exact (pooled _ mem_cons_self).2 item' earlier
        · cases mem_singleton.mp new
          exact joins kwargs' rfl
      · exact pooled entry (mem_cons_of_mem _ later)
    · rename_i otherKey
      rw [if_neg otherKey] at joins
      rcases mem_cons.mp member with rfl | later
      · exact pooled _ mem_cons_self
      · exact ih (fun entry member => pooled entry (mem_cons_of_mem _ member)) joins
          entry later

/-- Fetching a request keeps the invariant, when it joins an entry of its treatment. -/
theorem Inv.fetch (inv : state.Inv engine) {inferRequest : Request}
    {kwargs : InferKwargs Encoded} {queue : ℕ} {rest : List (Request × InferKwargs Encoded × ℕ)}
    (isNext : state.queue = (inferRequest, kwargs, queue) :: rest)
    (joins : ∀ entry, entryKwargs (info kwargs.requestConfig) state.taskPool = some entry →
      engine.SameTreatment entry kwargs) :
    Inv engine { state with
      queue := rest
      taskPool := addTask (info kwargs.requestConfig) kwargs (inferRequest, queue)
        state.taskPool } where
  going := inv.going
  once := by
    refine List.Perm.trans ?_ inv.once
    simp only [queues, isNext, map_cons]
    refine ((queues_addTask _ _ _ _).append_left _).append_right _ |>.trans ?_
    simp only [append_assoc, cons_append, nil_append]
    exact .refl _
  waiting := fun item member => inv.waiting item (isNext ▸ mem_cons_of_mem _ member)
  pooled := by
    have isOwn := inv.waiting (inferRequest, kwargs, queue) (isNext ▸ mem_cons_self)
    apply forall_addTask (RunsAsSubmitted engine state.submitted) inv.pooled
    · exact ⟨kwargs, isOwn, rfl, fun _ => rfl⟩
    · intro entry isEntry
      exact ⟨kwargs, isOwn, joins entry isEntry⟩
  ran := inv.ran
  replied := inv.replied
  silent := inv.silent

/-! ### Serving -/

omit [DecidableEq Key] in
theorem loadsAdapter {call : Call Request Encoded}
    (isFree : engine.AdapterFree call.adaptersPool (call.data.map Prod.fst) call.kwargs) :
    LoadsAdapter engine call := by
  intro someInput adapter isAsked
  rw [TransformersEngine.loadAdapter]
  split
  · rename_i isLoaded
    obtain ⟨loaded, isFound⟩ := Option.isSome_iff_exists.mp (AList.lookup_isSome.mpr isLoaded)
    rw [isFound, isFree someInput adapter isAsked loaded isFound]
  · exact AList.lookup_insert _

omit [DecidableEq Key] in
/-- The calls and the pool after a batch was taken have the queues they had before. -/
theorem queues_take {kwargs : InferKwargs Encoded} {data : List (Request × ℕ)}
    {rest : List (Key × InferKwargs Encoded × List (Request × ℕ))} (size : ℕ) :
    (data.take size).map Prod.snd ++
        poolQueues (if data.drop size = [] then rest else (key, kwargs, data.drop size) :: rest) =
      poolQueues ((key, kwargs, data) :: rest) := by
  have whole : (data.take size).map Prod.snd ++ (data.drop size).map Prod.snd =
      data.map Prod.snd := by
    rw [← map_append, take_append_drop]
  split
  · rename_i noRemainder
    rw [noRemainder, map_nil, append_nil] at whole
    rw [poolQueues, poolQueues, flatMap_cons, whole]
  · rw [poolQueues, poolQueues, flatMap_cons, flatMap_cons, ← append_assoc, whole]

omit [DecidableEq Key] in
/-- Serving a batch keeps the invariant, when its call raises no exception and its
adapter finds its name free. -/
theorem Inv.serve (inv : state.Inv engine) {kwargs : InferKwargs Encoded}
    {data : List (Request × ℕ)} {rest : List (Key × InferKwargs Encoded × List (Request × ℕ))}
    (isFirst : state.taskPool = (key, kwargs, data) :: rest)
    (answers : engine.Answers ((data.take (engine.batchSize data)).map Prod.fst) kwargs)
    (isFree : engine.AdapterFree state.adaptersPool
      ((data.take (engine.batchSize data)).map Prod.fst) kwargs) :
    (engine.serve state key kwargs data rest).Inv engine := by
  have entry := inv.pooled (key, kwargs, data) (isFirst ▸ mem_cons_self)
  rw [TransformersEngine.serve, TransformersEngine.infer_eq answers]
  generalize engine.batchSize data = size at answers isFree
  dsimp only
  -- the queues of all requests stay the same, and are distinct
  have callsBatch : callQueues (state.calls ++ [⟨kwargs, data.take size, state.adaptersPool⟩]) =
      callQueues state.calls ++ (data.take size).map Prod.snd := by
    rw [callQueues, flatMap_append, flatMap_singleton]
    rfl
  have sameQueues : callQueues (state.calls ++
        [⟨kwargs, data.take size, state.adaptersPool⟩]) ++
      poolQueues (if data.drop size = [] then rest else (key, kwargs, data.drop size) :: rest) ++
        state.queue.map (fun item => item.2.2) = state.queues := by
    rw [callsBatch, queues, isFirst, ← queues_take size, append_assoc (callQueues _)]
  have distinct : state.queues.Nodup := inv.once.nodup_iff.mpr nodup_range
  rw [← sameQueues, callsBatch, append_assoc] at distinct
  have distinctCalls := (nodup_append.mp distinct).1
  have distinctBatch := (nodup_append.mp distinctCalls).2.1
  have fresh {call : Call Request Encoded} (member : call ∈ state.calls) {queue : ℕ}
      (isEarlier : queue ∈ call.data.map Prod.snd) : queue ∉ (data.take size).map Prod.snd := by
    intro isNew
    exact (nodup_append.mp distinctCalls).2.2 queue
      (mem_flatMap.mpr ⟨call, member, isEarlier⟩) queue isNew rfl
  exact {
    going := nofun
    once := by
      rw [queues, sameQueues]
      exact inv.once
    waiting := inv.waiting
    pooled := by
      have pooledRest : ∀ entry ∈ rest, entry.2.2 ≠ [] ∧
          ∀ item ∈ entry.2.2, RunsAsSubmitted engine state.submitted entry.2.1 item :=
        fun entry member => inv.pooled entry (isFirst ▸ mem_cons_of_mem _ member)
      intro other member
      dsimp only at member
      split at member
      · exact pooledRest other member
      · rename_i someRemain
        rcases mem_cons.mp member with rfl | later
        · exact ⟨someRemain, fun item isItem => entry.2 item (mem_of_mem_drop isItem)⟩
        · exact pooledRest other later
    ran := by
      intro call member
      rcases mem_append.mp member with earlier | new
      · exact inv.ran call earlier
      · cases mem_singleton.mp new
        exact ⟨loadsAdapter isFree,
          fun item isItem => entry.2 item (mem_of_mem_take isItem)⟩
    replied := by
      intro number call isCall position inferRequest queue isItem
      rw [Channels.sentOn_append]
      rcases Nat.lt_or_ge number state.calls.length with earlier | new
      · rw [getElem?_append_left earlier] at isCall
        have member := mem_of_getElem? isCall
        have isEarlier := mem_map_of_mem (f := Prod.snd) (mem_of_getElem? isItem)
        rw [inv.replied number call isCall position inferRequest queue isItem,
          Channels.sentOn_eq_nil fun isNew =>
            fresh member isEarlier (TransformersEngine.mem_deliver isNew),
          append_nil]
      · rw [getElem?_append_right new] at isCall
        obtain ⟨isLast, rfl⟩ : number = state.calls.length ∧
            ⟨kwargs, data.take size, state.adaptersPool⟩ = call := by
          rw [getElem?_singleton] at isCall
          split at isCall
          · exact ⟨by omega, Option.some.inj isCall⟩
          · cases isCall
        have isNew := mem_map_of_mem (f := Prod.snd) (mem_of_getElem? isItem)
        rw [inv.silent queue fun call member isEarlier => fresh member isEarlier isNew,
          nil_append, isLast]
        exact TransformersEngine.sentOn_deliver distinctBatch isItem
    silent := by
      intro queue others
      rw [Channels.sentOn_append, inv.silent queue fun call member =>
        others call (mem_append_left _ member), nil_append]
      apply Channels.sentOn_eq_nil
      intro isNew
      exact others _ (mem_append_right _ mem_cons_self)
        (TransformersEngine.mem_deliver isNew) }

/-! ### Runs -/

/-- A step that meets the condition keeps the invariant. -/
theorem Inv.step (inv : state.Inv engine) {event : Event Request Encoded}
    (meets : engine.Meets info state event) : (engine.step info state event).Inv engine := by
  cases event with
  | submit inferRequest kwargs => exact inv.submit inferRequest kwargs
  | work =>
    rw [TransformersEngine.Meets] at meets
    rw [TransformersEngine.step, TransformersEngine.work]
    cases phase : state.phase with
    | fetching =>
      rw [phase] at meets
      dsimp only
      split
      · exact { inv with going := nofun }
      · rename_i inferRequest kwargs queue rest isNext
        have fetched := inv.fetch isNext (meets inferRequest kwargs queue rest isNext)
        rw [phase] at fetched
        exact fetched
    | serving =>
      rw [phase] at meets
      dsimp only
      split
      · exact { inv with going := nofun }
      · rename_i key kwargs data rest isFirst
        obtain ⟨answers, isFree⟩ := meets key kwargs data rest isFirst
        exact inv.serve isFirst answers isFree
    | stopped => exact absurd phase inv.going

/-- The invariant holds after every run that meets the condition. -/
theorem Inv.run (inv : state.Inv engine) {events : List (Event Request Encoded)}
    (meets : engine.MeetsAll info state events) : (engine.run info state events).Inv engine := by
  induction events generalizing state with
  | nil => exact inv
  | cons event events ih => exact ih (inv.step meets.1) meets.2

/-! ### Exceptions -/

/-- A worker that stopped does nothing, whatever is submitted. -/
theorem run_of_stopped (stopped : state.phase = .stopped) (events : List (Event Request Encoded)) :
    (engine.run info state events).calls = state.calls ∧
      (engine.run info state events).replies = state.replies := by
  induction events generalizing state with
  | nil => exact ⟨rfl, rfl⟩
  | cons event events ih =>
    cases event with
    | submit inferRequest kwargs =>
      exact @ih (engine.step info state (.submit inferRequest kwargs)) stopped
    | work =>
      have stays : engine.step info state .work = state := by
        rw [TransformersEngine.step, TransformersEngine.work, stopped]
      have later := ih stopped
      rw [TransformersEngine.run, foldl_cons, stays]
      exact later

/-- All requests submitted so far were run. -/
def Idle (state : AsyncState Request Encoded Error Key) : Prop :=
  state.queue = [] ∧ state.taskPool = []

/-- What the worker still has to do. A turn from the empty pool back to the queue counts
too. -/
def pending (state : AsyncState Request Encoded Error Key) : ℕ :=
  3 * state.queue.length + 2 * (poolQueues state.taskPool).length +
    match state.phase, state.taskPool with
    | .fetching, _ => 1
    | .serving, [] => 2
    | .serving, _ :: _ => 0
    | .stopped, _ => 0

omit [DecidableEq Key] in
theorem batchSize_pos {data : List (Request × ℕ)} (someData : data ≠ []) :
    0 < engine.batchSize data := by
  rw [TransformersEngine.batchSize]
  split
  · exact length_pos_of_ne_nil someData
  · omega

/-- A step of the worker makes what is left less, until all is served. -/
theorem Inv.pending_work_lt (inv : state.Inv engine) (busy : ¬ state.Idle)
    (meets : engine.Meets info state .work) :
    (engine.work info state).pending < state.pending := by
  rw [TransformersEngine.Meets] at meets
  rw [TransformersEngine.work]
  cases phase : state.phase with
  | fetching =>
    dsimp only
    split
    · rename_i noneWaits
      cases pool : state.taskPool with
      | nil => exact absurd ⟨noneWaits, pool⟩ busy
      | cons entry rest =>
        simp only [pending, phase, pool]
        omega
    · rename_i inferRequest kwargs queue rest isNext
      have added := (queues_addTask (info kwargs.requestConfig) kwargs (inferRequest, queue)
        state.taskPool).length_eq
      rw [length_append, length_singleton] at added
      simp only [pending, phase, isNext, length_cons, added]
      omega
  | serving =>
    rw [phase] at meets
    dsimp only at meets ⊢
    split
    · rename_i isEmpty
      simp only [pending, phase, isEmpty]
      omega
    · rename_i key kwargs data rest isFirst
      obtain ⟨answers, -⟩ := meets key kwargs data rest isFirst
      have someData : data ≠ [] :=
        (inv.pooled (key, kwargs, data) (isFirst ▸ mem_cons_self)).1
      have size := @batchSize_pos _ _ _ engine _ someData
      have split := congrArg length
        (@queues_take _ _ _ key kwargs data rest (engine.batchSize data))
      rw [length_append, length_map, length_take] at split
      have positive := length_pos_of_ne_nil someData
      rw [TransformersEngine.serve, TransformersEngine.infer_eq answers]
      simp only [pending, phase, isFirst]
      omega
  | stopped => exact absurd phase inv.going

/-- The worker serves all requests, as long as its steps meet the condition. -/
theorem Inv.exists_idle (inv : state.Inv engine) :
    ∃ passes, engine.MeetsAll info state (replicate passes .work) ∧
      ((engine.run info state (replicate passes .work)).Idle ∨
        ¬ engine.Meets info (engine.run info state (replicate passes .work)) .work) := by
  induction left : state.pending using Nat.strong_induction_on generalizing state with
  | h left ih =>
    by_cases meets : engine.Meets info state .work
    · by_cases idle : state.Idle
      · exact ⟨0, trivial, .inl idle⟩
      · obtain ⟨passes, meetsLater, outcome⟩ :=
          ih _ (left ▸ inv.pending_work_lt idle meets) (inv.step meets) rfl
        exact ⟨passes + 1, ⟨meets, meetsLater⟩, outcome⟩
    · exact ⟨0, trivial, .inr meets⟩

theorem submitted_run_work (engine : TransformersEngine Request Encoded Error)
    (info : RequestConfig → Key) (state : AsyncState Request Encoded Error Key) (passes : ℕ) :
    (engine.run info state (replicate passes .work)).submitted = state.submitted := by
  induction passes generalizing state with
  | zero => rfl
  | succ passes ih =>
    refine (ih (engine.work info state)).trans ?_
    rw [TransformersEngine.work]
    cases state.phase with
    | fetching => cases state.queue <;> rfl
    | serving =>
      cases state.taskPool with
      | nil => rfl
      | cons entry rest =>
        obtain ⟨key, kwargs, data⟩ := entry
        show (engine.serve state key kwargs data rest).submitted = _
        rw [TransformersEngine.serve]
        split <;> rfl
    | stopped => rfl

omit [DecidableEq Key] in
theorem Inv.all_run (inv : state.Inv engine) (idle : state.Idle) :
    (callQueues state.calls).Perm (range state.submitted.length) := by
  have once := inv.once
  rw [queues, idle.1, idle.2, poolQueues, flatMap_nil, map_nil, append_nil, append_nil] at once
  exact once

end AsyncState

/-! ## Asynchronous requests -/

section Requests

variable {Request Encoded Error Key : Type} [DecidableEq Key]
  {engine : TransformersEngine Request Encoded Error} {info : RequestConfig → Key}

/-- **Asynchronous requests are served.** After every run whose steps meet the condition,
the requests submitted so far are served, and the worker gets to a state in which each of
them was run exactly once, or to a step that does not meet the condition. -/
theorem requests_served (events : List (Event Request Encoded))
    (meets : engine.MeetsAll info (.initial Request Encoded Error Key) events) :
    let state := engine.run info (.initial Request Encoded Error Key) events
    state.Served engine ∧
      ∃ passes, let later := engine.run info state (List.replicate passes .work)
        later.Served engine ∧ later.submitted = state.submitted ∧
          ((AsyncState.callQueues later.calls).Perm (List.range state.submitted.length) ∨
            ¬ engine.Meets info later .work) := by
  intro state
  have inv : state.Inv engine := (AsyncState.Inv.initial engine).run meets
  obtain ⟨passes, meetsLater, outcome⟩ := @AsyncState.Inv.exists_idle _ _ _ _ engine info _ _ inv
  have invLater := inv.run meetsLater
  have same := AsyncState.submitted_run_work engine info state passes
  refine ⟨inv.served, passes, invLater.served, same, ?_⟩
  rcases outcome with idle | stuck
  · exact .inl (same ▸ invLater.all_run idle)
  · exact .inr stuck

/-! ### Chat completions -/

def chatAdapter (adapterMapping : Text → Option Text) (model : Text) : Option AdapterRequest :=
  match adapterMapping model with
  | none => none
  | some adapterPath => if adapterPath = [] then none else some ⟨model, adapterPath⟩

/-- What a chat completion is asked with: the adapter of its model, and a hook that notes
the settings of the generation. -/
def chatKwargs (adapterMapping : Text → Option Text) (model : Text)
    (requestConfig : RequestConfig) : InferKwargs Encoded where
  requestConfig := requestConfig
  adapterRequest := chatAdapter adapterMapping model
  preInferHook := some ⟨id, fun _ => rfl⟩

omit [DecidableEq Key] in
/-- Chat completions with one config are treated alike exactly when they have one adapter. -/
theorem chat_sameTreatment_iff (adapterMapping : Text → Option Text) (model other : Text)
    (requestConfig : RequestConfig) :
    engine.SameTreatment (chatKwargs adapterMapping model requestConfig)
        (chatKwargs adapterMapping other requestConfig) ↔
      chatAdapter adapterMapping model = chatAdapter adapterMapping other := by
  constructor
  · rintro ⟨-, sameSettings⟩
    exact congrArg GenerateKwargs.adapterRequest (sameSettings [])
  · intro sameAdapter
    rw [chatKwargs, chatKwargs, sameAdapter]
    exact ⟨rfl, fun _ => rfl⟩

end Requests

/-! ### Two chat completions -/

def askModel (inferRequest : ℕ) (model : Text) : Event ℕ ℕ :=
  .submit inferRequest (chatKwargs some model ⟨none, 1, [], false, 1, false, .null⟩)

def configKey (requestConfig : RequestConfig) : ℕ := requestConfig.n

/-- Two requests for one adapter are served together. -/
theorem requests_for_one_adapter_served :
    let events := [askModel 0 "paris".toList, askModel 1 "paris".toList] ++
      List.replicate 4 .work
    ((TransformersEngine.wordEngine TransformersEngine.evenPuts).run configKey
      (.initial ℕ ℕ Unit ℕ) events).Served
        (TransformersEngine.wordEngine TransformersEngine.evenPuts) := by
  intro events
  have meets : (TransformersEngine.wordEngine TransformersEngine.evenPuts).MeetsAll configKey
      (.initial ℕ ℕ Unit ℕ) events := by
    refine ⟨trivial, trivial, ?_, ?_, ?_, ?_, trivial⟩
    · intro _ _ _ _ _ entry isEntry
      cases isEntry
    · intro _ _ _ _ isNext entry isEntry
      cases isNext
      cases isEntry
      exact ⟨rfl, fun _ => rfl⟩
    · intro _ _ _ _ isNext
      cases isNext
    · intro _ _ _ _ isFirst
      cases isFirst
      refine ⟨⟨?_, nofun⟩, ?_⟩
      · intro _ result member
        obtain ⟨request, -, rfl⟩ := mem_map.mp member
        exact ⟨request, rfl⟩
      · intro _ adapter _ loaded isLoaded
        cases isLoaded
  exact (requests_served events meets).1

/-- **A request that joins an entry is run with the adapter of the entry**, not with its
own. -/
theorem joined_request_gets_other_adapter :
    let events := [askModel 0 "paris".toList, askModel 1 "rome".toList] ++
      List.replicate 4 .work
    ¬ ((TransformersEngine.wordEngine TransformersEngine.evenPuts).run configKey
      (.initial ℕ ℕ Unit ℕ) events).Served
        (TransformersEngine.wordEngine TransformersEngine.evenPuts) := by
  intro events served
  obtain ⟨own, isOwn, -, sameSettings⟩ := served.ownSettings _ mem_cons_self (1, 1)
    (.tail _ (.head _))
  cases isOwn
  have sameAdapter := congrArg GenerateKwargs.adapterRequest sameSettings
  exact absurd sameAdapter (by decide)

end Geobench.Engine
