import Geobench.Rollout.Protocol
import Geobench.Trainers.ProcessData

/-!
# The rollout over servers

The training processes gather their requests. The main process sends them to the rollout
servers, a chunk to each, and each server divides its chunk among its data parallel
workers. Workers without a request get a placeholder, whose output is dropped. The
outputs come back in the order of the servers and of their workers, and every process
cuts out its part. In colocate mode the processes of a tensor parallel group gather their
requests, each runs its engine on all of them and cuts out its part.

When the engines give one output for each request, a rollout that returns gives every
process exactly the replies to its own requests, in their order, for all numbers of
processes, requests, servers and workers; and it does return when every server can be
reached (`rollout_returns_own_replies`).
-/

namespace Geobench.Trainers

open Library Rollout List

/-! ## A rollout server -/

/-- A rollout server. A worker gives no outputs when its engine raises. -/
structure SwiftRolloutDeploy where
  useAsyncEngine : Bool
  vllmDataParallelSize : ℕ
  dataParallelSize_pos : 0 < vllmDataParallelSize
  worker : ℕ → List RolloutInferRequest → Option (List RolloutOutput)

def SwiftRolloutDeploy.numConnections (deploy : SwiftRolloutDeploy) : ℕ :=
  if deploy.useAsyncEngine then 1 else deploy.vllmDataParallelSize

theorem SwiftRolloutDeploy.numConnections_pos (deploy : SwiftRolloutDeploy) :
    0 < deploy.numConnections := by
  rw [numConnections]
  split
  · exact Nat.one_pos
  · exact deploy.dataParallelSize_pos

/-- The request that a worker without requests gets. -/
def placeholderRequest : RolloutInferRequest where
  messages := [⟨.user, .text "<placeholder>"⟩]
  images := []
  audios := []
  videos := []
  tools := none
  objects := []
  dataDict := []
  uuid := none

/-- Put the outputs of the workers together. `None` is not iterable. -/
def chainFromIterable {α : Type} : List (Option (List α)) → Option (List α)
  | [] => some []
  | none :: _ => none
  | some outputs :: rest => (chainFromIterable rest).map (outputs ++ ·)

/-- What the workers give for their chunks. The number is the rank of the first one. -/
def SwiftRolloutDeploy.workerOutputs (deploy : SwiftRolloutDeploy)
    (chunkedInferRequests : List (List RolloutInferRequest)) (firstRank : ℕ) :
    List (Option (List RolloutOutput)) :=
  (chunkedInferRequests.zipIdx firstRank).map fun (requests, rank) =>
    deploy.worker rank (if requests.isEmpty then [placeholderRequest] else requests)

def dropPlaceholders (allOutputs : List (Option (List RolloutOutput)))
    (chunkedInferRequests : List (List RolloutInferRequest)) :
    List (Option (List RolloutOutput)) :=
  ((allOutputs.zip chunkedInferRequests).filter fun pair => !pair.2.isEmpty).map Prod.fst

/-- Answer a request of a client. -/
def SwiftRolloutDeploy.infer (deploy : SwiftRolloutDeploy)
    (inferRequests : List RolloutInferRequest) : Option (List RolloutOutput) :=
  let chunkedInferRequests := chunkList inferRequests deploy.numConnections
  let allOutputs := deploy.workerOutputs chunkedInferRequests 0
  chainFromIterable (dropPlaceholders allOutputs chunkedInferRequests)

/-! ## The client -/

/-- The exceptions a rollout raises. -/
inductive RolloutError where
  | valueError (message : String)
  | runtimeError (errors : List String)
  | assertionError
  | notImplementedError (message : String)
  | broadcastError
  | engineError
  deriving DecidableEq, Repr

/-- The client of the rollout servers. `connectionError` is the exception of a post to a
server that cannot be reached. -/
structure VLLMClient where
  servers : List SwiftRolloutDeploy
  servers_pos : 0 < servers.length
  connectionError : ℕ → Option String

def VLLMClient.processChunk (client : VLLMClient) (index : ℕ) (server : SwiftRolloutDeploy)
    (chunk : List RolloutInferRequest) : Except String (List RolloutOutput) :=
  match client.connectionError index with
  | some error => .error error
  | none =>
    match server.infer chunk with
    | some outputs => .ok outputs
    | none => .error s!"Server {index} failed: 500, Internal Server Error"

/-- Post the chunks to the servers. The number is the index of the first one. -/
def VLLMClient.processChunks (client : VLLMClient)
    (posts : List (SwiftRolloutDeploy × List RolloutInferRequest)) (first : ℕ) :
    List (Except String (List RolloutOutput)) :=
  (posts.zipIdx first).map fun ((server, chunk), index) => client.processChunk index server chunk

def errorsOf {ε α : Type} (results : List (Except ε α)) : List ε :=
  results.filterMap fun result =>
    match result with
    | .error error => some error
    | .ok _ => none

def outputsOf {ε α : Type} (results : List (Except ε α)) : List α :=
  results.filterMap fun result =>
    match result with
    | .error _ => none
    | .ok outputs => some outputs

/-- The starts of the chunks, `range(0, n, chunk_size)`. -/
def chunkStarts (n chunkSize : ℕ) : List ℕ :=
  (List.range ((n + chunkSize - 1) / chunkSize)).map (· * chunkSize)

def serverChunks (inferRequests : List RolloutInferRequest) (numServers chunkSize : ℕ) :
    List (List RolloutInferRequest) :=
  let chunks := (chunkStarts inferRequests.length chunkSize).map fun i =>
    slice inferRequests i (i + chunkSize)
  chunks ++ List.replicate (numServers - chunks.length) []

/-- Send the requests to the servers. -/
def VLLMClient.infer (client : VLLMClient) (inferRequests : List RolloutInferRequest) :
    Except RolloutError (List RolloutOutput) :=
  let n := inferRequests.length
  let numServers := client.servers.length
  let chunkSize := (n + numServers - 1) / numServers
  if chunkSize = 0 then
    .error (.valueError "range() arg 3 must not be zero")
  else
    let chunks := serverChunks inferRequests numServers chunkSize
    let results := client.processChunks (client.servers.zip chunks) 0
    match errorsOf results with
    | [] => .ok (outputsOf results).flatten
    | error :: errors => .error (.runtimeError (error :: errors))

/-! ## The trainer -/

/-- What an engine gives for a request. -/
inductive EngineOutput where
  | rolloutOutput (output : RolloutOutput)
  | chatCompletionResponse (response : ChatCompletionResponse)

def EngineOutput.isRolloutOutput : EngineOutput → Bool
  | .rolloutOutput _ => true
  | .chatCompletionResponse _ => false

def EngineOutput.toRolloutOutput : EngineOutput → RolloutOutput
  | .rolloutOutput output => output
  | .chatCompletionResponse response => {
      response := response
      messages := []
      responseTokenIds := []
      responseLossMask := []
      rolloutInfos := ∅
      rolloutLogprobs := [] }

inductive VllmMode where
  | server
  | colocate
  deriving DecidableEq, Repr

/-- The parts of a trainer that a rollout uses. In colocate mode the tensor parallel size
must divide the number of processes, and `engine` is the engine of a process. -/
structure RolloutTrainer where
  numProcesses : ℕ
  numProcesses_pos : 0 < numProcesses
  vllmMode : VllmMode
  enableServerMultiTurn : Bool
  paddingFree : Bool
  client : VLLMClient
  vllmTensorParallelSize : ℕ
  tensorParallelSize_dvd : vllmMode = .colocate → vllmTensorParallelSize ∣ numProcesses
  engine : ℕ → List RolloutInferRequest → Option (List EngineOutput)

/-- The requests of a rollout: those of each process, or one list that all processes
have. -/
inductive RolloutInputs where
  | processes (inputs : List (List RolloutInferRequest))
  | globalInputs (inputs : List RolloutInferRequest)

/-- What a rollout returns to each process, and the flag it leaves. -/
structure RolloutResult where
  outputs : List (List RolloutOutput)
  dynamicNumSamples : Bool

def toRolloutOutputs (res : List EngineOutput) : Except RolloutError (List RolloutOutput) :=
  if res.all (·.isRolloutOutput) || res.all (!·.isRolloutOutput) then
    .ok (res.map (·.toRolloutOutput))
  else
    .error .assertionError

/-- Run an engine of the trainer. The main process runs the client in server mode. -/
def RolloutTrainer.engineInfer (trainer : RolloutTrainer) (processIndex : ℕ)
    (inferRequests : List RolloutInferRequest) : Except RolloutError (List RolloutOutput) :=
  match trainer.vllmMode with
  | .server =>
    match trainer.client.infer inferRequests with
    | .error error => .error error
    | .ok outputs => toRolloutOutputs (outputs.map .rolloutOutput)
  | .colocate =>
    match trainer.engine processIndex inferRequests with
    | none => .error .engineError
    | some res => toRolloutOutputs res

def sortByRequestId (allOutputs : List RolloutOutput) : List RolloutOutput :=
  allOutputs.mergeSort fun first second => decide (first.response.id ≤ second.response.id)

def RolloutInputs.allRequests : RolloutInputs → List RolloutInferRequest
  | .processes inputs => gatherObject inputs
  | .globalInputs inputs => inputs

/-- The part of the outputs that a process cuts out. -/
def processSlice (allRequestsLengths : List ℕ) (processIndex : ℕ)
    (allOutputs : List RolloutOutput) : List RolloutOutput :=
  let startIdx := offset allRequestsLengths processIndex
  let endIdx := startIdx + allRequestsLengths.getD processIndex 0
  slice allOutputs startIdx endIdx

def RolloutTrainer.serverRollout (trainer : RolloutTrainer) (dynamicNumSamples : Bool)
    (inputs : RolloutInputs) : Except RolloutError RolloutResult :=
  let allRequests := inputs.allRequests
  if allRequests.isEmpty then
    .ok ⟨List.replicate trainer.numProcesses [], dynamicNumSamples⟩
  else
    match trainer.engineInfer 0 allRequests with
    | .error error => .error error
    | .ok outputs =>
      let mismatch := decide (outputs.length ≠ allRequests.length)
      let allOutputs := if mismatch then sortByRequestId outputs else outputs
      let dynamicNumSamples :=
        if trainer.enableServerMultiTurn then mismatch else dynamicNumSamples
      if trainer.enableServerMultiTurn && mismatch && trainer.paddingFree then
        .error (.notImplementedError "Padding free mode is not supported for dynamic sample")
      else
        match inputs with
        | .globalInputs _ =>
          .ok ⟨allOutputs :: List.replicate (trainer.numProcesses - 1) [], dynamicNumSamples⟩
        | .processes inputs =>
          if trainer.enableServerMultiTurn && mismatch then
            .ok ⟨(List.range trainer.numProcesses).map fun processIndex =>
              getEvenProcessData trainer.numProcesses processIndex allOutputs,
              dynamicNumSamples⟩
          else if mismatch && decide (trainer.numProcesses ≠ 1) then
            -- The other processes wait for as many outputs as there are requests.
            .error .broadcastError
          else
            .ok ⟨(List.range trainer.numProcesses).map fun processIndex =>
              processSlice (inputs.map List.length) processIndex allOutputs,
              dynamicNumSamples⟩

def RolloutTrainer.colocateRollout (trainer : RolloutTrainer)
    (inputs : List (List RolloutInferRequest)) (processIndex : ℕ) :
    Except RolloutError (List RolloutOutput) :=
  let size := trainer.vllmTensorParallelSize
  if 1 < size then
    let localRankInGroup := processIndex % size
    let group := slice inputs (processIndex / size * size) ((processIndex / size + 1) * size)
    match trainer.engineInfer processIndex (gatherObject group) with
    | .error error => .error error
    | .ok outputs => .ok (processSlice (group.map List.length) localRankInGroup outputs)
  else
    trainer.engineInfer processIndex (inputs.getD processIndex [])

def RolloutTrainer.rollout (trainer : RolloutTrainer) (dynamicNumSamples : Bool)
    (inputs : List (List RolloutInferRequest)) : Except RolloutError RolloutResult :=
  match trainer.vllmMode with
  | .server => trainer.serverRollout dynamicNumSamples (.processes inputs)
  | .colocate =>
    match (List.range trainer.numProcesses).mapM (trainer.colocateRollout inputs) with
    | .error error => .error error
    | .ok outputs => .ok ⟨outputs, dynamicNumSamples⟩

/-! ## Engines that give one output for each request -/

section Replies

variable (RepliesTo : RolloutInferRequest → RolloutOutput → Prop)

/-- Every worker gives one output for each request, in the order of the requests. -/
def SwiftRolloutDeploy.OneOutputEach (deploy : SwiftRolloutDeploy) : Prop :=
  ∀ rank < deploy.numConnections, ∀ requests, ∃ outputs,
    deploy.worker rank requests = some outputs ∧ List.Forall₂ RepliesTo requests outputs

/-- Every engine of the trainer gives one output for each request, in the order of the
requests, and outputs of one kind. -/
def RolloutTrainer.OneOutputEach (trainer : RolloutTrainer) : Prop :=
  match trainer.vllmMode with
  | .server => ∀ server ∈ trainer.client.servers, server.OneOutputEach RepliesTo
  | .colocate => ∀ processIndex < trainer.numProcesses, ∀ requests, ∃ res,
      trainer.engine processIndex requests = some res ∧
      (res.all (·.isRolloutOutput) || res.all (!·.isRolloutOutput)) = true ∧
      List.Forall₂ RepliesTo requests (res.map (·.toRolloutOutput))

/-- Every server of the trainer can be reached. -/
def RolloutTrainer.Reachable (trainer : RolloutTrainer) : Prop :=
  trainer.vllmMode = .server →
    ∀ index < trainer.client.servers.length, trainer.client.connectionError index = none

variable {RepliesTo}

/-! ## The server -/

/-- The outputs that are kept are the replies to the requests, chunk by chunk. -/
theorem SwiftRolloutDeploy.chain_workerOutputs {deploy : SwiftRolloutDeploy}
    (engines : deploy.OneOutputEach RepliesTo) (chunks : List (List RolloutInferRequest))
    (firstRank : ℕ) (inside : firstRank + chunks.length ≤ deploy.numConnections) :
    ∃ outputs,
      chainFromIterable (dropPlaceholders (deploy.workerOutputs chunks firstRank) chunks) =
        some outputs ∧
      List.Forall₂ RepliesTo chunks.flatten outputs := by
  induction chunks generalizing firstRank with
  | nil => exact ⟨[], rfl, .nil⟩
  | cons requests chunks ih =>
    rw [length_cons] at inside
    obtain ⟨rest, isRest, restReplies⟩ := ih (firstRank + 1) (by omega)
    cases requests with
    | nil => exact ⟨rest, isRest, restReplies⟩
    | cons request requests =>
      obtain ⟨outputs, isOutputs, replies⟩ :=
        engines firstRank (by omega) (request :: requests)
      refine ⟨outputs ++ rest, ?_, rel_append replies restReplies⟩
      calc chainFromIterable (dropPlaceholders
            (deploy.workerOutputs ((request :: requests) :: chunks) firstRank)
            ((request :: requests) :: chunks))
          = chainFromIterable (deploy.worker firstRank (request :: requests) ::
              dropPlaceholders (deploy.workerOutputs chunks (firstRank + 1)) chunks) := rfl
        _ = some (outputs ++ rest) := by
            rw [isOutputs, chainFromIterable, isRest, Option.map_some]

/-- A server returns the replies to the requests, in their order. -/
theorem SwiftRolloutDeploy.infer_replies {deploy : SwiftRolloutDeploy}
    (engines : deploy.OneOutputEach RepliesTo) (requests : List RolloutInferRequest) :
    ∃ outputs, deploy.infer requests = some outputs ∧ List.Forall₂ RepliesTo requests outputs := by
  have chunks := deploy.chain_workerOutputs engines (chunkList requests deploy.numConnections) 0
  rw [chunkList_eq, length_evenShares, Nat.zero_add,
    flatten_evenShares deploy.numConnections_pos] at chunks
  exact chunks (Nat.le_refl _)

/-! ## The client -/

variable {client : VLLMClient} {outputs : List RolloutOutput}

theorem VLLMClient.processChunk_replies {server : SwiftRolloutDeploy}
    (engines : server.OneOutputEach RepliesTo) {index : ℕ} {chunk : List RolloutInferRequest}
    (isOk : client.processChunk index server chunk = .ok outputs) :
    List.Forall₂ RepliesTo chunk outputs := by
  obtain ⟨replies, isReplies, related⟩ := server.infer_replies engines chunk
  rw [processChunk] at isOk
  cases connection : client.connectionError index with
  | some error =>
    rw [connection] at isOk
    cases isOk
  | none =>
    rw [connection, isReplies] at isOk
    cases isOk
    exact related

theorem VLLMClient.exists_processChunk {server : SwiftRolloutDeploy}
    (engines : server.OneOutputEach RepliesTo) {index : ℕ}
    (reachable : client.connectionError index = none) (chunk : List RolloutInferRequest) :
    ∃ outputs, client.processChunk index server chunk = .ok outputs := by
  obtain ⟨replies, isReplies, -⟩ := server.infer_replies engines chunk
  exact ⟨replies, by rw [processChunk, reachable, isReplies]⟩

/-- When no server fails, the outputs are the replies to the chunks. -/
theorem VLLMClient.processChunks_replies (client : VLLMClient)
    (posts : List (SwiftRolloutDeploy × List RolloutInferRequest))
    (engines : ∀ post ∈ posts, post.1.OneOutputEach RepliesTo) (first : ℕ)
    (noErrors : errorsOf (client.processChunks posts first) = []) :
    List.Forall₂ RepliesTo (posts.map Prod.snd).flatten
      (outputsOf (client.processChunks posts first)).flatten := by
  induction posts generalizing first with
  | nil => exact .nil
  | cons post posts ih =>
    have unfolded : client.processChunks (post :: posts) first =
        client.processChunk first post.1 post.2 :: client.processChunks posts (first + 1) := rfl
    rw [unfolded] at noErrors ⊢
    cases isResult : client.processChunk first post.1 post.2 with
    | error error =>
      rw [isResult] at noErrors
      cases noErrors
    | ok outputs =>
      rw [isResult] at noErrors
      have replies := processChunk_replies (engines post mem_cons_self) isResult
      have rest := ih (fun other isOther => engines other (mem_cons_of_mem _ isOther))
        (first + 1) noErrors
      exact rel_append replies rest

theorem VLLMClient.errorsOf_processChunks (client : VLLMClient)
    (posts : List (SwiftRolloutDeploy × List RolloutInferRequest))
    (engines : ∀ post ∈ posts, post.1.OneOutputEach RepliesTo) (first : ℕ)
    (reachable : ∀ index < first + posts.length, client.connectionError index = none) :
    errorsOf (client.processChunks posts first) = [] := by
  induction posts generalizing first with
  | nil => rfl
  | cons post posts ih =>
    rw [length_cons] at reachable
    obtain ⟨outputs, isOk⟩ := exists_processChunk (engines post mem_cons_self)
      (reachable first (by omega)) post.2
    have rest := ih (fun other isOther => engines other (mem_cons_of_mem _ isOther))
      (first + 1) (fun index inside => reachable index (by omega))
    calc errorsOf (client.processChunks (post :: posts) first)
        = errorsOf (client.processChunk first post.1 post.2 ::
            client.processChunks posts (first + 1)) := rfl
      _ = [] := by
        rw [isOk]
        exact rest

theorem serverChunks_spec (requests : List RolloutInferRequest) {numServers chunkSize : ℕ}
    (isChunkSize : chunkSize = (requests.length + numServers - 1) / numServers)
    (positive : 0 < chunkSize) (someServer : 0 < numServers) :
    (serverChunks requests numServers chunkSize).length = numServers ∧
      (serverChunks requests numServers chunkSize).flatten = requests := by
  have chunks : (chunkStarts requests.length chunkSize).map
        (fun i => slice requests i (i + chunkSize)) =
      cutAt (· * chunkSize) ((requests.length + chunkSize - 1) / chunkSize) requests := by
    rw [chunkStarts, map_map, cutAt]
    refine map_congr_left fun i _ => ?_
    rw [Function.comp_apply, Nat.succ_mul]
  have few : (requests.length + chunkSize - 1) / chunkSize ≤ numServers := by
    have covered := le_ceilDiv_mul requests.length someServer
    rw [← isChunkSize, Nat.mul_comm] at covered
    refine Nat.le_of_lt_succ ((Nat.div_lt_iff_lt_mul positive).mpr ?_)
    rw [Nat.succ_mul]
    omega
  rw [serverChunks, chunks, length_cutAt]
  constructor
  · rw [length_append, length_cutAt, length_replicate, Nat.add_sub_cancel' few]
  · rw [flatten_append, flatten_replicate_nil, append_nil]
    exact flatten_cutAt (fun _ _ before => Nat.mul_le_mul_right _ before) (Nat.zero_mul _)
      (le_ceilDiv_mul _ positive)

variable {requests : List RolloutInferRequest}

/-- A client that has requests posts chunks of them to all its servers. -/
theorem VLLMClient.infer_eq (client : VLLMClient) (someRequest : requests ≠ []) :
    ∃ chunks, chunks.length = client.servers.length ∧ chunks.flatten = requests ∧
      client.infer requests =
        match errorsOf (client.processChunks (client.servers.zip chunks) 0) with
        | [] => .ok (outputsOf (client.processChunks (client.servers.zip chunks) 0)).flatten
        | error :: errors => .error (.runtimeError (error :: errors)) := by
  have positive : 0 < (requests.length + client.servers.length - 1) / client.servers.length := by
    have some := length_pos_iff.mpr someRequest
    exact Nat.div_pos (by omega) client.servers_pos
  obtain ⟨lengths, parts⟩ := serverChunks_spec requests rfl positive client.servers_pos
  refine ⟨_, lengths, parts, ?_⟩
  rw [infer]
  dsimp only
  rw [if_neg (Nat.ne_of_gt positive)]

theorem VLLMClient.infer_replies
    (engines : ∀ server ∈ client.servers, server.OneOutputEach RepliesTo)
    (someRequest : requests ≠ []) (isOk : client.infer requests = .ok outputs) :
    List.Forall₂ RepliesTo requests outputs := by
  obtain ⟨chunks, lengths, parts, isInfer⟩ := client.infer_eq someRequest
  have replies := client.processChunks_replies (client.servers.zip chunks)
    (fun post isPost => engines post.1 (of_mem_zip isPost).1) 0
  rw [map_snd_zip (Nat.le_of_eq lengths), parts] at replies
  rw [isInfer] at isOk
  split at isOk
  · rename_i noErrors
    exact Except.ok.inj isOk ▸ replies noErrors
  · cases isOk

theorem VLLMClient.exists_infer
    (engines : ∀ server ∈ client.servers, server.OneOutputEach RepliesTo)
    (someRequest : requests ≠ [])
    (reachable : ∀ index < client.servers.length, client.connectionError index = none) :
    ∃ outputs, client.infer requests = .ok outputs := by
  obtain ⟨chunks, lengths, parts, isInfer⟩ := client.infer_eq someRequest
  have noErrors := client.errorsOf_processChunks (client.servers.zip chunks)
    (fun post isPost => engines post.1 (of_mem_zip isPost).1) 0
    (by rw [length_zip, lengths, Nat.min_self, Nat.zero_add]; exact reachable)
  rw [noErrors] at isInfer
  exact ⟨_, isInfer⟩

/-! ## The engines of a trainer -/

theorem toRolloutOutputs_map (outputs : List RolloutOutput) :
    toRolloutOutputs (outputs.map .rolloutOutput) = .ok outputs := by
  have rollouts : (outputs.map EngineOutput.rolloutOutput).all (·.isRolloutOutput) = true := by
    rw [all_map]
    exact all_eq_true.mpr fun _ _ => rfl
  rw [toRolloutOutputs, rollouts, Bool.true_or, if_pos rfl, map_map]
  exact congrArg Except.ok (map_id outputs)

variable {trainer : RolloutTrainer} {processIndex : ℕ}

theorem RolloutTrainer.engineInfer_replies (engines : trainer.OneOutputEach RepliesTo)
    (inside : processIndex < trainer.numProcesses)
    (someRequest : trainer.vllmMode = .server → requests ≠ [])
    (isOk : trainer.engineInfer processIndex requests = .ok outputs) :
    List.Forall₂ RepliesTo requests outputs := by
  rw [engineInfer] at isOk
  rw [OneOutputEach] at engines
  cases mode : trainer.vllmMode with
  | server =>
    rw [mode] at isOk engines
    cases isInfer : trainer.client.infer requests with
    | error error =>
      rw [isInfer] at isOk
      cases isOk
    | ok replies =>
      rw [isInfer] at isOk
      dsimp only at isOk
      rw [toRolloutOutputs_map] at isOk
      cases isOk
      exact VLLMClient.infer_replies engines (someRequest mode) isInfer
  | colocate =>
    rw [mode] at isOk engines
    obtain ⟨res, isRes, oneKind, replies⟩ := engines processIndex inside requests
    dsimp only at isOk
    rw [isRes] at isOk
    dsimp only at isOk
    rw [toRolloutOutputs, if_pos oneKind] at isOk
    cases isOk
    exact replies

theorem RolloutTrainer.exists_engineInfer (engines : trainer.OneOutputEach RepliesTo)
    (reachable : trainer.Reachable) (inside : processIndex < trainer.numProcesses)
    (someRequest : trainer.vllmMode = .server → requests ≠ []) :
    ∃ outputs, trainer.engineInfer processIndex requests = .ok outputs := by
  rw [OneOutputEach] at engines
  rw [engineInfer]
  cases mode : trainer.vllmMode with
  | server =>
    rw [mode] at engines
    obtain ⟨outputs, isInfer⟩ :=
      VLLMClient.exists_infer engines (someRequest mode) (reachable mode)
    exact ⟨outputs, by rw [isInfer]; exact toRolloutOutputs_map outputs⟩
  | colocate =>
    rw [mode] at engines
    obtain ⟨res, isRes, oneKind, -⟩ := engines processIndex inside requests
    exact ⟨_, by rw [isRes]; exact if_pos oneKind⟩

/-! ## The processes -/

variable {inputs : List (List RolloutInferRequest)}

theorem processSlice_replies {allOutputs : List RolloutOutput}
    (replies : List.Forall₂ RepliesTo (gatherObject inputs) allOutputs)
    (inside : processIndex < inputs.length) :
    List.Forall₂ RepliesTo inputs[processIndex]
      (processSlice (inputs.map List.length) processIndex allOutputs) := by
  have length : (inputs.map List.length).getD processIndex 0 = inputs[processIndex].length := by
    rw [getD_eq_getElem?_getD, getElem?_map, getElem?_eq_getElem inside]
    rfl
  have related := forall₂_slice replies (offset (inputs.map List.length) processIndex)
    (offset (inputs.map List.length) processIndex + inputs[processIndex].length)
  rw [gatherObject, slice_offset inputs inside] at related
  rw [processSlice, length]
  exact related

theorem map_processSlice_replies {allOutputs : List RolloutOutput}
    (replies : List.Forall₂ RepliesTo (gatherObject inputs) allOutputs) :
    List.Forall₂ (List.Forall₂ RepliesTo) inputs ((List.range inputs.length).map
      fun processIndex => processSlice (inputs.map List.length) processIndex allOutputs) := by
  refine forall₂_of_length_eq_of_get (by rw [length_map, length_range]) ?_
  intro processIndex inside inside'
  rw [get_eq_getElem, get_eq_getElem, getElem_map, getElem_range]
  exact processSlice_replies replies inside

/-! ## Server mode -/

theorem RolloutTrainer.serverRollout_nil (trainer : RolloutTrainer) (dynamicNumSamples : Bool)
    {inputs : RolloutInputs} (noRequest : inputs.allRequests = []) :
    trainer.serverRollout dynamicNumSamples inputs =
      .ok ⟨List.replicate trainer.numProcesses [], dynamicNumSamples⟩ := by
  rw [serverRollout, noRequest]
  exact if_pos rfl

/-- What each process takes of as many outputs as there are requests. -/
def RolloutInputs.share (numProcesses : ℕ) (allOutputs : List RolloutOutput) :
    RolloutInputs → List (List RolloutOutput)
  | .globalInputs _ => allOutputs :: List.replicate (numProcesses - 1) []
  | .processes inputs => (List.range numProcesses).map fun processIndex =>
    processSlice (inputs.map List.length) processIndex allOutputs

variable {dynamicNumSamples : Bool}

/-- With as many outputs as requests the rollout shares them. -/
theorem RolloutTrainer.serverRollout_share {inputs : RolloutInputs}
    (someRequest : inputs.allRequests ≠ [])
    (isOutputs : trainer.engineInfer 0 inputs.allRequests = .ok outputs)
    (same : outputs.length = inputs.allRequests.length) :
    trainer.serverRollout dynamicNumSamples inputs =
      .ok ⟨inputs.share trainer.numProcesses outputs,
        if trainer.enableServerMultiTurn then false else dynamicNumSamples⟩ := by
  have some : inputs.allRequests.isEmpty = false :=
    Bool.eq_false_iff.mpr fun isEmpty => someRequest (List.isEmpty_iff.mp isEmpty)
  have matched : decide (outputs.length ≠ inputs.allRequests.length) = false :=
    decide_eq_false (not_not_intro same)
  rw [serverRollout]
  simp only [some, isOutputs, matched, Bool.and_false, Bool.false_and, Bool.false_eq_true, if_false]
  cases inputs <;> rfl

theorem RolloutTrainer.serverRollout_error {inputs : RolloutInputs}
    (someRequest : inputs.allRequests ≠ []) {error : RolloutError}
    (isError : trainer.engineInfer 0 inputs.allRequests = .error error) :
    trainer.serverRollout dynamicNumSamples inputs = .error error := by
  have some : inputs.allRequests.isEmpty = false :=
    Bool.eq_false_iff.mpr fun isEmpty => someRequest (List.isEmpty_iff.mp isEmpty)
  rw [serverRollout]
  simp only [some, isError, Bool.false_eq_true, if_false]

theorem RolloutTrainer.serverRollout_replies (engines : trainer.OneOutputEach RepliesTo)
    {inputs : RolloutInputs} (someRequest : inputs.allRequests ≠ []) {result : RolloutResult}
    (isOk : trainer.serverRollout dynamicNumSamples inputs = .ok result) :
    ∃ outputs, List.Forall₂ RepliesTo inputs.allRequests outputs ∧
      result.outputs = inputs.share trainer.numProcesses outputs := by
  cases isInfer : trainer.engineInfer 0 inputs.allRequests with
  | error error =>
    rw [serverRollout_error someRequest isInfer] at isOk
    cases isOk
  | ok outputs =>
    have replies :=
      engineInfer_replies engines trainer.numProcesses_pos (fun _ => someRequest) isInfer
    rw [serverRollout_share someRequest isInfer replies.length_eq.symm] at isOk
    exact ⟨outputs, replies, (congrArg RolloutResult.outputs (Except.ok.inj isOk)).symm⟩

theorem RolloutTrainer.exists_serverRollout (engines : trainer.OneOutputEach RepliesTo)
    (reachable : trainer.Reachable) (dynamicNumSamples : Bool) (inputs : RolloutInputs) :
    ∃ result, trainer.serverRollout dynamicNumSamples inputs = .ok result := by
  by_cases noRequest : inputs.allRequests = []
  · exact ⟨_, trainer.serverRollout_nil dynamicNumSamples noRequest⟩
  · obtain ⟨outputs, isInfer⟩ :=
      exists_engineInfer engines reachable trainer.numProcesses_pos fun _ => noRequest
    have replies :=
      engineInfer_replies engines trainer.numProcesses_pos (fun _ => noRequest) isInfer
    exact ⟨_, serverRollout_share noRequest isInfer replies.length_eq.symm⟩

/-- Processes without requests get nothing. -/
theorem forall₂_replicate_nil (noRequest : gatherObject inputs = []) :
    List.Forall₂ (List.Forall₂ RepliesTo) inputs (List.replicate inputs.length []) := by
  induction inputs with
  | nil => exact .nil
  | cons requests inputs ih =>
    obtain ⟨noOwn, noOther⟩ := append_eq_nil_iff.mp noRequest
    rw [noOwn]
    exact .cons .nil (ih noOther)

/-- In server mode every process gets the replies to its own requests. -/
theorem RolloutTrainer.serverRollout_processes_replies (engines : trainer.OneOutputEach RepliesTo)
    (count : inputs.length = trainer.numProcesses) {result : RolloutResult}
    (isOk : trainer.serverRollout dynamicNumSamples (.processes inputs) = .ok result) :
    List.Forall₂ (List.Forall₂ RepliesTo) inputs result.outputs := by
  by_cases noRequest : (RolloutInputs.processes inputs).allRequests = []
  · rw [serverRollout_nil trainer dynamicNumSamples noRequest, ← count] at isOk
    cases isOk
    exact forall₂_replicate_nil noRequest
  · obtain ⟨outputs, replies, isShare⟩ := serverRollout_replies engines noRequest isOk
    rw [isShare, RolloutInputs.share, ← count]
    exact map_processSlice_replies replies

/-! ## Colocate mode -/

theorem group_getElem? {α : Type} (processes : List α) (processIndex : ℕ) {size : ℕ}
    (parallel : 0 < size) :
    (slice processes (processIndex / size * size)
      ((processIndex / size + 1) * size))[processIndex % size]? = processes[processIndex]? := by
  have place : processIndex / size * size + processIndex % size = processIndex :=
    Nat.div_add_mod' processIndex size
  have inGroup : processIndex < (processIndex / size + 1) * size := by
    have below := Nat.mod_lt processIndex parallel
    rw [Nat.succ_mul]
    omega
  rw [slice, getElem?_drop, place, getElem?_take_of_lt inGroup]

theorem RolloutTrainer.colocateRollout_replies (mode : trainer.vllmMode = .colocate)
    (engines : trainer.OneOutputEach RepliesTo) (count : inputs.length = trainer.numProcesses)
    (inside : processIndex < inputs.length)
    (isOk : trainer.colocateRollout inputs processIndex = .ok outputs) :
    List.Forall₂ RepliesTo inputs[processIndex] outputs := by
  have notServer : ∀ requests : List RolloutInferRequest,
      trainer.vllmMode = .server → requests ≠ [] := by
    intro requests isServer
    rw [mode] at isServer
    cases isServer
  rw [colocateRollout] at isOk
  dsimp only at isOk
  split at isOk
  · rename_i several
    have own := group_getElem? inputs processIndex (Nat.zero_lt_of_lt several)
    rw [getElem?_eq_getElem inside] at own
    obtain ⟨inGroup, isOwn⟩ := List.getElem?_eq_some_iff.mp own
    split at isOk
    · cases isOk
    · rename_i groupOutputs isInfer
      cases isOk
      have replies := engineInfer_replies engines (count ▸ inside) (notServer _) isInfer
      rw [← isOwn]
      exact processSlice_replies replies inGroup
  · rw [getD_eq_getElem?_getD, getElem?_eq_getElem inside, Option.getD_some] at isOk
    exact engineInfer_replies engines (count ▸ inside) (notServer _) isOk

theorem RolloutTrainer.exists_colocateRollout (mode : trainer.vllmMode = .colocate)
    (engines : trainer.OneOutputEach RepliesTo) (inputs : List (List RolloutInferRequest))
    (inside : processIndex < trainer.numProcesses) :
    ∃ outputs, trainer.colocateRollout inputs processIndex = .ok outputs := by
  have notServer : ¬trainer.vllmMode = .server := by
    rw [mode]
    exact nofun
  have runs : ∀ requests, ∃ outputs, trainer.engineInfer processIndex requests = .ok outputs :=
    fun requests => exists_engineInfer engines (fun isServer => absurd isServer notServer) inside
      fun isServer => absurd isServer notServer
  rw [colocateRollout]
  dsimp only
  split
  · obtain ⟨outputs, isInfer⟩ := runs (gatherObject (slice inputs
      (processIndex / trainer.vllmTensorParallelSize * trainer.vllmTensorParallelSize)
      ((processIndex / trainer.vllmTensorParallelSize + 1) * trainer.vllmTensorParallelSize)))
    rw [isInfer]
    exact ⟨_, rfl⟩
  · exact runs _

/-! ## The rollout -/

/-- **Every process gets exactly the replies to its own requests, in their order**, in
server mode and in colocate mode. The rollout returns when every server can be
reached. -/
theorem RolloutTrainer.rollout_returns_own_replies {trainer : RolloutTrainer}
    (engines : trainer.OneOutputEach RepliesTo) {inputs : List (List RolloutInferRequest)}
    (count : inputs.length = trainer.numProcesses) (dynamicNumSamples : Bool) :
    (trainer.Reachable → ∃ result, trainer.rollout dynamicNumSamples inputs = .ok result) ∧
      ∀ result, trainer.rollout dynamicNumSamples inputs = .ok result →
        List.Forall₂ (List.Forall₂ RepliesTo) inputs result.outputs := by
  rw [rollout]
  cases mode : trainer.vllmMode with
  | server =>
    constructor
    · intro reachable
      exact exists_serverRollout engines reachable dynamicNumSamples (.processes inputs)
    · intro result isOk
      exact serverRollout_processes_replies engines count isOk
  | colocate =>
    dsimp only
    constructor
    · intro _
      have runs : ∃ outputs,
          (List.range trainer.numProcesses).mapM (trainer.colocateRollout inputs) =
            .ok outputs :=
        exists_mapM_eq_ok fun processIndex isProcess =>
          exists_colocateRollout mode engines inputs (mem_range.mp isProcess)
      obtain ⟨outputs, isOk⟩ := runs
      rw [isOk]
      exact ⟨_, rfl⟩
    · intro result isOk
      split at isOk
      · cases isOk
      · rename_i outputs isOutputs
        cases isOk
        have each := mapM_eq_ok_iff.mp isOutputs
        refine forall₂_of_length_eq_of_get ?_ fun processIndex inside inside' => ?_
        · rw [count, ← each.length_eq, length_range]
        · have own := each.get (by rw [length_range, ← count]; exact inside) inside'
          rw [get_eq_getElem, getElem_range, get_eq_getElem] at own
          exact colocateRollout_replies mode engines count inside own

def echo (request : RolloutInferRequest) : RolloutOutput where
  response := ⟨"", ⟨"", none, none, none⟩⟩
  messages := request.messages
  responseTokenIds := []
  responseLossMask := []
  rolloutInfos := ∅
  rolloutLogprobs := []

/-- A server whose workers repeat the messages of their requests. -/
def echoServer (vllmDataParallelSize : ℕ) (positive : 0 < vllmDataParallelSize) :
    SwiftRolloutDeploy where
  useAsyncEngine := false
  vllmDataParallelSize := vllmDataParallelSize
  dataParallelSize_pos := positive
  worker _ requests := some (requests.map echo)

/-- Three processes and two servers, with two workers and with one. -/
def echoTrainer : RolloutTrainer where
  numProcesses := 3
  numProcesses_pos := by decide
  vllmMode := .server
  enableServerMultiTurn := true
  paddingFree := false
  client := {
    servers := [echoServer 2 Nat.two_pos, echoServer 1 Nat.one_pos]
    servers_pos := by decide
    connectionError := fun _ => none }
  vllmTensorParallelSize := 1
  tensorParallelSize_dvd := fun _ => Nat.one_dvd 3
  engine _ _ := none

def userRequest (content : String) : RolloutInferRequest :=
  { placeholderRequest with messages := [⟨.user, .text content⟩] }

theorem echoServer_oneOutputEach (size : ℕ) (positive : 0 < size) :
    (echoServer size positive).OneOutputEach fun request output =>
      output.messages = request.messages := by
  intro rank _ requests
  refine ⟨_, rfl, forall₂_map_right_iff.mpr (forall₂_same.mpr fun request _ => ?_)⟩
  rfl

/-- Processes with two requests, none and one get the replies to their own. -/
theorem RolloutTrainer.echoes_return_to_their_processes :
    ∃ result, echoTrainer.rollout false
        [[userRequest "first", userRequest "second"], [], [userRequest "third"]] = .ok result ∧
      List.Forall₂ (List.Forall₂ fun request output => output.messages = request.messages)
        [[userRequest "first", userRequest "second"], [], [userRequest "third"]]
        result.outputs := by
  have engines : echoTrainer.OneOutputEach fun request output =>
      output.messages = request.messages := by
    intro server isServer
    rcases mem_pair.mp isServer with rfl | rfl
    · exact echoServer_oneOutputEach 2 _
    · exact echoServer_oneOutputEach 1 _
  obtain ⟨returns, replies⟩ := @RolloutTrainer.rollout_returns_own_replies _ echoTrainer engines
    [[userRequest "first", userRequest "second"], [], [userRequest "third"]] rfl false
  obtain ⟨result, isOk⟩ := returns fun _ _ _ => rfl
  exact ⟨result, isOk, replies result isOk⟩

end Replies

end Geobench.Trainers
