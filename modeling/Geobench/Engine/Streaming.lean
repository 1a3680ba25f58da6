import Geobench.Engine.Generation
import Geobench.Library.Channels

/-!
# Streams of a batch

The worker puts the lists of a stream on the queues of the requests, entry by entry, and
then `none` on every queue. A consumer yields what it takes from its queue and ends at the
first `none`. But `none` is also the entry of a row without new text, and no row is
finished before the last pass (`rowPasses_spec`).

So the streams of a batch are served exactly when the rows print evenly: in every pass
before the last, all rows have new printable text or none has
(`streams_served_iff`). A row that has ended, or that holds its text back for a while,
ends its consumer early when another row goes on (`idle_row_ends_consumer`).
-/

namespace Geobench.Engine

open Library List

/-! ## The worker -/

/-- What the worker puts on the queues of a stream. -/
def streamSends {ι α : Type} (queueList : List ι) (yields : List (List (Option α))) :
    List (ι × Option α) :=
  (yields ++ [List.replicate queueList.length none]).flatMap fun resList =>
    queueList.zip resList

section Sends

variable {ι α : Type} [DecidableEq ι]

variable {queueList : List ι} {queue : ι}

theorem sentOn_zip (distinct : queueList.Nodup) {position : ℕ}
    (isQueue : queueList[position]? = some queue) {resList : List (Option α)} {item : Option α}
    (isItem : resList[position]? = some item) :
    Channels.sentOn queue (queueList.zip resList) = [item] := by
  induction queueList generalizing position resList with
  | nil => cases isQueue
  | cons first rest ih =>
    cases resList with
    | nil => cases isItem
    | cons firstItem items =>
      obtain ⟨fresh, distinctRest⟩ := nodup_cons.mp distinct
      cases position with
      | zero =>
        cases isQueue
        cases isItem
        rw [zip_cons_cons, Channels.sentOn_cons_self]
        refine congrArg (item :: ·) (Channels.sentOn_eq_nil ?_)
        intro member
        obtain ⟨⟨other, otherItem⟩, inZip, rfl⟩ := mem_map.mp member
        exact fresh (of_mem_zip inZip).1
      | succ position =>
        have different : first ≠ queue := by
          rintro rfl
          exact fresh (mem_of_getElem? isQueue)
        rw [zip_cons_cons, Channels.sentOn_cons_ne different]
        exact ih distinctRest isQueue isItem

/-- A queue gets the entries at its position, and then the end marker. -/
theorem sentOn_streamSends (distinct : queueList.Nodup) {position : ℕ}
    (isQueue : queueList[position]? = some queue) {yields : List (List (Option α))}
    {column : List (Option α)} (isColumn : yields.map (·[position]?) = column.map some) :
    Channels.sentOn queue (streamSends queueList yields) = column ++ [none] := by
  have marker : Channels.sentOn queue
      (queueList.zip (replicate queueList.length (none : Option α))) = [none] := by
    apply sentOn_zip distinct isQueue
    have inside := (List.getElem?_eq_some_iff.mp isQueue).1
    rw [getElem?_replicate, if_pos inside]
  induction yields generalizing column with
  | nil =>
    rw [map_nil] at isColumn
    rw [map_eq_nil_iff.mp isColumn.symm]
    simpa [streamSends] using marker
  | cons res rest ih =>
    cases column with
    | nil => cases isColumn
    | cons item items =>
      rw [map_cons, map_cons, List.cons.injEq] at isColumn
      rw [streamSends, cons_append, flatMap_cons, Channels.sentOn_append,
        sentOn_zip distinct isQueue isColumn.1]
      exact congrArg (item :: ·) (ih isColumn.2)

omit [DecidableEq ι] in
/-- The worker puts only on the queues of the stream. -/
theorem mem_streamSends {yields : List (List (Option α))}
    (member : queue ∈ (streamSends queueList yields).map Prod.fst) : queue ∈ queueList := by
  obtain ⟨⟨queue, item⟩, isSend, rfl⟩ := mem_map.mp member
  obtain ⟨resList, -, inZip⟩ := mem_flatMap.mp isSend
  exact (of_mem_zip inZip).1

end Sends

/-! ## The passes of a row -/

namespace TransformersEngine

section Rows

variable {Request Encoded Error : Type} (engine : TransformersEngine Request Encoded Error)
  (settings : GenerateKwargs Encoded)

/-- What the passes of a stream give for one row, by the tokens put for it. -/
def rowPasses (requestId : Text) :
    List (List ℕ) → StreamRow → List (Option ChatCompletionStreamResponse)
  | [], row => [(engine.inferRow settings requestId true [] row).2]
  | tokens :: puts, row =>
    (engine.inferRow settings requestId false tokens row).2 ::
      rowPasses requestId puts (engine.inferRow settings requestId false tokens row).1

def printedTexts : List (List ℕ) → List ℕ → InferStreamer → List Text
  | [], _, _ => []
  | tokens :: puts, rawIds, streamer =>
    let printed := engine.getPrintableText streamer
      (engine.maskedIds settings.inputs (rawIds ++ tokens)) false
    printed.1 :: printedTexts puts (rawIds ++ tokens) printed.2

/-- Every pass gives each row what its own run gives it. -/
theorem streamPasses_row (requestIds : ℕ → Text) {n : ℕ} (puts : List (Fin n → List ℕ))
    (rows : Fin n → StreamRow) (i : Fin n) :
    (engine.streamPasses settings requestIds puts rows).map (· i) =
      engine.rowPasses settings (requestIds i) (puts.map (· i)) (rows i) := by
  induction puts generalizing rows with
  | nil => rfl
  | cons tokens puts ih => exact congrArg (_ :: ·) (ih _)

variable {engine settings} {requestId : Text} {row : StreamRow}

variable (going : row.isFinished = false)
include going

/-- A pass before the last leaves a row unfinished. It gives a chunk, without a finish
reason, when the row has new printable text. -/
theorem inferRow_going (tokens : List ℕ) :
    (engine.inferRow settings requestId false tokens row).1 =
        ⟨row.rawIds ++ tokens, false, (engine.getPrintableText row.streamer
          (engine.maskedIds settings.inputs (row.rawIds ++ tokens)) false).2⟩ ∧
      (engine.inferRow settings requestId false tokens row).2.isNone =
        (engine.getPrintableText row.streamer
          (engine.maskedIds settings.inputs (row.rawIds ++ tokens)) false).1.isEmpty ∧
      ∀ chunk, (engine.inferRow settings requestId false tokens row).2 = some chunk →
        chunk.finishReason = none := by
  have noPadding : (engine.maskedIds settings.inputs (row.rawIds ++ tokens)).getLast? ≠
      some engine.padTokenId := by
    intro isLast
    have member := mem_of_getLast? isLast
    rw [maskedIds, mem_filter] at member
    exact of_decide_eq_true member.2 rfl
  have unfinished : (false || (engine.maskedIds settings.inputs
      (row.rawIds ++ tokens)).getLast? == some engine.padTokenId) = false := by
    rw [Bool.false_or]
    exact beq_eq_false_iff_ne.mpr noPadding
  rw [inferRow]
  simp only [going, unfinished]
  generalize engine.getPrintableText row.streamer
    (engine.maskedIds settings.inputs (row.rawIds ++ tokens)) false = printed
  obtain ⟨deltaText, streamer⟩ := printed
  cases deltaText with
  | nil => exact ⟨rfl, rfl, nofun⟩
  | cons char deltaText =>
    refine ⟨rfl, rfl, ?_⟩
    intro chunk isChunk
    cases isChunk
    rfl

/-- The last pass gives every row a chunk with a finish reason. -/
theorem inferRow_last :
    ∃ chunk, (engine.inferRow settings requestId true [] row).2 = some chunk ∧
      chunk.finishReason ≠ none := by
  rw [inferRow]
  simp only [going, Bool.true_or, Bool.not_true, Bool.and_false]
  exact ⟨_, rfl, nofun⟩

/-- No row is finished before the last pass: the passes of a row give chunks without a
finish reason where it prints, nothing where it does not, and at last a chunk with a
finish reason. -/
theorem rowPasses_spec (puts : List (List ℕ)) :
    ∃ before last, engine.rowPasses settings requestId puts row = before ++ [some last] ∧
      last.finishReason ≠ none ∧ (∀ chunk, some chunk ∈ before → chunk.finishReason = none) ∧
      before.map Option.isNone =
        (engine.printedTexts settings puts row.rawIds row.streamer).map List.isEmpty := by
  induction puts generalizing row with
  | nil =>
    obtain ⟨last, isLast, finished⟩ :=
      @inferRow_last _ _ _ engine settings requestId row going
    exact ⟨[], last, congrArg (fun entry => [entry]) isLast, finished, nofun, rfl⟩
  | cons tokens puts ih =>
    obtain ⟨next, idle, unfinished⟩ :=
      @inferRow_going _ _ _ engine settings requestId row going tokens
    have goingNext :
        (engine.inferRow settings requestId false tokens row).1.isFinished = false := by
      rw [next]
    obtain ⟨before, last, passes, finished, unfinishedBefore, idleBefore⟩ := ih goingNext
    refine ⟨_ :: before, last, congrArg (_ :: ·) passes, finished, ?_, ?_⟩
    · intro chunk member
      rcases mem_cons.mp member with first | later
      · exact unfinished chunk first.symm
      · exact unfinishedBefore chunk later
    · rw [map_cons, idle, idleBefore, next]
      rfl

/-- A pass gives a row nothing exactly when the row prints nothing there. -/
theorem rowPasses_none_iff (puts : List (List ℕ)) (k : ℕ) :
    (engine.rowPasses settings requestId puts row)[k]? = some none ↔
      (engine.printedTexts settings puts row.rawIds row.streamer)[k]? = some [] := by
  obtain ⟨before, last, passes, -, -, idle⟩ :=
    @rowPasses_spec _ _ _ engine settings requestId row going puts
  have isNone : (before ++ [some last])[k]? = some none ↔
      (before.map Option.isNone)[k]? = some true := by
    rcases Nat.lt_or_ge k before.length with inside | outside
    · rw [getElem?_append_left inside]
      simp
    · have noText : (before.map Option.isNone)[k]? = none :=
        getElem?_eq_none (by rw [length_map]; exact outside)
      rw [noText, getElem?_append_right outside]
      simp [getElem?_singleton]
  rw [passes, isNone, idle]
  simp

end Rows

/-! ## The streams of a batch -/

section Batch

variable {Request Encoded Error : Type} (engine : TransformersEngine Request Encoded Error)

def rowPuts (puts : (ℕ → List ℕ) × List (ℕ → List ℕ)) (row : ℕ) : List (List ℕ) :=
  (puts.1 :: puts.2).map (· row)

/-- The chunks generated for a row. -/
def ownChunks (settings : GenerateKwargs Encoded) (requestIds : ℕ → Text)
    (puts : (ℕ → List ℕ) × List (ℕ → List ℕ)) (row : ℕ) :
    List ChatCompletionStreamResponse :=
  (engine.rowPasses settings (requestIds row) (rowPuts puts row) .new).filterMap id

/-- The rows print evenly: where one prints nothing, none prints. -/
def PrintsEvenly (settings : GenerateKwargs Encoded)
    (puts : (ℕ → List ℕ) × List (ℕ → List ℕ)) : Prop :=
  ∀ k : ℕ, ∀ i < settings.inputs.length, ∀ j < settings.inputs.length,
    (engine.printedTexts settings (rowPuts puts i) [] .new)[k]? = some [] →
      (engine.printedTexts settings (rowPuts puts j) [] .new)[k]? = some []

/-- Chunks that end with their only finish reason. -/
def Complete (chunks : List ChatCompletionStreamResponse) : Prop :=
  ∃ before last, chunks = before ++ [last] ∧ last.finishReason ≠ none ∧
    ∀ chunk ∈ before, chunk.finishReason = none

/-- A consumer received nothing but its chunks, in their order; all of them, up to the
finish reason, when it has ended; and it has ended when nothing more happens. -/
def ConsumerServed {ι : Type} (chunks : List ChatCompletionStreamResponse)
    (channels : Channels ι (Reply Error)) [DecidableEq ι] (queue : ι) : Prop :=
  channels.received queue <+: chunks.map .chunk ∧
    (channels.ended queue = true →
      channels.received queue = chunks.map .chunk ∧ Complete chunks) ∧
    ((∀ next, ¬ Channels.Step channels next) → channels.ended queue = true)

/-- Whatever the interleaving of the worker and the consumers, every request that was
encoded is served. -/
def StreamsServed (call : ℕ) (pool : AdaptersPool) (inferRequests : List Request)
    (kwargs : InferKwargs Encoded) (yields : List (List (Option (Reply Error)))) : Prop :=
  ∀ channels : Channels ℕ (Reply Error),
    Channels.Steps (.start (streamSends (List.range inferRequests.length) yields)) channels →
      ∀ position input, (inferRequests.map engine.encode)[position]? = some (.ok input) →
        ConsumerServed (engine.ownChunks (engine.callSettings inferRequests kwargs)
          (engine.requestIds call) (engine.callPuts call pool inferRequests kwargs)
          (rowOf (inferRequests.map engine.encode) position)) channels position

/-! ### What a queue gets -/

section Column

variable {engine} {settings : GenerateKwargs Encoded} {requestIds : ℕ → Text}
  {puts : (ℕ → List ℕ) × List (ℕ → List ℕ)}

def batchPasses (engine : TransformersEngine Request Encoded Error)
    (settings : GenerateKwargs Encoded) (requestIds : ℕ → Text)
    (puts : (ℕ → List ℕ) × List (ℕ → List ℕ)) :
    List (Fin settings.inputs.length → Option ChatCompletionStreamResponse) :=
  engine.streamPasses settings requestIds (batchPuts puts) fun _ => .new

def keptPasses (engine : TransformersEngine Request Encoded Error)
    (settings : GenerateKwargs Encoded) (requestIds : ℕ → Text)
    (puts : (ℕ → List ℕ) × List (ℕ → List ℕ)) :
    List (Fin settings.inputs.length → Option ChatCompletionStreamResponse) :=
  (engine.batchPasses settings requestIds puts).filter fun pass =>
    (List.ofFn pass).any Option.isSome

theorem mem_keptPasses
    {pass : Fin settings.inputs.length → Option ChatCompletionStreamResponse} :
    pass ∈ engine.keptPasses settings requestIds puts ↔
      pass ∈ engine.batchPasses settings requestIds puts ∧ ∃ i, pass i ≠ none := by
  rw [keptPasses, mem_filter, any_eq_true]
  simp only [mem_ofFn, exists_exists_eq_and, Option.isSome_iff_ne_none]

variable (i : Fin settings.inputs.length)

theorem batchPasses_row :
    (engine.batchPasses settings requestIds puts).map (· i) =
      engine.rowPasses settings (requestIds i) (rowPuts puts i) .new := by
  rw [batchPasses, streamPasses_row, batchPuts, map_map]
  rfl

/-- A pass of the stream is idle at a row exactly when the row prints nothing there. -/
theorem idle_iff (requestIds : ℕ → Text) (k : ℕ) (i : Fin settings.inputs.length) :
    (∃ pass, (engine.batchPasses settings requestIds puts)[k]? = some pass ∧ pass i = none) ↔
      (engine.printedTexts settings (rowPuts puts i) [] .new)[k]? = some [] := by
  have row := @rowPasses_none_iff _ _ _ engine settings (requestIds i) .new rfl (rowPuts puts i) k
  rw [← batchPasses_row, getElem?_map, Option.map_eq_some_iff] at row
  exact row

theorem keptPasses_row :
    ((engine.keptPasses settings requestIds puts).map (· i)).filterMap id =
        engine.ownChunks settings requestIds puts i ∧
      ∃ before last, (engine.keptPasses settings requestIds puts).map (· i) =
        before ++ [some last] := by
  obtain ⟨before, last, rowEq, -⟩ :=
    @rowPasses_spec _ _ _ engine settings (requestIds i) .new rfl (rowPuts puts i)
  have passes := (batchPasses_row i).trans rowEq
  constructor
  · rw [ownChunks, ← batchPasses_row, filterMap_map, filterMap_map, keptPasses, filterMap_filter]
    refine filterMap_congr ?_
    intro pass member
    split
    · rfl
    · rename_i dropped
      rw [any_eq_true, not_exists] at dropped
      have idle : ¬ ((pass i).isSome = true) := fun isChunk =>
        dropped (pass i) ⟨mem_ofFn.mpr ⟨i, rfl⟩, isChunk⟩
      exact (Option.not_isSome_iff_eq_none.mp idle).symm
  · obtain ⟨passesBefore, final, isSplit, -, isFinal⟩ := map_eq_append_iff.mp passes
    obtain ⟨finalPass, rest, rfl, isLast, noRest⟩ := map_eq_cons_iff.mp isFinal
    cases map_eq_nil_iff.mp noRest
    have kept : (List.ofFn finalPass).any Option.isSome = true := by
      rw [any_eq_true]
      exact ⟨_, mem_ofFn.mpr ⟨i, rfl⟩, congrArg Option.isSome isLast⟩
    refine ⟨(passesBefore.filter fun pass => (List.ofFn pass).any Option.isSome).map (· i),
      last, ?_⟩
    have keptLast : [finalPass].filter (fun pass => (List.ofFn pass).any Option.isSome) =
        [finalPass] := filter_cons_of_pos kept
    rw [keptPasses, isSplit, filter_append, keptLast, map_append, map_cons, isLast]
    rfl

/-- The chunks of a row end with their only finish reason. -/
theorem complete_ownChunks (row : ℕ) :
    Complete (engine.ownChunks settings requestIds puts row) := by
  obtain ⟨before, last, rowEq, finished, unfinished, -⟩ :=
    @rowPasses_spec _ _ _ engine settings (requestIds row) .new rfl (rowPuts puts row)
  refine ⟨before.filterMap id, last, ?_, finished, ?_⟩
  · rw [ownChunks, rowEq, filterMap_append]
    rfl
  · intro chunk member
    obtain ⟨entry, isEntry, rfl⟩ := mem_filterMap.mp member
    exact unfinished chunk isEntry

/-- A consumer is served exactly when its row is idle in no pass that is kept. -/
theorem consumer_served_iff {ι : Type} [DecidableEq ι] {sends : List (ι × Option (Reply Error))}
    {queue : ι}
    (isSent : Channels.sentOn queue sends =
      (engine.keptPasses settings requestIds puts).map (fun pass => (pass i).map Reply.chunk) ++
        [none]) :
    (∀ channels, Channels.Steps (.start sends) channels →
        ConsumerServed (engine.ownChunks settings requestIds puts i) channels queue) ↔
      ∀ pass ∈ engine.keptPasses settings requestIds puts, pass i ≠ none := by
  obtain ⟨isOwn, before, last, column⟩ :=
    @keptPasses_row _ _ _ engine settings requestIds puts i
  -- the entries put on the queue, as replies
  have entries : (engine.keptPasses settings requestIds puts).map
      (fun pass => (pass i).map (@Reply.chunk Error)) =
        before.map (Option.map .chunk) ++ [some (Reply.chunk last)] := by
    have mapped := congrArg (map (Option.map (@Reply.chunk Error))) column
    rw [map_map, map_append] at mapped
    exact mapped
  have ownReplies : (before.map (Option.map (@Reply.chunk Error)) ++
      [some (Reply.chunk last)]).filterMap id =
        (engine.ownChunks settings requestIds puts i).map .chunk := by
    rw [← isOwn, column, filterMap_append, filterMap_append, map_append,
      filterMap_map, map_filterMap]
    rfl
  rw [entries] at isSent
  have marked : none ∈ Channels.sentOn queue sends := by
    rw [isSent]
    exact mem_append_right _ mem_cons_self
  have idle : none ∉ before.map (Option.map (@Reply.chunk Error)) ↔
      ∀ pass ∈ engine.keptPasses settings requestIds puts, pass i ≠ none := by
    have noneBefore : none ∈ before.map (Option.map (@Reply.chunk Error)) ↔
        none ∈ (engine.keptPasses settings requestIds puts).map (· i) := by
      rw [column]
      simp
    rw [noneBefore, mem_map]
    exact ⟨fun never pass kept isNone => never ⟨pass, kept, isNone⟩,
      fun always ⟨pass, kept, isNone⟩ => always pass kept isNone⟩
  have exact_iff := (untilEnd_eq_iff (before.map (Option.map (@Reply.chunk Error)))
    (.chunk last)).trans idle
  rw [← isSent, ownReplies] at exact_iff
  rw [← exact_iff]
  constructor
  · intro served
    obtain ⟨channels, run, ended⟩ := Channels.exists_ended (.refl) marked
    rw [← Channels.received_of_ended run ended]
    exact ((served channels run).2.1 ended).1
  · intro whole channels run
    refine ⟨?_, ?_, Channels.ended_of_final run marked⟩
    · rw [← whole]
      exact Channels.received_prefix run queue
    · intro ended
      exact ⟨(Channels.received_of_ended run ended).trans whole, complete_ownChunks i⟩

end Column

/-! ### All consumers -/

section Served

variable {engine} {call : ℕ} {pool pool' : AdaptersPool} {inferRequests : List Request}
  {kwargs : InferKwargs Encoded} {yields : List (List (Option (Reply Error)))}

/-- What the queue of a request gets: the entries of its row, and the end marker. -/
theorem sentOn_stream
    (streams : engine.infer call pool inferRequests kwargs = .ok (pool', .stream yields))
    {position : ℕ} {input : Encoded}
    (succeeded : (inferRequests.map engine.encode)[position]? = some (.ok input))
    (isRow : rowOf (inferRequests.map engine.encode) position <
      (engine.callSettings inferRequests kwargs).inputs.length) :
    Channels.sentOn position (streamSends (range inferRequests.length) yields) =
      (engine.keptPasses (engine.callSettings inferRequests kwargs) (engine.requestIds call)
        (engine.callPuts call pool inferRequests kwargs)).map
        (fun pass => (pass ⟨rowOf (inferRequests.map engine.encode) position, isRow⟩).map
          .chunk) ++ [none] := by
  have answers := answers_of_infer streams
  rw [infer_eq answers, Except.ok.injEq, Prod.mk.injEq] at streams
  obtain ⟨-, isAnswered⟩ := streams
  have someInput : encoded (inferRequests.map engine.encode) ≠ [] := by
    intro isEmpty
    have := rowOf_lt succeeded
    rw [isEmpty] at this
    exact Nat.not_lt_zero _ this
  have inside : position < inferRequests.length := by
    have := (List.getElem?_eq_some_iff.mp succeeded).1
    rwa [length_map] at this
  rw [answered] at isAnswered
  split at isAnswered
  · rw [InferOutput.stream.injEq] at isAnswered
    apply sentOn_streamSends nodup_range (getElem?_range inside)
    rw [← isAnswered, callYields, if_neg someInput, streamYields, filter_map, map_map, map_map, map_map]
    apply map_congr_left
    intro pass _
    have rows : ((List.ofFn pass).map (Option.map (@Reply.chunk Error))).length =
        (encoded (inferRequests.map engine.encode)).length := by
      rw [length_map, length_ofFn]
      exact engine.length_generateKwargs kwargs _
    refine (getElem?_inOrder_ok (fun error => some (Reply.error error)) rows succeeded).trans ?_
    rw [getElem?_map, List.getElem?_ofFn, dif_pos isRow]
    rfl
  · cases isAnswered

theorem exists_consumer_ended
    (streams : engine.infer call pool inferRequests kwargs = .ok (pool', .stream yields))
    {position : ℕ} {input : Encoded}
    (succeeded : (inferRequests.map engine.encode)[position]? = some (.ok input)) :
    ∃ channels : Channels ℕ (Reply Error),
      Channels.Steps (.start (streamSends (range inferRequests.length) yields)) channels ∧
        channels.ended position = true := by
  have isRow : rowOf (inferRequests.map engine.encode) position <
      (engine.callSettings inferRequests kwargs).inputs.length := by
    rw [callSettings, engine.length_generateKwargs]
    exact rowOf_lt succeeded
  apply Channels.exists_ended .refl
  rw [sentOn_stream streams succeeded isRow]
  exact mem_append_right _ mem_cons_self

/-- **The streams of a batch are served exactly when its rows print evenly.** -/
theorem streams_served_iff
    (streams : engine.infer call pool inferRequests kwargs = .ok (pool', .stream yields)) :
    engine.StreamsServed call pool inferRequests kwargs yields ↔
      engine.PrintsEvenly (engine.callSettings inferRequests kwargs)
        (engine.callPuts call pool inferRequests kwargs) := by
  have rows : (engine.callSettings inferRequests kwargs).inputs.length =
      (encoded (inferRequests.map engine.encode)).length := engine.length_generateKwargs kwargs _
  constructor
  · intro served k i isRow j isOther printsNothing
    have idle := (idle_iff (engine.requestIds call) k ⟨i, isRow⟩).mpr printsNothing
    obtain ⟨pass, isPass, isNone⟩ := idle
    refine (idle_iff (engine.requestIds call) k ⟨j, isOther⟩).mp ⟨pass, isPass, ?_⟩
    by_contra isChunk
    have kept := mem_keptPasses.mpr ⟨mem_of_getElem? isPass, _, isChunk⟩
    obtain ⟨position, input, succeeded, rfl⟩ := exists_position (rows ▸ isRow)
    have consumer := (consumer_served_iff ⟨_, isRow⟩ (sentOn_stream streams succeeded isRow)).mp
      fun channels run => served channels run position input succeeded
    exact consumer pass kept isNone
  · intro even channels run position input succeeded
    have isRow := rows ▸ rowOf_lt succeeded
    refine (consumer_served_iff ⟨_, isRow⟩ (sentOn_stream streams succeeded isRow)).mpr
      ?_ channels run
    intro pass kept isNone
    obtain ⟨isPass, other, isChunk⟩ := mem_keptPasses.mp kept
    obtain ⟨k, atPass⟩ := mem_iff_getElem?.mp isPass
    have printsNothing :=
      (idle_iff (engine.requestIds call) k ⟨_, isRow⟩).mp ⟨pass, atPass, isNone⟩
    obtain ⟨same, atSame, isIdle⟩ := (idle_iff (engine.requestIds call) k other).mpr
      (even k _ isRow other other.isLt printsNothing)
    rw [atPass, Option.some.injEq] at atSame
    exact isChunk (atSame ▸ isIdle)

end Served

end Batch

/-! ### Two requests -/

/-- An engine whose requests all encode, and that writes a word for the token `1`. Its
streams are the given puts. -/
def wordEngine (puts : (ℕ → List ℕ) × List (ℕ → List ℕ)) : TransformersEngine ℕ ℕ Unit where
  modelName := "model".toList
  maxBatchSize := 0
  strict := true
  maxModelLen := none
  maxTokensOffset := 0
  samplingDefaults := id
  templateStopWords := []
  padTokenId := 0
  skipPrompt := true
  encode := .ok
  inputIds _ _ := [7]
  numTokens _ := 1
  decode ids _ _ := ids.flatMap fun _ => "word ".toList
  getToolcall _ := none
  generate _ _ _ _ _ := []
  streamed _ _ _ _ := puts
  requestIds _ _ := "chatcmpl-".toList

def streamKwargs : InferKwargs ℕ where
  requestConfig := ⟨none, 1, [], true, 1, false, .null⟩
  adapterRequest := none
  preInferHook := none

/-- Every row writes two words. -/
def evenPuts : (ℕ → List ℕ) × List (ℕ → List ℕ) :=
  (fun _ => [7], [fun _ => [1], fun _ => [1]])

/-- The first row writes two words, the second one word, and is padded. -/
def unevenPuts : (ℕ → List ℕ) × List (ℕ → List ℕ) :=
  (fun _ => [7], [fun _ => [1], fun row => if row = 0 then [1] else [0]])

theorem wordEngine_answers (puts : (ℕ → List ℕ) × List (ℕ → List ℕ)) :
    (wordEngine puts).Answers [0, 1] streamKwargs := by
  constructor
  · intro _ result member
    obtain ⟨request, -, rfl⟩ := mem_map.mp member
    exact ⟨request, rfl⟩
  · intro _ _
    exact ⟨rfl, rfl⟩

/-- Two requests that print evenly are served. -/
theorem even_streams_served :
    ∃ pool' yields,
      (wordEngine evenPuts).infer 0 ∅ [0, 1] streamKwargs = .ok (pool', .stream yields) ∧
        (wordEngine evenPuts).StreamsServed 0 ∅ [0, 1] streamKwargs yields := by
  have streams := @infer_eq _ _ _ _ 0 ∅ _ _ (wordEngine_answers evenPuts)
  refine ⟨_, _, streams, (streams_served_iff streams).mpr ?_⟩
  intro k i _ j _ printsNothing
  exact printsNothing

/-- **A row that ends early loses its finish reason**: its consumer ends at the entry of a
pass in which only the other row goes on. -/
theorem idle_row_ends_consumer :
    ∃ pool' yields,
      (wordEngine unevenPuts).infer 0 ∅ [0, 1] streamKwargs = .ok (pool', .stream yields) ∧
        ¬ (wordEngine unevenPuts).StreamsServed 0 ∅ [0, 1] streamKwargs yields := by
  have streams := @infer_eq _ _ _ _ 0 ∅ _ _ (wordEngine_answers unevenPuts)
  refine ⟨_, _, streams, ?_⟩
  intro served
  obtain ⟨channels, run, ended⟩ :=
    @exists_consumer_ended _ _ _ _ 0 ∅ _ _ _ _ streams 1 1 rfl
  have received := ((served channels run 1 1 rfl).2.1 ended).1
  rw [Channels.received_of_ended run ended] at received
  exact absurd (congrArg List.length received) (by decide)

end TransformersEngine

end Geobench.Engine
