import Geobench.Trainers.ServerRollout

/-!
# The limits of a multi-turn rollout

In colocate mode a rollout runs inside `multi_turn_completion_length_context`, which replaces the
function of the engine that sets `max_tokens`. The new function limits the whole conversation at its
first call: it lowers `max_model_len`, and marks the engine with `set_grpo_max_model_len`. When the
body is left, the function and the length are set back, and the mark is deleted, whether or not
there is one.

A body is any function of the engine, which returns or raises. **`restores_iff`**: inside the
context the engine gets its limits back, and the body's own result or exception is passed on,
exactly when the engine had its attributes and no mark before, and has a mark when the body is left.
A rollout that asks the engine at least once leaves one (`restores_asked`).
-/

namespace Geobench.Trainers

/-! ## The engine -/

/-- The method of the engine, or a function that has replaced another one. -/
inductive LimitFunction where
  | method
  | patched (original : LimitFunction)
  deriving DecidableEq, Repr

/-- What limits the generation of an engine. An attribute that is missing is `none`. -/
structure LimitSettings where
  setDefaultMaxTokens : Option LimitFunction
  maxModelLen : Option (Option ℤ)
  setGrpoMaxModelLen : Option Bool
  deriving DecidableEq, Repr

/-- An engine, with the rest of its state. -/
structure LimitedEngine (σ : Type) where
  settings : LimitSettings
  maxTokensOffset : ℤ
  rest : σ

inductive LimitAttribute where
  | setDefaultMaxTokens
  | maxModelLen
  | setGrpoMaxModelLen
  deriving DecidableEq, Repr

inductive LimitError where
  | attributeError (name : LimitAttribute)
  | typeError
  deriving DecidableEq, Repr

/-- `max_model_len or default` -/
def lengthOr (default : ℤ) (maxModelLen : Option ℤ) : ℤ :=
  match maxModelLen with
  | some length => if length = 0 then default else length
  | none => default

section Calls

variable {σ : Type}

/-- `InferEngine.set_default_max_tokens`, which gives the `max_tokens` of a request. -/
def setDefaultMaxTokens (engine : LimitedEngine σ) (numTokens : ℤ) (maxTokens : Option ℤ) :
    Except LimitError (Option ℤ) :=
  match engine.settings.maxModelLen with
  | none => .error (.attributeError .maxModelLen)
  | some maxModelLen =>
    let maxMaxTokens := maxModelLen.getD 8192 - numTokens + engine.maxTokensOffset
    match maxTokens with
    | none => .ok (some maxMaxTokens)
    | some maxTokens =>
      .ok (some (if maxMaxTokens < maxTokens then maxMaxTokens else maxTokens))

/-- What the new function does before it calls the original one. -/
def limitConversation (engine : LimitedEngine σ) (promptTokens : ℤ) (maxTokens : Option ℤ) :
    Except LimitError (Option ℤ) × LimitedEngine σ :=
  match engine.settings.maxModelLen with
  | none => (.error (.attributeError .maxModelLen), engine)
  | some maxModelLen =>
    match engine.settings.setGrpoMaxModelLen with
    | none =>
      match maxTokens with
      | none => (.error .typeError, engine)
      | some maxTokens =>
        let maxLen := min (lengthOr 8192 maxModelLen) (promptTokens + maxTokens)
        (.ok (some maxTokens), { engine with settings := { engine.settings with
          maxModelLen := some (some maxLen), setGrpoMaxModelLen := some true } })
    | some _ =>
      match maxModelLen with
      | none => (.error .typeError, engine)
      | some length =>
        if length ≤ promptTokens then
          (.ok (some 10), { engine with settings := { engine.settings with
            maxModelLen := some (some (promptTokens + 10)) } })
        else (.ok maxTokens, engine)

/-- A call of a function that sets `max_tokens`. -/
def LimitFunction.call : LimitFunction → LimitedEngine σ → ℤ → Option ℤ →
    Except LimitError (Option ℤ) × LimitedEngine σ
  | .method, engine, numTokens, maxTokens =>
    (setDefaultMaxTokens engine numTokens maxTokens, engine)
  | .patched original, engine, numTokens, maxTokens =>
    match limitConversation engine numTokens maxTokens with
    | (.ok maxTokens, engine) => original.call engine numTokens maxTokens
    | (.error error, engine) => (.error error, engine)

end Calls

/-! ## The context -/

inductive LimitScope where
  | total
  | perRound
  deriving DecidableEq, Repr

/-- What the context reads of the trainer. -/
structure LengthContext where
  multiTurnScheduler : Bool
  useFastInfer : Bool
  vllmMode : VllmMode
  completionLengthLimitScope : Option LimitScope

/-- The context changes nothing unless a scheduler runs in the trainer's own engine, with a limit
for the whole conversation. -/
def LengthContext.isActive (context : LengthContext) : Bool :=
  !(!(context.multiTurnScheduler && context.useFastInfer) || context.vllmMode = .server ||
    context.completionLengthLimitScope = some .perRound)

/-- How a body is left. -/
inductive BodyExit (ε α : Type) where
  | returned (value : α)
  | raised (exception : ε)
  deriving DecidableEq, Repr

/-- How the context is left: as the body is, or by an exception of its own. -/
inductive ContextExit (ε α : Type) where
  | body (exit : BodyExit ε α)
  | raised (error : LimitError)
  deriving DecidableEq, Repr

section Context

variable {σ ε α : Type}

/-- The statements of the context before its body. -/
def enterContext (engine : LimitedEngine σ) : Except LimitError (LimitFunction × Option ℤ) :=
  match engine.settings.setDefaultMaxTokens with
  | none => .error (.attributeError .setDefaultMaxTokens)
  | some originalFn =>
    match engine.settings.maxModelLen with
    | none => .error (.attributeError .maxModelLen)
    | some originalMaxLen => .ok (originalFn, originalMaxLen)

/-- The engine that the body gets. -/
def patchEngine (originalFn : LimitFunction) (engine : LimitedEngine σ) : LimitedEngine σ :=
  { engine with settings := { engine.settings with
    setDefaultMaxTokens := some (.patched originalFn) } }

/-- The block `finally`. -/
def leaveContext (originalFn : LimitFunction) (originalMaxLen : Option ℤ)
    (exit : BodyExit ε α) (engine : LimitedEngine σ) : ContextExit ε α × LimitedEngine σ :=
  let settings := { engine.settings with
    setDefaultMaxTokens := some originalFn, maxModelLen := some originalMaxLen }
  match settings.setGrpoMaxModelLen with
  | some _ => (.body exit, { engine with settings := { settings with setGrpoMaxModelLen := none } })
  | none => (.raised (.attributeError .setGrpoMaxModelLen), { engine with settings := settings })

def multiTurnCompletionLengthContext (context : LengthContext)
    (body : LimitedEngine σ → BodyExit ε α × LimitedEngine σ) (engine : LimitedEngine σ) :
    ContextExit ε α × LimitedEngine σ :=
  if context.isActive then
    match enterContext engine with
    | .error error => (.raised error, engine)
    | .ok (originalFn, originalMaxLen) =>
      let (exit, engine) := body (patchEngine originalFn engine)
      leaveContext originalFn originalMaxLen exit engine
  else
    let (exit, engine) := body engine
    (.body exit, engine)

/-! ## What is restored -/

def bodyEngine (context : LengthContext) (engine : LimitedEngine σ) : LimitedEngine σ :=
  match context.isActive, engine.settings.setDefaultMaxTokens with
  | true, some originalFn => patchEngine originalFn engine
  | _, _ => engine

/-- The context is left as its body is, with the limits of the engine as they were. -/
def Restores (context : LengthContext) (body : LimitedEngine σ → BodyExit ε α × LimitedEngine σ)
    (engine : LimitedEngine σ) : Prop :=
  (multiTurnCompletionLengthContext context body engine).1 =
      .body (body (bodyEngine context engine)).1 ∧
    (multiTurnCompletionLengthContext context body engine).2.settings = engine.settings

/-- The engine has its attributes, and no mark. -/
structure Unmarked (engine : LimitedEngine σ) : Prop where
  setDefaultMaxTokens : engine.settings.setDefaultMaxTokens.isSome
  maxModelLen : engine.settings.maxModelLen.isSome
  setGrpoMaxModelLen : engine.settings.setGrpoMaxModelLen = none

def Marked (engine : LimitedEngine σ) : Prop := engine.settings.setGrpoMaxModelLen.isSome

variable {context : LengthContext} {body : LimitedEngine σ → BodyExit ε α × LimitedEngine σ}
  {engine : LimitedEngine σ}

theorem restores_of_inactive (inactive : context.isActive = false) :
    Restores context body engine ↔ (body engine).2.settings = engine.settings := by
  have isBody : bodyEngine context engine = engine := by rw [bodyEngine, inactive]
  rw [Restores, isBody, multiTurnCompletionLengthContext, inactive]
  exact ⟨fun restores => restores.2, fun same => ⟨rfl, same⟩⟩

theorem restores_of_active (active : context.isActive = true) :
    Restores context body engine ↔
      Unmarked engine ∧ Marked (body (bodyEngine context engine)).2 := by
  cases isFn : engine.settings.setDefaultMaxTokens with
  | none =>
    have raised : multiTurnCompletionLengthContext context body engine =
        (.raised (.attributeError .setDefaultMaxTokens), engine) := by
      rw [multiTurnCompletionLengthContext, if_pos active, enterContext, isFn]
    rw [Restores, raised]
    constructor
    · rintro ⟨exit, -⟩
      cases exit
    · rintro ⟨unmarked, -⟩
      have isSome := unmarked.setDefaultMaxTokens
      rw [isFn] at isSome
      cases isSome
  | some originalFn =>
    have isBody : bodyEngine context engine = patchEngine originalFn engine := by
      rw [bodyEngine, active, isFn]
    cases isLen : engine.settings.maxModelLen with
    | none =>
      have raised : multiTurnCompletionLengthContext context body engine =
          (.raised (.attributeError .maxModelLen), engine) := by
        rw [multiTurnCompletionLengthContext, if_pos active, enterContext, isFn]
        dsimp only
        rw [isLen]
      rw [Restores, raised]
      constructor
      · rintro ⟨exit, -⟩
        cases exit
      · rintro ⟨unmarked, -⟩
        have isSome := unmarked.maxModelLen
        rw [isLen] at isSome
        cases isSome
    | some originalMaxLen =>
      have left : multiTurnCompletionLengthContext context body engine =
          leaveContext originalFn originalMaxLen (body (patchEngine originalFn engine)).1
            (body (patchEngine originalFn engine)).2 := by
        rw [multiTurnCompletionLengthContext, if_pos active, enterContext, isFn]
        dsimp only
        rw [isLen]
      rw [Restores, isBody, left, leaveContext, Marked]
      dsimp only
      cases isMark : (body (patchEngine originalFn engine)).2.settings.setGrpoMaxModelLen with
      | none =>
        constructor
        · rintro ⟨exit, -⟩
          cases exit
        · rintro ⟨-, isSome⟩
          cases isSome
      | some mark =>
        constructor
        · rintro ⟨-, same⟩
          have noMark := congrArg LimitSettings.setGrpoMaxModelLen same
          exact ⟨⟨by rw [isFn]; rfl, by rw [isLen]; rfl, noMark.symm⟩, rfl⟩
        · rintro ⟨unmarked, -⟩
          refine ⟨rfl, ?_⟩
          have noMark := unmarked.setGrpoMaxModelLen
          obtain ⟨⟨setDefaultMaxTokens, maxModelLen, setGrpoMaxModelLen⟩, offset, rest⟩ := engine
          obtain rfl : setDefaultMaxTokens = some originalFn := isFn
          obtain rfl : maxModelLen = some originalMaxLen := isLen
          obtain rfl : setGrpoMaxModelLen = none := noMark
          rfl

/-- **The limits are restored, and the body's own exit is passed on**, exactly when the engine was
not marked before and is marked at the end of the body. Outside the context, a body that changes no
limits restores them. -/
theorem restores_iff :
    Restores context body engine ↔
      (context.isActive = true ∧ Unmarked engine ∧ Marked (body (bodyEngine context engine)).2) ∨
      (context.isActive = false ∧ (body engine).2.settings = engine.settings) := by
  cases isActive : context.isActive with
  | true =>
    rw [restores_of_active isActive]
    simp
  | false =>
    rw [restores_of_inactive isActive]
    simp

/-! ## Bodies that ask the engine -/

/-- A body that sets the limit of one request after another. A request is its number of tokens and
its `max_tokens`. -/
def askEngine : List (ℤ × Option ℤ) → LimitedEngine σ →
    BodyExit LimitError (List (Option ℤ)) × LimitedEngine σ
  | [], engine => (.returned [], engine)
  | request :: later, engine =>
    match engine.settings.setDefaultMaxTokens with
    | none => (.raised (.attributeError .setDefaultMaxTokens), engine)
    | some function =>
      match function.call engine request.1 request.2 with
      | (.error error, engine) => (.raised error, engine)
      | (.ok maxTokens, engine) =>
        match askEngine later engine with
        | (.returned limits, engine) => (.returned (maxTokens :: limits), engine)
        | (.raised error, engine) => (.raised error, engine)

theorem marked_limitConversation (marked : Marked engine) (promptTokens : ℤ)
    (maxTokens : Option ℤ) : Marked (limitConversation engine promptTokens maxTokens).2 := by
  obtain ⟨mark, isMark⟩ := Option.isSome_iff_exists.mp marked
  rw [limitConversation]
  split
  · exact marked
  · rw [isMark]
    dsimp only
    split
    · exact marked
    · split
      · exact marked
      · exact marked

theorem marked_call (function : LimitFunction) (marked : Marked engine) (numTokens : ℤ)
    (maxTokens : Option ℤ) : Marked (function.call engine numTokens maxTokens).2 := by
  induction function generalizing engine maxTokens with
  | method => exact marked
  | patched original ih =>
    have later := marked_limitConversation marked numTokens maxTokens
    rw [LimitFunction.call]
    split
    · rename_i limited
      rw [limited] at later
      exact ih later _
    · rename_i limited
      rw [limited] at later
      exact later

theorem marked_call_patched (isLen : engine.settings.maxModelLen.isSome) (original : LimitFunction)
    (numTokens : ℤ) {maxTokens : Option ℤ} (limited : maxTokens.isSome) :
    Marked ((LimitFunction.patched original).call engine numTokens maxTokens).2 := by
  cases isMark : engine.settings.setGrpoMaxModelLen with
  | some mark => exact marked_call _ (by rw [Marked, isMark]; rfl) _ _
  | none =>
    obtain ⟨maxModelLen, isLen⟩ := Option.isSome_iff_exists.mp isLen
    obtain ⟨limit, rfl⟩ := Option.isSome_iff_exists.mp limited
    rw [LimitFunction.call, limitConversation, isLen, isMark]
    refine marked_call original ?_ _ _
    rfl

theorem marked_askEngine_cons {function : LimitFunction} {request : ℤ × Option ℤ}
    {later : List (ℤ × Option ℤ)} (isFn : engine.settings.setDefaultMaxTokens = some function)
    (called : Marked (function.call engine request.1 request.2).2)
    (asks : ∀ engine : LimitedEngine σ, Marked engine → Marked (askEngine later engine).2) :
    Marked (askEngine (request :: later) engine).2 := by
  rw [askEngine, isFn]
  dsimp only
  split
  · rename_i call
    rw [call] at called
    exact called
  · rename_i call
    rw [call] at called
    have asked := asks _ called
    split
    · rename_i rest
      rw [rest] at asked
      exact asked
    · rename_i rest
      rw [rest] at asked
      exact asked

theorem marked_askEngine (requests : List (ℤ × Option ℤ)) (engine : LimitedEngine σ)
    (marked : Marked engine) : Marked (askEngine requests engine).2 := by
  induction requests generalizing engine with
  | nil => exact marked
  | cons request later ih =>
    cases isFn : engine.settings.setDefaultMaxTokens with
    | none =>
      rw [askEngine, isFn]
      exact marked
    | some function =>
      exact marked_askEngine_cons isFn (marked_call function marked _ _) ih

/-- **A body that asks the engine at least once is undone by the context.** -/
theorem restores_asked (active : context.isActive = true) (unmarked : Unmarked engine)
    (request : ℤ × Option ℤ) (limited : request.2.isSome) (later : List (ℤ × Option ℤ)) :
    Restores context (askEngine (request :: later)) engine := by
  rw [restores_of_active active]
  obtain ⟨originalFn, isFn⟩ := Option.isSome_iff_exists.mp unmarked.setDefaultMaxTokens
  have isBody : bodyEngine context engine = patchEngine originalFn engine := by
    rw [bodyEngine, active, isFn]
  have isLen : (patchEngine originalFn engine).settings.maxModelLen.isSome := unmarked.maxModelLen
  have called := marked_call_patched isLen originalFn request.1 limited
  rw [isBody]
  exact ⟨unmarked, marked_askEngine_cons rfl called (marked_askEngine later)⟩

/-- A scheduler in the trainer's own engine, with one limit for the conversation. -/
def colocated : LengthContext := ⟨true, true, .colocate, some .total⟩

/-- An engine as it is made. -/
def freshEngine : LimitedEngine Unit := ⟨⟨some .method, some (some 4096), none⟩, 0, ()⟩

theorem restores_asked_once : Restores colocated (askEngine [(10, some 5)]) freshEngine :=
  restores_asked rfl ⟨rfl, rfl, rfl⟩ (10, some 5) rfl []

/-- A body that returns before it asks the engine gets the exception of the context. -/
theorem not_restores_unasked :
    multiTurnCompletionLengthContext colocated (askEngine []) freshEngine =
        (.raised (.attributeError .setGrpoMaxModelLen), freshEngine) ∧
      ¬ Restores colocated (askEngine []) freshEngine := by
  refine ⟨rfl, fun restores => ?_⟩
  cases restores.1

end Context

end Geobench.Trainers
