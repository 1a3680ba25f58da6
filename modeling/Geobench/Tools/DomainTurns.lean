import Geobench.Tools.TrainOrder

/-!
# Rows of domains in turns

The loops that mix the domains end, and what they give is a permutation of the rows with those
of each domain in their order. In turns, one pass takes from each domain as many rows as its
ratio says, or all that it has left.

**`trainOrder_of_positive`** says this of the whole order, from the rows as they are read.
-/

namespace Geobench.Tools

open Library List

/-! ## The names of the domains -/

section Names

variable {δ α : Type} [DecidableEq δ]

variable {orderedByDomain : List (δ × List α)}

theorem mem_available (different : (orderedByDomain.map Prod.fst).Nodup) {domain : δ} :
    domain ∈ (orderedByDomain.filter fun entry => !entry.2.isEmpty).map Prod.fst ↔
      column orderedByDomain domain ≠ [] := by
  constructor
  · intro isIn
    obtain ⟨entry, isEntry, rfl⟩ := mem_map.mp isIn
    obtain ⟨isEntry, someRow⟩ := mem_filter.mp isEntry
    rw [column_eq_of_mem different isEntry]
    simpa using someRow
  · intro someRow
    cases isValue : valueAt orderedByDomain domain with
    | none => exact absurd (by rw [column, isValue]; rfl) someRow
    | some rows =>
      obtain ⟨before, after, isDict, -⟩ := lookup_eq_some_iff.mp isValue
      have isEntry : (domain, rows) ∈ orderedByDomain := by simp [isDict]
      rw [column_eq_of_mem different isEntry] at someRow
      exact mem_map.mpr ⟨_, mem_filter.mpr ⟨isEntry, by simpa using someRow⟩, rfl⟩

theorem foldl_wanted (available domainOrder : List δ) :
    (domainOrder.foldl (fun names domain =>
      if domain ∈ available ∧ domain ∉ names then names ++ [domain] else names) []).Nodup ∧
    ∀ domain ∈ domainOrder.foldl (fun names domain =>
      if domain ∈ available ∧ domain ∉ names then names ++ [domain] else names) [],
      domain ∈ available := by
  have kept : ∀ names : List δ, (names.Nodup ∧ ∀ domain ∈ names, domain ∈ available) →
      (domainOrder.foldl (fun names domain =>
        if domain ∈ available ∧ domain ∉ names then names ++ [domain] else names) names).Nodup ∧
      ∀ domain ∈ domainOrder.foldl (fun names domain =>
        if domain ∈ available ∧ domain ∉ names then names ++ [domain] else names) names,
        domain ∈ available := by
    induction domainOrder with
    | nil => exact fun _ holds => holds
    | cons domain rest ih =>
      rintro names ⟨different, isAvailable⟩
      rw [foldl_cons]
      refine ih _ ?_
      split
      · rename_i isNew
        refine ⟨different.append (nodup_singleton _)
          (disjoint_singleton.mpr isNew.2), fun other isIn => ?_⟩
        rcases mem_append.mp isIn with isIn | isIn
        · exact isAvailable other isIn
        · rw [mem_singleton.mp isIn]
          exact isNew.1
      · exact ⟨different, isAvailable⟩
  exact kept [] ⟨nodup_nil, fun _ isIn => absurd isIn not_mem_nil⟩

variable [LE δ] [DecidableLE δ]

theorem mem_orderedDomainNames (different : (orderedByDomain.map Prod.fst).Nodup)
    {domainOrder : List δ} {domain : δ} :
    domain ∈ orderedDomainNames orderedByDomain domainOrder ↔
      column orderedByDomain domain ≠ [] := by
  rw [← mem_available different, orderedDomainNames, mem_append, mem_filter, mem_mergeSort]
  have wanted := foldl_wanted ((orderedByDomain.filter fun entry => !entry.2.isEmpty).map Prod.fst)
    domainOrder
  constructor
  · rintro (isIn | isIn)
    · exact wanted.2 domain isIn
    · exact isIn.1
  · intro isAvailable
    by_cases isWanted : domain ∈ domainOrder.foldl (fun names domain =>
        if domain ∈ (orderedByDomain.filter fun entry => !entry.2.isEmpty).map Prod.fst ∧
          domain ∉ names then names ++ [domain] else names) []
    · exact .inl isWanted
    · exact .inr ⟨isAvailable, by simpa using isWanted⟩

theorem nodup_orderedDomainNames (different : (orderedByDomain.map Prod.fst).Nodup)
    (domainOrder : List δ) : (orderedDomainNames orderedByDomain domainOrder).Nodup := by
  have wanted := foldl_wanted ((orderedByDomain.filter fun entry => !entry.2.isEmpty).map Prod.fst)
    domainOrder
  have available : ((orderedByDomain.filter fun entry => !entry.2.isEmpty).map Prod.fst).Nodup :=
    different.sublist (filter_sublist.map Prod.fst)
  rw [orderedDomainNames]
  refine wanted.1.append (((mergeSort_perm _ _).nodup_iff.mpr available).filter _) ?_
  intro domain isWanted isOther
  exact absurd isWanted (by simpa using (mem_filter.mp isOther).2)

end Names

/-! ## One pass of turns -/

section Turns

variable {δ α : Type} [DecidableEq δ]

theorem takeTurn_of_nil {turns : Turns δ α} {domain : δ} (noRow : turns.queues domain = []) :
    takeTurn turns domain = turns := by
  rw [takeTurn, popleft, noRow]

theorem takeTurn_of_cons {turns : Turns δ α} {domain : δ} {row : α} {rest : List α}
    (isQueue : turns.queues domain = row :: rest) :
    takeTurn turns domain =
      ⟨Function.update turns.queues domain rest, turns.rows ++ [row], true⟩ := by
  rw [takeTurn, popleft, isQueue]

/-- Several turns of one domain take so many rows, or all there are. -/
theorem foldl_takeTurn_replicate (count : ℕ) (domain : δ) (turns : Turns δ α) :
    (replicate count domain).foldl takeTurn turns =
      ⟨Function.update turns.queues domain ((turns.queues domain).drop count),
        turns.rows ++ (turns.queues domain).take count,
        turns.madeProgress || !((turns.queues domain).take count).isEmpty⟩ := by
  induction count generalizing turns with
  | zero => simp
  | succ count ih =>
    rw [replicate_succ, foldl_cons, ih]
    cases isQueue : turns.queues domain with
    | nil => simp [takeTurn_of_nil isQueue, isQueue]
    | cons row rest => simp [takeTurn_of_cons isQueue]

theorem foldl_takeTurn_flatMap (wanted : δ → ℕ) {names : List δ} (different : names.Nodup)
    (turns : Turns δ α) :
    (names.flatMap fun domain => replicate (wanted domain) domain).foldl takeTurn turns =
      ⟨fun domain => if domain ∈ names then (turns.queues domain).drop (wanted domain)
          else turns.queues domain,
        turns.rows ++ names.flatMap fun domain => (turns.queues domain).take (wanted domain),
        turns.madeProgress ||
          names.any fun domain => !((turns.queues domain).take (wanted domain)).isEmpty⟩ := by
  induction names generalizing turns with
  | nil => simp
  | cons first rest ih =>
    obtain ⟨notIn, different⟩ := nodup_cons.mp different
    rw [flatMap_cons, foldl_append, foldl_takeTurn_replicate, ih different]
    have others : ∀ domain ∈ rest, Function.update turns.queues first
        ((turns.queues first).drop (wanted first)) domain = turns.queues domain := by
      intro domain isIn
      refine Function.update_of_ne ?_ _ _
      rintro rfl
      exact notIn isIn
    have rows : rest.flatMap (fun domain => (Function.update turns.queues first
          ((turns.queues first).drop (wanted first)) domain).take (wanted domain)) =
        rest.flatMap fun domain => (turns.queues domain).take (wanted domain) :=
      flatMap_congr fun domain isIn => by rw [others domain isIn]
    have progress : (rest.any fun domain => !((Function.update turns.queues first
          ((turns.queues first).drop (wanted first)) domain).take (wanted domain)).isEmpty) =
        rest.any fun domain => !((turns.queues domain).take (wanted domain)).isEmpty := by
      rw [Bool.eq_iff_iff, any_eq_true, any_eq_true]
      exact exists_congr fun domain => and_congr_right fun isIn => by rw [others domain isIn]
    rw [Turns.mk.injEq]
    dsimp only
    refine ⟨?_, ?_, ?_⟩
    · funext domain
      by_cases same : domain = first
      · subst same
        rw [Function.update_self, if_neg notIn, if_pos mem_cons_self]
      · rw [Function.update_of_ne same]
        simp only [mem_cons, same, false_or]
    · rw [rows, flatMap_cons, append_assoc]
    · rw [progress, any_cons, Bool.or_assoc]

/-- One pass takes from each domain as many rows as wanted, or all it has left. -/
theorem ratioPass_eq {wanted : δ → ℕ} {names : List δ} (different : names.Nodup)
    (positive : ∀ domain ∈ names, 0 < wanted domain) {queues : Queues δ α}
    (waits : noneWaits names queues = false) (rows : List α) :
    ratioPass names (names.flatMap fun domain => replicate (wanted domain) domain) queues
        rows =
      ⟨fun domain => if domain ∈ names then (queues domain).drop (wanted domain)
          else queues domain,
        rows ++ names.flatMap fun domain => (queues domain).take (wanted domain), true⟩ := by
  have progress :
      (names.any fun domain => !((queues domain).take (wanted domain)).isEmpty) = true := by
    obtain ⟨domain, isIn, someRow⟩ := exists_waits waits
    have someWanted := positive domain isIn
    exact any_eq_true.mpr ⟨domain, isIn, by simp [take_eq_nil_iff, someRow]; omega⟩
  rw [ratioPass, foldl_takeTurn_flatMap wanted different]
  simp only [progress, Bool.or_true, if_true]

end Turns

/-! ## The loops -/

section Loops

variable {δ α : Type} [DecidableEq δ] {label : α → δ} {filled : Queues δ α} {names : List δ}

/-- A pass takes from every domain as many rows as wanted, or all it has left. -/
def TakesInTurns (label : α → δ) (wanted : δ → ℕ) (state state' : Queues δ α × List α) : Prop :=
  ∃ taken, state'.2 = state.2 ++ taken ∧ ∀ domain,
    taken.filter (fun row => label row = domain) = (state.1 domain).take (wanted domain) ∧
      (taken.filter fun row => label row = domain).length =
        min (wanted domain) (state.1 domain).length ∧
      state'.1 domain = (state.1 domain).drop (wanted domain)

variable {wanted : δ → ℕ}

variable {state : Queues δ α × List α}

theorem ratioBody_of_waits (different : names.Nodup)
    (positive : ∀ domain ∈ names, 0 < wanted domain) (pass : ℕ)
    (waits : noneWaits names state.1 = false) :
    ratioBody names (names.flatMap fun domain => replicate (wanted domain) domain) pass
        state =
      .ok (.inl (fun domain => if domain ∈ names then (state.1 domain).drop (wanted domain)
          else state.1 domain,
        state.2 ++ names.flatMap fun domain => (state.1 domain).take (wanted domain))) := by
  rw [ratioBody, if_neg (by simp [waits])]
  simp only [ratioPass_eq different positive waits]

theorem ratioBody_of_none (cycle : List δ) (pass : ℕ) (empty : noneWaits names state.1 = true) :
    ratioBody names cycle pass state = .ok (.inr state.2) := by
  rw [ratioBody, if_pos empty]

/-- What a pass that goes on does. -/
theorem takesInTurns_of_ratioBody (different : names.Nodup)
    (positive : ∀ domain ∈ names, 0 < wanted domain) (covers : ∀ key, filled key ≠ [] → key ∈ names)
    {pass : ℕ} {state' : Queues δ α × List α} (drains : Drains label filled state.1 state.2)
    (goesOn : ratioBody names (names.flatMap fun domain => replicate (wanted domain) domain)
      pass state = .ok (.inl state')) :
    Drains label filled state'.1 state'.2 ∧ TakesInTurns label wanted state state' := by
  cases waits : noneWaits names state.1 with
  | true =>
    rw [ratioBody_of_none _ _ waits] at goesOn
    cases goesOn
  | false =>
    rw [ratioBody_of_waits different positive pass waits] at goesOn
    cases goesOn
    refine ⟨drains.take different wanted, _, rfl, fun domain => ?_⟩
    have labelled : ∀ key, ∀ row ∈ (state.1 key).take (wanted key), label row = key :=
      fun key row isIn => drains.label_of_mem (mem_of_mem_take isIn)
    have ofDomain : (names.flatMap fun domain => (state.1 domain).take (wanted domain)).filter
        (fun row => label row = domain) = (state.1 domain).take (wanted domain) := by
      rw [Library.filter_flatMap labelled different]
      split
      · rfl
      · rename_i notNamed
        have empty : filled domain = [] := by
          by_contra isFilled
          exact notNamed (covers domain isFilled)
        rw [drains.left_eq_nil empty, take_nil]
    refine ⟨ofDomain, by rw [ofDomain, length_take], ?_⟩
    dsimp only
    split
    · rfl
    · rename_i notNamed
      have empty : filled domain = [] := by
        by_contra isFilled
        exact notNamed (covers domain isFilled)
      rw [drains.left_eq_nil empty, drop_nil]

/-- The turns end. -/
theorem exists_yields_ratioBody (different : names.Nodup)
    (positive : ∀ domain ∈ names, 0 < wanted domain) (queues : Queues δ α) (rows : List α) :
    ∃ result, (ratioBody names (names.flatMap fun domain =>
      replicate (wanted domain) domain)).Yields 0 (queues, rows) result := by
  refine LoopBody.exists_yields_of_measure (fun _ => True) (fun state => waiting names state.1)
    (fun pass state _ => ?_) trivial
  cases waits : noneWaits names state.1 with
  | true => exact .inl ⟨_, ratioBody_of_none _ _ waits⟩
  | false =>
    refine .inr ⟨_, ratioBody_of_waits different positive pass waits, trivial, ?_⟩
    obtain ⟨domain, isIn, someRow⟩ := exists_waits waits
    refine waiting_lt isIn (fun key => ?_) ?_
    · dsimp only
      split
      · exact (drop_sublist _ _).length_le
      · exact Nat.le_refl _
    · have someWanted := positive domain isIn
      have someLength := length_pos_iff.mpr someRow
      dsimp only
      rw [if_pos isIn, length_drop]
      omega

/-- Along the turns the rows that are taken and those that wait are all rows. -/
theorem drains_of_reaches_ratioBody (different : names.Nodup)
    (positive : ∀ domain ∈ names, 0 < wanted domain) (covers : ∀ key, filled key ≠ [] → key ∈ names)
    (labelled : ∀ key, ∀ item ∈ filled key, label item = key) {pass : ℕ}
    (reached : (ratioBody names (names.flatMap fun domain =>
      replicate (wanted domain) domain)).Reaches 0 (filled, []) pass state) :
    Drains label filled state.1 state.2 :=
  reached.invariant (fun _ state => Drains label filled state.1 state.2) (.start labelled)
    fun _ _ _ _ drains goesOn =>
      (takesInTurns_of_ratioBody different positive covers drains goesOn).1

theorem filter_eq_of_ratioBody (different : names.Nodup)
    (positive : ∀ domain ∈ names, 0 < wanted domain)
    (covers : ∀ key, filled key ≠ [] → key ∈ names)
    (labelled : ∀ key, ∀ item ∈ filled key, label item = key) {result : List α}
    (yields : (ratioBody names (names.flatMap fun domain =>
      replicate (wanted domain) domain)).Yields 0 (filled, []) result) (key : δ) :
    result.filter (fun row => label row = key) = filled key := by
  obtain ⟨pass, state, reached, stops⟩ := yields
  have drains := drains_of_reaches_ratioBody different positive covers labelled reached
  cases waits : noneWaits names state.1 with
  | true =>
    rw [ratioBody_of_none _ _ waits] at stops
    cases stops
    exact drains.filter_eq_of_noneWaits covers waits key
  | false =>
    rw [ratioBody_of_waits different positive pass waits] at stops
    cases stops

variable {σ : Type} {rng : Rng σ}

/-- A pass of the random loop takes one row, or stops when none is left. -/
theorem randomBody_cases (pass : ℕ) (state : Queues δ α × List α × σ) :
    (noneWaits names state.1 = true ∧ randomBody rng names pass state = .ok (.inr state.2.1)) ∨
      ∃ domain ∈ names, ∃ row queues random, popleft state.1 domain = some (row, queues) ∧
        randomBody rng names pass state = .ok (.inl (queues, state.2.1 ++ [row], random)) := by
  cases waits : noneWaits names state.1 with
  | true => exact .inl ⟨rfl, by rw [randomBody, if_pos waits]⟩
  | false =>
    refine .inr ?_
    have someActive : 0 < (names.filter fun domain => !(state.1 domain).isEmpty).length := by
      obtain ⟨domain, isIn, someRow⟩ := exists_waits waits
      exact length_pos_of_mem (mem_filter.mpr ⟨isIn, by simpa using someRow⟩)
    let drawn := rng.choice (names.filter fun domain => !(state.1 domain).isEmpty).length state.2.2
    obtain ⟨domain, isIn, isChosen⟩ := exists_chosen (rng.choice_lt someActive state.2.2)
    obtain ⟨isName, someRow⟩ := mem_filter.mp isIn
    have someRow : state.1 domain ≠ [] := by simpa using someRow
    obtain ⟨popped, isPopped, isFront⟩ := exists_popleftOf someRow
    refine ⟨domain, isName, popped.1, popped.2, drawn.2, isFront, ?_⟩
    rw [randomBody, if_neg (by simp [waits])]
    dsimp only
    rw [isChosen, ok_bind, isPopped, ok_bind]

variable (rng names) in
/-- The random choices end. -/
theorem exists_yields_randomBody (queues : Queues δ α) (rows : List α) (random : σ) :
    ∃ result, (randomBody rng names).Yields 0 (queues, rows, random) result := by
  refine LoopBody.exists_yields_of_measure (fun _ => True) (fun state => waiting names state.1)
    (fun pass state _ => ?_) trivial
  rcases randomBody_cases pass state with ⟨-, stops⟩ | ⟨domain, isIn, row, left, after, front, step⟩
  · exact .inl ⟨_, stops⟩
  · have shorter := length_popleft front
    exact .inr ⟨_, step, trivial, waiting_lt isIn shorter.1 shorter.2⟩

theorem filter_eq_of_randomBody (covers : ∀ key, filled key ≠ [] → key ∈ names)
    (labelled : ∀ key, ∀ item ∈ filled key, label item = key) {random : σ} {result : List α}
    (yields : (randomBody rng names).Yields 0 (filled, [], random) result) (key : δ) :
    result.filter (fun row => label row = key) = filled key := by
  obtain ⟨pass, state, reached, stops⟩ := yields
  have drains : Drains label filled state.1 state.2.1 := by
    refine reached.invariant (fun _ state => Drains label filled state.1 state.2.1)
      (.start labelled) fun pass state state' _ drains goesOn => ?_
    rcases randomBody_cases pass state with ⟨-, stops⟩ | ⟨domain, -, row, left, after, front, step⟩
    · rw [stops] at goesOn
      cases goesOn
    · rw [step] at goesOn
      cases goesOn
      exact drains.popleft front
  rcases randomBody_cases pass state with ⟨empty, stops'⟩ | ⟨_, -, _, _, _, -, step⟩
  · rw [stops'] at stops
    cases stops
    exact drains.filter_eq_of_noneWaits covers empty key
  · rw [step] at stops
    cases stops

end Loops

/-! ## The whole order -/

section Pipeline

variable {σ δ R ρ : Type} [DecidableEq δ] [LE δ] [DecidableLE δ]
variable [LE R] [DecidableLE R] [Add R] [Div R] [OfNat R 2] {rng : Rng σ}

def BucketRow.category (row : BucketRow δ R ρ) : δ := row.row.category

omit [LE δ] [DecidableLE δ] [DecidableEq δ] [LE R] [DecidableLE R] [Add R] [Div R] [OfNat R 2] in
theorem exists_orderDomains (schedule : Schedule) (domains : List (δ × List (BucketRow δ R ρ)))
    (random : σ) :
    ∃ ordered, orderDomains rng schedule domains random = .ok ordered ∧
      List.Forall₂ (fun entry entry' => entry'.1 = entry.1 ∧ entry'.2.Perm entry.2 ∧
        (schedule = .fourStage → entry'.2.Pairwise fun first second =>
          bucketOrder.idxOf first.bucket ≤ bucketOrder.idxOf second.bucket))
        domains ordered.1 := by
  refine forall₂_of_mapAccumM (fun entry _ random => ?_) random
  obtain ⟨found, isFound, isPerm, sorted⟩ := exists_orderDomainRows rng schedule entry.2 random
  exact ⟨_, map_eq_ok.mpr ⟨found, isFound, rfl⟩, rfl, isPerm, sorted⟩

omit [DecidableLE δ] [LE δ] in
theorem valueAt_map_key {β : Type} (value : δ → β) (domains : List δ) (domain : δ) :
    valueAt (domains.map fun domain => (domain, value domain)) domain =
      if domain ∈ domains then some (value domain) else none := by
  induction domains with
  | nil => rfl
  | cons first rest ih =>
    rw [map_cons, valueAt_cons, ih]
    by_cases same : domain = first
    · simp [same]
    · simp [same]

def rowsPerPass (domainRatio : List (δ × ℤ)) (domain : δ) : ℕ :=
  ((valueAt domainRatio domain).getD 1).toNat

theorem rowsPerPass_effective (domainRatio : List (δ × ℤ)) (domains : List δ) {domain : δ}
    (isDomain : domain ∈ domains) :
    rowsPerPass (effectiveDomainRatio domainRatio domains) domain =
      rowsPerPass domainRatio domain := by
  rw [rowsPerPass, effectiveDomainRatio, valueAt_map_key,
    if_pos ((mergeSort_perm _ _).mem_iff.mpr isDomain), Option.getD_some, rowsPerPass]

omit [DecidableLE δ] [LE δ] in
theorem rowsPerPass_pos {domainRatio : List (δ × ℤ)}
    (positive : ∀ domain count, valueAt domainRatio domain = some count → 0 < count)
    (domain : δ) : 0 < rowsPerPass domainRatio domain := by
  rw [rowsPerPass]
  cases isCount : valueAt domainRatio domain with
  | none => exact Nat.one_pos
  | some count =>
    have above := positive domain count isCount
    rw [Option.getD_some]
    omega

def turnsBody (orderedByDomain : List (δ × List (BucketRow δ R ρ))) (domainRatio : List (δ × ℤ))
    (domainOrder : List δ) :
    LoopBody OrderError (Queues δ (BucketRow δ R ρ) × List (BucketRow δ R ρ))
      (List (BucketRow δ R ρ)) :=
  ratioBody (orderedDomainNames orderedByDomain domainOrder)
    (cycleOf (effectiveDomainRatio domainRatio (orderedByDomain.map Prod.fst))
      (orderedDomainNames orderedByDomain domainOrder))

section Mixed

variable {domains : List (δ × List (BucketRow δ R ρ))} {domainRatio : List (δ × ℤ)}

omit [LE R] [DecidableLE R] [Add R] [Div R] [OfNat R 2]

variable (domainRatio) in
theorem turnsBody_eq (different : (domains.map Prod.fst).Nodup) (domainOrder : List δ) :
    turnsBody domains domainRatio domainOrder =
      ratioBody (orderedDomainNames domains domainOrder)
        ((orderedDomainNames domains domainOrder).flatMap fun domain =>
          replicate (rowsPerPass domainRatio domain) domain) := by
  rw [turnsBody]
  congr 1
  refine flatMap_congr fun domain isName => ?_
  have isKey := mem_keys_of_column_ne_nil ((mem_orderedDomainNames different).mp isName)
  rw [← rowsPerPass_effective domainRatio _ isKey, rowsPerPass]

/-- Mixing domains ends, and keeps the order of each domain. -/
theorem interleaveDomains_of_positive (different : (domains.map Prod.fst).Nodup)
    (positive : ∀ domain count, valueAt domainRatio domain = some count → 0 < count)
    (labelled : ∀ domain, ∀ row ∈ column domains domain, row.category = domain)
    (someRow : ∃ domain, column domains domain ≠ []) (domainBalance : Balance) (random : σ)
    (domainOrder : List δ) :
    (∃ fuel order, interleaveDomains rng fuel domains domainBalance
        (effectiveDomainRatio domainRatio (domains.map Prod.fst)) random domainOrder =
      .ok (some order)) ∧
    (∀ fuel order, interleaveDomains rng fuel domains domainBalance
        (effectiveDomainRatio domainRatio (domains.map Prod.fst)) random domainOrder =
        .ok (some order) →
      ∀ domain, order.filter (fun row => row.category = domain) = column domains domain) ∧
    ∀ fuel, interleaveDomains rng fuel domains .ratio
        (effectiveDomainRatio domainRatio (domains.map Prod.fst)) random domainOrder =
      (turnsBody domains domainRatio domainOrder).execute fuel 0 (column domains, []) := by
  have names := nodup_orderedDomainNames different domainOrder
  have covers : ∀ key, column domains key ≠ [] → key ∈ orderedDomainNames domains domainOrder :=
    fun _ someRow => (mem_orderedDomainNames different).mpr someRow
  have perPass : ∀ domain ∈ orderedDomainNames domains domainOrder,
      0 < rowsPerPass domainRatio domain := fun domain _ => rowsPerPass_pos positive domain
  have someTurn : cycleOf (effectiveDomainRatio domainRatio (domains.map Prod.fst))
      (orderedDomainNames domains domainOrder) ≠ [] := by
    obtain ⟨domain, someRow⟩ := someRow
    have isName := covers domain someRow
    have isKey := mem_keys_of_column_ne_nil someRow
    have turns := perPass domain isName
    rw [← rowsPerPass_effective domainRatio _ isKey] at turns
    have isTurn : domain ∈ replicate
        (rowsPerPass (effectiveDomainRatio domainRatio (domains.map Prod.fst)) domain) domain :=
      mem_replicate.mpr ⟨Nat.pos_iff_ne_zero.mp turns, rfl⟩
    exact ne_nil_of_mem (mem_flatMap.mpr ⟨domain, isName, isTurn⟩)
  have inTurns : ∀ fuel, interleaveDomains rng fuel domains .ratio
      (effectiveDomainRatio domainRatio (domains.map Prod.fst)) random domainOrder =
        (turnsBody domains domainRatio domainOrder).execute fuel 0 (column domains, []) :=
    fun fuel => if_neg someTurn
  have atRandom : ∀ fuel, interleaveDomains rng fuel domains .random
      (effectiveDomainRatio domainRatio (domains.map Prod.fst)) random domainOrder =
        (randomBody rng (orderedDomainNames domains domainOrder)).execute fuel 0
          (column domains, [], random) :=
    fun fuel => if_neg someTurn
  have turns := turnsBody_eq domainRatio different domainOrder
  cases domainBalance with
  | sequentialDomain =>
    refine ⟨⟨0, _, rfl⟩, fun fuel order isOrder domain => ?_, inTurns⟩
    cases isOrder
    rw [Library.filter_flatMap labelled names]
    split
    · rfl
    · rename_i notName
      by_contra someRow
      exact notName (covers domain fun none => someRow none.symm)
  | random =>
    refine ⟨?_, fun fuel order isOrder domain => ?_, inTurns⟩
    · obtain ⟨order, yields⟩ := exists_yields_randomBody
        (orderedDomainNames domains domainOrder) rng (column domains) [] random
      obtain ⟨fuel, ran⟩ := LoopBody.execute_eq_some_iff.mpr yields
      exact ⟨fuel, order, (atRandom fuel).trans ran⟩
    · have yields := LoopBody.execute_eq_some_iff.mp ⟨fuel, (atRandom fuel).symm.trans isOrder⟩
      exact filter_eq_of_randomBody covers labelled yields domain
  | ratio =>
    refine ⟨?_, fun fuel order isOrder domain => ?_, inTurns⟩
    · obtain ⟨order, yields⟩ := exists_yields_ratioBody names perPass (column domains) []
      rw [← turns] at yields
      obtain ⟨fuel, ran⟩ := LoopBody.execute_eq_some_iff.mpr yields
      exact ⟨fuel, order, (inTurns fuel).trans ran⟩
    · have yields := LoopBody.execute_eq_some_iff.mp ⟨fuel, (inTurns fuel).symm.trans isOrder⟩
      rw [turns] at yields
      exact filter_eq_of_ratioBody names perPass covers labelled yields domain

/-- Each pass takes as many rows from every domain as its ratio says, or all it has left. -/
theorem takesInTurns_of_turnsBody (different : (domains.map Prod.fst).Nodup)
    (positive : ∀ domain count, valueAt domainRatio domain = some count → 0 < count)
    (labelled : ∀ domain, ∀ row ∈ column domains domain, row.category = domain)
    {domainOrder : List δ} {pass : ℕ}
    {state state' : Queues δ (BucketRow δ R ρ) × List (BucketRow δ R ρ)}
    (reached : (turnsBody domains domainRatio domainOrder).Reaches 0 (column domains, []) pass
      state)
    (goesOn : turnsBody domains domainRatio domainOrder pass state = .ok (.inl state')) :
    TakesInTurns BucketRow.category (rowsPerPass domainRatio) state state' := by
  have names := nodup_orderedDomainNames different domainOrder
  have covers : ∀ key, column domains key ≠ [] → key ∈ orderedDomainNames domains domainOrder :=
    fun _ someRow => (mem_orderedDomainNames different).mpr someRow
  have perPass : ∀ domain ∈ orderedDomainNames domains domainOrder,
      0 < rowsPerPass domainRatio domain := fun domain _ => rowsPerPass_pos positive domain
  rw [turnsBody_eq domainRatio different domainOrder] at reached goesOn
  have drains := drains_of_reaches_ratioBody names perPass covers labelled reached
  exact (takesInTurns_of_ratioBody names perPass covers drains goesOn).2

end Mixed

/-- **The training order ends and is a permutation of the rows, each domain in its own order.** -/
theorem trainOrder_of_positive {rows : List (Row δ R ρ)} (nonempty : rows ≠ [])
    {domainRatio : List (δ × ℤ)}
    (positive : ∀ domain count, valueAt domainRatio domain = some count → 0 < count)
    (schedule : Schedule) (domainBalance : Balance) (domainOrder : List δ) (random : σ) :
    ∃ assigned ordered, assignBuckets rows = .ok assigned ∧
      orderDomains rng schedule assigned.1 random = .ok ordered ∧
      (∃ fuel order, trainOrder rng fuel rows schedule domainBalance domainRatio domainOrder random =
        .ok (some order)) ∧
      (∀ fuel order, trainOrder rng fuel rows schedule domainBalance domainRatio domainOrder random =
          .ok (some order) →
        (order.map BucketRow.row).Perm rows ∧ ∀ domain,
          order.filter (fun row => row.category = domain) = column ordered.1 domain) ∧
      (schedule = .fourStage → ∀ domain, (column ordered.1 domain).Pairwise fun first second =>
        bucketOrder.idxOf first.bucket ≤ bucketOrder.idxOf second.bucket) ∧
      (∀ fuel, trainOrder rng fuel rows schedule .ratio domainRatio domainOrder random =
        (turnsBody ordered.1 domainRatio domainOrder).execute fuel 0 (column ordered.1, [])) ∧
      ∀ pass state state',
        (turnsBody ordered.1 domainRatio domainOrder).Reaches 0 (column ordered.1, []) pass state →
        turnsBody ordered.1 domainRatio domainOrder pass state = .ok (.inl state') →
        TakesInTurns BucketRow.category (rowsPerPass domainRatio) state state' := by
  obtain ⟨assigned, isAssigned, different, parts⟩ := exists_assignBuckets rows
  obtain ⟨ordered, isOrdered, related⟩ := exists_orderDomains schedule assigned.1 random
  let Ordered (domainRows ordered : List (BucketRow δ R ρ)) : Prop :=
    ordered.Perm domainRows ∧ (schedule = .fourStage → ordered.Pairwise fun first second =>
      bucketOrder.idxOf first.bucket ≤ bucketOrder.idxOf second.bucket)
  have keys : ordered.1.map Prod.fst = assigned.1.map Prod.fst := keys_of_forall₂ Ordered related
  have columns : ∀ domain, Ordered (column assigned.1 domain) (column ordered.1 domain) :=
    column_of_forall₂ Ordered ⟨List.Perm.refl [], fun _ => List.Pairwise.nil⟩ related
  have rowsOf : ∀ domain, ((column ordered.1 domain).map BucketRow.row).Perm
      (rows.filter fun row => row.category = domain) := by
    intro domain
    rw [← parts domain]
    exact (columns domain).1.map BucketRow.row
  have labelled : ∀ domain, ∀ row ∈ column ordered.1 domain, row.category = domain := by
    intro domain row isRow
    have isIn := (rowsOf domain).mem_iff.mp (mem_map_of_mem isRow)
    simpa [BucketRow.category] using (mem_filter.mp isIn).2
  have someRow : ∃ domain, column ordered.1 domain ≠ [] := by
    obtain ⟨row, isRow⟩ := exists_mem_of_ne_nil rows nonempty
    refine ⟨row.category, fun none => ?_⟩
    have isIn : row ∈ rows.filter fun other => other.category = row.category :=
      mem_filter.mpr ⟨isRow, by simp⟩
    have noRow := (rowsOf row.category).mem_iff.mpr isIn
    rw [none] at noRow
    cases noRow
  have whole : ∀ fuel balance, trainOrder rng fuel rows schedule balance domainRatio domainOrder
      random = interleaveDomains rng fuel ordered.1 balance
        (effectiveDomainRatio domainRatio (ordered.1.map Prod.fst)) ordered.2 domainOrder := by
    intro fuel balance
    rw [trainOrder, isAssigned, ok_bind]
    dsimp only
    rw [isOrdered, ok_bind, keys]
  rw [← keys] at different
  obtain ⟨ends, mixed, turns⟩ := interleaveDomains_of_positive different positive labelled someRow
    domainBalance ordered.2 domainOrder
  refine ⟨assigned, ordered, isAssigned, isOrdered, ?_, ?_, fun four domain => (columns domain).2 four,
    ?_, fun pass state state' => takesInTurns_of_turnsBody different positive labelled⟩
  · simpa only [whole] using ends
  · intro fuel order isOrder
    rw [whole] at isOrder
    have ofDomain := mixed fuel order isOrder
    refine ⟨perm_of_filter_perm Row.category fun domain => ?_, ofDomain⟩
    have kept : (order.map BucketRow.row).filter (fun row => row.category = domain) =
        (column ordered.1 domain).map BucketRow.row := by
      rw [← ofDomain domain, filter_map]
      rfl
    rw [kept]
    exact rowsOf domain
  · intro fuel
    rw [whole]
    exact turns fuel

end Pipeline

def fourRows : List (Row ℕ ℕ Unit) :=
  [⟨0, 3, 1, ()⟩, ⟨1, 5, 2, ()⟩, ⟨0, 7, 4, ()⟩, ⟨0, 1, 1, ()⟩]

/-- Rows of two domains are ordered in turns of two and one row. -/
theorem fourRows_ordered :
    ∃ fuel order, trainOrder firstRng fuel fourRows .curriculumMix .ratio [(0, 2)] [1, 7, 1] () =
      .ok (some order) := by
  have positive : ∀ domain count, valueAt [((0 : ℕ), (2 : ℤ))] domain = some count →
      0 < count := by
    intro domain count isCount
    rw [valueAt_cons, valueAt_nil] at isCount
    split at isCount
    · cases isCount
      decide
    · cases isCount
  have nonempty : fourRows ≠ [] := cons_ne_nil _ _
  obtain ⟨_, _, -, -, ends, -⟩ :=
    trainOrder_of_positive nonempty positive .curriculumMix .ratio [1, 7, 1] ()
  exact ends

end Geobench.Tools
