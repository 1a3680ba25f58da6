import Geobench.Library.Text

/-!
# Short names for layers

`find_layers` gives each module that satisfies a condition a name as short as can be: the last parts
of its own name, as many as are needed for no rejected module to end with them. Numbers before a dot
are the same as each other there (`normalized`).

A name that needs all its parts may still end the name of a rejected module. And the condition
rejects a module by its name with the numbers folded, but selects it by the name that it has.

**`findsExactly_iff`**: every selected module is matched in any case and the order of the rejected
ones does not matter. No other module is matched exactly where the parts that a selected module
shares with one that is not selected are never its whole name, and always end a rejected one.
-/

namespace Geobench.Utils

open Library List

/-! ## The search -/

/-- A module of a tree with its dotted name. The root has an empty name of one part. -/
structure NamedModule (μ : Type) where
  parents : List Text
  own : Text
  module : μ

/-- `name.split('.')` -/
def NamedModule.parts {μ : Type} (named : NamedModule μ) : List Text := named.parents ++ [named.own]

def dotted (parts : List Text) : Text := ['.'].intercalate parts

def foldDigits (isDigit : Char → Bool) (part : Text) : Text :=
  if part.rdropWhile isDigit = part then part else part.rdropWhile isDigit ++ "\x7b\x7d".toList

/-- `re.sub(r'\d+\.', '\x7b\x7d.', name)`, for the dotted name of some parts -/
def normalized (isDigit : Char → Bool) : List Text → Text
  | [] => []
  | [last] => last
  | part :: next :: rest =>
    foldDigits isDigit part ++ '.' :: normalized isDigit (next :: rest)

section Search

variable {μ : Type} (isDigit : Char → Bool) (cond : Text → μ → Bool)

/-- Lengthen a name while a rejected module ends with it. The parents come from the nearest on. -/
def extend (innerNode : Text) : List Text → List Text → List Text × List Text
  | [], name => ([], name)
  | parent :: parents, name =>
    if (normalized isDigit name).isSuffixOf innerNode then
      extend innerNode parents (parent :: name)
    else (parent :: parents, name)

/-- The short name of a module, for the rejected modules in the order of the set. -/
def targetName (innerNodes : List Text) (named : NamedModule μ) : List Text :=
  (innerNodes.foldl (fun state innerNode => extend isDigit innerNode state.1 state.2)
    (named.parents.reverse, [named.own])).2

/-- The modules that the condition rejects, by their names with the numbers folded. -/
def innerNodes (modules : List (NamedModule μ)) : List Text :=
  (modules.filter fun named => !cond (normalized isDigit named.parts) named.module).map fun named =>
    normalized isDigit named.parts

def NamedModule.isSelected (named : NamedModule μ) : Bool := cond (dotted named.parts) named.module

/-- `find_layers`, for the modules to be searched and an order of the rejected ones -/
def findLayers (innerNodes : List Text) (searched : List (NamedModule μ)) : List (List Text) :=
  (searched.filter (NamedModule.isSelected cond)).map (targetName isDigit innerNodes)

/-- Exactly the selected modules have a name that is, or ends with a dot and, a returned one. This is
so for every order in which the set of the rejected ones is gone through. -/
def FindsExactly (modules searched : List (NamedModule μ)) : Prop :=
  ∀ order, (∀ innerNode, innerNode ∈ order ↔ innerNode ∈ innerNodes isDigit cond modules) →
    (∀ named ∈ searched, named.isSelected cond = true →
      ∃ target ∈ findLayers isDigit cond order searched, target <:+ named.parts) ∧
    (∀ named ∈ modules, named.isSelected cond = false →
      ∀ target ∈ findLayers isDigit cond order searched, ¬ target <:+ named.parts) ∧
    findLayers isDigit cond order searched =
      findLayers isDigit cond (innerNodes isDigit cond modules) searched

end Search

/-! ## The short name -/

section Names

variable {isDigit : Char → Bool}

/-- Longer names end with the shorter ones. -/
theorem normalized_suffix {short long : List Text} (isSuffix : short <:+ long) :
    normalized isDigit short <:+ normalized isDigit long := by
  obtain ⟨before, rfl⟩ := isSuffix
  induction before with
  | nil => exact suffix_rfl
  | cons part before ih =>
    cases rest : before ++ short with
    | nil =>
      rw [(append_eq_nil_iff.mp rest).2]
      exact nil_suffix
    | cons next more =>
      rw [rest] at ih
      rw [cons_append, rest, normalized]
      exact ih.trans ((suffix_cons _ _).trans (suffix_append _ _))

/-- Some rejected module ends with the name. -/
def EndsRejected (isDigit : Char → Bool) (innerNodes : List Text) (name : List Text) : Prop :=
  ∃ innerNode ∈ innerNodes, normalized isDigit name <:+ innerNode

/-- The name has no more parts than needed. -/
structure IsTarget (isDigit : Char → Bool) (innerNodes : List Text) (parts name : List Text) :
    Prop where
  isSome : name ≠ []
  suffix : name <:+ parts
  needed : ∀ short, short ≠ [] → short <:+ name → short ≠ name →
    EndsRejected isDigit innerNodes short
  enough : name = parts ∨ ¬EndsRejected isDigit innerNodes name

variable {nodes others : List Text} {parts name : List Text}

theorem EndsRejected.mono (ends : EndsRejected isDigit nodes name)
    (included : ∀ innerNode ∈ nodes, innerNode ∈ others) : EndsRejected isDigit others name :=
  ends.imp fun innerNode isNode => ⟨included innerNode isNode.1, isNode.2⟩

/-- There is one such name, whatever the order of the rejected modules. -/
theorem IsTarget.unique {other : List Text} (isTarget : IsTarget isDigit nodes parts name)
    (isOther : IsTarget isDigit others parts other)
    (same : ∀ innerNode, innerNode ∈ nodes ↔ innerNode ∈ others) : name = other := by
  -- The shorter of the two would have to be longer.
  have notShorter : ∀ {nodes others : List Text} {short long : List Text},
      (∀ innerNode ∈ others, innerNode ∈ nodes) → IsTarget isDigit nodes parts short →
      IsTarget isDigit others parts long → short <:+ long → short = long := by
    intro nodes others short long included isShort isLong isSuffix
    by_contra different
    rcases isShort.enough with whole | free
    · exact different (isSuffix.eq_of_length_le (whole ▸ isLong.suffix.length_le))
    · exact free ((isLong.needed short isShort.isSome isSuffix different).mono included)
  rcases suffix_or_suffix_of_suffix isTarget.suffix isOther.suffix with shorter | longer
  · exact notShorter (fun innerNode => (same innerNode).mpr) isTarget isOther shorter
  · exact (notShorter (fun innerNode => (same innerNode).mp) isOther isTarget longer).symm

/-- The parents that are left and the name, after some of the rejected modules. -/
structure Lengthened (isDigit : Char → Bool) (all done : List Text) (parts : List Text)
    (state : List Text × List Text) : Prop where
  isSome : state.2 ≠ []
  whole : state.1.reverse ++ state.2 = parts
  needed : ∀ short, short ≠ [] → short <:+ state.2 → short ≠ state.2 →
    EndsRejected isDigit all short
  enough : state.1 = [] ∨ ¬EndsRejected isDigit done state.2

/-- One rejected module. The induction is on the parents that are left. -/
theorem Lengthened.extend {all done : List Text} {innerNode : Text} (isNode : innerNode ∈ all)
    {state : List Text × List Text} (lengthened : Lengthened isDigit all done parts state) :
    Lengthened isDigit all (done ++ [innerNode]) parts
      (extend isDigit innerNode state.1 state.2) := by
  obtain ⟨parents, name⟩ := state
  induction parents generalizing name with
  | nil => exact ⟨lengthened.isSome, lengthened.whole, lengthened.needed, .inl rfl⟩
  | cons parent parents ih =>
    have free := lengthened.enough.resolve_left (cons_ne_nil _ _)
    dsimp only at free
    rw [Utils.extend]
    split
    · rename_i ends
      refine ih (parent :: name) ⟨cons_ne_nil _ _, ?_, fun short isSome isSuffix other => ?_,
        .inr fun ⟨node, isDone, isEnd⟩ =>
          free ⟨node, isDone, (normalized_suffix (suffix_cons _ _)).trans isEnd⟩⟩
      · rw [← lengthened.whole, reverse_cons, append_assoc]
        rfl
      · rcases suffix_cons_iff.mp isSuffix with same | shorter
        · exact absurd same other
        · by_cases isName : short = name
          · exact ⟨innerNode, isNode, isName ▸ isSuffixOf_iff_suffix.mp ends⟩
          · exact lengthened.needed short isSome shorter isName
    · rename_i notEnd
      refine ⟨lengthened.isSome, lengthened.whole, lengthened.needed, .inr ?_⟩
      rintro ⟨node, isIn, isEnd⟩
      rcases mem_append.mp isIn with isDone | isLast
      · exact free ⟨node, isDone, isEnd⟩
      · rw [mem_singleton.mp isLast] at isEnd
        exact notEnd (isSuffixOf_iff_suffix.mpr isEnd)

theorem Lengthened.foldl {all done rest : List Text} (isAll : done ++ rest = all)
    {state : List Text × List Text} (lengthened : Lengthened isDigit all done parts state) :
    Lengthened isDigit all all parts (rest.foldl
      (fun state innerNode => Utils.extend isDigit innerNode state.1 state.2) state) := by
  induction rest generalizing done state with
  | nil => rwa [← isAll, append_nil] at lengthened ⊢
  | cons innerNode rest ih =>
    refine ih (by rw [← isAll, append_assoc]; rfl) (lengthened.extend ?_)
    rw [← isAll]
    exact mem_append_right _ mem_cons_self

theorem isTarget_targetName {μ : Type} (nodes : List Text) (named : NamedModule μ) :
    IsTarget isDigit nodes named.parts (targetName isDigit nodes named) := by
  have start : Lengthened isDigit nodes [] named.parts (named.parents.reverse, [named.own]) :=
    ⟨cons_ne_nil _ _, by rw [reverse_reverse]; rfl, fun short isSome isSuffix other =>
      ((suffix_cons_iff.mp isSuffix).resolve_left other |> suffix_nil.mp |> isSome).elim,
      .inr fun ⟨_, isIn, _⟩ => not_mem_nil isIn⟩
  obtain ⟨isSome, whole, needed, enough⟩ := start.foldl (nil_append nodes)
  refine ⟨isSome, ⟨_, whole⟩, needed, enough.imp_left fun none => ?_⟩
  rw [targetName, ← whole, none]
  rfl

end Names

/-! ## Which modules are matched -/

/-- What a selected module has in common with one that is not: never its whole name, and always what
a rejected module ends with. -/
def SharedEndsRejected {μ : Type} (isDigit : Char → Bool) (cond : Text → μ → Bool)
    (modules searched : List (NamedModule μ)) : Prop :=
  ∀ named ∈ searched, named.isSelected cond = true →
    ∀ other ∈ modules, other.isSelected cond = false →
      ∀ shared, shared ≠ [] → shared <:+ named.parts → shared <:+ other.parts →
        shared ≠ named.parts ∧ EndsRejected isDigit (innerNodes isDigit cond modules) shared

/-- **The names match exactly the selected modules where no shared part is left over.** -/
theorem findsExactly_iff {μ : Type} (isDigit : Char → Bool) (cond : Text → μ → Bool)
    (modules searched : List (NamedModule μ)) :
    FindsExactly isDigit cond modules searched ↔
      SharedEndsRejected isDigit cond modules searched := by
  constructor
  · intro exact named isNamed selected other isOther rejected shared isSome inNamed inOther
    obtain ⟨-, sound, -⟩ := exact (innerNodes isDigit cond modules) fun _ => Iff.rfl
    have isTarget := @isTarget_targetName isDigit _ (innerNodes isDigit cond modules) named
    have unmatched := sound other isOther rejected _
      (mem_map_of_mem (mem_filter.mpr ⟨isNamed, selected⟩))
    -- The short name is longer than what is shared.
    have longer : shared <:+ targetName isDigit (innerNodes isDigit cond modules) named ∧
        shared ≠ targetName isDigit (innerNodes isDigit cond modules) named := by
      rcases suffix_or_suffix_of_suffix inNamed isTarget.suffix with longer | shorter
      · exact ⟨longer, fun same => unmatched (same ▸ inOther)⟩
      · exact absurd (shorter.trans inOther) unmatched
    refine ⟨?_, isTarget.needed shared isSome longer.1 longer.2⟩
    rintro rfl
    exact longer.2 (longer.1.eq_of_length_le isTarget.suffix.length_le)
  · intro shared order same
    have targets : ∀ named : NamedModule μ, targetName isDigit order named =
        targetName isDigit (innerNodes isDigit cond modules) named := fun named =>
      (isTarget_targetName order named).unique (isTarget_targetName _ named) same
    refine ⟨fun named isNamed selected => ⟨_,
      mem_map_of_mem (mem_filter.mpr ⟨isNamed, selected⟩),
      (isTarget_targetName order named).suffix⟩, ?_, map_congr_left fun named _ =>
        targets named⟩
    intro other isOther rejected target isTarget matched
    obtain ⟨named, isNamed, rfl⟩ := mem_map.mp isTarget
    obtain ⟨isSearched, selected⟩ := mem_filter.mp isNamed
    have short := @isTarget_targetName isDigit _ order named
    obtain ⟨notWhole, ends⟩ := shared named isSearched selected other isOther rejected _
      short.isSome short.suffix matched
    exact (short.enough.resolve_left notWhole) (ends.mono fun node => (same node).mpr)

/-- A layer `fc` of the root and a rejected `block.fc`. The module is whether it is linear. -/
def rootLayer : List (NamedModule Bool) :=
  [⟨[], [], false⟩, ⟨[], "fc".toList, true⟩, ⟨[], "block".toList, false⟩,
    ⟨["block".toList], "fc".toList, false⟩]

/-- The name `fc` cannot be longer, so that it is a name of `block.fc` too. -/
theorem rootLayer_matches_block :
    ¬FindsExactly Char.isDigit (fun _ isLinear => isLinear) rootLayer rootLayer := by
  intro exact
  obtain ⟨-, sound, -⟩ := exact (innerNodes Char.isDigit (fun _ isLinear => isLinear) rootLayer)
    fun _ => Iff.rfl
  exact sound ⟨["block".toList], "fc".toList, false⟩ (by simp [rootLayer]) rfl ["fc".toList]
    (by decide) ⟨["block".toList], rfl⟩

end Geobench.Utils
