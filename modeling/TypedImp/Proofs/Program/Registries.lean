import Mathlib.Data.List.Induction
import TypedImp.Registry
import TypedImp.Specialization.Program

/-!
# First definitions are kept

Of definitions that are added one after the other a scope and a registry keep those whose name is
new.  The index of a registry is in step with its definitions: it leads from each name to the place
where a search of the list ends.  An insertion keeps it so, whether it is accepted or not, and so
does every change of the definitions that keeps their names, such as the specialization of the
functions of a program: `first_definitions_kept`.
-/

namespace TypedImp

variable {α β ω ε : Type} [Named α] [Named β]

namespace Named

/-- The name that an item defines. -/
abbrev nameOf (item : α) : String :=
  (ident item).name

/-- Search a list for the definition of a name, from its front on. -/
def search (definitions : List α) (name : String) : Option α :=
  definitions.find? fun definition => nameOf definition = name

/-- The items whose name no item before them has, in their order. -/
def firsts (items : List α) : List α :=
  (items.zipIdx.filter fun (item, place) =>
    (search (items.take place) (nameOf item)).isNone).map Prod.fst

theorem search_append (first second : List α) (name : String) :
    search (first ++ second) name = (search first name).or (search second name) :=
  List.find?_append

theorem search_singleton (definition : α) (name : String) :
    search [definition] name = if nameOf definition = name then some definition else none := by
  simp [search, List.find?_singleton]

/-- One item more is kept if no item before it has its name. -/
theorem firsts_concat (items : List α) (last : α) :
    firsts (items ++ [last]) =
      firsts items ++ if search items (nameOf last) = none then [last] else [] := by
  have earlier : ∀ entry ∈ items.zipIdx,
      (search ((items ++ [last]).take entry.2) (nameOf entry.1)).isNone =
        (search (items.take entry.2) (nameOf entry.1)).isNone := by
    intro entry member
    rw [List.take_append_of_le_length (Nat.le_of_lt (List.snd_lt_of_mem_zipIdx member))]
  rw [firsts, List.zipIdx_append, List.filter_append, List.map_append, List.filter_congr earlier]
  refine congrArg (firsts items ++ ·) ?_
  cases found : search items (nameOf last) <;> simp [found]

/-- Searching the kept items finds what searching all items finds. -/
theorem search_firsts (items : List α) (name : String) :
    search (firsts items) name = search items name := by
  induction items using List.reverseRecOn with
  | nil => rfl
  | append_singleton items last ih =>
    rw [firsts_concat, search_append, search_append, ih]
    by_cases fresh : search items (nameOf last) = none
    · rw [if_pos fresh]
    · -- A search for the name of the last item does not reach it.
      rw [if_neg fresh, search_singleton]
      by_cases same : nameOf last = name
      · obtain ⟨first, found⟩ := Option.ne_none_iff_exists'.mp (same ▸ fresh)
        simp [found]
      · simp [same, search]

/-- The place of the first definition of a name is where a search for the name ends. -/
theorem exists_search_of_findIdx? {definitions : List α} {name : String} {place : Nat}
    (found : definitions.findIdx? (fun definition => nameOf definition = name) = some place) :
    ∃ definition, definitions[place]? = some definition ∧
      search definitions name = some definition := by
  obtain ⟨within, isNamed, noEarlier⟩ := List.findIdx?_eq_some_iff_getElem.mp found
  refine ⟨definitions[place], List.getElem?_eq_getElem within, ?_⟩
  refine List.find?_eq_some_iff_getElem.mpr ⟨isNamed, place, within, rfl, fun earlier before => ?_⟩
  simpa using noEarlier earlier before

theorem findIdx?_eq_none_iff_search {definitions : List α} {name : String} :
    definitions.findIdx? (fun definition => nameOf definition = name) = none ↔
      search definitions name = none := by
  rw [List.findIdx?_eq_none_iff, search, List.find?_eq_none]
  simp

end Named

open Named (nameOf search firsts)

namespace Definitions

/-- Add a definition to a scope, which stays as it is if the name is defined. -/
def add (definitions : Definitions α) (definition : α) : Definitions α :=
  match definitions.insert definition with
  | .ok extended => extended
  | .error _ => definitions

/-- Add definitions one after the other to an empty scope. -/
def ofInsertions (items : List α) : Definitions α :=
  items.foldl add empty

/-- An insertion succeeds exactly if a search does not find the name, and adds at the end. -/
theorem insert_cases (definitions : Definitions α) (definition : α) :
    (∃ earlier, search definitions.toList (nameOf definition) = some earlier ∧
      definitions.insert definition = .error earlier) ∨
    (search definitions.toList (nameOf definition) = none ∧
      ∃ extended, definitions.insert definition = .ok extended ∧
        extended.toList = definitions.toList ++ [definition]) := by
  cases found : search definitions.toList (nameOf definition) with
  | some earlier => exact .inl ⟨earlier, rfl, insert_eq_error_iff.mpr found⟩
  | none =>
    cases inserted : definitions.insert definition with
    | error earlier =>
      have isThere := insert_eq_error_iff.mp inserted
      rw [get?, ← search, found] at isThere
      cases isThere
    | ok extended => exact .inr ⟨rfl, extended, rfl, toList_insert inserted⟩

/-- A scope holds the first definitions of the names. -/
theorem toList_ofInsertions (items : List α) : (ofInsertions items).toList = firsts items := by
  induction items using List.reverseRecOn with
  | nil => rfl
  | append_singleton items last ih =>
    rw [Named.firsts_concat, ← Named.search_firsts, ← ih, ofInsertions, List.foldl_append]
    change (add (ofInsertions items) last).toList = _
    rcases insert_cases (ofInsertions items) last with
      ⟨earlier, known, refused⟩ | ⟨fresh, extended, accepted, added⟩
    · rw [add, refused, known, if_neg nofun, List.append_nil]
    · rw [add, accepted, if_pos fresh, added]

end Definitions

namespace Registry

/-- The index is in step with the definitions: it leads from each name to the place where a search
for it ends. -/
def InStep (registry : Registry α) : Prop :=
  ∀ name, registry.index.get? name =
    registry.list.findIdx? fun definition => nameOf definition = name

/-- What the index leads to is what a search finds. -/
theorem InStep.get?_eq {registry : Registry α} (inStep : registry.InStep) (name : String) :
    registry.get? name = (search registry.list name).map some := by
  rw [get?, inStep name]
  cases found : registry.list.findIdx? fun definition => nameOf definition = name with
  | none =>
    rw [Named.findIdx?_eq_none_iff_search.mp found]
    rfl
  | some place =>
    obtain ⟨definition, atPlace, isFound⟩ := Named.exists_search_of_findIdx? found
    rw [isFound, Option.map_some, Option.map_some, atPlace]

/-- An insertion is decided by a search, if the index is in step. -/
theorem InStep.insert_eq {registry : Registry α} (inStep : registry.InStep) (definition : α) :
    registry.insert definition =
      match search registry.list (nameOf definition) with
      | some earlier => (.taken (Named.ident earlier), registry)
      | none =>
        (.added, ⟨registry.list ++ [definition],
          registry.index.insert (nameOf definition) registry.list.length⟩) := by
  rw [Registry.insert, inStep.get?_eq]
  cases search registry.list (nameOf definition) <;> rfl

theorem inStep_empty : (empty : Registry α).InStep :=
  fun _ => rfl

/-- An insertion keeps the index in step. -/
theorem InStep.insert {registry : Registry α} (inStep : registry.InStep) (definition : α) :
    (registry.insert definition).2.InStep := by
  rw [inStep.insert_eq]
  cases found : search registry.list (nameOf definition) with
  | some earlier => exact inStep
  | none =>
    intro name
    rw [NameMap.get?_insert, List.findIdx?_append, inStep name]
    by_cases same : name = nameOf definition
    · subst same
      rw [Named.findIdx?_eq_none_iff_search.mpr found]
      simp
    · simp [same, Ne.symm same]

/-- Register definitions one after the other in an empty registry. -/
def ofInsertions (items : List α) : Registry α :=
  items.foldl (fun registry definition => (registry.insert definition).2) empty

theorem ofInsertions_concat (items : List α) (last : α) :
    ofInsertions (items ++ [last]) = ((ofInsertions items).insert last).2 := by
  rw [ofInsertions, List.foldl_append]
  rfl

/-- The index of a registry is in step with its definitions, whatever was registered. -/
theorem inStep_ofInsertions (items : List α) : (ofInsertions items).InStep := by
  induction items using List.reverseRecOn with
  | nil => exact inStep_empty
  | append_singleton items last ih =>
    rw [ofInsertions_concat]
    exact ih.insert last

/-- A registry holds the first definitions of the names. -/
theorem list_ofInsertions (items : List α) : (ofInsertions items).list = firsts items := by
  induction items using List.reverseRecOn with
  | nil => rfl
  | append_singleton items last ih =>
    rw [ofInsertions_concat, (inStep_ofInsertions items).insert_eq, Named.firsts_concat, ih,
      Named.search_firsts]
    cases search items (nameOf last) with
    | some earlier => simpa using ih
    | none => rfl

end Registry

section Changes

theorem Recorded.map_outcome_eq_ok_iff {γ δ : Type} {f : γ → δ} {computation : Recorded ω ε γ}
    {result : δ} :
    (f <$> computation).outcome = .ok result ↔
      ∃ value, computation.outcome = .ok value ∧ f value = result := by
  rw [← bind_pure_comp, bind_outcome_eq_ok_iff]
  simp

/-- Items that are changed one after the other keep their names if each change keeps the name. -/
theorem Recorded.map_nameOf_mapM {f : α → Recorded ω ε β}
    (keepsName : ∀ item changed, (f item).outcome = .ok changed → nameOf changed = nameOf item)
    {items : List α} {rebuilt : List β} (done : (items.mapM f).outcome = .ok rebuilt) :
    rebuilt.map nameOf = items.map nameOf := by
  induction items generalizing rebuilt with
  | nil =>
    cases done
    rfl
  | cons first rest ih =>
    rw [List.mapM_cons] at done
    obtain ⟨changed, firstDone, remaining⟩ := bind_outcome_eq_ok_iff.mp done
    obtain ⟨following, restDone, final⟩ := bind_outcome_eq_ok_iff.mp remaining
    cases final
    rw [List.map_cons, List.map_cons, keepsName first changed firstDone, ih restDone]

namespace Registry

/-- Only the names of the definitions matter to the index. -/
theorem InStep.of_names {registry : Registry α} {rebuilt : Registry β} (inStep : registry.InStep)
    (sameIndex : rebuilt.index = registry.index)
    (sameNames : rebuilt.list.map nameOf = registry.list.map nameOf) : rebuilt.InStep := by
  intro name
  have places := congrArg (List.findIdx? fun other => other = name) sameNames
  rw [List.findIdx?_map, List.findIdx?_map] at places
  rw [sameIndex, inStep name]
  exact places.symm

/-- A change of the definitions reuses the index, and keeps the names in their order if it keeps
each of them. -/
theorem tryMap_eq_ok {registry : Registry α} {rebuilt : Registry β} {f : α → Recorded ω ε β}
    (keepsName : ∀ item changed, (f item).outcome = .ok changed → nameOf changed = nameOf item)
    (done : (registry.tryMap f).outcome = .ok rebuilt) :
    rebuilt.index = registry.index ∧ rebuilt.list.map nameOf = registry.list.map nameOf := by
  obtain ⟨list, listed, final⟩ := Recorded.bind_outcome_eq_ok_iff.mp done
  cases final
  exact ⟨rfl, Recorded.map_nameOf_mapM keepsName listed⟩

end Registry

/-- The definitions of a scope are changed one after the other. -/
theorem Definitions.toList_traverse {γ : Type} (definitions : Definitions α)
    (compute : α → Recorded ω ε γ) (rebuild : α → γ → β)
    (keepsName : ∀ item part, Named.ident (rebuild item part) = Named.ident item) :
    toList <$> definitions.traverse compute rebuild keepsName =
      definitions.toList.mapM fun item => rebuild item <$> compute item := by
  have listed (items : List α) : traverseList compute rebuild items =
      items.mapM fun item => rebuild item <$> compute item := by
    induction items with
    | nil => rfl
    | cons first rest ih => simp [traverseList, ih]
  rw [← listed, traverse]
  split
  case _ rebuilt done => exact congrArg₂ Recorded.mk (List.append_nil _) done.symm
  case _ error failed => exact congrArg (Recorded.mk _) failed.symm

/-- Specialize a function of a program. -/
def Program.specializeFunction (program : Program Unit) (globals : TypeMap)
    (function : Function Unit) : Specializing (Function Ty) :=
  function.withBody <$>
    (⟨program.functions, globals.inFunction function⟩ : Scope Unit).specializeStmts function.body

/-- The functions of a program are specialized as those of a registry are changed. -/
theorem Registry.tryMap_specializeFunction {program : Program Unit} (globals : TypeMap)
    {registry : Registry (Function Unit)} (listed : registry.list = program.functions.toList) :
    list <$> registry.tryMap (program.specializeFunction globals) =
      (fun specialized => specialized.functions.toList) <$> program.specialize globals := by
  have changed := program.functions.toList_traverse
    (fun function => (⟨program.functions, globals.inFunction function⟩ :
      Scope Unit).specializeStmts function.body) Function.withBody fun _ _ => rfl
  rw [tryMap, listed, Program.specialize]
  simp only [map_bind, map_pure, bind_pure]
  rw [bind_pure_comp]
  exact changed.symm

/-- The specialized form of a function has its name. -/
theorem Program.nameOf_specializeFunction {program : Program Unit} {globals : TypeMap}
    {function : Function Unit} {specialized : Function Ty}
    (done : (program.specializeFunction globals function).outcome = .ok specialized) :
    nameOf specialized = nameOf function := by
  obtain ⟨body, _, rfl⟩ := Recorded.map_outcome_eq_ok_iff.mp done
  rfl

end Changes

/-- A scope holds the first definition of each name: it finds them, refuses a name that is defined
with the definition that it has, and takes any other at its end. -/
structure Definitions.KeepsFirst (items : List α) (scope : Definitions α) : Prop where
  toList_eq : scope.toList = firsts items
  get?_eq : ∀ name, scope.get? name = search items name
  refused_iff : ∀ definition earlier,
    scope.insert definition = .error earlier ↔ search items (nameOf definition) = some earlier
  accepted : ∀ definition, search items (nameOf definition) = none →
    ∃ extended, scope.insert definition = .ok extended ∧
      extended.toList = scope.toList ++ [definition]

/-- A registry holds the first definition of each name, with an index that is in step.  It finds
what a search of its list finds.  A definition whose name it has is answered with the earlier one
and changes nothing; any other comes to the end of the list, and the index gets its place. -/
structure Registry.KeepsFirst (items : List α) (registry : Registry α) : Prop where
  list_eq : registry.list = firsts items
  inStep : registry.InStep
  get?_eq : ∀ name, registry.get? name = (search registry.list name).map some
  insert_eq : ∀ definition, registry.insert definition =
    match search registry.list (nameOf definition) with
    | some earlier => (.taken (Named.ident earlier), registry)
    | none =>
      (.added, ⟨registry.list ++ [definition],
        registry.index.insert (nameOf definition) registry.list.length⟩)

theorem Definitions.keepsFirst_ofInsertions (items : List α) :
    KeepsFirst items (ofInsertions items) := by
  have found (name : String) : search (ofInsertions items).toList name = search items name := by
    rw [toList_ofInsertions, Named.search_firsts]
  refine ⟨toList_ofInsertions items, found, fun definition earlier => ?_, fun definition new => ?_⟩
  · rw [insert_eq_error_iff, ← found]
    rfl
  · rcases insert_cases (ofInsertions items) definition with
      ⟨earlier, known, _⟩ | ⟨_, extended, accepted, added⟩
    · rw [found, new] at known
      cases known
    · exact ⟨extended, accepted, added⟩

theorem Registry.keepsFirst_ofInsertions (items : List α) :
    KeepsFirst items (ofInsertions items) where
  list_eq := list_ofInsertions items
  inStep := inStep_ofInsertions items
  get?_eq := (inStep_ofInsertions items).get?_eq
  insert_eq := (inStep_ofInsertions items).insert_eq

/-- Scopes and registries keep the first definition of each name, whatever is added to them.  A
change of the definitions of a registry that keeps their names reuses the index, which stays in
step.  The specialization of a program is such a change: the functions keep their names and their
order, and a registry of the functions is changed to one of the specialized functions. -/
theorem first_definitions_kept :
    (∀ items : List α, Definitions.KeepsFirst items (Definitions.ofInsertions items) ∧
      Registry.KeepsFirst items (Registry.ofInsertions items)) ∧
    (∀ (registry : Registry α) (rebuilt : Registry β) (f : α → Recorded ω ε β), registry.InStep →
      (∀ item changed, (f item).outcome = .ok changed → nameOf changed = nameOf item) →
      (registry.tryMap f).outcome = .ok rebuilt →
      rebuilt.InStep ∧ rebuilt.index = registry.index ∧
        rebuilt.list.map nameOf = registry.list.map nameOf) ∧
    ∀ (program : Program Unit) (globals : TypeMap) (registry : Registry (Function Unit)),
      registry.InStep → registry.list = program.functions.toList →
      Registry.list <$> registry.tryMap (program.specializeFunction globals) =
          (fun specialized => specialized.functions.toList) <$> program.specialize globals ∧
        ∀ specialized, (program.specialize globals).outcome = .ok specialized →
          specialized.functions.toList.map nameOf = program.functions.toList.map nameOf ∧
          ∃ rebuilt, (registry.tryMap (program.specializeFunction globals)).outcome = .ok rebuilt ∧
            rebuilt.list = specialized.functions.toList ∧ rebuilt.index = registry.index ∧
            rebuilt.InStep := by
  refine ⟨fun items => ⟨Definitions.keepsFirst_ofInsertions items,
    Registry.keepsFirst_ofInsertions items⟩, fun registry rebuilt f inStep keepsName done => ?_,
    fun program globals registry inStep listed => ?_⟩
  · obtain ⟨sameIndex, sameNames⟩ := Registry.tryMap_eq_ok keepsName done
    exact ⟨inStep.of_names sameIndex sameNames, sameIndex, sameNames⟩
  · have changed := Registry.tryMap_specializeFunction globals listed
    refine ⟨changed, fun specialized done => ?_⟩
    have listDone : (Registry.list <$> registry.tryMap
        (program.specializeFunction globals)).outcome = .ok specialized.functions.toList := by
      rw [changed]
      exact Recorded.map_outcome_eq_ok_iff.mpr ⟨specialized, done, rfl⟩
    obtain ⟨rebuilt, rebuiltDone, sameList⟩ := Recorded.map_outcome_eq_ok_iff.mp listDone
    obtain ⟨sameIndex, sameNames⟩ :=
      Registry.tryMap_eq_ok (fun _ _ => Program.nameOf_specializeFunction) rebuiltDone
    refine ⟨?_, rebuilt, rebuiltDone, sameList, sameIndex, inStep.of_names sameIndex sameNames⟩
    rw [← sameList, ← listed, sameNames]

/-- A second function `f` is refused with the name of the first one.  In the body of `main` a cast
is inserted, and the index of the two functions still leads to them. -/
theorem first_definitions_kept_of_second_function :
    let f : Function Unit := ⟨.void, ⟨"f", ⟨5, 1, by decide⟩⟩, .empty, .empty, []⟩
    let main : Function Unit := ⟨.int, ⟨"main", ⟨16, 4, by decide⟩⟩, .empty, .empty,
      [.assign ⟨"x", Span.emptyAt 25⟩ (.literal (.int 1) (Span.emptyAt 29))]⟩
    let second : Function Unit := ⟨.int, ⟨"f", ⟨36, 1, by decide⟩⟩, .empty, .empty, []⟩
    let globals : TypeMap := NameMap.empty.insert "x" .float
    let program : Program Unit := ⟨.empty, Definitions.ofInsertions [f, main, second]⟩
    let registry := Registry.ofInsertions [f, main, second]
    registry.InStep ∧ registry.list.map nameOf = ["f", "main"] ∧
      registry.insert second = (.taken ⟨"f", ⟨5, 1, by decide⟩⟩, registry) ∧
      ∃ specialized, (program.specialize globals).outcome = .ok specialized ∧
        ∃ rebuilt, (registry.tryMap (program.specializeFunction globals)).outcome = .ok rebuilt ∧
          rebuilt.InStep ∧ rebuilt.list.map nameOf = ["f", "main"] ∧
          rebuilt.get? "main" = (search specialized.functions.toList "main").map some := by
  intro f main second globals program registry
  obtain ⟨kept, -, specializes⟩ := @first_definitions_kept (Function Unit) (Function Ty)
    SpecializationEvent (Spanned SpecializationError) _ _
  obtain ⟨scopeKeeps, registryKeeps⟩ := kept [f, main, second]
  have listed : registry.list = program.functions.toList :=
    registryKeeps.list_eq.trans scopeKeeps.toList_eq.symm
  have names : registry.list.map nameOf = ["f", "main"] := by
    rw [registryKeeps.list_eq]
    decide +kernel
  obtain ⟨specialized, done⟩ :
      ∃ specialized, (program.specialize globals).outcome = .ok specialized := ⟨_, rfl⟩
  obtain ⟨_, rebuiltOf⟩ := specializes program globals registry registryKeeps.inStep listed
  obtain ⟨sameNames, rebuilt, rebuiltDone, sameList, _, inStep⟩ := rebuiltOf specialized done
  refine ⟨registryKeeps.inStep, names, ?_, specialized, done, rebuilt, rebuiltDone, inStep, ?_, ?_⟩
  · rw [registryKeeps.insert_eq, registryKeeps.list_eq, Named.search_firsts]
    rfl
  · rw [sameList, sameNames, ← listed, names]
  · rw [inStep.get?_eq, sameList]

end TypedImp
