import TypedClient.Proofs.Store.Order

/-! Errors in the graph of a store. A struct that becomes an error passes its place in the graph on
to its body, under the name of the body; the error itself only leads to the body. What has no fields
of its own keeps its place. -/
namespace TypedClient

def renamed (old new name : String) : String :=
  if name = old then new else name

@[simp] theorem renamed_self (old new : String) : renamed old new old = new := by
  simp [renamed]

theorem renamed_of_ne {old new name : String} (other : name ≠ old) : renamed old new name = name := by
  simp [renamed, other]

def Declaration.flagged (d : Declaration) : Declaration :=
  { d with errorVariant := true }

/-- The declaration has fields of its own, which an error moves to a body. -/
def Declaration.Movable (d : Declaration) : Prop :=
  d.kind = .struct ∨ d.kind = .classStruct

namespace Store

variable {store : Store} {name : String} {d : Declaration}

theorem asError_of_movable (movable : d.Movable) :
    store.asError d = (store.flagError d.name).wrapBody d :=
  if_pos movable

theorem asError_of_not_movable (fixed : ¬ d.Movable) : store.asError d = store.flagError d.name :=
  if_neg fixed

section Flag

theorem declarations_flagError : (store.flagError name).declarations =
    store.declarations.map fun d => if d.name == name then d.flagged else d :=
  rfl

theorem aliases_flagError : (store.flagError name).aliases = store.aliases := by
  simp only [aliases, declarations_flagError, List.filterMap_map]
  refine List.filterMap_congr fun d _ => ?_
  cases own : d.name == name <;> simp only [Function.comp_apply, own] <;> rfl

/-- The flag of an error does not show in the graph. -/
theorem graph_flagError (store : Store) (name : String) :
    (store.flagError name).graph = store.graph := by
  have depends (d : Declaration) : (store.flagError name).dependsOn
      (if d.name == name then d.flagged else d) = store.dependsOn d := by
    simp only [dependsOn, aliases_flagError]
    split <;> rfl
  have kept (d : Declaration) : (if d.name == name then d.flagged else d).name = d.name ∧
      (if d.name == name then d.flagged else d).order = d.order := by
    split <;> exact ⟨rfl, rfl⟩
  unfold graph
  rw [declarations_flagError, List.foldl_map]
  simp only [depends, kept]

/-- What is flagged already stays as it is. -/
theorem flagError_eq_self
    (flagged : ∀ d ∈ store.declarations, d.name = name → d.errorVariant = true) :
    store.flagError name = store := by
  have same : (store.flagError name).declarations = store.declarations := by
    rw [declarations_flagError]
    refine (List.map_congr_left fun d member => ?_).trans (List.map_id _)
    split
    · rename_i own
      have old : d.flagged = d := by
        rw [Declaration.flagged, ← flagged d member (eq_of_beq own)]
      exact old
    · rfl
  calc store.flagError name
    _ = { store with declarations := (store.flagError name).declarations } := rfl
    _ = store := by rw [same]

end Flag

section Wrap

/-- The struct that takes over the fields, as it is registered. -/
def bodyOf (store : Store) (d : Declaration) : Declaration :=
  { (store.flagError d.name).bodyFor d with order := store.counter }

theorem bodyOf_fresh (store : Store) (d : Declaration) : (store.bodyOf d).name ∉ store.names := by
  have fresh := bodyFor_fresh (store.flagError d.name) d
  rwa [names_flagError] at fresh

/-- An error adds its body and changes nothing but itself. -/
theorem declarations_asError (movable : d.Movable) (declared : d.name ∈ store.names) :
    (store.asError d).declarations = store.declarations.map
      (fun e => if e.name = d.name then e.flagged.over (store.bodyOf d).name else e) ++
        [store.bodyOf d] := by
  have fresh := bodyFor_fresh (store.flagError d.name) d
  have other : ¬ (store.bodyOf d).name = d.name :=
    fun same => bodyOf_fresh store d (same.symm ▸ declared)
  rw [asError_of_movable movable, wrapBody]
  simp only [update, declarations_register fresh, List.map_append, List.map_cons, List.map_nil]
  congr 1
  · rw [declarations_flagError, List.map_map]
    refine List.map_congr_left fun e _ => ?_
    by_cases own : e.name = d.name
    · simp [own, Declaration.flagged, bodyOf]
    · simp [own]
  · exact congrArg (fun e => [e]) (if_neg (by simpa [bodyOf] using other))

variable (sound : store.Sound) (member : d ∈ store.declarations) (movable : d.Movable)
include sound member movable

theorem body_of_movable : d.body = none := by
  rw [← Option.not_isSome_iff_eq_none, ← sound.tagged d member]
  rcases movable with kind | kind <;> simp [kind]

theorem mem_asError {e : Declaration} : e ∈ (store.asError d).declarations ↔
    (e ∈ store.declarations ∧ e.name ≠ d.name) ∨
      e = d.flagged.over (store.bodyOf d).name ∨ e = store.bodyOf d := by
  rw [declarations_asError movable (mem_names_of_mem member), List.mem_append, List.mem_map,
    List.mem_singleton, ← or_assoc]
  refine or_congr_left ⟨?_, ?_⟩
  · rintro ⟨old, listed, rfl⟩
    by_cases own : old.name = d.name
    · obtain rfl := List.inj_on_of_nodup_map sound.distinct listed member own
      simp
    · simp [own, listed]
  · rintro (⟨listed, other⟩ | rfl)
    · exact ⟨e, listed, by simp [other]⟩
    · exact ⟨d, member, by simp⟩

/-- References to the error lead to its body, and all others where they led. -/
theorem target_asError (unwrapped : ∀ e ∈ store.declarations, e.body ≠ some d.name) (ref : String) :
    (store.asError d).target ref = renamed d.name (store.bodyOf d).name (store.target ref) := by
  have soundAfter := (asError_evolves sound member).sound
  have bodiless := body_of_movable sound member movable
  by_cases own : ref = d.name
  · subst own
    have stays : store.target d.name = d.name := by
      rcases target_cases sound d.name with ⟨e, listed, named, wraps⟩ | ⟨same, _⟩
      · obtain rfl := List.inj_on_of_nodup_map sound.distinct listed member named
        simp [bodiless] at wraps
      · exact same
    have leads : (store.asError d).aliases.lookup d.name = some (store.bodyOf d).name :=
      (lookup_aliases soundAfter).mpr
        ⟨_, (mem_asError sound member movable).mpr (.inr (.inl rfl)), rfl, rfl⟩
    rw [stays, renamed_self, target, leads, Option.getD_some]
  · have same : (store.asError d).aliases.lookup ref = store.aliases.lookup ref := by
      refine Option.ext fun body => ?_
      rw [lookup_aliases soundAfter, lookup_aliases sound]
      constructor
      · rintro ⟨e, listed, rfl, wraps⟩
        rcases (mem_asError sound member movable).mp listed with ⟨old, _⟩ | rfl | rfl
        · exact ⟨e, old, rfl, wraps⟩
        · exact absurd rfl own
        · cases wraps
      · rintro ⟨e, listed, rfl, wraps⟩
        exact ⟨e, (mem_asError sound member movable).mpr (.inl ⟨listed, own⟩), rfl, wraps⟩
    have elsewhere : store.target ref ≠ d.name := by
      rcases target_cases sound ref with ⟨e, listed, _, wraps⟩ | ⟨stays, _⟩
      · exact fun led => unwrapped e listed (led ▸ wraps)
      · rwa [stays]
    rw [renamed_of_ne elsewhere, target, target, same]

/-- What a declaration depends on is renamed, as long as it has no body or another one. -/
theorem mem_dependsOn_asError (unwrapped : ∀ e ∈ store.declarations, e.body ≠ some d.name)
    {e : Declaration} (other : e.body ≠ some d.name) {dep : String} :
    dep ∈ (store.asError d).dependsOn e ↔
      ∃ old ∈ store.dependsOn e, renamed d.name (store.bodyOf d).name old = dep := by
  simp only [mem_dependsOn, target_asError sound member movable unwrapped]
  constructor
  · rintro (⟨ref, listed, rfl⟩ | wraps)
    · exact ⟨_, .inl ⟨ref, listed, rfl⟩, rfl⟩
    · exact ⟨dep, .inr wraps, renamed_of_ne fun same => other (same ▸ wraps)⟩
  · rintro ⟨old, ⟨ref, listed, rfl⟩ | wraps, rfl⟩
    · exact .inl ⟨ref, listed, rfl⟩
    · have stays : old ≠ d.name := fun same => other (same ▸ wraps)
      exact .inr (by rwa [renamed_of_ne stays])

/-- The body stands in the place of the error, which only leads to it. -/
theorem edge_asError (unwrapped : ∀ e ∈ store.declarations, e.body ≠ some d.name) {a b : String} :
    (store.asError d).graph.Edge a b ↔
      (∃ a' b', store.graph.Edge a' b' ∧ renamed d.name (store.bodyOf d).name a' = a ∧
        renamed d.name (store.bodyOf d).name b' = b) ∨ (a = d.name ∧ b = (store.bodyOf d).name) := by
  have soundAfter := (asError_evolves sound member).sound
  have depends {e : Declaration} (other : e.body ≠ some d.name) {dep : String} :
      dep ∈ (store.asError d).dependsOn e ↔
        ∃ old ∈ store.dependsOn e, renamed d.name (store.bodyOf d).name old = dep :=
    mem_dependsOn_asError sound member movable unwrapped other
  have bodiless := body_of_movable sound member movable
  -- the body has the references of the error and no body of its own
  have taken (dep : String) : dep ∈ store.dependsOn (store.bodyOf d) ↔ dep ∈ store.dependsOn d := by
    rw [mem_dependsOn, mem_dependsOn, bodiless]
    exact Iff.rfl
  rw [edge_graph soundAfter]
  constructor
  · rintro ⟨e, listed, rfl, dep⟩
    rcases (mem_asError sound member movable).mp listed with ⟨old, apart⟩ | rfl | rfl
    · obtain ⟨b', leads, rfl⟩ := (depends (unwrapped e old)).mp dep
      exact .inl ⟨e.name, b', (edge_graph sound).mpr ⟨e, old, rfl, leads⟩, renamed_of_ne apart, rfl⟩
    · rcases mem_dependsOn.mp dep with ⟨ref, occurs, _⟩ | wraps
      · cases occurs
      · exact .inr ⟨rfl, (Option.some.inj wraps).symm⟩
    · obtain ⟨b', leads, rfl⟩ := (depends (by simp [bodyOf, bodyFor])).mp dep
      exact .inl ⟨d.name, b', (edge_graph sound).mpr ⟨d, member, rfl, (taken b').mp leads⟩,
        renamed_self _ _, rfl⟩
  · rintro (⟨a', b', edge, rfl, rfl⟩ | ⟨rfl, rfl⟩)
    · obtain ⟨e, listed, rfl, leads⟩ := (edge_graph sound).mp edge
      by_cases own : e.name = d.name
      · obtain rfl := List.inj_on_of_nodup_map sound.distinct listed member own
        refine ⟨store.bodyOf e, (mem_asError sound member movable).mpr (.inr (.inr rfl)),
          (renamed_self _ _).symm, ?_⟩
        exact (depends (by simp [bodyOf, bodyFor])).mpr ⟨b', (taken b').mpr leads, rfl⟩
      · refine ⟨e, (mem_asError sound member movable).mpr (.inl ⟨listed, own⟩),
          (renamed_of_ne own).symm, ?_⟩
        exact (depends (unwrapped e listed)).mpr ⟨b', leads, rfl⟩
    · exact ⟨_, (mem_asError sound member movable).mpr (.inr (.inl rfl)), rfl,
        mem_dependsOn.mpr (.inr rfl)⟩

end Wrap

theorem marked_of_find? (found : store.find? name = some d) : store.marked name = store.asError d := by
  unfold marked
  rw [found]

/-- An error that is no struct any more does not change when it is made one again. -/
theorem marked_eq_self (settled : ∀ e ∈ store.declarations, e.name = name →
    ¬ e.Movable ∧ e.errorVariant = true) : store.marked name = store := by
  cases found : store.find? name with
  | none =>
    unfold marked
    rw [found]
  | some e =>
    obtain ⟨listed, named⟩ := mem_of_find? found
    rw [marked_of_find? found, asError_of_not_movable (settled e listed named).1, named]
    exact flagError_eq_self fun f held fNamed => (settled f held fNamed).2

theorem marked_marked (sound : store.Sound) (name : String) :
    (store.marked name).marked name = store.marked name := by
  refine marked_eq_self fun e listed named => ?_
  cases found : store.find? name with
  | none =>
    have same : store.marked name = store := by
      unfold marked
      rw [found]
    rw [same] at listed
    exact absurd (named ▸ mem_names_of_mem listed) (find?_eq_none.mp found)
  | some d =>
    obtain ⟨member, rfl⟩ := mem_of_find? found
    rw [marked_of_find? found] at listed
    by_cases movable : d.Movable
    · rcases (mem_asError sound member movable).mp listed with ⟨_, other⟩ | rfl | rfl
      · exact absurd named other
      · exact ⟨by simp [Declaration.Movable, Declaration.over], rfl⟩
      · exact absurd (named ▸ mem_names_of_mem member) (bodyOf_fresh store d)
    · rw [asError_of_not_movable movable] at listed
      rcases mem_update.mp listed with ⟨old, held, same, rfl⟩ | ⟨_, other⟩
      · obtain rfl := List.inj_on_of_nodup_map sound.distinct held member same
        exact ⟨movable, rfl⟩
      · exact absurd named other

end Store

namespace History

/-- Marking changes the store and nothing else, and marks nothing twice. -/
theorem call_markAsError {history : History} (brandIds : Bool) {name : String} {d : Declaration}
    (found : history.store.find? name = some d) :
    history.call brandIds (.markAsError name) =
      { history with session := { history.session with store := history.store.marked name } } := by
  have step : Generator.markAsError name history.session =
      .ok () { history.session with store := history.store.asError d } := by
    refine Build.bind_eq_ok.mpr ⟨history.store, history.session, rfl, ?_⟩
    simp only [found]
    rfl
  rw [call, step, Store.marked_of_find? found]

/-- In a history that makes errors only of names that it returns, making a returned name an error
twice is the same as making it one once. A struct or class gets a body under a new name, with its
type and description, and all other declarations stay; in the graph the body takes its place at
both ends of every edge, and the error leads to the body. Anything else stays where it is. -/
theorem run_markAsError (brandIds : Bool) (calls : List Call)
    (careful : ∀ name, .markAsError name ∈ calls → name ∈ (run brandIds calls).returned)
    {name : String} (returned : name ∈ (run brandIds calls).returned) :
    let before := run brandIds calls
    let after := before.call brandIds (.markAsError name)
    after.call brandIds (.markAsError name) = after ∧
      ∃ d, before.store.find? name = some d ∧
        (d.kind = .struct ∨ d.kind = .classStruct → ∃ body, body ∉ before.store.names ∧
          after.store.declarations = before.store.declarations.map
            (fun e => if e.name = name then e.flagged.over body else e) ++
              [{ name := body, kind := .struct, type := d.type, description := d.description
                 order := before.store.counter }] ∧
          ∀ a b, after.store.graph.Edge a b ↔
            (∃ a' b', before.store.graph.Edge a' b' ∧ renamed name body a' = a ∧
              renamed name body b' = b) ∨ (a = name ∧ b = body)) ∧
        (¬ (d.kind = .struct ∨ d.kind = .classStruct) →
          after.store.declarations = before.store.declarations.map
            (fun e => if e.name = name then e.flagged else e) ∧
          after.store.graph = before.store.graph) := by
  intro before after
  have history := run_sound brandIds calls
  have sound := history.store
  obtain ⟨d, found⟩ := Option.isSome_iff_exists.mp
    (Store.find?_isSome.mpr (history.returned name returned))
  obtain ⟨member, rfl⟩ := Store.mem_of_find? found
  -- the name has been returned, so it is nobody's body
  have unwrapped : ∀ e ∈ before.store.declarations, e.body ≠ some d.name :=
    fun e listed wraps => (run_apart brandIds calls careful e listed _ wraps).2.1 returned
  have store : after.store = before.store.asError d := by
    rw [(store_markAsError brandIds before d.name).1, Store.marked_of_find? found]
  have twice : after.store.marked d.name = after.store := by
    rw [(store_markAsError brandIds before d.name).1]
    exact Store.marked_marked sound d.name
  refine ⟨?_, d, found, fun movable => ?_, fun fixed => ?_⟩
  · obtain ⟨e, again⟩ := Option.isSome_iff_exists.mp (Store.find?_isSome.mpr
      ((call_evolves brandIds sound (.markAsError d.name)).names.subset (Store.mem_names_of_mem member)))
    rw [call_markAsError brandIds again, twice]
    rfl
  · refine ⟨(before.store.bodyOf d).name, Store.bodyOf_fresh _ d, ?_, fun a b => ?_⟩
    · rw [store]
      exact Store.declarations_asError movable (Store.mem_names_of_mem member)
    · rw [store]
      exact Store.edge_asError sound member movable unwrapped
  · have flagged : before.store.asError d = before.store.flagError d.name :=
      Store.asError_of_not_movable fixed
    rw [store, flagged]
    refine ⟨?_, Store.graph_flagError _ _⟩
    simp only [Store.declarations_flagError, beq_iff_eq]

def causedProblem : List Call :=
  [.add "Failure" (.obj [("$ref", .str "#/$defs/Problem")]) (.obj [("$defs", .obj [("Problem",
    .obj [("type", .str "object"), ("properties", .obj [("cause",
      .obj [("$ref", .str "#/$defs/Problem")])])])])]) false]

theorem run_markAsError_causedProblem :
    let before := run true causedProblem
    let after := before.call true (.markAsError "Problem")
    before.returned = ["Problem"] ∧ after.call true (.markAsError "Problem") = after ∧
      before.store.graph.Edge "Problem" "Problem" ∧
      ∃ body, body ∉ before.store.names ∧ after.store.graph.Edge body body ∧
        after.store.graph.Edge "Problem" body ∧ ¬ after.store.graph.Edge "Problem" "Problem" := by
  have returned : (run true causedProblem).returned = ["Problem"] := by decide +kernel
  have kind : ((run true causedProblem).store.find? "Problem").map (·.kind) = some .classStruct := by
    decide +kernel
  have self : ((run true causedProblem).store.graph.find? "Problem").any (·.deps.contains "Problem") =
      true := by
    decide +kernel
  have cycle : (run true causedProblem).store.graph.Edge "Problem" "Problem" := by
    cases found : (run true causedProblem).store.graph.find? "Problem" with
    | none => simp [found] at self
    | some node => exact ⟨node, found, by simpa [found] using self⟩
  obtain ⟨twice, d, found, moves, _⟩ := run_markAsError true causedProblem (by simp [causedProblem])
    (returned ▸ List.mem_singleton_self "Problem")
  rw [found] at kind
  obtain ⟨body, fresh, _, edges⟩ := moves (.inr (Option.some.inj kind))
  have other : body ≠ "Problem" := by
    rintro rfl
    exact fresh (Store.find?_isSome.mp (by simp [found]))
  refine ⟨returned, twice, cycle, body, fresh, ?_, ?_, fun still => ?_⟩
  · exact (edges _ _).mpr (.inl ⟨_, _, cycle, renamed_self _ _, renamed_self _ _⟩)
  · exact (edges _ _).mpr (.inr ⟨rfl, rfl⟩)
  · rcases (edges _ _).mp still with ⟨_, b, _, _, same⟩ | ⟨_, same⟩
    · by_cases own : b = "Problem"
      · rw [own, renamed_self] at same
        exact other same
      · rw [renamed_of_ne own] at same
        exact own same
    · exact other same.symm

end History

end TypedClient
