import TypedClient.Proofs.Store.Emission

/-! Order of what is written. Nobody but its error knows the body of an error, as long as errors
are made of names that the generator has returned. So no declaration depends on an error, an error
lies on no cycle, and its body is written before it. -/
namespace TypedClient

open Render

namespace Store

variable {store before after : Store} {used : List String} {name body : String}

/-- Bodies are neither referred to nor used from outside, and have no bodies themselves. -/
def Apart (store : Store) (used : List String) : Prop :=
  ∀ d ∈ store.declarations, ∀ body ∈ d.body, body ∉ store.refNames.map (·.2) ∧ body ∉ used ∧
    ∀ e ∈ store.declarations, e.name = body → e.body = none

/-- Making an error keeps all bodies and adds at most one, for the error, under a new name. -/
theorem body_marked {e : Declaration}
    (member : e ∈ (store.marked name).declarations) (wraps : e.body = some body) :
    (∃ d ∈ store.declarations, d.name = e.name ∧ d.body = some body) ∨
      (e.name = name ∧ name ∈ store.names ∧ body ∉ store.names) := by
  have flagged : ∀ {f : Declaration}, f ∈ (store.flagError name).declarations →
      ∃ d ∈ store.declarations, d.name = f.name ∧ d.body = f.body := by
    intro f listed
    rcases mem_update.mp listed with ⟨d, old, _, rfl⟩ | ⟨old, _⟩
    · exact ⟨d, old, rfl, rfl⟩
    · exact ⟨f, old, rfl, rfl⟩
  unfold marked at member
  split at member
  · exact .inl ⟨e, member, rfl, wraps⟩
  · rename_i d found
    obtain ⟨declared, rfl⟩ := mem_of_find? found
    have known : d.name ∈ (store.flagError d.name).names := by
      rw [names_flagError]
      exact mem_names_of_mem declared
    unfold asError at member
    split at member
    · rcases (mem_wrapBody known).mp member with ⟨listed, _⟩ | rfl | ⟨f, listed, same, rfl⟩
      · obtain ⟨old, oldMember, named, oldBody⟩ := flagged listed
        exact .inl ⟨old, oldMember, named, oldBody.trans wraps⟩
      · cases wraps
      · cases wraps
        have fresh := bodyFor_fresh (store.flagError d.name) d
        rw [names_flagError] at fresh
        exact .inr ⟨same, mem_names_of_mem declared, fresh⟩
    · obtain ⟨old, oldMember, named, oldBody⟩ := flagged member
      exact .inl ⟨old, oldMember, named, oldBody.trans wraps⟩

theorem refNames_marked : (store.marked name).refNames = store.refNames := by
  unfold marked asError
  split
  · rfl
  · split <;> rfl

namespace Apart

/-- An addition finds names of its own, or names that are referred to. -/
theorem grows (apart : Apart before used) (sound : before.Sound) (grows : Grows before after)
    {more : List String}
    (new : ∀ name ∈ more, name ∈ used ∨ name ∈ after.refNames.map (·.2) ∨ name ∉ before.names) :
    Apart after more := by
  obtain ⟨added, declarations, plain⟩ := grows.declared
  obtain ⟨entries, refNames, fresh⟩ := grows.referred
  -- an addition makes no errors, so whatever has a body was there before
  have old : ∀ d ∈ after.declarations, d.body.isSome = true → d ∈ before.declarations := by
    intro d member wraps
    have kind := (grows.sound.tagged d member).mpr wraps
    rw [declarations] at member
    exact (List.mem_append.mp member).resolve_right fun new => plain d new kind
  intro d member body wraps
  have dOld := old d member (by simp [Option.mem_def.mp wraps])
  obtain ⟨unreferred, unused, bodiless⟩ := apart d dOld body wraps
  have declared := sound.bodies d dOld body wraps
  have stillUnreferred : body ∉ after.refNames.map (·.2) := by
    rw [refNames, List.map_append, List.mem_append, not_or]
    refine ⟨unreferred, fun listed => ?_⟩
    obtain ⟨entry, member, rfl⟩ := List.mem_map.mp listed
    exact fresh entry member declared
  refine ⟨stillUnreferred, ?_, ?_⟩
  · intro listed
    rcases new body listed with used | referred | unknown
    · exact unused used
    · exact stillUnreferred referred
    · exact unknown declared
  · intro e eMember named
    by_contra eWraps
    have eOld := old e eMember (Option.ne_none_iff_isSome.mp eWraps)
    exact eWraps (bodiless e eOld named)

/-- A name that becomes an error is used or referred to, so it is no body. -/
theorem marked (apart : Apart store used) (sound : store.Sound)
    (declared : ∀ name ∈ used, name ∈ store.names)
    (known : name ∈ store.names → name ∈ used ∨ name ∈ store.refNames.map (·.2)) :
    Apart (store.marked name) used := by
  have referred : ∀ other ∈ store.refNames.map (·.2), other ∈ store.names := by
    intro other listed
    obtain ⟨entry, member, rfl⟩ := List.mem_map.mp listed
    exact sound.referred entry member
  intro d member body wraps
  rw [refNames_marked]
  rcases body_marked member wraps with ⟨old, oldMember, _, oldWraps⟩ | ⟨_, taken, fresh⟩
  · obtain ⟨unreferred, unused, bodiless⟩ := apart old oldMember body oldWraps
    refine ⟨unreferred, unused, fun e eMember named => ?_⟩
    by_contra eWraps
    obtain ⟨inner, innerWraps⟩ := Option.ne_none_iff_exists'.mp eWraps
    rcases body_marked eMember innerWraps with ⟨f, fMember, fNamed, fWraps⟩ | ⟨same, taken, _⟩
    · simp [bodiless f fMember (fNamed.trans named)] at fWraps
    -- an old body could get a body of its own only by becoming the error
    · obtain rfl : body = name := named.symm.trans same
      exact (known taken).elim unused unreferred
  · refine ⟨fun listed => fresh (referred body listed), fun listed => fresh (declared body listed),
      fun e eMember named => ?_⟩
    by_contra eWraps
    obtain ⟨inner, innerWraps⟩ := Option.ne_none_iff_exists'.mp eWraps
    rcases body_marked eMember innerWraps with ⟨f, fMember, fNamed, _⟩ | ⟨same, taken, _⟩
    · exact fresh (fNamed.trans named ▸ mem_names_of_mem fMember)
    · exact fresh ((named.symm.trans same) ▸ taken)

/-- No declaration depends on one that has a body. -/
theorem dependsOn_bodiless (apart : Apart store used) (sound : store.Sound) {d e : Declaration}
    (member : d ∈ store.declarations) (depends : e.name ∈ store.dependsOn d)
    (eMember : e ∈ store.declarations) : e.body = none := by
  rcases mem_dependsOn.mp depends with ⟨ref, _, led⟩ | wraps
  · rcases target_cases sound ref with ⟨f, fMember, _, wraps⟩ | ⟨same, bodiless⟩
    · exact (apart f fMember _ wraps).2.2 e eMember led.symm
    · exact bodiless e eMember (led.symm.trans same)
  · exact (apart d member _ wraps).2.2 e eMember rfl

/-- What has a body lies on no cycle, for nothing leads back to it. -/
theorem acyclic (apart : Apart store used) (sound : store.Sound) {d : Declaration}
    (member : d ∈ store.declarations) (wraps : d.body = some body) :
    ¬ Relation.TransGen store.graph.Edge d.name d.name := by
  intro cycle
  obtain ⟨last, _, edge⟩ := Relation.TransGen.tail'_iff.mp cycle
  obtain ⟨e, eMember, _, depends⟩ := (edge_graph sound).mp edge
  have bodiless := apart.dependsOn_bodiless sound eMember depends member
  simp [bodiless] at wraps

/-- The body of an error is not written after it. -/
theorem body_written_before (apart : Apart store used) (sound : store.Sound)
    {names : Option (List String)} {excluded : List String} {i : Nat} {d : Declaration}
    (listed : (store.selection names excluded)[i]? = some d) (wraps : d.body = some body) :
    body ∉ ((store.selection names excluded).drop i).map (·.name) := by
  intro later
  obtain ⟨bound, found⟩ := List.getElem?_eq_some_iff.mp listed
  have member := mem_of_mem_selection (List.mem_of_getElem? listed)
  have depends : body ∈ store.dependsOn d := mem_dependsOn.mpr (.inr wraps)
  have split : store.selection names excluded = (store.selection names excluded).take i ++
      d :: (store.selection names excluded).drop (i + 1) := by
    rw [← found, ← List.drop_eq_getElem_cons bound, List.take_append_drop]
  rw [List.drop_eq_getElem_cons bound, found, List.map_cons, List.mem_cons] at later
  rcases later with rfl | after
  · have bodiless := apart.dependsOn_bodiless sound member depends member
    simp [bodiless] at wraps
  · exact apart.acyclic sound member wraps (selection_before sound split depends after)

end Apart

end Store

namespace History

variable {history : History} {name : String}

/-- A name that is declared already can be returned only if it has been returned before or a
reference leads to it. -/
theorem known_before_call (brandIds : Bool) (sound : history.Sound) (c : Call)
    (declared : name ∈ history.store.names)
    (known : name ∈ (history.call brandIds c).returned ∨
      name ∈ (history.call brandIds c).store.refNames.map (·.2)) :
    name ∈ history.returned ∨ name ∈ history.store.refNames.map (·.2) := by
  cases c with
  | markAsError marked =>
    obtain ⟨store, returned⟩ := store_markAsError brandIds history marked
    rwa [store, returned, Store.refNames_marked] at known
  | add key fragment document preferStruct =>
    obtain ⟨grows, step⟩ := store_add brandIds key fragment document preferStruct sound.store
    obtain ⟨entries, refNames, fresh⟩ := grows.referred
    have old : name ∈ (history.call brandIds (.add key fragment document preferStruct)).store.refNames.map
        (·.2) → name ∈ history.store.refNames.map (·.2) := by
      intro listed
      rw [refNames, List.map_append, List.mem_append] at listed
      refine listed.resolve_right fun new => ?_
      obtain ⟨entry, member, rfl⟩ := List.mem_map.mp new
      exact fresh entry member declared
    rcases known with returned | referred
    · rcases step with same | ⟨result, same, _, origin⟩
      · exact .inl (same ▸ returned)
      · rw [same, List.mem_append, List.mem_singleton] at returned
        rcases returned with earlier | rfl
        · exact .inl earlier
        · exact .inr (old (origin.resolve_right fun new => new declared))
    · exact .inr (old referred)

theorem known_before_calls (brandIds : Bool) (sound : history.Sound) (calls : List Call)
    (declared : name ∈ history.store.names)
    (returned : name ∈ (calls.foldl (call brandIds) history).returned) :
    name ∈ history.returned ∨ name ∈ history.store.refNames.map (·.2) := by
  induction calls generalizing history with
  | nil => exact .inl returned
  | cons c rest ih =>
    have evolves := call_evolves brandIds sound.store c
    exact known_before_call brandIds sound c declared
      (ih (call_sound brandIds sound c) (evolves.names.subset declared) returned)

/-- Bodies stay apart in a history that makes errors only of names that it returns. -/
theorem calls_apart (brandIds : Bool) (sound : history.Sound)
    (apart : history.store.Apart history.returned) (calls : List Call)
    (careful : ∀ name, .markAsError name ∈ calls →
      name ∈ (calls.foldl (call brandIds) history).returned) :
    (calls.foldl (call brandIds) history).store.Apart
      (calls.foldl (call brandIds) history).returned := by
  induction calls generalizing history with
  | nil => exact apart
  | cons c rest ih =>
    refine ih (call_sound brandIds sound c) ?_ fun name member =>
      careful name (List.mem_cons_of_mem _ member)
    cases c with
    | add key fragment document preferStruct =>
      obtain ⟨grows, step⟩ := store_add brandIds key fragment document preferStruct sound.store
      refine apart.grows sound.store grows fun name listed => ?_
      rcases step with same | ⟨result, same, _, origin⟩
      · exact .inl (same ▸ listed)
      · rw [same, List.mem_append, List.mem_singleton] at listed
        rcases listed with earlier | rfl
        · exact .inl earlier
        · exact .inr origin
    | markAsError name =>
      obtain ⟨store, returned⟩ := store_markAsError brandIds history name
      rw [store, returned]
      -- the name may be returned later than it is marked; where it is declared it is known
      refine apart.marked sound.store sound.returned fun declared => ?_
      exact known_before_calls brandIds sound (.markAsError name :: rest) declared
        (careful name (by simp))

theorem run_apart (brandIds : Bool) (calls : List Call)
    (careful : ∀ name, .markAsError name ∈ calls → name ∈ (run brandIds calls).returned) :
    (run brandIds calls).store.Apart (run brandIds calls).returned := by
  have fresh : Sound {} := ⟨Store.sound_empty, by simp⟩
  have apart : Store.Apart {} [] := by simp [Store.Apart]
  exact calls_apart brandIds fresh apart calls careful

/-- Whatever names are chosen and excluded, a schema uses at once only what is written before it
or excluded, and delays only what is written at its own place or later. Errors are made of names
that the generator returns. The text is there unless a literal has none. -/
theorem run_schema_order (brandIds : Bool) (calls : List Call)
    (careful : ∀ name, .markAsError name ∈ calls → name ∈ (run brandIds calls).returned)
    (names : Option (List String)) (excluded : List String) :
    let session := (run brandIds calls).session
    let emitted := session.store.selection names excluded
    ∃ items s', schemaItems session.store.aliases emitted = .ok items ∧
      items.length = emitted.length ∧
      Generator.generate (.str "Schema") names excluded session =
        Build.lift (joinBlocks <$> (List.zipWith SchemaItem.block items emitted).mapM id) s' ∧
      (Legible .schema emitted →
        ∃ text, Generator.generate (.str "Schema") names excluded session = .ok text s') ∧
      ∀ i d item, emitted[i]? = some d → items[i]? = some item →
        (∀ name ∈ item.bare, name ∉ (emitted.drop i).map (·.name) ∧
          (name ∈ (emitted.take i).map (·.name) ∨ name ∈ excluded)) ∧
        ∀ name ∈ item.delayed, name ∈ (emitted.drop i).map (·.name) := by
  intro session emitted
  have sound : session.store.Sound := (run_sound brandIds calls).store
  have apart := run_apart brandIds calls careful
  obtain ⟨items, written, length, text, cite⟩ :=
    Store.schemaItems_selection sound names excluded
  obtain ⟨s', _, step⟩ := Generator.generate_eq .schema names excluded session
  refine ⟨items, s', written, length, text ▸ step, fun legible => ?_, ?_⟩
  · obtain ⟨whole, rendered⟩ :=
      (Store.exists_renderAs_selection sound .schema names excluded).mpr legible
    exact ⟨whole, step.trans (congrArg (Build.lift · s') rendered)⟩
  intro i d item listed itemListed
  obtain ⟨bare, delayed⟩ := cite i d item listed itemListed
  refine ⟨fun name occurs => ?_, fun name occurs => (delayed name occurs).2⟩
  obtain ⟨depends, place⟩ := bare name occurs
  have early : name ∉ (emitted.drop i).map (·.name) := by
    rcases place with early | wraps
    · exact early
    · exact apart.body_written_before sound listed wraps
  refine ⟨early, ?_⟩
  rcases Store.selection_closed sound (List.mem_of_getElem? listed) depends with selected | out
  · have split : name ∈ (emitted.take i ++ emitted.drop i).map (·.name) := by
      rwa [List.take_append_drop]
    rw [List.map_append, List.mem_append] at split
    exact .inl (split.resolve_right early)
  · exact .inr out

def recursiveProblem : List Call :=
  let link (name : String) : Json := .obj [("type", .str "object"), ("properties",
    .obj [(name, .obj [("$ref", .str "#/$defs/Node")])])]
  [.add "Problem" (link "cause") (.obj [("$defs", .obj [("Node", link "next")])]) true,
    .markAsError "Problem"]

theorem run_schema_order_problem :
    (run true recursiveProblem).returned = ["Problem"] ∧
      (run true recursiveProblem).store.names = ["Problem", "Node", "ProblemBody"] ∧
      let session := (run true recursiveProblem).session
      let emitted := session.store.selection none ["Node"]
      ∃ items text s', schemaItems session.store.aliases emitted = .ok items ∧
        items.length = emitted.length ∧
        Generator.generate (.str "Schema") none ["Node"] session = .ok text s' ∧
        joinBlocks <$> (List.zipWith SchemaItem.block items emitted).mapM id = .ok text ∧
        ∀ i d item, emitted[i]? = some d → items[i]? = some item →
          (∀ name ∈ item.bare, name ∉ (emitted.drop i).map (·.name) ∧
            (name ∈ (emitted.take i).map (·.name) ∨ name ∈ ["Node"])) ∧
          ∀ name ∈ item.delayed, name ∈ (emitted.drop i).map (·.name) := by
  have returned : (run true recursiveProblem).returned = ["Problem"] := by decide +kernel
  have careful : ∀ name, .markAsError name ∈ recursiveProblem →
      name ∈ (run true recursiveProblem).returned := by
    intro name member
    rw [returned]
    simpa [recursiveProblem] using member
  have generated : Build.succeeds (Generator.generate (.str "Schema") none ["Node"])
      (run true recursiveProblem).session (fun _ _ => true) = true := by decide +kernel
  obtain ⟨text, last, done, _⟩ := Build.exists_of_succeeds generated
  obtain ⟨items, s', written, length, step, _, cite⟩ :=
    run_schema_order true recursiveProblem careful none ["Node"]
  obtain ⟨rendered, rfl⟩ := Build.lift_eq_ok.mp (step.symm.trans done)
  exact ⟨returned, by decide +kernel, items, text, last, written, length, done, rendered, cite⟩

end History

end TypedClient
