import TypedClient.Proofs.Render.Literals
import TypedClient.Proofs.Store.History
import TypedClient.Proofs.Store.Selection

/-! Text of a store. In a sound store every selection is written unless a literal of it has no text,
and what is written uses nothing but what its declaration depends on. -/
namespace TypedClient

open Render

namespace Store

variable {store : Store} {names : Option (List String)} {excluded : List String}

/-- Every declaration fits its own references. -/
theorem Sound.fits_refs (sound : store.Sound) :
    ∀ d ∈ store.declarations, ∀ type ∈ d.type, type.FitsIn d.refs := by
  intro d member type typed
  refine ⟨(sound.fits d member type typed).1, fun name occurs => ?_⟩
  simpa [Declaration.refs, Option.mem_def.mp typed] using occurs

theorem target_mem_dependsOn {d : Declaration} {name : String}
    (led : name ∈ d.refs.map (Scope.target ⟨store.aliases, []⟩)) : name ∈ store.dependsOn d := by
  obtain ⟨ref, occurs, rfl⟩ := List.mem_map.mp led
  exact mem_dependsOn.mpr (.inl ⟨ref, occurs, rfl⟩)

/-- A selection as schemas. -/
theorem schemaItems_selection (sound : store.Sound) (names : Option (List String))
    (excluded : List String) :
    let emitted := store.selection names excluded
    ∃ items, schemaItems store.aliases emitted = .ok items ∧ items.length = emitted.length ∧
      schemaText store.aliases emitted =
        joinBlocks <$> (List.zipWith SchemaItem.block items emitted).mapM id ∧
      ∀ i d item, emitted[i]? = some d → items[i]? = some item →
        (∀ name ∈ item.bare, name ∈ store.dependsOn d ∧
          (name ∉ (emitted.drop i).map (·.name) ∨ d.body = some name)) ∧
        ∀ name ∈ item.delayed,
          name ∈ store.dependsOn d ∧ name ∈ (emitted.drop i).map (·.name) := by
  intro emitted
  obtain ⟨items, written, length, cite⟩ := schemaItems_cites store.aliases emitted
    fun d member => sound.fits_refs d (mem_of_mem_selection member)
  refine ⟨items, written, length, schemaText_eq (selection_nodup sound) written, ?_⟩
  intro i d item found itemFound
  obtain ⟨bare, delayed⟩ := cite i d item found itemFound
  constructor
  · intro name occurs
    rcases bare name occurs with ⟨led, early⟩ | wraps
    · exact ⟨target_mem_dependsOn led, .inl early⟩
    · exact ⟨mem_dependsOn.mpr (.inr wraps), .inr wraps⟩
  · intro name occurs
    obtain ⟨led, later⟩ := delayed name occurs
    exact ⟨target_mem_dependsOn led, later⟩

/-- Items and declarations stand in the same places. -/
theorem exists_declaration {items : List α} {emitted : List Declaration} {item : α}
    (length : items.length = emitted.length) (member : item ∈ items) :
    ∃ (i : Nat) (d : Declaration), emitted[i]? = some d ∧ items[i]? = some item := by
  obtain ⟨i, found⟩ := List.mem_iff_getElem?.mp member
  have bound := (List.getElem?_eq_some_iff.mp found).1
  exact ⟨i, _, List.getElem?_eq_getElem (length ▸ bound), found⟩

/-- What comes of writing a selection as schemas, one item for each declaration. What an item
mentions its declaration depends on. -/
structure Writes (store : Store) (emitted : List Declaration) (result : Except Fault String)
    (items : List SchemaItem) : Prop where
  written : schemaItems store.aliases emitted = .ok items
  length : items.length = emitted.length
  text : result = joinBlocks <$> (List.zipWith SchemaItem.block items emitted).mapM id
  mentions : ∀ item ∈ items, ∃ d ∈ emitted, ∀ name ∈ item.bare ++ item.delayed,
    name ∈ store.dependsOn d

theorem exists_writes (sound : store.Sound) (names : Option (List String))
    (excluded : List String) :
    let emitted := store.selection names excluded
    ∃ items, Writes store emitted (schemaText store.aliases emitted) items := by
  intro emitted
  obtain ⟨items, written, length, text, cite⟩ := schemaItems_selection sound names excluded
  refine ⟨items, written, length, text, ?_⟩
  intro item member
  obtain ⟨i, d, listed, found⟩ := exists_declaration length member
  obtain ⟨bare, delayed⟩ := cite i d item listed found
  refine ⟨d, List.mem_of_getElem? listed, fun name occurs => ?_⟩
  rcases List.mem_append.mp occurs with occurs | occurs
  · exact (bare name occurs).1
  · exact (delayed name occurs).1

/-- A selection as plain types. -/
theorem plainItems_selection (sound : store.Sound) (names : Option (List String))
    (excluded : List String) :
    let emitted := store.selection names excluded
    ∃ items, plainItems store.aliases emitted = .ok items ∧
      plainText store.aliases emitted =
        joinBlocks <$> (List.zipWith PlainItem.block items emitted).mapM id ∧
      ∀ item ∈ items, ∃ d ∈ emitted, ∀ name ∈ PlainItem.mentions item,
        name ∈ store.dependsOn d := by
  intro emitted
  obtain ⟨items, written, length, blocks, cite⟩ := plainItems_cites store.aliases emitted
    fun d member => sound.fits_refs d (mem_of_mem_selection member)
  refine ⟨items, written, ?_, ?_⟩
  · rw [plainText, blocks]
    rfl
  · intro item member
    obtain ⟨i, d, listed, found⟩ := exists_declaration length member
    refine ⟨d, List.mem_of_getElem? listed, fun name occurs => ?_⟩
    rcases cite i d item listed found name occurs with led | wraps
    · exact target_mem_dependsOn led
    · exact mem_dependsOn.mpr (.inr wraps)

theorem renderAs_hinges (sound : store.Sound) (kind : OutputKind) (names : Option (List String))
    (excluded : List String) :
    Hinges (fun value => ∃ d ∈ store.selection names excluded, Spells kind d value)
      (renderAs kind store.aliases (store.selection names excluded)) :=
  Render.renderAs_hinges kind store.aliases
    fun d member => sound.fits_refs d (mem_of_mem_selection member)

/-- A selection has a text of a kind just if all literals in it have one. -/
theorem exists_renderAs_selection (sound : store.Sound) (kind : OutputKind)
    (names : Option (List String)) (excluded : List String) :
    (∃ text, renderAs kind store.aliases (store.selection names excluded) = .ok text) ↔
      Legible kind (store.selection names excluded) := by
  rw [(renderAs_hinges sound kind names excluded).exists_ok_iff]
  exact ⟨fun legible d member value spelt => legible value ⟨d, member, spelt⟩,
    fun legible value ⟨d, member, spelt⟩ => legible d member value spelt⟩

end Store

namespace Generator

variable {s : Session} {text : String}

/-- Writing reports, and leaves the store as it is. -/
theorem generate_eq (kind : OutputKind) (names : Option (List String)) (excluded : List String)
    (s : Session) :
    ∃ s', s'.store = s.store ∧ generate (.str kind.name) names excluded s =
      Build.lift (Store.renderAs kind s.store.aliases (s.store.selection names excluded)) s' := by
  have parsed : OutputKind.parse (.str kind.name) = .ok kind := by
    cases kind <;> cbv
  have reported : ∃ log, generate (.str kind.name) names excluded s =
      Build.lift (Store.renderAs kind s.store.aliases (s.store.selection names excluded))
        { s with log } :=
    ⟨_, by simp only [generate, parsed]; rfl⟩
  obtain ⟨log, step⟩ := reported
  exact ⟨{ s with log }, rfl, step⟩

theorem exists_generate (sound : s.store.Sound) (kind : OutputKind) (names : Option (List String))
    (excluded : List String) (legible : Legible kind (s.store.selection names excluded)) :
    ∃ text s', generate (.str kind.name) names excluded s = .ok text s' := by
  obtain ⟨text, written⟩ := (Store.exists_renderAs_selection sound kind names excluded).mpr legible
  obtain ⟨s', _, step⟩ := generate_eq kind names excluded s
  refine ⟨text, s', ?_⟩
  rw [step, written]
  rfl

/-- What is written as schemas for some names, when it is. -/
theorem generate_schema {names : Option (List String)} {excluded : List String} {s' : Session}
    (done : generate (.str "Schema") names excluded s = .ok text s') (sound : s.store.Sound) :
    s'.store = s.store ∧
      ∃ items, s.store.Writes (s.store.selection names excluded) (.ok text) items := by
  obtain ⟨items, writes⟩ := Store.exists_writes sound names excluded
  obtain ⟨last, kept, step⟩ := generate_eq .schema names excluded s
  obtain ⟨rendered, rfl⟩ := Build.lift_eq_ok.mp (step.symm.trans done)
  refine ⟨kept, items, ?_⟩
  rwa [← rendered]

end Generator

namespace History

/-- No reference of a history is left without a declaration. This holds of types, of the
declarations of references, of bodies and of the graph, hence of the text of either kind when
nothing is filtered. There is a text unless a literal has none. -/
theorem run_references (brandIds : Bool) (calls : List Call) :
    let session := (run brandIds calls).session
    let store := session.store
    let emitted := store.selection none []
    (∀ d ∈ store.declarations, ∀ type ∈ d.type, ∀ name ∈ type.refs, name ∈ store.names) ∧
      (∀ entry ∈ store.refNames, entry.2 ∈ store.names) ∧
      (∀ d ∈ store.declarations, ∀ body ∈ d.body, body ∈ store.names) ∧
      store.graph.names = store.names ∧
      (∀ node ∈ store.graph.nodes, ∀ dep ∈ node.deps, dep ∈ store.names) ∧
      (∃ items s', schemaItems store.aliases emitted = .ok items ∧
        Generator.generate (.str "Schema") none [] session = Build.lift
          (joinBlocks <$> (List.zipWith SchemaItem.block items emitted).mapM id) s' ∧
        ∀ item ∈ items, ∀ name ∈ item.bare ++ item.delayed, name ∈ emitted.map (·.name)) ∧
      (∃ items s', plainItems store.aliases emitted = .ok items ∧
        Generator.generate (.str "Type") none [] session = Build.lift
          (joinBlocks <$> (List.zipWith PlainItem.block items emitted).mapM id) s' ∧
        ∀ item ∈ items, ∀ name ∈ item.mentions, name ∈ emitted.map (·.name)) ∧
      ∀ kind : OutputKind, Legible kind emitted →
        ∃ text s', Generator.generate (.str kind.name) none [] session = .ok text s' := by
  intro session store emitted
  have sound : store.Sound := (run_sound brandIds calls).store
  have whole : ∀ d ∈ emitted, ∀ name ∈ store.dependsOn d, name ∈ emitted.map (·.name) := by
    intro d member name depends
    simpa using Store.selection_closed sound member depends
  refine ⟨fun d member type typed => (sound.fits d member type typed).2, sound.referred,
    sound.bodies, Store.names_graph sound.distinct, ?_, ?_, ?_, ?_⟩
  · intro node member dep depMember
    rw [Store.nodes_graph sound.distinct] at member
    obtain ⟨d, listed, rfl⟩ := List.mem_map.mp member
    exact Store.dependsOn_subset sound listed depMember
  · obtain ⟨items, writes⟩ := Store.exists_writes sound none []
    obtain ⟨s', _, step⟩ := Generator.generate_eq .schema none [] session
    refine ⟨items, s', writes.written, writes.text ▸ step, ?_⟩
    intro item member name occurs
    obtain ⟨d, listed, cites⟩ := writes.mentions item member
    exact whole d listed name (cites name occurs)
  · obtain ⟨items, written, text, cites⟩ := Store.plainItems_selection sound none []
    obtain ⟨s', _, step⟩ := Generator.generate_eq .type none [] session
    refine ⟨items, s', written, text ▸ step, ?_⟩
    intro item member name occurs
    obtain ⟨d, listed, cites⟩ := cites item member
    exact whole d listed name (cites name occurs)
  · exact fun kind => Generator.exists_generate sound kind none []

end History

end TypedClient
