import TypedClient.Proofs.Builder.Naming
import TypedClient.Proofs.Render.Balance
import TypedClient.Proofs.Store.Emission

/-! Text of every history. Whatever calls have succeeded or failed before, every selection whose
literals have texts is written in either kind, and unless it is empty the text passes the check of
braces. -/
namespace TypedClient

open Render

namespace Render

def declarationAs (kind : OutputKind) (scope : Scope) (declaration : Declaration) :
    Except Fault String :=
  match kind with
  | .schema => schemaDeclaration scope declaration
  | .type => plainDeclaration scope declaration

theorem schemaBlocks_eq_ok {aliases : List (String × String)} {declarations : List Declaration}
    {deferred blocks : List String}
    (written : schemaBlocks aliases declarations deferred = .ok blocks) :
    List.Forall₂ (fun d block => ∃ deferred, schemaDeclaration ⟨aliases, deferred⟩ d = .ok block)
      declarations blocks := by
  induction declarations generalizing deferred blocks with
  | nil =>
    cases written
    exact .nil
  | cons d rest ih =>
    obtain ⟨block, first, written⟩ := except_bind_eq_ok.mp written
    obtain ⟨others, later, same⟩ := except_bind_eq_ok.mp written
    cases same
    exact .cons ⟨deferred, first⟩ (ih later)

end Render

namespace Store

variable {store : Store}

/-- Text is made of one block for each declaration. -/
theorem renderAs_eq_ok {kind : OutputKind} {aliases : List (String × String)}
    {declarations : List Declaration} {text : String}
    (written : renderAs kind aliases declarations = .ok text) :
    ∃ blocks, text = joinBlocks blocks ∧
      List.Forall₂ (fun d block => ∃ deferred, declarationAs kind ⟨aliases, deferred⟩ d = .ok block)
        declarations blocks := by
  cases kind with
  | schema =>
    obtain ⟨blocks, made, same⟩ := except_bind_eq_ok.mp written
    cases same
    exact ⟨blocks, rfl, schemaBlocks_eq_ok made⟩
  | type =>
    obtain ⟨blocks, made, same⟩ := except_bind_eq_ok.mp written
    cases same
    exact ⟨blocks, rfl, (except_mapM_eq_ok.mp made).imp fun d block step => ⟨[], step⟩⟩

/-- The blocks of a store whose names may stand in text. -/
theorem block_declarationAs (sound : store.Sound) (named : store.NamedBy Nameable)
    {kind : OutputKind} {deferred : List String} {d : Declaration} {block : String}
    (member : d ∈ store.declarations)
    (written : declarationAs kind ⟨store.aliases, deferred⟩ d = .ok block) : Block block := by
  have own : Nameable d.name := named _ (mem_names_of_mem member)
  have bodies : ∀ body ∈ d.body, Nameable body :=
    fun body wraps => named _ (sound.bodies d member body wraps)
  have targets : ∀ name ∈ store.names,
      Nameable (Scope.target ⟨store.aliases, deferred⟩ name) :=
    fun name declared => named _ (target_mem sound declared)
  cases kind with
  | schema => exact block_schemaDeclaration (sound.fits d member) own bodies targets written
  | type => exact block_plainDeclaration (sound.fits d member) own bodies targets written

end Store

theorem Braces.validate_eq_ok {text label : String} :
    Braces.validate text label = .ok () ↔
      Text.stripped text ≠ "" ∧ (Braces.count text).1 = (Braces.count text).2 := by
  unfold validate problem?
  by_cases blank : Text.stripped text = ""
  · simp [blank]
  · by_cases same : (count text).1 = (count text).2
    · simp [blank, same]
    · simp [blank, same]

namespace History

/-- After any history writing fails for one reason only: an integer of a literal has more digits
than a numeral may have. All that writing looks up is there: the names in order are declared, types
have the children and fields the types that writing them needs, and tagged errors have declared
bodies. -/
theorem run_generate_total (brandIds : Bool) (calls : List Call) (kind : OutputKind)
    (names : Option (List String)) (excluded : List String) :
    let session := (run brandIds calls).session
    let store := session.store
    let ordered := store.graph.topologicalOrder (store.closure (names.getD store.names) excluded)
    let emitted := store.selection names excluded
    (∀ name ∈ ordered, ∃ d, store.find? name = some d) ∧
      (∀ d ∈ store.declarations, ∀ type ∈ d.type, type.complete = true) ∧
      (∀ d ∈ store.declarations, d.kind = .taggedError →
        ∃ body ∈ store.names, d.body = some body) ∧
      (Legible kind emitted → ∃ blocks s', blocks.length = ordered.length ∧ s'.store = store ∧
        Generator.generate (.str kind.name) names excluded session =
          .ok (joinBlocks blocks) s') ∧
      (¬ Legible kind emitted → ∃ d ∈ emitted, ∃ value n s', Spells kind d value ∧
        n ∈ value.integers ∧ 10 ^ Text.digitLimit ≤ n.natAbs ∧ s'.store = store ∧
        Generator.generate (.str kind.name) names excluded session =
          .error (.numeral (toString n.natAbs).length) s') := by
  intro session store ordered emitted
  have sound : store.Sound := (run_sound brandIds calls).store
  have listed : emitted.map (·.name) = ordered := Store.names_selection sound names excluded
  have texts := Store.exists_renderAs_selection sound kind names excluded
  obtain ⟨s', kept, step⟩ := Generator.generate_eq kind names excluded session
  refine ⟨fun name member => ?_, fun d member type typed => (sound.fits d member type typed).1,
    fun d member tagged => ?_, fun legible => ?_, fun illegible => ?_⟩
  · rw [← listed] at member
    obtain ⟨d, inside, rfl⟩ := List.mem_map.mp member
    exact ⟨d, Store.find?_of_mem sound.distinct (Store.mem_of_mem_selection inside)⟩
  · obtain ⟨body, wraps⟩ := Option.isSome_iff_exists.mp ((sound.tagged d member).mp tagged)
    exact ⟨body, sound.bodies d member body wraps, wraps⟩
  · obtain ⟨text, written⟩ := texts.mpr legible
    obtain ⟨blocks, rfl, pairs⟩ := Store.renderAs_eq_ok written
    refine ⟨blocks, s', ?_, kept, step.trans (congrArg (Build.lift · s') written)⟩
    rw [← pairs.length_eq, ← List.length_map, listed]
  · cases result : Store.renderAs kind store.aliases emitted with
    | ok text => exact absurd (texts.mp ⟨text, result⟩) illegible
    | error fault =>
      obtain ⟨value, ⟨d, member, spelt⟩, failed⟩ :=
        (Store.renderAs_hinges sound kind names excluded).failed fault result
      obtain ⟨n, inside, long, rfl⟩ := Json.literalText_eq_error failed
      exact ⟨d, member, value, n, s', spelt, inside, long, kept,
        step.trans (congrArg (Build.lift · s') result)⟩

def longConstant : List Call :=
  [.add "Limit" (.obj [("const", .int (10 ^ Text.digitLimit))]) .null true]

/-- A constant of one digit too many is declared, but it is written in neither kind. -/
theorem generate_longConstant_fails :
    (run true longConstant).returned = ["Limit"] ∧
      (∃ fault s', Generator.generate (.str "Schema") none [] (run true longConstant).session =
        .error fault s') ∧
      ∃ fault s', Generator.generate (.str "Type") none [] (run true longConstant).session =
        .error fault s' :=
  ⟨by decide +kernel, Build.exists_of_not_succeeds (by decide +kernel),
    Build.exists_of_not_succeeds (by decide +kernel)⟩

/-- Generated text is accepted. Where names are asked for in letters and digits, its braces are
balanced whatever the documents hold, and it is refused just if nothing is selected. The text is
there unless a literal has none. -/
theorem run_generate_accepted (brandIds : Bool) (calls : List Call)
    (requested : ∀ c ∈ calls, ∀ name ∈ c.requested?, Name.Alphanumeric name)
    (kind : OutputKind) (names : Option (List String)) (excluded : List String) :
    let session := (run brandIds calls).session
    let emitted := session.store.selection names excluded
    (Legible kind emitted →
      ∃ text s', Generator.generate (.str kind.name) names excluded session = .ok text s') ∧
    ∀ text s', Generator.generate (.str kind.name) names excluded session = .ok text s' →
      (∃ n, Braces.count text = (n, n)) ∧
      (Text.stripped text ≠ "" ↔ emitted ≠ []) ∧
      ∀ label, Braces.validate text label = .ok () ↔ emitted ≠ [] := by
  intro session emitted
  have sound : session.store.Sound := (run_sound brandIds calls).store
  have named : session.store.NamedBy Nameable := fun name declared =>
    .of_alphanumeric (run_named Name.alphanumeric_naming brandIds calls
      (fun c member name asked => .inr (requested c member name asked)) name declared)
  refine ⟨Generator.exists_generate sound kind names excluded, fun text s' done => ?_⟩
  obtain ⟨_, _, step⟩ := Generator.generate_eq kind names excluded session
  obtain ⟨written, _⟩ := Build.lift_eq_ok.mp (step.symm.trans done)
  obtain ⟨blocks, rfl, pairs⟩ := Store.renderAs_eq_ok written
  have each : ∀ block ∈ blocks, Block block := by
    intro block member
    obtain ⟨d, listed, deferred, made⟩ := exists_of_forall₂ pairs member
    exact Store.block_declarationAs sound named (Store.mem_of_mem_selection listed) made
  have visible : Text.stripped (joinBlocks blocks) ≠ "" ↔ emitted ≠ [] := by
    rw [stripped_joinBlocks each, ← List.length_pos_iff, ← List.length_pos_iff, pairs.length_eq]
  obtain ⟨n, counted⟩ := (whole_joinBlocks each).count
  refine ⟨⟨n, counted⟩, visible, fun label => ?_⟩
  rw [Braces.validate_eq_ok, visible, counted]
  simp

/-- A schema whose texts try to leave the comments and strings that they are written in. -/
def clipping : Json :=
  .obj [("type", .str "object"), ("description", .str "ends */ here \x7b **//"),
    ("properties", .obj [
      ("\x7d\"", .obj [("type", .str "string"), ("pattern", .str "^[\"\x7b\\]+$"),
        ("description", .str "\x60\r*/ \x7d //"), ("default", .str "\x27\\")]),
      ("id", .obj [("type", .str "string")]),
      ("kind", .obj [("enum", .arr [.obj [("\x7b", .str "\\\"")], .str "/*", .int (-1)])])])]

def clippings : List Call :=
  [.add "Clip" clipping .null false, .markAsError "Clip", .add "" (.bool true) .null true]

theorem run_generate_accepted_clippings :
    (∀ c ∈ clippings, ∀ name ∈ c.requested?, Name.Alphanumeric name) ∧
      (run true clippings).store.names = ["Clip", "ClipId", "ClipBody", "Schema"] ∧
      ∃ text s', Generator.generate (.str OutputKind.schema.name) none []
          (run true clippings).session = .ok text s' ∧
        (∃ n, Braces.count text = (n, n)) ∧ Text.stripped text ≠ "" ∧
        Braces.validate text "clips.ts" = .ok () := by
  have requested : ∀ c ∈ clippings, ∀ name ∈ c.requested?, Name.Alphanumeric name := by
    decide +kernel
  have emitted : ((run true clippings).session.store.selection none []).isEmpty = false := by
    decide +kernel
  have generated : Build.succeeds (Generator.generate (.str OutputKind.schema.name) none [])
      (run true clippings).session (fun _ _ => true) = true := by decide +kernel
  obtain ⟨text, s', done, _⟩ := Build.exists_of_succeeds generated
  obtain ⟨counted, visible, accepted⟩ :=
    (run_generate_accepted true clippings requested .schema none []).2 text s' done
  have nonempty := List.isEmpty_eq_false_iff.mp emitted
  exact ⟨requested, by decide +kernel, text, s', done, counted, visible.mpr nonempty,
    (accepted _).mpr nonempty⟩

end History

end TypedClient
