import TypedClient.Proofs.Builder.Places
import TypedClient.Proofs.Schema.Respelling
import TypedClient.Proofs.Store.History

/-! The spelling of a nullable schema shows nowhere: not in its node, and wherever the schema stands
in a fragment, not in what is declared and written. -/
namespace TypedClient.History

open Builder Schema Node

/-- A schema spelt in another way is added alike, and the rest of a history goes on alike. -/
theorem run_respelt {first second : Json} (respelt : Respelt first second) (brandIds : Bool)
    (name : String) (document : Json) (preferStruct : Bool) :
    addSchema brandIds name first document preferStruct =
        addSchema brandIds name second document preferStruct ∧
      ∀ before after : List Call,
        run brandIds (before ++ .add name first document preferStruct :: after) =
          run brandIds (before ++ .add name second document preferStruct :: after) := by
  have same : unplaced <$> normalize first ("#/" ++ name) =
      unplaced <$> normalize second ("#/" ++ name) := by
    rw [unplaced_normalize, unplaced_normalize, respelt.form_eq.1]
  have added := addSchema_congr same brandIds document preferStruct
  refine ⟨added, fun before after => ?_⟩
  have called (history : History) :
      history.call brandIds (.add name first document preferStruct) =
        history.call brandIds (.add name second document preferStruct) := by
    simp only [call, added]
  simp only [run, List.foldl_append, List.foldl_cons, called]

/-- A null among the types, a flag under either name and a union with null say the same. One may
stand for another at any position of a schema that is added: the name that is returned, the
declarations and the text stay as they are. -/
theorem spellings_agree (brandIds : Bool) :
    (∀ (members : Members) (types : List String) (path : String),
      members.get? "type" = some (.arr (types.map .str)) → "null" ∈ types →
      (∃ t ∈ types, t ≠ "null") →
      normalize (.obj members) path = normalize (.obj
        ((members.set "type" (withoutNull types)).set "nullable" (.bool true))) path) ∧
    (∀ (members : Members) (name path : String), name = "nullable" ∨ name = "x-nullable" →
      normalize (.obj (members.set name (.bool true))) path =
        Node.orNull <$> normalize (.obj members) path) ∧
    (∀ (schema : Json) (keyword : String) (before after : List Json) (path path' : String),
      keyword = "anyOf" ∨ keyword = "oneOf" →
      (∀ member ∈ before ++ after, member = nullSchema) → before ++ after ≠ [] →
      (∀ node, normalize schema path' = .ok node → node.isNull = false) →
      unplaced <$> normalize (.obj [(.text keyword, .arr (before ++ schema :: after))]) path =
        (fun node => (node.withNullable true).unplaced) <$> normalize schema path') ∧
    ∀ first second : Json, Respelt first second →
      ∀ (name : String) (document : Json) (preferStruct : Bool),
        (∀ session, addSchema brandIds name first document preferStruct session =
          addSchema brandIds name second document preferStruct session) ∧
        ∀ before after : List Call,
          let one := run brandIds (before ++ .add name first document preferStruct :: after)
          let other := run brandIds (before ++ .add name second document preferStruct :: after)
          one.returned = other.returned ∧ one.store.declarations = other.store.declarations ∧
            ∀ kind names excluded, Generator.generate kind names excluded one.session =
              Generator.generate kind names excluded other.session := by
  refine ⟨?_, ?_, ?_, ?_⟩
  · intro members types path listed null other
    rw [normalize_types members path null other listed, normalize_flag _ path (.inl rfl)]
  · intro members name path flag
    exact normalize_flag members path flag
  · intro schema keyword before after path path' union nulls nonempty notNull
    have never (node : Node) (read : form schema = .ok node) : node.isNull = false :=
      isNull_of_form notNull read
    rw [unplaced_normalize, form_nullUnion union nulls nonempty never, ← unplaced_normalize schema path']
    simp [withNullable_unplaced]
  · intro first second respelt name document preferStruct
    obtain ⟨added, gone⟩ := run_respelt respelt brandIds name document preferStruct
    refine ⟨fun session => by rw [added], fun before after => ?_⟩
    rw [gone before after]
    exact ⟨rfl, rfl, fun _ _ _ => rfl⟩

def memo (note : Json) : Json :=
  .obj [("type", .str "object"), ("properties", .obj [("note", note)])]

def shortText : Members :=
  [("type", .str "string"), ("maxLength", .int 80)]

def shortTextOrNull : Members :=
  [("type", .arr [.str "null", .str "string"]), ("maxLength", .int 80)]

def shortTextWithNulls : Json :=
  .obj [("oneOf", .arr [nullSchema, .obj shortText, nullSchema])]

theorem spellings_agree_memo :
    normalize (.obj shortTextOrNull) "#" =
        normalize (.obj (shortText.set "nullable" (.bool true))) "#" ∧
      normalize (.obj (shortText.set "x-nullable" (.bool true))) "#" =
        Node.orNull <$> normalize (.obj shortText) "#" ∧
      unplaced <$> normalize shortTextWithNulls "#" =
        (fun node => (node.withNullable true).unplaced) <$> normalize (.obj shortText) "#" ∧
      (run true [.add "Memo" (memo (.obj shortTextOrNull)) .null true]).returned = ["Memo"] ∧
      (run true [.add "Memo" (memo shortTextWithNulls) .null true]).returned = ["Memo"] ∧
      Generator.generate (.str "Schema") none []
          (run true [.add "Memo" (memo (.obj shortTextOrNull)) .null true]).session =
        Generator.generate (.str "Schema") none []
          (run true [.add "Memo" (memo shortTextWithNulls) .null true]).session := by
  obtain ⟨types, flag, union, respelt⟩ := spellings_agree true
  have notNull : ∀ node, normalize (.obj shortText) "#" = .ok node → node.isNull = false := by
    intro node normal
    rw [normalize_obj] at normal
    cases normal
    rfl
  have listed : shortTextOrNull.get? "type" = some (.arr (["null", "string"].map .str)) := rfl
  have nulls : ∀ member ∈ [nullSchema] ++ [nullSchema], member = nullSchema := by simp
  have spells : SpellsNullable (.obj shortText) (.obj shortTextOrNull) :=
    .types shortTextOrNull listed (by decide) (by decide)
  have respells : SpellsNullable (.obj shortText) shortTextWithNulls :=
    .union (.obj shortText) (.inr rfl) nulls (by simp) notNull
  have inner : Respelt (memo (.obj shortTextOrNull)) (memo shortTextWithNulls) :=
    .map (by decide : "properties" ∈ mapKeywords) [("type", .str "object")] [] [] [] "note"
      (.spelling spells respells)
  obtain ⟨returned, _, text⟩ := (respelt _ _ inner "Memo" .null true).2 [] []
  have name : (run true [.add "Memo" (memo (.obj shortTextOrNull)) .null true]).returned = ["Memo"] := by
    decide +kernel
  exact ⟨types shortTextOrNull ["null", "string"] "#" listed (by decide) (by decide),
    flag shortText "x-nullable" "#" (.inr rfl),
    union (.obj shortText) "oneOf" [nullSchema] [nullSchema] "#" "#" (.inr rfl) nulls (by simp) notNull,
    name, returned ▸ name, text _ _ _⟩

end TypedClient.History
