import TypedClient.Proofs.Builder.Coherence
import TypedClient.Proofs.Store.Order

/-! The references that a generator knows. In a history whose additions all succeed with one
document, every reference is declared from its own target, however the references form cycles and
whichever of the returned names become errors. -/
namespace TypedClient

open Builder Schema

namespace Store

variable {document : Json} {store before after : Store} {entry : String × String} {name : String}
  {d : Declaration}

/-- The declaration that holds the fields of a class or an error: itself, or the body that it
wraps. -/
def Holder (store : Store) (d holder : Declaration) : Prop :=
  d.kind = .classStruct ∧ holder = d ∨
    d.kind = .taggedError ∧ ∃ body, d.body = some body ∧ store.find? body = some holder

/-- The reference is declared from its own target, or has become an error since. -/
def Coherent (document : Json) (store : Store) (entry : String × String) : Prop :=
  ∃ target node d, lookup document (.str entry.1) = .ok (some target) ∧
    MergesTo document target node ∧ store.find? entry.2 = some d ∧
    (∀ object, node.struct? = some object → ∃ holder fields, store.Holder d holder ∧
      holder.type = some (.struct fields) ∧ Held document store.refNames object fields) ∧
    (node.struct? = none → d.kind = .schema ∧ ∃ type, Reads document store.refNames node type ∧
      d.type = some (type.getD .json))

theorem coherent_of_entry (settled : Entry document store entry) : Coherent document store entry := by
  obtain ⟨target, node, d, found, merges, declared, built⟩ := settled
  refine ⟨target, node, d, found, merges, declared, fun object struct => ?_, fun other => ?_⟩
  · simp only [Built, struct] at built
    obtain ⟨kind, fields, typed, held⟩ := built
    exact ⟨d, fields, .inl ⟨kind, rfl⟩, typed, held⟩
  · simp only [Built, other] at built
    exact built

theorem Holder.grows {holder : Declaration} (holds : before.Holder d holder)
    (grows : Grows before after) : after.Holder d holder := by
  rcases holds with own | ⟨kind, body, wraps, found⟩
  · exact .inl own
  · exact .inr ⟨kind, body, wraps, grows.find? found⟩

theorem Coherent.grows (coherent : Coherent document before entry) (grows : Grows before after) :
    Coherent document after entry := by
  have le := grows.refNames_prefix.subset
  obtain ⟨target, node, d, found, merges, declared, struct, other⟩ := coherent
  refine ⟨target, node, d, found, merges, grows.find? declared, fun object isStruct => ?_,
    fun isOther => ?_⟩
  · obtain ⟨holder, fields, holds, typed, held⟩ := struct object isStruct
    exact ⟨holder, fields, holds.grows grows, typed, held.mono le⟩
  · obtain ⟨kind, type, reads, typed⟩ := other isOther
    exact ⟨kind, type, reads.mono le, typed⟩

/-- Declarations of other names stay when a name is made an error. -/
theorem find?_marked_other (sound : store.Sound) {other : String} (found : store.find? other = some d)
    (different : other ≠ name) : (store.marked name).find? other = some d := by
  obtain ⟨member, rfl⟩ := mem_of_find? found
  apply find?_of_mem (marked_evolves sound name).sound.distinct
  unfold marked
  split
  · exact member
  · rename_i e named
    obtain ⟨known, rfl⟩ := mem_of_find? named
    have flagged : d ∈ (store.flagError e.name).declarations :=
      mem_update.mpr (.inr ⟨member, different⟩)
    unfold asError
    split
    · refine (mem_wrapBody ?_).mpr (.inl ⟨flagged, different⟩)
      rw [names_flagError]
      exact mem_names_of_mem known
    · exact flagged

/-- What has no fields of its own is flagged only. -/
theorem find?_marked_flagged (sound : store.Sound) (found : store.find? name = some d)
    (plain : ¬ (d.kind = .struct ∨ d.kind = .classStruct)) :
    (store.marked name).find? name = some { d with errorVariant := true } := by
  obtain ⟨member, rfl⟩ := mem_of_find? found
  have listed : { d with errorVariant := true } ∈ (store.marked d.name).declarations := by
    unfold marked
    rw [found]
    simp only [asError, if_neg plain]
    exact mem_update.mpr (.inl ⟨d, member, rfl, rfl⟩)
  exact find?_of_mem (marked_evolves sound d.name).sound.distinct listed

/-- The fields of a struct move to the body of the error, which is a struct. -/
theorem find?_marked_struct (sound : store.Sound) (found : store.find? name = some d)
    (isStruct : d.kind = .struct ∨ d.kind = .classStruct) :
    ∃ e holder, (store.marked name).find? name = some e ∧
      (e.kind = .taggedError ∧ e.errorVariant = true) ∧
      (∃ body, e.body = some body ∧ (store.marked name).find? body = some holder) ∧
      holder.type = d.type ∧ holder.kind = .struct := by
  obtain ⟨member, rfl⟩ := mem_of_find? found
  have distinct := (marked_evolves sound d.name).sound.distinct
  have declared : d.name ∈ (store.flagError d.name).names := by
    rw [names_flagError]
    exact mem_names_of_mem member
  have flagged : { d with errorVariant := true } ∈ (store.flagError d.name).declarations :=
    mem_update.mpr (.inl ⟨d, member, rfl, rfl⟩)
  have wrapped : store.marked d.name = (store.flagError d.name).wrapBody d := by
    unfold marked
    rw [found]
    simp only [asError, if_pos isStruct]
  rw [wrapped] at distinct ⊢
  have own := find?_of_mem distinct
    ((mem_wrapBody declared).mpr (.inr (.inr ⟨_, flagged, rfl, rfl⟩)))
  have body := find?_of_mem distinct ((mem_wrapBody declared).mpr (.inr (.inl rfl)))
  exact ⟨_, _, own, ⟨rfl, rfl⟩, ⟨_, rfl, body⟩, rfl, rfl⟩

/-- A body is never made an error itself, so the fields stay where they are held. -/
theorem Coherent.marked {used : List String} (coherent : Coherent document store entry)
    (sound : store.Sound) (apart : store.Apart used) (known : name ∈ used) :
    Coherent document (store.marked name) entry := by
  obtain ⟨target, node, d, found, merges, declared, struct, other⟩ := coherent
  rw [Coherent, refNames_marked]
  cases kind : node.struct? with
  | some object =>
    obtain ⟨holder, fields, holds, typed, held⟩ := struct object kind
    obtain ⟨e, holder', declared', holds', same⟩ : ∃ e holder',
        (store.marked name).find? entry.2 = some e ∧ (store.marked name).Holder e holder' ∧
          holder'.type = holder.type := by
      rcases holds with ⟨isClass, rfl⟩ | ⟨tagged, body, wraps, inner⟩
      · by_cases own : entry.2 = name
        · subst own
          obtain ⟨e, holder', declared', ⟨tagged, _⟩, inner, same, _⟩ :=
            find?_marked_struct sound declared (.inr isClass)
          exact ⟨e, holder', declared', .inr ⟨tagged, inner⟩, same⟩
        · exact ⟨holder, holder, find?_marked_other sound declared own, .inl ⟨isClass, rfl⟩, rfl⟩
      · have unused : body ≠ name := by
          rintro rfl
          exact (apart d (mem_of_find? declared).1 body wraps).2.1 known
        have inner' := find?_marked_other sound inner unused
        by_cases own : entry.2 = name
        · subst own
          have flagged := find?_marked_flagged sound declared (by simp [tagged])
          exact ⟨_, holder, flagged, .inr ⟨tagged, body, wraps, inner'⟩, rfl⟩
        · exact ⟨d, holder, find?_marked_other sound declared own,
            .inr ⟨tagged, body, wraps, inner'⟩, rfl⟩
    refine ⟨target, node, e, found, merges, declared', fun other struct => ?_, by simp [kind]⟩
    rw [kind] at struct
    cases struct
    exact ⟨holder', fields, holds', same.trans typed, held⟩
  | none =>
    obtain ⟨isSchema, type, reads, typed⟩ := other kind
    by_cases own : entry.2 = name
    · subst own
      have flagged := find?_marked_flagged sound declared (by simp [isSchema])
      exact ⟨target, node, _, found, merges, flagged, by simp [kind],
        fun _ => ⟨isSchema, type, reads, typed⟩⟩
    · exact ⟨target, node, d, found, merges, find?_marked_other sound declared own, by simp [kind],
        fun _ => ⟨isSchema, type, reads, typed⟩⟩

end Store

namespace History

variable {brandIds : Bool} {document : Json} {calls : List Call}

/-- Every addition returns and uses one document, and only names that were returned are made
errors. -/
inductive Orderly (brandIds : Bool) (document : Json) : List Call → Prop
  | fresh : Orderly brandIds document []
  | add {calls : List Call} {name : String} {fragment : Json} {preferStruct : Bool}
      (before : Orderly brandIds document calls)
      (returns : ∃ declared session, addSchema brandIds name fragment document preferStruct
        (run brandIds calls).session = .ok declared session) :
      Orderly brandIds document (calls ++ [.add name fragment document preferStruct])
  | mark {calls : List Call} {name : String} (before : Orderly brandIds document calls)
      (known : name ∈ (run brandIds calls).returned) :
      Orderly brandIds document (calls ++ [.markAsError name])

theorem run_concat (brandIds : Bool) (calls : List Call) (c : Call) :
    run brandIds (calls ++ [c]) = (run brandIds calls).call brandIds c := by
  simp [run]

theorem Orderly.careful (orderly : Orderly brandIds document calls) :
    ∀ name, .markAsError name ∈ calls → name ∈ (run brandIds calls).returned := by
  induction orderly with
  | fresh => simp
  | @add calls key fragment preferStruct _ _ ih =>
    intro name member
    have earlier := ih name (by simpa using member)
    rw [run_concat]
    obtain ⟨_, same | ⟨_, same, _⟩⟩ := store_add brandIds key fragment document preferStruct
      (run_sound brandIds calls).store
    · rwa [same]
    · rw [same]
      exact List.mem_append_left _ earlier
  | @mark calls other _ known ih =>
    intro name member
    rw [run_concat, (store_markAsError brandIds _ other).2]
    rcases List.mem_append.mp member with earlier | last
    · exact ih name earlier
    · cases List.mem_singleton.mp last
      exact known

theorem Orderly.coherent (orderly : Orderly brandIds document calls) :
    ∀ entry ∈ (run brandIds calls).store.refNames,
      Store.Coherent document (run brandIds calls).store entry := by
  induction orderly with
  | fresh => simp [run, store]
  | @add calls name fragment preferStruct before returns ih =>
    obtain ⟨declared, session, done⟩ := returns
    have valid : Valid document (run brandIds calls).store := by
      refine ⟨(run_sound brandIds calls).store, fun entry listed => ?_⟩
      obtain ⟨target, _, _, found, _⟩ := ih entry listed
      obtain ⟨place, resolved, _⟩ := lookup_eq_some.mp found
      exact ⟨place, resolved⟩
    have settles := addSchema_settles valid done
    have after : (run brandIds (calls ++ [.add name fragment document preferStruct])).store =
        session.store := by
      rw [run_concat, store, call, done]
    rw [after]
    intro entry listed
    rcases settles.entries entry listed with old | ⟨_, settled⟩
    · exact (ih entry old).grows settles.grows
    · exact Store.coherent_of_entry settled
  | @mark calls name before known ih =>
    rw [run_concat, (store_markAsError brandIds _ name).1]
    intro entry listed
    rw [Store.refNames_marked] at listed
    exact (ih entry listed).marked (run_sound brandIds calls).store
      (run_apart brandIds calls before.careful) known

/-- An addition that returns a name has succeeded. -/
theorem exists_ok_of_returned {name : String} {fragment : Json} {preferStruct : Bool}
    (grown : (run brandIds (calls ++ [.add name fragment document preferStruct])).returned ≠
      (run brandIds calls).returned) :
    ∃ declared session, addSchema brandIds name fragment document preferStruct
      (run brandIds calls).session = .ok declared session := by
  rw [run_concat, call] at grown
  cases outcome : addSchema brandIds name fragment document preferStruct
      (run brandIds calls).session with
  | ok declared session => exact ⟨declared, session, rfl⟩
  | error fault session => simp [outcome] at grown

/-- After every call each reference is declared from its own target, merged where that is an
`allOf`. It is a class, or an error over its body, exactly if the target is an object that names its
properties and cannot be null; the fields are then those properties in order, without the ones that
lead nowhere. Else it stands for the expression of its target, and for any JSON value only if that
is the expression or the target leads nowhere: no name is left as it was reserved. -/
theorem run_memo_coherent (brandIds : Bool) (document : Json) (calls : List Call)
    (orderly : Orderly brandIds document calls) :
    let store := (run brandIds calls).store
    ∀ pointer name, (pointer, name) ∈ store.refNames →
      ∃ target node d, lookup document (.str pointer) = .ok (some target) ∧
        MergesTo document target node ∧ (∀ other, MergesTo document target other → other = node) ∧
        store.find? name = some d ∧
        ((d.kind = .classStruct ∨ d.kind = .taggedError) ↔ ∃ object, node.struct? = some object) ∧
        (∀ object, node.struct? = some object → ∃ holder fields, store.Holder d holder ∧
          holder.type = some (.struct fields) ∧ Held document store.refNames object fields) ∧
        (node.struct? = none → d.kind = .schema ∧ ∃ type,
          Reads document store.refNames node type ∧ d.type = some (type.getD .json)) := by
  intro store pointer name listed
  obtain ⟨target, node, d, found, merges, declared, struct, other⟩ :=
    orderly.coherent (pointer, name) listed
  refine ⟨target, node, d, found, merges, fun _ others => others.unique merges, declared, ?_, struct,
    other⟩
  cases kind : node.struct? with
  | some object =>
    obtain ⟨holder, _, ⟨isClass, _⟩ | ⟨tagged, _⟩, _⟩ := struct object kind
    · simp [isClass]
    · simp [tagged]
  | none => simp [(other kind).1]

/-- A list whose cells are merged from a part that refers back to them and to something missing,
and its use as an error. -/
def cellThenError : Json × List Call :=
  let ref (name : String) : Json := .obj [("$ref", .str ("#/$defs/" ++ name))]
  let object (properties : Members) : Json :=
    .obj [("type", .str "object"), ("properties", .obj properties)]
  let document : Json := .obj [("$defs", .obj [
    ("Link", object [("next", ref "Cell"), ("lost", ref "Missing"), ("tag", ref "Tag")]),
    ("Cell", .obj [("allOf", .arr [ref "Link", object [("size", .obj [("type", .str "integer")])]])]),
    ("Tag", .obj [("enum", .arr [.str "a", .str "b"])])])]
  (document, [.add "First" (ref "Cell") document false, .markAsError "Cell"])

theorem run_memo_coherent_cell :
    let (document, calls) := cellThenError
    let store := (run true calls).store
    Orderly true document calls ∧
      store.refNames = [("#/$defs/Cell", "Cell"), ("#/$defs/Tag", "Tag")] ∧
      store.declarations.map (fun d => (d.name, d.kind, d.fields.map (·.name))) =
        [("Cell", .taggedError, []), ("Tag", .schema, []),
          ("CellBody", .struct, ["next", "tag", "size"])] ∧
      ∃ target node d, lookup document (.str "#/$defs/Cell") = .ok (some target) ∧
        MergesTo document target node ∧ (∀ other, MergesTo document target other → other = node) ∧
        store.find? "Cell" = some d ∧
        ((d.kind = .classStruct ∨ d.kind = .taggedError) ↔ ∃ object, node.struct? = some object) ∧
        (∀ object, node.struct? = some object → ∃ holder fields, store.Holder d holder ∧
          holder.type = some (.struct fields) ∧ Held document store.refNames object fields) ∧
        (node.struct? = none → d.kind = .schema ∧ ∃ type,
          Reads document store.refNames node type ∧ d.type = some (type.getD .json)) := by
  have orderly : Orderly true cellThenError.1 cellThenError.2 :=
    .mark (.add .fresh (exists_ok_of_returned (by decide +kernel))) (by decide +kernel)
  have names : (run true cellThenError.2).store.refNames =
      [("#/$defs/Cell", "Cell"), ("#/$defs/Tag", "Tag")] := by decide +kernel
  refine ⟨orderly, names, by decide +kernel, ?_⟩
  exact run_memo_coherent true _ _ orderly "#/$defs/Cell" "Cell" (by rw [names]; simp)

end History

end TypedClient
