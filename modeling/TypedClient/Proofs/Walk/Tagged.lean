import TypedClient.Proofs.Walk.Records

/-! Tagged errors among the names of operations. A declaration becomes a tagged error when some
operation records it as one, and then it is one for every operation that names it. Names that only
one operation knows are safe: no reference leads to them, so no other operation reaches them. -/
namespace TypedClient

open Build Builder

namespace Store

variable {store before after : Store} {name other : String}

def Tagged (store : Store) (name : String) : Prop :=
  ∃ d ∈ store.declarations, d.name = name ∧ d.kind = .taggedError

instance : Decidable (store.Tagged name) :=
  inferInstanceAs (Decidable (∃ d ∈ store.declarations, d.name = name ∧ d.kind = .taggedError))

structure Own (store : Store) (name : String) : Prop where
  declared : name ∈ store.names
  unreferred : name ∉ store.refNames.map (·.2)
  untagged : ¬ store.Tagged name

theorem Tagged.mem_names (tagged : store.Tagged name) : name ∈ store.names := by
  obtain ⟨d, member, rfl, _⟩ := tagged
  exact mem_names_of_mem member

/-- Additions declare no tagged errors. -/
theorem Grows.tagged (grows : Grows before after) (tagged : after.Tagged name) :
    before.Tagged name := by
  obtain ⟨added, declarations, plain⟩ := grows.declared
  obtain ⟨d, member, named, kind⟩ := tagged
  rw [declarations] at member
  rcases List.mem_append.mp member with old | new
  · exact ⟨d, old, named, kind⟩
  · exact absurd kind (plain d new)

/-- Making an error tags at most that error. -/
theorem tagged_marked (sound : store.Sound) (tagged : (store.marked other).Tagged name) :
    store.Tagged name ∨ name = other := by
  obtain ⟨d, member, rfl, kind⟩ := tagged
  have wraps := ((marked_evolves sound other).sound.tagged d member).mp kind
  obtain ⟨body, wraps⟩ := Option.isSome_iff_exists.mp wraps
  rcases body_marked member wraps with ⟨e, old, named, wrapped⟩ | ⟨same, _⟩
  · exact .inl ⟨e, old, named, (sound.tagged e old).mpr (by simp [wrapped])⟩
  · exact .inr same

theorem isStruct_of_tagged (sound : store.Sound) (tagged : store.Tagged name) :
    Generator.isStruct store name = true := by
  obtain ⟨d, member, rfl, kind⟩ := tagged
  simp [Generator.isStruct, find?_of_mem sound.distinct member, kind, DeclarationKind.isStruct]

namespace Own

theorem grows (own : before.Own name) (grows : Grows before after) : after.Own name := by
  refine ⟨grows.names_subset own.declared, fun referred => ?_, fun tagged =>
    own.untagged (grows.tagged tagged)⟩
  obtain ⟨added, refNames, fresh⟩ := grows.referred
  obtain ⟨entry, member, rfl⟩ := List.mem_map.mp referred
  rw [refNames] at member
  rcases List.mem_append.mp member with old | new
  · exact own.unreferred (List.mem_map_of_mem old)
  · exact fresh entry new own.declared

theorem marked (own : store.Own name) (sound : store.Sound) (different : name ≠ other) :
    (store.marked other).Own name := by
  refine ⟨(marked_evolves sound other).names.subset own.declared, ?_, fun tagged => ?_⟩
  · rw [refNames_marked]
    exact own.unreferred
  · rcases tagged_marked sound tagged with before | same
    · exact own.untagged before
    · exact different same

end Own

end Store

/-- The names through which an operation reads or writes data that is no error, apart from its
parameters. The default is one of them, since without a success it stands for all. -/
def Operation.carried (op : Operation) : List String :=
  op.payload.toList ++ op.successes.map (·.2) ++ op.defaultSchema.toList ++ op.streamSchema.toList

theorem Operation.mem_carried {op : Operation} {name : String} : name ∈ op.carried ↔
    op.payload = some name ∨ name ∈ op.successes.map (·.2) ∨ op.defaultSchema = some name ∨
      op.streamSchema = some name := by
  simp only [carried, List.mem_append, Option.mem_toList, or_assoc]

namespace Walk

open Store

variable {document : Json} {x y : Operation × Store} {labels : List String} {name : String}

/-- What is added is referred to or has a name of its own. -/
theorem Adds.own_or_referred {before after : Store} (adds : Adds document before after name) :
    after.Own name ∨ name ∈ after.refNames.map (·.2) := by
  by_cases referred : name ∈ after.refNames.map (·.2)
  · exact .inr referred
  · have fresh := adds.source.resolve_left referred
    exact .inl ⟨adds.declared, referred, fun tagged =>
      fresh (adds.settles.grows.tagged tagged).mem_names⟩

/-- A name of one's own stays so: an error that is recorded is referred to or new. -/
theorem Record.own (step : Record document x labels y) (own : x.2.Own name) : y.2.Own name := by
  cases step with
  | places | void | ignored => exact own
  | params _ adds | payload _ adds | default adds | stream adds | unread adds | success _ adds =>
    exact own.grows adds.settles.grows
  | failure _ adds =>
    have kept := own.grows adds.settles.grows
    refine kept.marked adds.settles.valid.sound ?_
    rintro rfl
    exact adds.source.elim kept.unreferred (absurd own.declared)

/-- A tagged error that is new is an error of the operation. -/
theorem Record.tagged (step : Record document x labels y) (tagged : y.2.Tagged name) :
    x.2.Tagged name ∨ name ∈ y.1.errorBodies.map (·.1) := by
  cases step with
  | places | void | ignored => exact .inl tagged
  | params _ adds | payload _ adds | default adds | stream adds | unread adds | success _ adds =>
    exact .inl (adds.settles.grows.tagged tagged)
  | @failure op _ after added status _ adds =>
    have sound := adds.settles.valid.sound
    rcases tagged_marked sound tagged with before | rfl
    · exact .inl (adds.settles.grows.tagged before)
    · obtain ⟨_, _, same, _, listed⟩ := failed_eq op status name (after.marked name)
      rw [same]
      exact .inr (listed (isStruct_of_tagged (marked_evolves sound name).sound tagged))

theorem Record.errorBodies_subset (step : Record document x labels y) :
    x.1.errorBodies.map (·.1) ⊆ y.1.errorBodies.map (·.1) := by
  cases step with
  | @failure op _ after name status =>
    obtain ⟨_, _, same, kept, _⟩ := failed_eq op status name (after.marked name)
    rw [same]
    exact kept
  | _ => exact List.Subset.refl _

/-- A name that carries data has been there or is added by the record. -/
theorem Record.carried (step : Record document x labels y) (carried : name ∈ y.1.carried) :
    name ∈ x.1.carried ∨ Adds document x.2 y.2 name := by
  have known := @Operation.mem_carried x.1 name
  cases step with
  | places | params | unread | void | ignored => exact .inl carried
  | payload _ adds =>
    rcases Operation.mem_carried.mp carried with same | others
    · cases same
      exact .inr adds
    · exact .inl (known.mpr (.inr others))
  | success _ adds =>
    rcases Operation.mem_carried.mp carried with payload | listed | others
    · exact .inl (known.mpr (.inl payload))
    · obtain ⟨entry, member, rfl⟩ := List.mem_map.mp listed
      rcases mem_assign member with old | rfl
      · exact .inl (known.mpr (.inr (.inl (List.mem_map_of_mem old))))
      · exact .inr adds
    · exact .inl (known.mpr (.inr (.inr others)))
  | default adds =>
    rcases Operation.mem_carried.mp carried with payload | success | same | stream
    · exact .inl (known.mpr (.inl payload))
    · exact .inl (known.mpr (.inr (.inl success)))
    · cases same
      exact .inr adds
    · exact .inl (known.mpr (.inr (.inr (.inr stream))))
  | stream adds =>
    rcases Operation.mem_carried.mp carried with payload | success | default | same
    · exact .inl (known.mpr (.inl payload))
    · exact .inl (known.mpr (.inr (.inl success)))
    · exact .inl (known.mpr (.inr (.inr (.inl default))))
    · cases same
      exact .inr adds
  | @failure op _ after added status =>
    obtain ⟨_, _, same, _⟩ := failed_eq op status added (after.marked added)
    rw [same] at carried
    exact .inl carried

structure Keeps (before after : Store) : Prop where
  own : ∀ {name}, before.Own name → after.Own name
  refNames : before.refNames <+: after.refNames

namespace Keeps

variable {before middle after : Store}

theorem refl (store : Store) : Keeps store store :=
  ⟨id, List.prefix_refl _⟩

theorem trans (first : Keeps before middle) (second : Keeps middle after) : Keeps before after :=
  ⟨second.own ∘ first.own, first.refNames.trans second.refNames⟩

end Keeps

/-- Names of an operation that are not referred to are its own, and those of its parameters are
never referred to. -/
structure Placed (op : Operation) (store : Store) : Prop where
  params : ∀ name ∈ op.params, store.Own name
  carried : ∀ name ∈ op.carried, store.Own name ∨ name ∈ store.refNames.map (·.2)

theorem Placed.keeps {op : Operation} {before after : Store} (placed : Placed op before)
    (keeps : Keeps before after) : Placed op after :=
  ⟨fun name member => keeps.own (placed.params name member), fun name member =>
    (placed.carried name member).imp keeps.own ((keeps.refNames.map (·.2)).subset ·)⟩

theorem Record.keeps (step : Record document x labels y) (valid : Valid document x.2) :
    Keeps x.2 y.2 :=
  ⟨step.own, (step.evolves valid).refNames⟩

theorem Record.placed (step : Record document x labels y) (valid : Valid document x.2)
    (placed : Placed x.1 x.2) : Placed y.1 y.2 := by
  have kept := placed.keeps (step.keeps valid)
  refine ⟨?_, fun name member => ?_⟩
  · cases step with
    | params _ adds own =>
      intro name member
      cases member
      exact adds.own_or_referred.resolve_right own
    | @failure op _ after name status =>
      obtain ⟨_, _, same, _⟩ := failed_eq op status name (after.marked name)
      rw [same]
      exact kept.params
    | _ => exact kept.params
  · rcases step.carried member with old | adds
    · exact kept.carried name old
    · exact adds.own_or_referred

/-- What holds while an operation is parsed, of the store before it and the state reached. -/
structure Guarded (document : Json) (base : Store) (state : Operation × Store) : Prop where
  valid : Valid document state.2
  keeps : Keeps base state.2
  placed : Placed state.1 state.2
  tagged : ∀ name, state.2.Tagged name → base.Tagged name ∨ name ∈ state.1.errorBodies.map (·.1)

theorem Record.guarded {base : Store} (step : Record document x labels y)
    (guarded : Guarded document base x) : Guarded document base y := by
  refine ⟨step.valid guarded.valid, guarded.keeps.trans (step.keeps guarded.valid),
    step.placed guarded.valid guarded.placed, fun name tagged => ?_⟩
  rcases step.tagged tagged with before | listed
  · exact (guarded.tagged name before).imp id (step.errorBodies_subset ·)
  · exact .inr listed

theorem Blank.guarded {op : Operation} {store : Store} (blank : Blank op)
    (valid : Valid document store) : Guarded document store (op, store) := by
  refine ⟨valid, .refl store, ⟨?_, ?_⟩, fun _ => .inl⟩
  · simp [blank.params]
  · simp [Operation.carried, blank.payload, blank.successes, blank.defaultSchema, blank.streamSchema]

theorem settled_carried {op : Operation}
    (carried : name ∈ (widenSuccess (adoptDefault op)).carried) : name ∈ op.carried := by
  obtain ⟨successes, classes, same, source⟩ := settled_eq op
  rw [same] at carried
  rcases Operation.mem_carried.mp carried with payload | success | others
  · exact Operation.mem_carried.mpr (.inl payload)
  · rcases source with rfl | ⟨single, rfl, known⟩
    · exact Operation.mem_carried.mpr (.inr (.inl success))
    · obtain rfl := List.mem_singleton.mp success
      exact Operation.mem_carried.mpr (.inr (known.imp id .inl))
  · exact Operation.mem_carried.mpr (.inr (.inr others))

theorem Parsed.guarded {operation : Members} {op : Operation} {before after : Store}
    (parsed : Parsed document operation before op after) (valid : Valid document before) :
    Guarded document before (op, after) := by
  obtain ⟨start, recorded, labels, blank, run, _, rfl⟩ := parsed
  have guarded := run.invariant Record.guarded (blank.guarded valid)
  have placed : Placed (widenSuccess (adoptDefault recorded)) after := by
    obtain ⟨_, _, same, _⟩ := settled_eq recorded
    refine ⟨?_, fun name member => guarded.placed.carried name (settled_carried member)⟩
    rw [same]
    exact guarded.placed.params
  refine ⟨guarded.valid, guarded.keeps, placed, ?_⟩
  obtain ⟨_, _, same, _⟩ := settled_eq recorded
  rw [same]
  exact guarded.tagged

namespace Walked

variable {operations : List Members} {ops : List Operation} {before after : Store}

theorem keeps (walked : Walked document operations before ops after)
    (valid : Valid document before) : Keeps before after := by
  induction walked with
  | nil => exact .refl _
  | cons parsed _ ih =>
    have guarded := parsed.guarded valid
    exact guarded.keeps.trans (ih guarded.valid)

theorem placed (walked : Walked document operations before ops after)
    (valid : Valid document before) : ∀ op ∈ ops, Placed op after := by
  induction walked with
  | nil => simp
  | cons parsed rest ih =>
    have guarded := parsed.guarded valid
    exact List.forall_mem_cons.mpr
      ⟨guarded.placed.keeps (rest.keeps guarded.valid), ih guarded.valid⟩

theorem tagged (walked : Walked document operations before ops after)
    (valid : Valid document before) (tagged : after.Tagged name) :
    before.Tagged name ∨ ∃ op ∈ ops, name ∈ op.errorBodies.map (·.1) := by
  induction walked with
  | nil => exact .inl tagged
  | cons parsed rest ih =>
    have guarded := parsed.guarded valid
    rcases ih guarded.valid tagged with earlier | ⟨op, member, listed⟩
    · exact (guarded.tagged name earlier).imp id fun listed => ⟨_, by simp, listed⟩
    · exact .inr ⟨op, List.mem_cons_of_mem _ member, listed⟩

end Walked

/-- Whatever a walk records as an error is tagged at its end. -/
theorem tagged_of_error {store : Store} {op : Operation} (sound : store.Sound) (fits : op.Fits store)
    (listed : name ∈ op.errorBodies.map (·.1)) : store.Tagged name := by
  obtain ⟨entry, member, rfl⟩ := List.mem_map.mp listed
  obtain ⟨d, declared, named, wraps⟩ := fits.bodies entry member
  exact ⟨d, declared, named, (sound.tagged d declared).mpr (by simp [wraps])⟩

/-- Parameters are never read through a tagged error. Any other data of an operation is exactly if
some operation of the document records the same name as an error, and then a reference leads to
that name. -/
theorem walk_tagged_iff {env : Env} {operations : List Operation} {final : Session}
    (done : walk env {} = .ok operations final) :
    ∀ op ∈ operations, (∀ name ∈ op.params, ¬ final.store.Tagged name) ∧
      ∀ name ∈ op.carried,
        (final.store.Tagged name ↔
          ∃ other ∈ operations, name ∈ other.errorBodies.map (·.1)) ∧
        (final.store.Tagged name → name ∈ final.store.refNames.map (·.2)) := by
  have valid := valid_empty env.document
  have walked := walk_walked valid done
  obtain ⟨evolves, fits⟩ := (walk_evolves env sound_empty).of_ok done
  intro op member
  have placed := walked.placed valid op member
  refine ⟨fun name own => (placed.params name own).untagged, fun name carried => ⟨⟨?_, ?_⟩, ?_⟩⟩
  · intro tagged
    refine (walked.tagged valid tagged).resolve_left ?_
    rintro ⟨_, early, _⟩
    cases early
  · rintro ⟨other, recorded, listed⟩
    exact tagged_of_error evolves.sound (fits other recorded) listed
  · intro tagged
    exact (placed.carried name carried).resolve_left fun own => own.untagged tagged

/-- A missing pet is a problem, and problems can be read as well. -/
def missingPets : Json :=
  reading [("/pets", [("200", answer "Pet"), ("404", answer "Problem")]),
    ("/problems", [("200", answer "Problem")])]

theorem walk_tagged_iff_missingPets : ∃ operations final,
    walk ⟨missingPets, true, .str "_untagged"⟩ {} = .ok operations final ∧
      operations.map (fun op => (op.carried, op.errorBodies.map (·.1))) =
        [(["Pet"], ["Problem"]), (["Problem"], [])] ∧
      ∀ op ∈ operations, (∀ name ∈ op.params, ¬ final.store.Tagged name) ∧
        ∀ name ∈ op.carried,
          (final.store.Tagged name ↔
            ∃ other ∈ operations, name ∈ other.errorBodies.map (·.1)) ∧
          (final.store.Tagged name → name ∈ final.store.refNames.map (·.2)) := by
  have passed : Build.succeeds (walk { document := missingPets }) {} fun operations _ =>
      operations.map (fun op => (op.carried, op.errorBodies.map (·.1))) =
        [(["Pet"], ["Problem"]), (["Problem"], [])] := by
    decide +kernel
  obtain ⟨operations, final, done, listed⟩ := Build.exists_of_succeeds passed
  exact ⟨operations, final, done, of_decide_eq_true listed, walk_tagged_iff done⟩

/-- A success is decoded through a tagged error. -/
theorem walk_success_tagged : ∃ operations final,
    walk ⟨missingPets, true, .str "_untagged"⟩ {} = .ok operations final ∧
      ∃ op ∈ operations, op.successes = [("2xx", "Problem")] ∧ final.store.Tagged "Problem" := by
  have passed : Build.succeeds (walk { document := missingPets }) {} fun operations final =>
      ∃ op ∈ operations, op.successes = [("2xx", "Problem")] ∧ final.store.Tagged "Problem" := by
    decide +kernel
  obtain ⟨operations, final, done, tagged⟩ := Build.exists_of_succeeds passed
  exact ⟨operations, final, done, of_decide_eq_true tagged⟩

end Walk

end TypedClient
