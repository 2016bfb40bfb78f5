import TypedClient.Proofs.Schema.Overlay
import TypedClient.Proofs.Walk.Frames
import TypedClient.Proofs.Walk.References

/-! When the parameters of an operation may be left out. They may if no parameter demands a value: a
plain parameter does so where it is marked as required, and one that is an object where its schema
requires one of its properties. -/
namespace TypedClient

namespace Walk

open Build

section Collecting

/-- Where a parameter stands and what it is called. -/
def slot? (parameter : Members) : Option (Key × Key) := do
  return (← (parameter.get "in").key?, ← ((parameter.get? "name").getD "").key?)

def sameSlot (a b : Key × Key) : Bool :=
  a.1.same b.1 && a.2.same b.2

def Clash (first second : Members) : Prop :=
  ∃ a b, slot? first = some a ∧ slot? second = some b ∧ sameSlot a b = true

/-- A parameter counts if it has a place, which is neither the path nor a cookie. -/
def Counts (parameter : Members) : Prop :=
  parameter.get "in" ≠ .str "path" ∧ parameter.get "in" ≠ .str "cookie" ∧
    parameter.get "in" ≠ .null

/-- A parameter is collected from a list: a value of the list is that parameter, perhaps over
references, and no later one that counts takes its place. -/
def Collected (document : Json) (parameters : List Json) (parameter : Members) : Prop :=
  ∃ before value after, parameters = before ++ value :: after ∧
    Denotes document value parameter ∧ Counts parameter ∧
    ∀ later ∈ after, ∀ other, Denotes document later other → Counts other → ¬ Clash parameter other

variable {document value : Json} {parameters : List Json} {parameter other : Members}
  {a b c : Key × Key}

theorem collected_snoc : Collected document (parameters ++ [value]) parameter ↔
    (Denotes document value parameter ∧ Counts parameter) ∨
      Collected document parameters parameter ∧
        ∀ other, Denotes document value other → Counts other → ¬ Clash parameter other := by
  constructor
  · rintro ⟨before, last, after, split, denotes, counts, kept⟩
    rcases List.eq_nil_or_concat after with rfl | ⟨others, final, rfl⟩
    · obtain ⟨rfl, same⟩ := List.append_inj' split rfl
      cases same
      exact .inl ⟨denotes, counts⟩
    · rw [List.concat_eq_append] at kept split
      rw [← List.cons_append, ← List.append_assoc] at split
      obtain ⟨rfl, same⟩ := List.append_inj' split rfl
      cases same
      refine .inr ⟨⟨before, last, others, rfl, denotes, counts, ?_⟩, kept value (by simp)⟩
      exact fun later member => kept later (List.mem_append_left _ member)
  · rintro (⟨denotes, counts⟩ | ⟨⟨before, last, after, rfl, denotes, counts, kept⟩, apart⟩)
    · exact ⟨parameters, value, [], rfl, denotes, counts, by simp⟩
    · refine ⟨before, last, after ++ [value], by simp, denotes, counts, ?_⟩
      intro later member
      rcases List.mem_append.mp member with earlier | own
      · exact kept later earlier
      · obtain rfl := List.mem_singleton.mp own
        exact apart

theorem sameSlot_of_sameSlot (first : sameSlot c a = true) (second : sameSlot c b = true) :
    sameSlot a b = true := by
  simp only [sameSlot, Bool.and_eq_true] at first second ⊢
  exact ⟨Key.same_of_same first.1 second.1, Key.same_of_same first.2 second.2⟩

theorem sameSlot_comm (a b : Key × Key) : sameSlot a b = sameSlot b a := by
  rw [sameSlot, sameSlot, Key.same_comm a.1, Key.same_comm a.2]

/-- An entry is kept under the slot that its place was first taken by. -/
def Slotted (key : Key × Key) (parameter : Members) : Prop :=
  ∃ own, slot? parameter = some own ∧ (key = own ∨ sameSlot key own = true)

theorem Slotted.sameSlot_iff {key slot : Key × Key} (slotted : Slotted key parameter)
    (found : slot? other = some slot) : sameSlot key slot = true ↔ Clash parameter other := by
  obtain ⟨own, read, kept⟩ := slotted
  have clash : Clash parameter other ↔ sameSlot own slot = true :=
    ⟨fun ⟨a, b, first, second, same⟩ => by
      cases read.symm.trans first
      cases found.symm.trans second
      exact same, fun same => ⟨own, slot, read, found, same⟩⟩
  rw [clash]
  rcases kept with rfl | same
  · rfl
  · exact ⟨sameSlot_of_sameSlot same, sameSlot_of_sameSlot (sameSlot_comm key own ▸ same)⟩

structure Gathered (document : Json) (parameters : List Json)
    (entries : List ((Key × Key) × Members)) : Prop where
  collected : ∀ parameter, parameter ∈ entries.map (·.2) ↔ Collected document parameters parameter
  slotted : ∀ entry ∈ entries, Slotted entry.1 entry.2

variable {entries : List ((Key × Key) × Members)}

/-- A value that is no parameter outside of the path adds nothing. -/
theorem Gathered.skip (gathered : Gathered document parameters entries)
    (idle : ∀ other, Denotes document value other → ¬ Counts other) :
    Gathered document (parameters ++ [value]) entries := by
  refine ⟨fun parameter => ?_, gathered.slotted⟩
  rw [gathered.collected, collected_snoc]
  constructor
  · intro collected
    exact .inr ⟨collected, fun other denotes counts => absurd counts (idle other denotes)⟩
  · rintro (⟨denotes, counts⟩ | ⟨collected, -⟩)
    · exact absurd counts (idle parameter denotes)
    · exact collected

/-- A parameter takes the place of those in its slot. -/
theorem Gathered.add {slot : Key × Key} {entries' : List ((Key × Key) × Members)}
    (gathered : Gathered document parameters entries) (denotes : Denotes document value other)
    (counts : Counts other) (found : slot? other = some slot)
    (listed : ∀ parameter, parameter ∈ entries'.map (·.2) ↔
      parameter = other ∨ ∃ entry ∈ entries, entry.2 = parameter ∧ sameSlot entry.1 slot = false)
    (slotted : ∀ entry ∈ entries', entry ∈ entries ∨
      entry.2 = other ∧ (entry.1 = slot ∨ sameSlot entry.1 slot = true)) :
    Gathered document (parameters ++ [value]) entries' := by
  refine ⟨fun parameter => ?_, fun entry member => ?_⟩
  · have replaced : (∀ later, Denotes document value later → Counts later →
        ¬ Clash parameter later) ↔ ¬ Clash parameter other :=
      ⟨fun apart => apart other denotes counts,
        fun apart later denotes' _ => denotes.unique denotes' ▸ apart⟩
    have own : Denotes document value parameter ∧ Counts parameter ↔ parameter = other :=
      ⟨fun ⟨denotes', _⟩ => denotes'.unique denotes, fun same => same ▸ ⟨denotes, counts⟩⟩
    rw [listed, collected_snoc, replaced, own, ← gathered.collected]
    refine or_congr_right ⟨?_, ?_⟩
    · rintro ⟨entry, member, rfl, apart⟩
      refine ⟨List.mem_map_of_mem member, fun clash => ?_⟩
      rw [(gathered.slotted entry member).sameSlot_iff found |>.mpr clash] at apart
      cases apart
    · rintro ⟨held, apart⟩
      obtain ⟨entry, member, rfl⟩ := List.mem_map.mp held
      refine ⟨entry, member, rfl, Bool.eq_false_of_not_eq_true fun same => apart ?_⟩
      exact (gathered.slotted entry member).sameSlot_iff found |>.mp same
  · rcases slotted entry member with earlier | ⟨same, kept⟩
    · exact gathered.slotted entry earlier
    · exact ⟨slot, same ▸ found, kept⟩

/-- A parameter whose slot is taken replaces what stands there. -/
theorem Gathered.replace {slot : Key × Key} (gathered : Gathered document parameters entries)
    (denotes : Denotes document value other) (counts : Counts other)
    (found : slot? other = some slot) (taken : entries.any (sameSlot ·.1 slot) = true) :
    Gathered document (parameters ++ [value])
      (entries.map fun entry => if sameSlot entry.1 slot then (entry.1, other) else entry) := by
  obtain ⟨old, held, same⟩ := List.any_eq_true.mp taken
  refine gathered.add denotes counts found (fun parameter => ?_) fun entry member => ?_
  · rw [List.map_map, List.mem_map]
    constructor
    · rintro ⟨entry, member, rfl⟩
      cases own : sameSlot entry.1 slot with
      | true => exact .inl (by simp [own])
      | false => exact .inr ⟨entry, member, by simp [own], own⟩
    · rintro (rfl | ⟨entry, member, rfl, apart⟩)
      · exact ⟨old, held, by simp [same]⟩
      · exact ⟨entry, member, by simp [apart]⟩
  · obtain ⟨former, kept, rfl⟩ := List.mem_map.mp member
    cases own : sameSlot former.1 slot with
    | true => exact .inr (by simp [own])
    | false => exact .inl (by simpa [own] using kept)

/-- A parameter whose slot is free comes last. -/
theorem Gathered.append {slot : Key × Key} (gathered : Gathered document parameters entries)
    (denotes : Denotes document value other) (counts : Counts other)
    (found : slot? other = some slot) (free : entries.any (sameSlot ·.1 slot) = false) :
    Gathered document (parameters ++ [value]) (entries ++ [(slot, other)]) := by
  have apart : ∀ entry ∈ entries, sameSlot entry.1 slot = false := by simpa using free
  refine gathered.add denotes counts found (fun parameter => ?_) fun entry member => ?_
  · rw [List.map_append, List.mem_append, List.mem_map, List.map_singleton, List.mem_singleton,
      or_comm]
    refine or_congr_right (exists_congr fun entry => ?_)
    exact ⟨fun ⟨member, same⟩ => ⟨member, same, apart entry member⟩,
      fun ⟨member, same, _⟩ => ⟨member, same⟩⟩
  · rcases List.mem_append.mp member with earlier | own
    · exact .inl earlier
    · obtain rfl := List.mem_singleton.mp own
      exact .inr ⟨rfl, .inl rfl⟩

theorem counts_iff : Counts parameter ↔ ((parameter.get "in").isText "path" ||
    (parameter.get "in").isText "cookie" || (parameter.get "in").sameKey .null) = false := by
  unfold Counts
  cases parameter.get "in" <;> simp [Json.isText, Json.sameKey, Json.key?, Key.same, Key.quantity?]

theorem toKey_eq_ok {key : Key} : value.toKey = .ok key ↔ value.key? = some key := by
  unfold Json.toKey
  split <;> simp_all

/-- Every parameter that counts is collected, and nothing else. -/
theorem mem_collect_iff {env : Env} {collected : List Members} {s t : Session}
    (done : collect env parameters s = .ok collected t) :
    parameter ∈ collected ↔ Collected env.document parameters parameter := by
  unfold collect at done
  obtain ⟨entries, u, folded, same⟩ := bind_eq_ok.mp done
  cases same
  refine (foldlM_along (P := Gathered env.document) ?_ ⟨?_, ?_⟩ folded).collected parameter
  · intro before value entries after s t gathered step
    obtain ⟨followed, u, chased, rest⟩ := bind_eq_ok.mp step
    split at rest
    · rename_i object
      have denotes := (follow_eq_obj_iff chased).mp rfl
      dsimp only at rest
      split at rest
      · rename_i uncounted
        cases rest
        refine gathered.skip fun other denotes' counts => ?_
        cases denotes.unique denotes'
        rw [counts_iff.mp counts] at uncounted
        cases uncounted
      · rename_i counts
        have counts := counts_iff.mpr (Bool.eq_false_of_not_eq_true counts)
        obtain ⟨place, _, lifted, named⟩ := bind_eq_ok.mp rest
        obtain ⟨placeRead, rfl⟩ := lift_eq_ok.mp lifted
        obtain ⟨name, _, lifted, stored⟩ := bind_eq_ok.mp named
        obtain ⟨nameRead, rfl⟩ := lift_eq_ok.mp lifted
        have found : slot? object = some (place, name) := by
          rw [slot?, toKey_eq_ok.mp placeRead, toKey_eq_ok.mp nameRead]
          rfl
        split at stored
        · rename_i taken
          cases stored
          exact gathered.replace denotes counts found taken
        · rename_i free
          cases stored
          exact gathered.append denotes counts found (Bool.eq_false_of_not_eq_true free)
    · rename_i unread
      cases rest
      refine gathered.skip fun other denotes => ?_
      exact absurd ((follow_eq_obj_iff chased).mpr denotes) (unread other)
  · simp [Collected]
  · simp

end Collecting

section Demanding

/-- The schema of a parameter is an object with properties, over which the parameter is spread. -/
def Spreads (parameter schema properties : Members) : Prop :=
  parameterSchema parameter = .ok (.obj schema) ∧ schema.get "properties" = .obj properties

def Marked (parameter : Members) : Prop :=
  (parameter.get "required").truthy = true

instance (parameter : Members) : Decidable (Marked parameter) :=
  inferInstanceAs (Decidable (_ = true))

def RequiresProperty (parameter : Members) : Prop :=
  ∃ schema properties, Spreads parameter schema properties ∧
    ∃ p ∈ properties, holds ((schema.get "required").orElse (.arr [])) p.1 = .ok true

def Demands (parameter : Members) : Prop :=
  (Marked parameter ∧ ¬ ∃ schema properties, Spreads parameter schema properties) ∨
    RequiresProperty parameter

variable {parameter schema properties : Members} {value : Json}

theorem Spreads.demands_iff (spreads : Spreads parameter schema properties) : Demands parameter ↔
    ∃ p ∈ properties, holds ((schema.get "required").orElse (.arr [])) p.1 = .ok true := by
  constructor
  · rintro (⟨-, plain⟩ | ⟨schema', properties', ⟨read, found⟩, requires⟩)
    · exact absurd ⟨schema, properties, spreads⟩ plain
    · cases spreads.1.symm.trans read
      cases spreads.2.symm.trans found
      exact requires
  · exact fun requires => .inr ⟨schema, properties, spreads, requires⟩

theorem demands_iff_of_plain (plain : ¬ ∃ schema properties, Spreads parameter schema properties) :
    Demands parameter ↔ Marked parameter :=
  ⟨fun demands => demands.elim And.left fun ⟨schema, properties, spreads, _⟩ =>
    absurd ⟨schema, properties, spreads⟩ plain, fun marked => .inl ⟨marked, plain⟩⟩

theorem spread_demands {added : Members × List Json} (read : parameterSchema parameter = .ok value)
    (done : spread parameter value = .ok added) :
    (added.2 ≠ [] ↔ Demands parameter) ∧ (added.2 ≠ [] → added.1 ≠ []) := by
  unfold spread at done
  dsimp only at done
  split at done
  · rename_i properties found
    obtain ⟨schema, rfl, held⟩ : ∃ schema, value = .obj schema ∧
        Members.get schema "properties" = .obj properties := by
      split at found
      · rename_i schema
        split at found
        · rename_i held
          cases found
          exact ⟨schema, rfl, held⟩
        · cases found
      · cases found
    rw [Spreads.demands_iff ⟨read, held⟩]
    refine except_foldlM_along (P := fun done acc => (acc.2 ≠ [] ↔ ∃ p ∈ done,
      holds ((Members.get schema "required").orElse (.arr [])) p.1 = .ok true) ∧
        (acc.2 ≠ [] → acc.1 ≠ [])) ?_ (by simp) done
    intro before p acc after ⟨required, _⟩ step
    obtain ⟨name, _, step⟩ := except_bind_eq_ok.mp step
    obtain ⟨needed, held, same⟩ := except_bind_eq_ok.mp step
    cases same
    refine ⟨?_, by simp⟩
    cases needed <;> simp [List.mem_append, or_and_right, exists_or, ← required, held]
  · rename_i found
    have plain : ¬ ∃ schema properties, Spreads parameter schema properties := by
      rintro ⟨schema, properties, read', held⟩
      cases read.symm.trans read'
      simp only [held] at found
      cases found
    rw [demands_iff_of_plain plain]
    obtain ⟨name, _, keyed⟩ := except_bind_eq_ok.mp done
    obtain ⟨key, _, same⟩ := except_bind_eq_ok.mp keyed
    cases same
    simp [Marked]

theorem set_ne_nil (members : Members) (name : Key) (value : Json) :
    members.set name value ≠ [] := by
  unfold Members.set
  split
  · rename_i present
    have held : members ≠ [] := by
      rintro rfl
      cases present
    simpa using held
  · simp

theorem foldl_set_ne_nil {members added : Members} (nonempty : members ≠ [] ∨ added ≠ []) :
    added.foldl (fun acc p => acc.set p.1 p.2) members ≠ [] := by
  induction added generalizing members with
  | nil => simpa using nonempty
  | cons p rest ih => exact ih (.inl (set_ne_nil members p.1 p.2))

/-- Something is required of the parameters together if one of them demands a value. -/
theorem addParameters_demands {collected : List Members} {params : Params}
    (done : collected.foldlM addParameter {} = .ok params) :
    (params.required ≠ [] ↔ ∃ parameter ∈ collected, Demands parameter) ∧
      (params.required ≠ [] → params.properties ≠ []) := by
  refine except_foldlM_along (P := fun done params =>
    (params.required ≠ [] ↔ ∃ parameter ∈ done, Demands parameter) ∧
      (params.required ≠ [] → params.properties ≠ [])) ?_ (by simp) done
  intro before parameter params after ⟨required, listed⟩ step
  unfold addParameter at step
  obtain ⟨schema, read, step⟩ := except_bind_eq_ok.mp step
  obtain ⟨added, spread, same⟩ := except_bind_eq_ok.mp step
  cases same
  obtain ⟨demands, named⟩ := spread_demands read spread
  dsimp only
  have either : params.required ++ added.2 ≠ [] ↔ params.required ≠ [] ∨ added.2 ≠ [] := by
    rw [ne_eq, List.append_eq_nil_iff, not_and_or]
  rw [either]
  constructor
  · rw [required, demands]
    simp [or_and_right, exists_or]
  · exact fun demanded => foldl_set_ne_nil (demanded.imp listed named)

end Demanding

section Parsing

variable {env : Env} {op op' : Operation} {s s' : Session} {schemaId : String}

/-- The parameters may be left out if none of those that count demands a value. -/
theorem parseParameters_paramsOptional {parameters : List Json} (start : op.paramsOptional = true)
    (done : parseParameters env op schemaId parameters s = .ok op' s') :
    op'.paramsOptional = true ↔
      ∀ parameter, Collected env.document parameters parameter → ¬ Demands parameter := by
  unfold parseParameters at done
  obtain ⟨collected, t, gathered, rest⟩ := bind_eq_ok.mp done
  obtain ⟨params, u, lifted, registered⟩ := bind_eq_ok.mp rest
  obtain ⟨folded, rfl⟩ := lift_eq_ok.mp lifted
  obtain ⟨required, listed⟩ := addParameters_demands folded
  have optional : op'.paramsOptional = params.required.isEmpty := by
    dsimp only at registered
    split at registered
    · rename_i unnamed
      cases registered
      have unrequired : params.required = [] :=
        of_not_not fun demanded => listed demanded (List.isEmpty_iff.mp unnamed)
      rw [start, unrequired]
      rfl
    · obtain ⟨declared, v, _, same⟩ := bind_eq_ok.mp registered
      cases same
      rfl
  rw [optional, List.isEmpty_iff, ← not_iff_not, ← ne_eq, required]
  simp only [mem_collect_iff gathered]
  push Not
  rfl

variable {path : Key} {method : String} {operation : Members} {shared : Json}

def elementsOf (value : Json) : List Json :=
  value.elements.toOption.getD []

theorem elementsOf_eq {value : Json} {items : List Json} (read : value.elements = .ok items) :
    elementsOf value = items := by
  simp [elementsOf, read, Except.toOption]

/-- The parameters of an operation as they are written, after those that its path shares. -/
def parametersOf (operation : Members) (shared : Json) : List Json :=
  elementsOf (shared.orElse (.arr [])) ++ elementsOf ((operation.get? "parameters").getD (.arr []))

theorem parseOperation_paramsOptional
    (done : parseOperation env path method operation shared s = .ok op s') :
    op.paramsOptional = true ↔ ∀ parameter,
      Collected env.document (parametersOf operation shared) parameter → ¬ Demands parameter := by
  unfold parseOperation at done
  obtain ⟨text, _, _, named⟩ := bind_eq_ok.mp done
  obtain ⟨id, _, _, tagged⟩ := bind_eq_ok.mp named
  obtain ⟨tags, _, _, shown⟩ := bind_eq_ok.mp tagged
  obtain ⟨schemaId, _, _, inherited⟩ := bind_eq_ok.mp shown
  obtain ⟨outer, _, lifted, owned⟩ := bind_eq_ok.mp inherited
  obtain ⟨readOuter, -⟩ := lift_eq_ok.mp lifted
  obtain ⟨own, _, lifted, parsed⟩ := bind_eq_ok.mp owned
  obtain ⟨readOwn, -⟩ := lift_eq_ok.mp lifted
  obtain ⟨first, u, parameters, rest⟩ := bind_eq_ok.mp parsed
  obtain ⟨second, v, body, others⟩ := bind_eq_ok.mp rest
  obtain ⟨third, w, responses, reports⟩ := bind_eq_ok.mp others
  obtain ⟨_, _, _, same⟩ := bind_eq_ok.mp reports
  cases same
  have frame : Frame (·.paramsOptional) := ⟨fun _ _ _ => rfl, fun _ _ _ _ _ _ _ _ => rfl⟩
  have kept := parseBody_frame frame rfl _ _ _ body
  rw [parseResponses_frame frame (fun _ _ => rfl) kept _ _ _ responses, parametersOf,
    elementsOf_eq readOuter, elementsOf_eq readOwn]
  exact parseParameters_paramsOptional rfl parameters

/-- The parameters of an operation must be given if one that counts is plain and marked as required
or is an object that requires one of its properties, whether or not it is marked itself. They may be
left out if no parameter is marked and no object among them requires a property. -/
theorem paramsOptional_of_demands
    (done : parseOperation env path method operation shared s = .ok op s') :
    ((∃ parameter, Collected env.document (parametersOf operation shared) parameter ∧
        Demands parameter) → op.paramsOptional = false) ∧
      ((∀ parameter, Collected env.document (parametersOf operation shared) parameter →
        ¬ Marked parameter ∧ ¬ RequiresProperty parameter) → op.paramsOptional = true) := by
  constructor
  · rintro ⟨parameter, collected, demands⟩
    refine Bool.eq_false_of_not_eq_true fun optional => ?_
    exact (parseOperation_paramsOptional done).mp optional parameter collected demands
  · intro free
    refine (parseOperation_paramsOptional done).mpr fun parameter collected demands => ?_
    obtain ⟨unmarked, unrequired⟩ := free parameter collected
    exact demands.elim (fun plain => unmarked plain.1) unrequired

end Parsing

def limit (required : Bool) : Members :=
  [("name", .str "limit"), ("in", .str "query"), ("required", .bool required),
    ("schema", .obj [("type", .str "integer")])]

/-- A filter of pets by an object that must have a name and may have an age. -/
def petFilter : Members :=
  [("name", .str "filter"), ("in", .str "query"),
    ("schema", .obj [("type", .str "object"), ("required", .arr [.str "name"]),
      ("properties", .obj [("name", .obj [("type", .str "string")]),
        ("age", .obj [("type", .str "integer")])])])]

def listPets (parameters : List Json) : Members :=
  [("operationId", .str "listPets"), ("parameters", .arr parameters), ("responses", .obj [])]

def petParameters : Json :=
  .obj [("components", .obj [("parameters", .obj [("Filter", .obj petFilter)])])]

def petFilterRef : Json :=
  .obj [("$ref", .str "#/components/parameters/Filter")]

theorem denotes_petFilterRef : Denotes petParameters petFilterRef petFilter := by
  have resolved : Pointer.resolve (.str "#/components/parameters/Filter") petParameters =
      .ok (some ⟨"#/components/parameters/Filter", .obj petFilter, "Filter"⟩) := by
    cbv
  exact ⟨1, .next rfl resolved (.here rfl)⟩

theorem requiresProperty_petFilter : RequiresProperty petFilter :=
  ⟨_, _, ⟨rfl, rfl⟩, ("name", .obj [("type", .str "string")]), List.mem_cons_self, rfl⟩

theorem collected_singleton {document value : Json} {parameter : Members}
    (collected : Collected document [value] parameter) : Denotes document value parameter := by
  rw [← List.nil_append [value], collected_snoc] at collected
  rcases collected with ⟨denotes, -⟩ | ⟨⟨before, _, _, split, _⟩, -⟩
  · exact denotes
  · exact absurd split.symm (by simp)

/-- A bound that is not marked takes the place of one that is. -/
theorem collected_limits {document : Json} {parameter : Members}
    (collected : Collected document [.obj (limit true), .obj (limit false)] parameter) :
    parameter = limit false := by
  have plain (required : Bool) : Denotes document (.obj (limit required)) (limit required) :=
    ⟨0, .here rfl⟩
  rw [← List.singleton_append, collected_snoc] at collected
  rcases collected with ⟨denotes, -⟩ | ⟨first, apart⟩
  · exact denotes.unique (plain false)
  · obtain rfl := (collected_singleton first).unique (plain true)
    exact absurd ⟨_, _, rfl, rfl, by decide⟩ (apart _ (plain false) (counts_iff.mpr rfl))

/-- The path shares a required bound, which the operation replaces. The operation adds the filter,
or it does not. -/
theorem paramsOptional_of_demands_listPets :
    (∃ op s', parseOperation { document := petParameters } "/pets" "get"
        (listPets [.obj (limit false), petFilterRef]) (.arr [.obj (limit true)]) {} = .ok op s' ∧
      Collected petParameters [.obj (limit true), .obj (limit false), petFilterRef] petFilter ∧
      Demands petFilter ∧ op.paramsOptional = false) ∧
    ∃ op s', parseOperation { document := petParameters } "/pets" "get"
        (listPets [.obj (limit false)]) (.arr [.obj (limit true)]) {} = .ok op s' ∧
      (∀ parameter, Collected petParameters [.obj (limit true), .obj (limit false)] parameter →
        ¬ Marked parameter ∧ ¬ RequiresProperty parameter) ∧ op.paramsOptional = true := by
  constructor
  · have ran : succeeds (parseOperation { document := petParameters } "/pets" "get"
        (listPets [.obj (limit false), petFilterRef]) (.arr [.obj (limit true)])) {}
        (fun _ _ => true) = true := by
      decide +kernel
    obtain ⟨op, s', done, -⟩ := exists_of_succeeds ran
    have collected : Collected petParameters
        [.obj (limit true), .obj (limit false), petFilterRef] petFilter :=
      ⟨[.obj (limit true), .obj (limit false)], petFilterRef, [], rfl, denotes_petFilterRef,
        counts_iff.mpr rfl, by simp⟩
    have demands : Demands petFilter := .inr requiresProperty_petFilter
    exact ⟨op, s', done, collected, demands,
      (paramsOptional_of_demands done).1 ⟨petFilter, collected, demands⟩⟩
  · have ran : succeeds (parseOperation { document := petParameters } "/pets" "get"
        (listPets [.obj (limit false)]) (.arr [.obj (limit true)])) {}
        (fun _ _ => true) = true := by
      decide +kernel
    obtain ⟨op, s', done, -⟩ := exists_of_succeeds ran
    have unmarked : ∀ parameter,
        Collected petParameters [.obj (limit true), .obj (limit false)] parameter →
          ¬ Marked parameter ∧ ¬ RequiresProperty parameter := by
      intro parameter collected
      obtain rfl := collected_limits collected
      refine ⟨by decide, ?_⟩
      rintro ⟨schema, properties, ⟨read, found⟩, -⟩
      cases read
      cases found
    exact ⟨op, s', done, unmarked, (paramsOptional_of_demands done).2 unmarked⟩

/-- No parameter is marked, but the filter requires a name. -/
theorem paramsOptional_unmarked_petFilter :
    ∃ op s', parseOperation { document := petParameters } "/pets" "get"
        (listPets [.obj petFilter]) (.arr []) {} = .ok op s' ∧
      (∃ parameter, Collected petParameters [.obj petFilter] parameter) ∧
      (∀ parameter, Collected petParameters [.obj petFilter] parameter → ¬ Marked parameter) ∧
      op.paramsOptional = false := by
  have ran : succeeds (parseOperation { document := petParameters } "/pets" "get"
      (listPets [.obj petFilter]) (.arr [])) {} (fun op _ => !op.paramsOptional) = true := by
    decide +kernel
  obtain ⟨op, s', done, required⟩ := exists_of_succeeds ran
  have plain : Denotes petParameters (.obj petFilter) petFilter := ⟨0, .here rfl⟩
  refine ⟨op, s', done, ⟨petFilter, [], _, [], rfl, plain, counts_iff.mpr rfl, by simp⟩, ?_,
    by simpa using required⟩
  intro parameter collected
  obtain rfl := (collected_singleton collected).unique plain
  decide

end Walk

end TypedClient
