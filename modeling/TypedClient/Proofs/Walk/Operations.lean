import TypedClient.Proofs.Client.Names
import TypedClient.Proofs.Store.Errors
import TypedClient.Walk

/-! Walks and the store. A walk only lets the store evolve, so that what an operation has
registered stays declared, and its errors keep the bodies that they were given. -/
namespace TypedClient

open Build Store

variable {s : Session}

/-- Every name of an operation is declared, and every body is that of its error. -/
structure Operation.Fits (op : Operation) (store : Store) : Prop where
  params : ∀ name ∈ op.params, name ∈ store.names
  payload : ∀ name ∈ op.payload, name ∈ store.names
  successes : ∀ entry ∈ op.successes, entry.2 ∈ store.names
  errors : ∀ entry ∈ op.errors, entry.2 ∈ store.names
  defaultSchema : ∀ name ∈ op.defaultSchema, name ∈ store.names
  streamSchema : ∀ name ∈ op.streamSchema, name ∈ store.names
  bodies : ∀ entry ∈ op.errorBodies,
    ∃ d ∈ store.declarations, d.name = entry.1 ∧ d.body = some entry.2

namespace Operation.Fits

variable {op : Operation} {before after store : Store}

theorem evolve (fits : op.Fits before) (evolves : Evolves before after) : op.Fits after := by
  have kept := evolves.names.subset
  refine ⟨fun name member => kept (fits.params name member),
    fun name member => kept (fits.payload name member),
    fun entry member => kept (fits.successes entry member),
    fun entry member => kept (fits.errors entry member),
    fun name member => kept (fits.defaultSchema name member),
    fun name member => kept (fits.streamSchema name member), ?_⟩
  intro entry member
  obtain ⟨d, listed, named, wraps⟩ := fits.bodies entry member
  obtain ⟨e, eListed, eNamed, eWraps⟩ := evolves.bodies d listed (by simp [wraps])
  exact ⟨e, eListed, eNamed.trans named, eWraps.trans wraps⟩

theorem parts (fits : op.Fits store) : ∀ name ∈ op.parts, name ∈ store.names := by
  intro name member
  rcases mem_parts.mp member with h | h | h | h | h | h
  · exact fits.params name h
  · exact fits.payload name h
  · obtain ⟨entry, listed, rfl⟩ := List.mem_map.mp h
    exact fits.successes entry listed
  · obtain ⟨entry, listed, rfl⟩ := List.mem_map.mp h
    exact fits.errors entry listed
  · exact fits.defaultSchema name h
  · exact fits.streamSchema name h

end Operation.Fits

theorem mem_assign [BEq α] [LawfulBEq α] {pairs : List (α × β)} {key : α} {value : β}
    {entry : α × β} (member : entry ∈ assign pairs key value) :
    entry ∈ pairs ∨ entry = (key, value) := by
  unfold assign at member
  split at member
  · obtain ⟨old, listed, rfl⟩ := List.mem_map.mp member
    by_cases same : old.1 = key
    · exact .inr (by simp [same])
    · exact .inl (by simpa [same] using listed)
  · simpa using member

section Keys

variable [BEq α] [LawfulBEq α] {pairs : List (α × β)} {key : α} {value : β}

theorem keys_assign_of_mem (known : key ∈ pairs.map (·.1)) :
    (assign pairs key value).map (·.1) = pairs.map (·.1) := by
  have found : pairs.any (·.1 == key) = true := by
    obtain ⟨entry, member, rfl⟩ := List.mem_map.mp known
    exact List.any_eq_true.mpr ⟨entry, member, by simp⟩
  rw [assign, if_pos found, List.map_map]
  refine List.map_congr_left fun entry _ => ?_
  rw [Function.comp_apply]
  split <;> rfl

theorem assign_of_not_mem (fresh : key ∉ pairs.map (·.1)) :
    assign pairs key value = pairs ++ [(key, value)] := by
  have missing : ¬ pairs.any (·.1 == key) = true := by
    intro found
    obtain ⟨entry, member, same⟩ := List.any_eq_true.mp found
    exact fresh (List.mem_map.mpr ⟨entry, member, eq_of_beq same⟩)
  rw [assign, if_neg missing]

theorem keys_assign_of_not_mem (fresh : key ∉ pairs.map (·.1)) :
    (assign pairs key value).map (·.1) = pairs.map (·.1) ++ [key] := by
  rw [assign_of_not_mem fresh, List.map_append, List.map_singleton]

theorem mem_keys_assign {other : α} : other ∈ (assign pairs key value).map (·.1) ↔
    other ∈ pairs.map (·.1) ∨ other = key := by
  by_cases known : key ∈ pairs.map (·.1)
  · rw [keys_assign_of_mem known]
    exact ⟨.inl, fun member => member.elim id (· ▸ known)⟩
  · rw [keys_assign_of_not_mem known, List.mem_append, List.mem_singleton]

end Keys

namespace Walk

variable {op : Operation}

theorem addSchema_evolves (env : Env) (name : String) (fragment : Json) (preferStruct : Bool)
    (sound : s.store.Sound) :
    Ends (Evolves s.store) (fun declared t => declared ∈ t.names)
      (Builder.addSchema env.brandIds name fragment env.document preferStruct) s :=
  (Builder.addSchema_grows _ name fragment _ preferStruct sound).mono (fun _ => Grows.evolves)
    (fun _ _ _ value => value.1)

/-- References are followed in the document alone. -/
theorem followFrom_keeps (document : Json) (fuel : Nat) (seen : List Key) (value : Json) :
    Ends (· = s.store) (fun _ _ => True) (followFrom document fuel seen value) s := by
  induction fuel generalizing seen value s with
  | zero => exact .throw rfl
  | succ fuel ih =>
    unfold followFrom
    split
    · split
      · exact .pure rfl trivial
      · apply Ends.lift_bind (P := (· = s.store)) rfl
        intro key _
        split
        · exact .pure rfl trivial
        · apply Ends.lift_bind (P := (· = s.store)) rfl
          intro target _
          split
          · exact ih _ _
          · exact Ends.report (.pure rfl trivial)
    · exact .pure rfl trivial

theorem follow_keeps (document value : Json) :
    Ends (· = s.store) (fun _ _ => True) (follow document value) s :=
  followFrom_keeps document _ [] value

theorem follow_evolves (document value : Json) (sound : s.store.Sound) :
    Ends (Evolves s.store) (fun _ _ => True) (follow document value) s :=
  (follow_keeps document value).mono (fun _ same => by rw [same]; exact .refl sound) (fun _ _ _ => id)

theorem collect_keeps (env : Env) (parameters : List Json) :
    Ends (· = s.store) (fun _ _ => True) (collect env parameters) s := by
  have chain : Chain (fun _ => True) fun before after : Store => after = before :=
    ⟨fun _ => rfl, fun first second => second.trans first, fun _ => trivial⟩
  refine chain.bind (Q := fun _ _ => True) (chain.foldlM ?_ trivial trivial) ?_
  · intro parameter _ acc s _ _
    refine chain.bind (follow_keeps env.document parameter) ?_
    intro value s' _ _
    split
    · simp only
      split
      · exact .pure rfl trivial
      · apply Ends.lift_bind (P := (· = s'.store)) rfl
        intro place _
        apply Ends.lift_bind (P := (· = s'.store)) rfl
        intro name _
        split <;> exact .pure rfl trivial
    · exact .pure rfl trivial
  · intro _ s' _ _
    exact .pure rfl trivial

theorem collect_evolves (env : Env) (parameters : List Json) (sound : s.store.Sound) :
    Ends (Evolves s.store) (fun _ _ => True) (collect env parameters) s :=
  (collect_keeps env parameters).mono (fun _ same => by rw [same]; exact .refl sound) (fun _ _ _ => id)

theorem parseParameters_evolves (env : Env) (schemaId : String) (parameters : List Json)
    (sound : s.store.Sound) (fits : op.Fits s.store) :
    Ends (Evolves s.store) Operation.Fits (parseParameters env op schemaId parameters) s := by
  refine Evolves.chain.bind (collect_evolves env parameters sound) ?_
  intro collected s' evolves _
  have unchanged : Evolves s'.store s'.store := .refl evolves.sound
  have kept := fits.evolve evolves
  apply Ends.lift_bind unchanged
  intro params _
  simp only
  split
  · exact .pure unchanged { kept with }
  · refine Evolves.chain.bind (addSchema_evolves env _ _ true evolves.sound) ?_
    intro name s'' evolves' declared
    exact .pure (.refl evolves'.sound)
      { kept.evolve evolves' with params := by simpa using declared }

theorem parseBody_evolves (env : Env) (schemaId : String) (body : Json)
    (sound : s.store.Sound) (fits : op.Fits s.store) :
    Ends (Evolves s.store) Operation.Fits (parseBody env op schemaId body) s := by
  refine Evolves.chain.bind (follow_evolves env.document body sound) ?_
  intro body s' evolves _
  have unchanged : Evolves s'.store s'.store := .refl evolves.sound
  have kept := fits.evolve evolves
  apply Ends.lift_bind unchanged
  intro content _
  apply Ends.lift_bind unchanged
  intro schema _
  split
  · apply Ends.lift_bind unchanged
    intro content _
    split
    · exact .pure unchanged kept
    · apply Ends.lift_bind unchanged
      intro form _
      refine Evolves.chain.bind (addSchema_evolves env _ _ false evolves.sound) ?_
      intro name s'' evolves' declared
      exact .pure (.refl evolves'.sound)
        { kept.evolve evolves' with payload := by simpa using declared }
  · refine Evolves.chain.bind (addSchema_evolves env _ _ false evolves.sound) ?_
    intro name s'' evolves' declared
    exact .pure (.refl evolves'.sound)
      { kept.evolve evolves' with payload := by simpa using declared }

/-- A struct that is made an error has its body; the default name of a body is not needed. -/
theorem body_of_isStruct {store : Store} {name : String} (sound : store.Sound)
    (isStruct : Generator.isStruct (store.marked name) name = true) :
    ∃ d ∈ (store.marked name).declarations, d.name = name ∧
      d.body = some ((named (Generator.bodyOf? (store.marked name) name)).getD (name ++ "Body")) := by
  have markedSound := (marked_evolves sound name).sound
  obtain ⟨d, found, kind⟩ := (Option.any_eq_true _ _).mp isStruct
  obtain ⟨member, same⟩ := mem_of_find? found
  have tagged := marked_kind sound member same kind
  obtain ⟨body, wraps⟩ := Option.isSome_iff_exists.mp ((markedSound.tagged d member).mp tagged)
  have nonempty : body ≠ "" := by
    rintro rfl
    exact markedSound.nonempty (markedSound.bodies d member "" wraps)
  have settled : named (Generator.bodyOf? (store.marked name) name) = some body :=
    Operation.named_eq_some.mpr ⟨by simp [Generator.bodyOf?, found, wraps], nonempty⟩
  exact ⟨d, member, same, by simp [settled, wraps]⟩

theorem registerError_evolves (status : String) {name : String} (sound : s.store.Sound)
    (declared : name ∈ s.store.names) (fits : op.Fits s.store) :
    Ends (Evolves s.store) Operation.Fits (registerError op status name) s := by
  obtain ⟨s', step, marked⟩ := markAsError_ok name s
  have evolves : Evolves s.store s'.store := marked ▸ marked_evolves sound name
  have first : Ends (Evolves s.store) (fun _ t => t = s.store.marked name)
      (Generator.markAsError name) s := by
    unfold Ends
    rw [step]
    exact ⟨evolves, marked⟩
  refine Evolves.chain.bind first ?_
  rintro _ s'' evolves markedStore
  have unchanged : Evolves s''.store s''.store := .refl evolves.sound
  have kept := fits.evolve evolves
  have errors : ∀ entry ∈ assign op.errors (Text.lowerText status) name,
      entry.2 ∈ s''.store.names := by
    intro entry member
    rcases mem_assign member with old | rfl
    · exact kept.errors entry old
    · exact evolves.names.subset declared
  apply Ends.store
  split
  · rename_i isStruct
    refine .pure unchanged { kept with errors, bodies := ?_ }
    intro entry member
    rcases mem_assign member with old | rfl
    · exact kept.bodies entry old
    · rw [markedStore] at isStruct ⊢
      exact body_of_isStruct sound isStruct
  · exact .pure unchanged { kept with errors }

theorem registerResponse_evolves (status : String) (major : Option Nat) {name : String}
    (sound : s.store.Sound) (declared : name ∈ s.store.names) (fits : op.Fits s.store) :
    Ends (Evolves s.store) Operation.Fits (registerResponse op status major name) s := by
  have unchanged : Evolves s.store s.store := .refl sound
  unfold registerResponse
  split
  · exact .pure unchanged { fits with defaultSchema := by simpa using declared }
  · split
    · exact .pure unchanged fits
    · split
      · refine .pure unchanged { fits with successes := ?_ }
        intro entry member
        rcases mem_assign member with old | rfl
        · exact fits.successes entry old
        · exact declared
      · exact registerError_evolves status sound declared fits

theorem parseContent_evolves (env : Env) (schemaId status : String) (major : Option Nat)
    (schema : Json) (sound : s.store.Sound) (fits : op.Fits s.store) :
    Ends (Evolves s.store) Operation.Fits
      (parseContent env schemaId op status major schema) s := by
  unfold parseContent
  split
  · exact .pure (.refl sound) fits
  · refine Evolves.chain.bind (addSchema_evolves env _ _ true sound) ?_
    intro name s' evolves declared
    exact registerResponse_evolves status major evolves.sound declared (fits.evolve evolves)

theorem parseStream_evolves (env : Env) (schemaId : String) (stream : Json)
    (sound : s.store.Sound) (fits : op.Fits s.store) :
    Ends (Evolves s.store) Operation.Fits (parseStream env schemaId op stream) s := by
  unfold parseStream
  split
  · exact .pure (.refl sound) fits
  · refine Evolves.chain.bind (addSchema_evolves env _ _ true sound) ?_
    intro name s' evolves declared
    exact .pure (.refl evolves.sound)
      { fits.evolve evolves with streamSchema := by simpa using declared }
  · exact .pure (.refl sound) fits

theorem noteEmpty_fits {store : Store} (fits : op.Fits store) (status : String)
    (major : Option Nat) (content : Json) : (noteEmpty op status major content).Fits store := by
  unfold noteEmpty
  split
  · split <;> exact { fits with }
  · exact fits

theorem parseResponse_evolves (env : Env) (schemaId : String) (entry : Key × Json)
    (sound : s.store.Sound) (fits : op.Fits s.store) :
    Ends (Evolves s.store) Operation.Fits (parseResponse env schemaId op entry) s := by
  refine Evolves.chain.bind (follow_evolves env.document entry.2 sound) ?_
  intro response s' evolves _
  have unchanged : Evolves s'.store s'.store := .refl evolves.sound
  have kept := fits.evolve evolves
  split
  · apply Ends.lift_bind unchanged
    intro schema _
    apply Ends.lift_bind unchanged
    intro major _
    refine Evolves.chain.bind (parseContent_evolves env schemaId _ major schema evolves.sound kept) ?_
    intro op s' evolves fits
    apply Ends.lift_bind (.refl evolves.sound)
    intro stream _
    refine Evolves.chain.bind (parseStream_evolves env schemaId stream evolves.sound fits) ?_
    intro op s' evolves fits
    exact .pure (.refl evolves.sound) (noteEmpty_fits fits _ major _)
  · exact .pure unchanged kept

theorem adoptDefault_fits {store : Store} (fits : op.Fits store) :
    (adoptDefault op).Fits store := by
  unfold adoptDefault
  split
  · rename_i name _ found
    have declared := fits.defaultSchema name (Operation.named_eq_some.mp found).1
    exact { fits with successes := by simpa using declared }
  · exact fits

theorem widenSuccess_fits {store : Store} (fits : op.Fits store) :
    (widenSuccess op).Fits store := by
  unfold widenSuccess
  split
  · rename_i status name single
    have declared := fits.successes (status, name) (by simp [single])
    split
    · exact { fits with successes := by simpa using declared }
    · exact fits
  · exact fits

theorem parseResponses_evolves (env : Env) (schemaId : String) (responses : Json)
    (sound : s.store.Sound) (fits : op.Fits s.store) :
    Ends (Evolves s.store) Operation.Fits (parseResponses env op schemaId responses) s := by
  apply Ends.lift_bind (.refl sound)
  intro entries _
  refine Evolves.chain.bind (Q := Operation.Fits) (Evolves.chain.foldlM ?_ sound fits) ?_
  · exact fun entry _ op s sound fits => parseResponse_evolves env schemaId entry sound fits
  · intro op s' evolves fits
    exact .pure (.refl evolves.sound) (widenSuccess_fits (adoptDefault_fits fits))

theorem keyText_evolves (key : Key) (sound : s.store.Sound) :
    Ends (Evolves s.store) (fun _ _ => True) (Builder.keyText key) s := by
  unfold Builder.keyText
  split
  · exact .pure (.refl sound) trivial
  · exact .throw (.refl sound)

theorem parseOperation_evolves (env : Env) (path : Key) (method : String) (operation : Members)
    (shared : Json) (sound : s.store.Sound) :
    Ends (Evolves s.store) Operation.Fits (parseOperation env path method operation shared) s := by
  refine Evolves.chain.bind (keyText_evolves path sound) ?_
  intro path s' evolves _
  have unchanged : Evolves s'.store s'.store := .refl evolves.sound
  apply Ends.lift_bind unchanged
  intro id _
  apply Ends.lift_bind unchanged
  intro tags _
  apply Ends.lift_bind unchanged
  intro schemaId _
  apply Ends.lift_bind unchanged
  intro shared _
  apply Ends.lift_bind unchanged
  intro own _
  refine Evolves.chain.bind (parseParameters_evolves env _ _ evolves.sound ?_) ?_
  · constructor <;> simp
  · intro op s' evolves fits
    refine Evolves.chain.bind (parseBody_evolves env _ _ evolves.sound fits) ?_
    intro op s' evolves fits
    refine Evolves.chain.bind (parseResponses_evolves env _ _ evolves.sound fits) ?_
    intro op s' evolves fits
    exact Ends.report (.pure (.refl evolves.sound) fits)

theorem walkPath_evolves (env : Env) (path : Key) (item : Json) (sound : s.store.Sound) :
    Ends (Evolves s.store) (fun ops t => ∀ op ∈ ops, op.Fits t) (walkPath env path item) s := by
  unfold walkPath
  split
  · rename_i members
    refine Evolves.chain.bind (Q := fun ops t => ∀ o ∈ ops, ∀ op ∈ o, Operation.Fits op t)
      (Evolves.chain.mapM ?_ ?_ sound) ?_
    · exact fun o t t' evolves fit op member => (fit op member).evolve evolves
    · intro method _ s sound
      split
      · refine Evolves.chain.bind (parseOperation_evolves env path method _ _ sound) ?_
        intro op s' evolves fits
        exact .pure (.refl evolves.sound) (by simpa using fits)
      · exact .pure (.refl sound) (by simp)
    · intro operations s' evolves fit
      refine .pure (.refl evolves.sound) fun op member => ?_
      obtain ⟨o, listed, same⟩ := List.mem_filterMap.mp member
      exact fit o listed op same
  · exact .pure (.refl sound) (by simp)

/-- After a walk every operation fits the store. -/
theorem walk_evolves (env : Env) (sound : s.store.Sound) :
    Ends (Evolves s.store) (fun ops t => ∀ op ∈ ops, op.Fits t) (walk env) s := by
  have unchanged : Evolves s.store s.store := .refl sound
  apply Ends.lift_bind unchanged
  intro document _
  apply Ends.lift_bind unchanged
  intro paths _
  refine Evolves.chain.bind (Q := fun groups t => ∀ ops ∈ groups, ∀ op ∈ ops, Operation.Fits op t)
    (Evolves.chain.mapM ?_ ?_ sound) ?_
  · exact fun ops t t' evolves fit op member => (fit op member).evolve evolves
  · exact fun entry _ s sound => walkPath_evolves env entry.1 entry.2 sound
  · intro groups s' evolves fit
    refine .pure (.refl evolves.sound) fun op member => ?_
    obtain ⟨ops, listed, member⟩ := List.mem_flatten.mp member
    exact fit ops listed op member

end Walk

end TypedClient
