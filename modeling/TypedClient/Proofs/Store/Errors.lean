import TypedClient.Generator
import TypedClient.Proofs.Builder.Growth

/-! Declarations that become errors. The fields of a struct move to a body under a free name; all
other declarations stay as they are, and a body that is there is never exchanged. -/
namespace TypedClient.Store

variable {store before after : Store} {name : String} {declaration : Declaration}

/-- What registrations and errors do to a store: names stay in their order, references lead where
they led, and errors keep their bodies. -/
structure Evolves (before after : Store) : Prop where
  sound : after.Sound
  names : before.names <+: after.names
  refNames : before.refNames <+: after.refNames
  bodies : ∀ d ∈ before.declarations, d.body.isSome = true →
    ∃ e ∈ after.declarations, e.name = d.name ∧ e.body = d.body

namespace Evolves

theorem refl (sound : store.Sound) : Evolves store store :=
  ⟨sound, List.prefix_refl _, List.prefix_refl _, fun d member _ => ⟨d, member, rfl, rfl⟩⟩

theorem trans {middle : Store} (first : Evolves before middle) (second : Evolves middle after) :
    Evolves before after := by
  refine ⟨second.sound, first.names.trans second.names, first.refNames.trans second.refNames, ?_⟩
  intro d member wraps
  obtain ⟨e, member, named, body⟩ := first.bodies d member wraps
  obtain ⟨e', member', named', body'⟩ := second.bodies e member (body ▸ wraps)
  exact ⟨e', member', named'.trans named, body'.trans body⟩

theorem chain : Build.Chain Sound Evolves :=
  ⟨refl, trans, sound⟩

end Evolves

theorem Grows.evolves (grows : Grows before after) : Evolves before after := by
  obtain ⟨added, declarations, _⟩ := grows.declared
  refine ⟨grows.sound, ?_, grows.refNames_prefix, ?_⟩
  · exact ⟨added.map (·.name), by simp [Store.names, declarations]⟩
  · intro d member _
    exact ⟨d, by simp [declarations, member], rfl, rfl⟩

/-- A flag changes no part that the invariant looks at. -/
theorem flagError_sound (sound : store.Sound) : (store.flagError name).Sound :=
  sound.update (fun _ => rfl) (fun _ => rfl) (fun _ _ _ => Iff.rfl)
    (fun d member _ => sound.fits d member) (fun d member _ => sound.bodies d member)
    (fun d member _ => sound.tagged d member)

theorem names_flagError : (store.flagError name).names = store.names :=
  names_update fun _ => rfl

theorem mem_flagError {d : Declaration} (name : String) (member : d ∈ store.declarations) :
    ∃ e ∈ (store.flagError name).declarations, e.name = d.name ∧ e.body = d.body ∧
      e.kind = d.kind := by
  by_cases same : d.name = name
  · exact ⟨{ d with errorVariant := true }, mem_update.mpr (.inl ⟨d, member, same, rfl⟩),
      rfl, rfl, rfl⟩
  · exact ⟨d, mem_update.mpr (.inr ⟨member, same⟩), rfl, rfl, rfl⟩

theorem flagError_evolves (sound : store.Sound) : Evolves store (store.flagError name) := by
  refine ⟨flagError_sound sound, names_flagError ▸ List.prefix_refl _, List.prefix_refl _, ?_⟩
  intro d member _
  obtain ⟨e, member, named, body, _⟩ := mem_flagError name member
  exact ⟨e, member, named, body⟩

/-- The name of a body is free, so that the body takes no other declaration's place. -/
theorem bodyFor_fresh (store : Store) (declaration : Declaration) :
    (store.bodyFor declaration).name ∉ store.names :=
  uniqueName_fresh _ _

theorem mem_wrapBody (declared : declaration.name ∈ store.names) {d : Declaration} :
    d ∈ (store.wrapBody declaration).declarations ↔
      (d ∈ store.declarations ∧ d.name ≠ declaration.name) ∨
      d = { store.bodyFor declaration with order := store.counter } ∨
      ∃ e ∈ store.declarations, e.name = declaration.name ∧
        d = e.over (store.bodyFor declaration).name := by
  have fresh := bodyFor_fresh store declaration
  have other : (store.bodyFor declaration).name ≠ declaration.name :=
    fun same => fresh (same.symm ▸ declared)
  simp only [wrapBody, mem_update, declarations_register fresh, List.mem_append, List.mem_singleton]
  constructor
  · rintro (⟨e, member | rfl, same, rfl⟩ | ⟨member | rfl, different⟩)
    · exact .inr (.inr ⟨e, member, same, rfl⟩)
    · exact absurd same other
    · exact .inl ⟨member, different⟩
    · exact .inr (.inl rfl)
  · rintro (⟨member, different⟩ | rfl | ⟨e, member, same, rfl⟩)
    · exact .inr ⟨.inl member, different⟩
    · exact .inr ⟨.inr rfl, other⟩
    · exact .inl ⟨e, .inl member, same, rfl⟩

theorem names_wrapBody : (store.wrapBody declaration).names =
    store.names ++ [(store.bodyFor declaration).name] := by
  have kept : ∀ d, (Declaration.over d (store.bodyFor declaration).name).name = d.name :=
    fun _ => rfl
  rw [wrapBody, names_update kept, names_register (bodyFor_fresh store declaration)]

theorem wrapBody_sound (sound : store.Sound) (declared : declaration.name ∈ store.names)
    (kinds : ∀ e ∈ store.declarations, e.name = declaration.name → e.kind ≠ .brand)
    (fits : ∀ type ∈ declaration.type, type.FitsIn store.names) :
    (store.wrapBody declaration).Sound := by
  have fresh := bodyFor_fresh store declaration
  have unclaimed : store.brands.names = store.brands.names ++
      if (store.bodyFor declaration).kind = .brand then [(store.bodyFor declaration).name]
      else [] := by simp [bodyFor]
  have registered : (store.register (store.bodyFor declaration)).Sound :=
    sound.register fresh (uniqueName_ne_empty _ _) unclaimed (by simp [bodyFor]) rfl fits
  refine registered.update (f := (·.over (store.bodyFor declaration).name)) (fun _ => rfl)
    (fun _ => rfl) ?_ ?_ ?_ ?_
  · intro e member same
    rw [declarations_register fresh] at member
    rcases List.mem_append.mp member with old | new
    · exact iff_of_false (by simp [Declaration.over]) (kinds e old same)
    · obtain rfl := List.mem_singleton.mp new
      exact absurd (same ▸ declared) fresh
  · simp [Declaration.over]
  · rintro e _ _ body same
    cases same
    rw [names_register fresh]
    simp
  · simp [Declaration.over]

/-- Only a declaration without a body gets one. -/
theorem wrapBody_evolves (sound : (store.wrapBody declaration).Sound)
    (declared : declaration.name ∈ store.names)
    (bodiless : ∀ e ∈ store.declarations, e.name = declaration.name → e.body = none) :
    Evolves store (store.wrapBody declaration) := by
  refine ⟨sound, names_wrapBody ▸ List.prefix_append _ _, List.prefix_refl _, ?_⟩
  intro d member wraps
  by_cases same : d.name = declaration.name
  · simp [bodiless d member same] at wraps
  · exact ⟨d, (mem_wrapBody declared).mpr (.inl ⟨member, same⟩), rfl, rfl⟩

/-- The declaration that becomes an error is one of the store, and a struct or of another kind
than an error. -/
theorem asError_evolves (sound : store.Sound) (member : declaration ∈ store.declarations) :
    Evolves store (store.asError declaration) := by
  have flagged : Evolves store (store.flagError declaration.name) := flagError_evolves sound
  unfold asError
  split
  · rename_i isStruct
    have declared : declaration.name ∈ (store.flagError declaration.name).names := by
      rw [names_flagError]
      exact mem_names_of_mem member
    -- The flag is the only difference between the declaration and the one that is wrapped.
    have same : ∀ e ∈ (store.flagError declaration.name).declarations,
        e.name = declaration.name → e.kind = declaration.kind ∧ e.body = declaration.body := by
      intro e listed named
      rcases mem_update.mp listed with ⟨old, oldMember, oldName, rfl⟩ | ⟨_, other⟩
      · obtain rfl := List.inj_on_of_nodup_map sound.distinct oldMember member oldName
        exact ⟨rfl, rfl⟩
      · exact absurd named other
    have bodiless : declaration.body = none := by
      rw [← Option.not_isSome_iff_eq_none, ← sound.tagged declaration member]
      rcases isStruct with kind | kind <;> simp [kind]
    have wrappedSound := wrapBody_sound flagged.sound declared
      (fun e listed named => by
        rw [(same e listed named).1]
        rcases isStruct with kind | kind <;> simp [kind])
      (fun type typed => by
        rw [names_flagError]
        exact sound.fits declaration member type typed)
    exact flagged.trans (wrapBody_evolves wrappedSound declared
      (fun e listed named => (same e listed named).2.trans bodiless))
  · exact flagged

def marked (store : Store) (name : String) : Store :=
  match store.find? name with
  | none => store
  | some d => store.asError d

theorem marked_evolves (sound : store.Sound) (name : String) : Evolves store (store.marked name) := by
  unfold marked
  split
  · exact .refl sound
  · rename_i d found
    exact asError_evolves sound (mem_of_find? found).1

/-- A struct that is made an error is a tagged one afterwards. -/
theorem marked_kind {e : Declaration} (sound : store.Sound)
    (member : e ∈ (store.marked name).declarations) (named : e.name = name)
    (isStruct : e.kind.isStruct = true) : e.kind = .taggedError := by
  unfold marked at member
  split at member
  · rename_i absent
    exact absurd (named ▸ mem_names_of_mem member) (find?_eq_none.mp absent)
  · rename_i d found
    obtain ⟨declared, rfl⟩ := mem_of_find? found
    have known : d.name ∈ (store.flagError d.name).names := by
      rw [names_flagError]
      exact mem_names_of_mem declared
    unfold asError at member
    split at member
    · rcases (mem_wrapBody known).mp member with ⟨_, other⟩ | rfl | ⟨f, _, _, rfl⟩
      · exact absurd named other
      · have same : ((store.flagError d.name).bodyFor d).name = d.name := named
        have fresh := bodyFor_fresh (store.flagError d.name) d
        rw [same] at fresh
        exact absurd known fresh
      · rfl
    · rename_i other
      rcases mem_update.mp member with ⟨f, listed, same, rfl⟩ | ⟨_, different⟩
      · obtain rfl := List.inj_on_of_nodup_map sound.distinct listed declared same
        cases kind : f.kind <;> simp_all [DeclarationKind.isStruct]
      · exact absurd named different

/-- Making an error never fails. -/
theorem markAsError_ok (name : String) (s : Session) :
    ∃ s', Generator.markAsError name s = .ok () s' ∧ s'.store = s.store.marked name := by
  unfold marked
  cases found : s.store.find? name with
  | none =>
    have step : Generator.markAsError name s =
        Build.warn s!"Cannot mark unknown declaration {name} as error" s := by
      change (match s.store.find? name with | none => _ | some d => _ : Build Unit) s = _
      rw [found]
    exact ⟨_, step, rfl⟩
  | some d =>
    have step : Generator.markAsError name s = .ok () { s with store := s.store.asError d } := by
      change (match s.store.find? name with | none => _ | some d => _ : Build Unit) s = _
      rw [found]
      rfl
    exact ⟨_, step, rfl⟩

end TypedClient.Store
