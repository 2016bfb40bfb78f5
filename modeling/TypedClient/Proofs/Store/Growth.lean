import TypedClient.Proofs.Session.Outcome
import TypedClient.Proofs.Store.Sound

/-! Growth of a store. Adding schemas puts declarations and references behind those that are
there and leaves the earlier ones as they are; only the declarations that the addition has
reserved itself are changed on the way. -/
namespace TypedClient.Store

/-- What adding schemas does to a store, whether it succeeds or fails. -/
structure Grows (before after : Store) : Prop where
  sound : after.Sound
  declared : ∃ added, after.declarations = before.declarations ++ added ∧
    ∀ d ∈ added, d.kind ≠ .taggedError
  referred : ∃ added, after.refNames = before.refNames ++ added ∧
    ∀ entry ∈ added, entry.2 ∉ before.names

/-- The declaration of the name is reserved for a body: neither a brand nor an error. -/
def Builds (store : Store) (name : String) : Prop :=
  ∃ d, store.find? name = some d ∧ d.kind ≠ .brand ∧ d.kind ≠ .taggedError

variable {base store before after : Store} {name : String} {declaration : Declaration}

namespace Grows

theorem refl (sound : store.Sound) : Grows store store :=
  ⟨sound, ⟨[], by simp, by simp⟩, ⟨[], by simp, by simp⟩⟩

theorem names_subset (grows : Grows before after) : before.names ⊆ after.names := by
  obtain ⟨added, declarations, _⟩ := grows.declared
  simp [names, declarations]

theorem trans (first : Grows base before) (second : Grows before after) : Grows base after := by
  obtain ⟨added, declarations, plain⟩ := first.declared
  obtain ⟨more, moreDeclarations, morePlain⟩ := second.declared
  obtain ⟨entries, refNames, unknown⟩ := first.referred
  obtain ⟨moreEntries, moreRefNames, moreUnknown⟩ := second.referred
  refine ⟨second.sound, ⟨added ++ more, ?_, ?_⟩, ⟨entries ++ moreEntries, ?_, ?_⟩⟩
  · rw [moreDeclarations, declarations, List.append_assoc]
  · exact List.forall_mem_append.mpr ⟨plain, morePlain⟩
  · rw [moreRefNames, refNames, List.append_assoc]
  · exact List.forall_mem_append.mpr ⟨unknown, fun entry member taken =>
      moreUnknown entry member (first.names_subset taken)⟩

theorem chain : Build.Chain Sound Grows :=
  ⟨refl, trans, sound⟩

theorem find? (grows : Grows before after) (found : before.find? name = some declaration) :
    after.find? name = some declaration := by
  obtain ⟨added, declarations, _⟩ := grows.declared
  unfold Store.find? at found ⊢
  rw [declarations, List.find?_append, found, Option.some_or]

theorem find?_eq (grows : Grows before after) (declared : name ∈ before.names) :
    after.find? name = before.find? name := by
  obtain ⟨d, found⟩ := Option.isSome_iff_exists.mp (find?_isSome.mpr declared)
  rw [found, grows.find? found]

theorem refNames_prefix (grows : Grows before after) : before.refNames <+: after.refNames := by
  obtain ⟨added, refNames, _⟩ := grows.referred
  exact ⟨added, refNames.symm⟩

theorem builds (grows : Grows before after) (reserved : before.Builds name) :
    after.Builds name := by
  obtain ⟨d, found, kind⟩ := reserved
  exact ⟨d, grows.find? found, kind⟩

theorem register {brands : BrandRegistry} (sound : store.Sound)
    (fresh : declaration.name ∉ store.names) (nonempty : declaration.name ≠ "")
    (claimed : brands.names =
      store.brands.names ++ if declaration.kind = .brand then [declaration.name] else [])
    (untagged : declaration.kind ≠ .taggedError) (bodiless : declaration.body = none)
    (fits : ∀ type ∈ declaration.type, type.FitsIn store.names) :
    Grows store ({ store with brands }.register declaration) := by
  have fresh' : declaration.name ∉ ({ store with brands } : Store).names := fresh
  exact ⟨sound.register fresh nonempty claimed untagged bodiless fits,
    ⟨_, declarations_register fresh', by simp [untagged]⟩, ⟨[], by simp, by simp⟩⟩

/-- A change of a declaration that the base does not have. -/
theorem update {f : Declaration → Declaration} (grows : Grows base store)
    (outside : name ∉ base.names) (sound : (store.update name f).Sound)
    (untagged : ∀ d ∈ store.declarations, d.name = name → (f d).kind ≠ .taggedError) :
    Grows base (store.update name f) := by
  obtain ⟨added, declarations, plain⟩ := grows.declared
  refine ⟨sound, ⟨added.map fun d => if d.name == name then f d else d, ?_, ?_⟩, grows.referred⟩
  · have kept : base.declarations.map (fun d => if d.name == name then f d else d) =
        base.declarations := by
      apply (List.map_congr_left _).trans (List.map_id _)
      intro d member
      have other : d.name ≠ name := fun same => outside (same ▸ mem_names_of_mem member)
      simp [other]
    simp only [Store.update, declarations, List.map_append, kept]
  · intro d member
    obtain ⟨e, old, rfl⟩ := List.mem_map.mp member
    by_cases same : e.name = name
    · simpa [same] using untagged e (by simp [declarations, old]) same
    · simpa [same] using plain e old

end Grows

theorem reserve_grows (sound : store.Sound) (fresh : name ∉ store.names) (nonempty : name ≠ "") :
    Grows store (store.reserve name) := by
  have claimed : store.brands.names = store.brands.names ++ if DeclarationKind.schema = .brand
      then [name] else [] := by simp
  exact Grows.register sound fresh nonempty claimed (by simp) rfl
    (fun _ typed => by cases typed; exact TypeExpr.fitsIn_json)

theorem names_reserve (fresh : name ∉ store.names) :
    (store.reserve name).names = store.names ++ [name] :=
  names_register fresh

theorem builds_reserve (fresh : name ∉ store.names) : (store.reserve name).Builds name := by
  refine ⟨{ name, type := some .json, order := store.counter }, ?_, by simp, by simp⟩
  unfold Store.find? reserve
  rw [declarations_register fresh, List.find?_append]
  have absent : store.declarations.find? (·.name == name) = none := find?_eq_none.mpr fresh
  simp [absent]

/-- Filling in a part of a reserved declaration. -/
theorem Builds.update {f : Declaration → Declaration} (reserved : store.Builds name)
    (grows : Grows base store) (outside : name ∉ base.names)
    (kept : ∀ d, (f d).name = d.name ∧ (f d).order = d.order ∧ (f d).body = d.body)
    (kinds : ∀ d, d.kind ≠ .brand → d.kind ≠ .taggedError →
      (f d).kind ≠ .brand ∧ (f d).kind ≠ .taggedError)
    (fits : ∀ d, ∀ type ∈ (f d).type, type ∈ d.type ∨ type.FitsIn store.names) :
    Grows base (store.update name f) ∧ (store.update name f).Builds name := by
  obtain ⟨d, found, notBrand, untagged⟩ := reserved
  have sound := grows.sound
  obtain ⟨member, same⟩ := mem_of_find? found
  -- Names are distinct, so the reserved declaration is the only one that changes.
  have only : ∀ e ∈ store.declarations, e.name = name → e = d := fun e other sameName =>
    List.inj_on_of_nodup_map sound.distinct other member (sameName.trans same.symm)
  have kind := kinds d notBrand untagged
  have bodiless : ¬ d.body.isSome = true := fun bodied => untagged ((sound.tagged d member).mpr bodied)
  have soundAfter : (store.update name f).Sound := by
    apply sound.update (fun e => (kept e).1) (fun e => (kept e).2.1)
    · intro e other sameName
      obtain rfl := only e other sameName
      exact iff_of_false kind.1 notBrand
    · intro e other sameName type typed
      rcases fits e type typed with old | new
      · exact sound.fits e other type old
      · exact new
    · intro e other sameName body wrapped
      rw [(kept e).2.2] at wrapped
      exact sound.bodies e other body wrapped
    · intro e other sameName
      obtain rfl := only e other sameName
      rw [(kept e).2.2]
      exact iff_of_false kind.2 bodiless
  refine ⟨grows.update outside soundAfter ?_, f d, ?_, kind⟩
  · intro e other sameName
    obtain rfl := only e other sameName
    exact kind.2
  · have changed : f d ∈ (store.update name f).declarations :=
      mem_update.mpr (.inl ⟨d, member, same, rfl⟩)
    have := find?_of_mem soundAfter.distinct changed
    rwa [(kept d).1, same] at this

end TypedClient.Store
