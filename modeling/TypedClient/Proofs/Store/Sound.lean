import TypedClient.Proofs.Store.Names
import TypedClient.Proofs.TypeExpr.Fit

/-! The invariant of a store. It holds in the middle of a build as well, where declarations are
reserved and not yet filled, because a fault leaves the store as it is at that point. -/
namespace TypedClient.Store

structure Sound (store : Store) : Prop where
  /-- Every registration has added a declaration. -/
  counted : store.counter = store.declarations.length
  ordered : store.declarations.map (·.order) = List.range store.declarations.length
  distinct : store.names.Nodup
  nonempty : "" ∉ store.names
  /-- Brands are declared as they are claimed. -/
  branded : (store.declarations.filter (·.kind = .brand)).map (·.name) = store.brands.names
  pointers : (store.refNames.map (·.1)).Nodup
  targets : (store.refNames.map (·.2)).Nodup
  referred : ∀ entry ∈ store.refNames, entry.2 ∈ store.names
  fits : ∀ d ∈ store.declarations, ∀ type ∈ d.type, type.FitsIn store.names
  bodies : ∀ d ∈ store.declarations, ∀ body ∈ d.body, body ∈ store.names
  tagged : ∀ d ∈ store.declarations, d.kind = .taggedError ↔ d.body.isSome = true

theorem sound_empty : Sound {} := by
  constructor <;> simp [names]

namespace Sound

variable {store : Store} {name : String} {declaration : Declaration}

/-- Registration under a free name. A brand is claimed at the same time, nothing else is. -/
theorem register {brands : BrandRegistry} (sound : store.Sound)
    (fresh : declaration.name ∉ store.names) (nonempty : declaration.name ≠ "")
    (claimed : brands.names =
      store.brands.names ++ if declaration.kind = .brand then [declaration.name] else [])
    (untagged : declaration.kind ≠ .taggedError) (bodiless : declaration.body = none)
    (fits : ∀ type ∈ declaration.type, type.FitsIn store.names) :
    ({ store with brands }.register declaration).Sound := by
  have fresh' : declaration.name ∉ ({ store with brands } : Store).names := fresh
  have namesEq : ({ store with brands }.register declaration).names =
      store.names ++ [declaration.name] := names_register fresh'
  have included : store.names ⊆ store.names ++ [declaration.name] :=
    List.subset_append_left _ _
  have declarationsEq : ({ store with brands }.register declaration).declarations =
      store.declarations ++ [{ declaration with order := store.counter }] :=
    declarations_register fresh'
  constructor
  case counted =>
    rw [declarationsEq, counter_register, List.length_append]
    exact congrArg (· + 1) sound.counted
  case ordered =>
    rw [declarationsEq, List.map_append, List.length_append, List.length_singleton,
      List.range_succ, sound.ordered, ← sound.counted]
    rfl
  case distinct =>
    rw [namesEq]
    exact List.nodup_append.mpr ⟨sound.distinct, by simp, by
      intro a member b same
      obtain rfl := List.mem_singleton.mp same
      exact fun equal => fresh (equal ▸ member)⟩
  case nonempty =>
    rw [namesEq]
    simpa using ⟨sound.nonempty, nonempty⟩
  case branded =>
    rw [declarationsEq, List.filter_append, List.map_append, sound.branded]
    by_cases kind : declaration.kind = .brand <;> simp [kind, claimed]
  case pointers =>
    exact sound.pointers
  case targets =>
    exact sound.targets
  case referred =>
    intro entry member
    rw [namesEq]
    exact included (sound.referred entry member)
  case fits =>
    rw [namesEq, declarationsEq]
    intro d member type typed
    rcases List.mem_append.mp member with old | new
    · exact (sound.fits d old type typed).mono included
    · obtain rfl := List.mem_singleton.mp new
      exact (fits type typed).mono included
  case bodies =>
    rw [namesEq, declarationsEq]
    intro d member body wrapped
    rcases List.mem_append.mp member with old | new
    · exact included (sound.bodies d old body wrapped)
    · obtain rfl := List.mem_singleton.mp new
      simp [bodiless] at wrapped
  case tagged =>
    rw [declarationsEq]
    intro d member
    rcases List.mem_append.mp member with old | new
    · exact sound.tagged d old
    · obtain rfl := List.mem_singleton.mp new
      simp [untagged, bodiless]

/-- A change that leaves the name, the place and the brands as they are. -/
theorem update {f : Declaration → Declaration} (sound : store.Sound)
    (named : ∀ d, (f d).name = d.name) (placed : ∀ d, (f d).order = d.order)
    (kinds : ∀ d ∈ store.declarations, d.name = name → ((f d).kind = .brand ↔ d.kind = .brand))
    (fits : ∀ d ∈ store.declarations, d.name = name → ∀ type ∈ (f d).type, type.FitsIn store.names)
    (bodies : ∀ d ∈ store.declarations, d.name = name → ∀ body ∈ (f d).body, body ∈ store.names)
    (tagged : ∀ d ∈ store.declarations, d.name = name →
      ((f d).kind = .taggedError ↔ (f d).body.isSome = true)) :
    (store.update name f).Sound := by
  have namesEq : (store.update name f).names = store.names := names_update named
  constructor
  case counted =>
    simpa [Store.update] using sound.counted
  case ordered =>
    have orders : (store.update name f).declarations.map (·.order) =
        store.declarations.map (·.order) := by
      simp only [Store.update, List.map_map]
      apply List.map_congr_left
      intro d _
      simp only [Function.comp_apply]
      split <;> simp [placed]
    rw [orders]
    simpa [Store.update] using sound.ordered
  case distinct =>
    rw [namesEq]
    exact sound.distinct
  case nonempty =>
    rw [namesEq]
    exact sound.nonempty
  case branded =>
    rw [brands_update, ← sound.branded]
    simp only [Store.update, List.filter_map, List.map_map]
    have selected : store.declarations.filter
          ((fun d => decide (d.kind = .brand)) ∘ fun d => if d.name == name then f d else d) =
        store.declarations.filter (fun d => decide (d.kind = .brand)) := by
      apply List.filter_congr
      intro d member
      by_cases same : d.name = name
      · simpa [same] using kinds d member same
      · simp [same]
    rw [selected]
    apply List.map_congr_left
    intro d _
    simp only [Function.comp_apply]
    split <;> simp [named]
  case pointers =>
    exact sound.pointers
  case targets =>
    exact sound.targets
  case referred =>
    rw [namesEq]
    exact sound.referred
  case fits =>
    rw [namesEq]
    intro d member type typed
    rcases mem_update.mp member with ⟨e, old, same, rfl⟩ | ⟨old, _⟩
    · exact fits e old same type typed
    · exact sound.fits d old type typed
  case bodies =>
    rw [namesEq]
    intro d member body wrapped
    rcases mem_update.mp member with ⟨e, old, same, rfl⟩ | ⟨old, _⟩
    · exact bodies e old same body wrapped
    · exact sound.bodies d old body wrapped
  case tagged =>
    intro d member
    rcases mem_update.mp member with ⟨e, old, same, rfl⟩ | ⟨old, _⟩
    · exact tagged e old same
    · exact sound.tagged d old

/-- A new reference to a declaration that no other reference leads to. -/
theorem refer {pointer : String} (sound : store.Sound) (declared : name ∈ store.names)
    (unknown : pointer ∉ store.refNames.map (·.1)) (unused : name ∉ store.refNames.map (·.2)) :
    ({ store with refNames := store.refNames ++ [(pointer, name)] } : Store).Sound := by
  refine { sound with pointers := ?_, targets := ?_, referred := ?_ }
  · simp only [List.map_append, List.map_cons, List.map_nil, List.nodup_append]
    exact ⟨sound.pointers, by simp, by rintro a member _ same rfl; simp_all⟩
  · simp only [List.map_append, List.map_cons, List.map_nil, List.nodup_append]
    exact ⟨sound.targets, by simp, by rintro a member _ same rfl; simp_all⟩
  · intro entry member
    rcases List.mem_append.mp member with old | new
    · exact sound.referred entry old
    · obtain rfl := List.mem_singleton.mp new
      exact declared

theorem mem_brands (sound : store.Sound) : name ∈ store.brands.names ↔
    ∃ d ∈ store.declarations, d.kind = .brand ∧ d.name = name := by
  rw [← sound.branded]
  simp [and_assoc]

/-- A name that no brand has claimed, and nothing but a brand could have, is free. -/
theorem not_mem_of_unclaimed (sound : store.Sound) (unclaimed : name ∉ store.brands.names)
    (own : ∀ d, store.find? name = some d → d.kind = .brand) : name ∉ store.names := by
  intro taken
  obtain ⟨d, found⟩ := Option.isSome_iff_exists.mp (find?_isSome.mpr taken)
  obtain ⟨member, named⟩ := mem_of_find? found
  exact unclaimed (sound.mem_brands.mpr ⟨d, member, own d found, named⟩)

/-- A name that a reference leads to is not free. -/
theorem not_target_of_fresh (sound : store.Sound) (fresh : name ∉ store.names) :
    name ∉ store.refNames.map (·.2) := by
  intro member
  obtain ⟨entry, occurs, rfl⟩ := List.mem_map.mp member
  exact fresh (sound.referred entry occurs)

end Sound

end TypedClient.Store
