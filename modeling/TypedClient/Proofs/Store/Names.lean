import TypedClient.Proofs.Name.Nonempty

/-! Names of a store: which are taken, which are free, and what registration and changes do to
them. A registration under a free name adds a declaration at the end and touches no other. -/
namespace TypedClient.Store

variable {store : Store} {name : String} {declaration : Declaration}

theorem contains_iff : store.contains name = true ↔ name ∈ store.names := by
  simp [contains, names]

theorem contains_eq_false : store.contains name = false ↔ name ∉ store.names := by
  rw [← Bool.not_eq_true, contains_iff]

theorem mem_of_find? (found : store.find? name = some declaration) :
    declaration ∈ store.declarations ∧ declaration.name = name := by
  unfold find? at found
  exact ⟨List.mem_of_find?_eq_some found, by simpa using List.find?_some found⟩

theorem mem_names_of_mem (member : declaration ∈ store.declarations) :
    declaration.name ∈ store.names :=
  List.mem_map_of_mem member

theorem find?_isSome : (store.find? name).isSome = true ↔ name ∈ store.names := by
  simp [find?, names]

theorem find?_eq_none : store.find? name = none ↔ name ∉ store.names := by
  rw [← Option.not_isSome_iff_eq_none, find?_isSome]

/-- Under distinct names every declaration is the one that its name finds. -/
theorem find?_of_mem (distinct : store.names.Nodup) (member : declaration ∈ store.declarations) :
    store.find? declaration.name = some declaration := by
  cases found : store.find? declaration.name with
  | none => exact absurd (mem_names_of_mem member) (find?_eq_none.mp found)
  | some other =>
    obtain ⟨otherMember, same⟩ := mem_of_find? found
    rw [List.inj_on_of_nodup_map distinct otherMember member same]

private theorem candidate_injective (base : String) :
    Function.Injective fun i : Nat => s!"{base}{i}" := by
  intro i j same
  have digits : Nat.repr i = Nat.repr j := by
    simpa [toString] using same
  exact Nat.repr_injective digits

/-- Among one number more than there are declarations one makes the name free. -/
theorem uniqueName_fresh (store : Store) (name : String) :
    store.uniqueName name ∉ store.names := by
  unfold uniqueName
  generalize (if name = "" then "Schema" else name) = base
  simp only
  split
  · set candidates := (List.range' 2 (store.declarations.length + 1)).map
      fun i : Nat => s!"{base}{i}" with candidatesEq
    cases found : candidates.find? fun c => !store.contains c with
    | some candidate =>
      have free := List.find?_some found
      exact contains_eq_false.mp (by simpa using free)
    | none =>
      have taken : candidates ⊆ store.names := by
        intro c member
        have := List.find?_eq_none.mp found c member
        exact contains_iff.mp (by simpa using this)
      have distinct : candidates.Nodup :=
        (List.nodup_range' (s := 2) (n := store.declarations.length + 1)).map
          (candidate_injective base)
      have bound := distinct.length_le_of_subset taken
      simp [candidatesEq, names] at bound
  · rename_i free
    exact contains_eq_false.mp (by simpa using free)

section Update

variable {f : Declaration → Declaration}

@[simp] theorem counter_update : (store.update name f).counter = store.counter := rfl

@[simp] theorem brands_update : (store.update name f).brands = store.brands := rfl

@[simp] theorem refNames_update : (store.update name f).refNames = store.refNames := rfl

theorem names_update (keeps : ∀ d, (f d).name = d.name) :
    (store.update name f).names = store.names := by
  simp only [names, update, List.map_map]
  apply List.map_congr_left
  intro d _
  simp only [Function.comp_apply]
  split <;> simp [keeps]

theorem find?_update (keeps : ∀ d, (f d).name = d.name) (other : String) :
    (store.update name f).find? other =
      (store.find? other).map fun d => if d.name == name then f d else d := by
  have same : (fun d : Declaration => d.name == other) ∘ (fun d => if d.name == name then f d else d) =
      fun d => d.name == other := by
    funext d
    by_cases own : d.name = name <;> simp [own, keeps]
  simp only [find?, update, List.find?_map, same]

theorem mem_update {d : Declaration} : d ∈ (store.update name f).declarations ↔
    (∃ e ∈ store.declarations, e.name = name ∧ d = f e) ∨
      (d ∈ store.declarations ∧ d.name ≠ name) := by
  simp only [update, List.mem_map]
  constructor
  · rintro ⟨e, member, rfl⟩
    by_cases same : e.name = name
    · exact .inl ⟨e, member, same, by simp [same]⟩
    · simpa [same] using Or.inr (b := e ∈ store.declarations ∧ e.name ≠ name) ⟨member, same⟩
  · rintro (⟨e, member, same, rfl⟩ | ⟨member, other⟩)
    · exact ⟨e, member, by simp [same]⟩
    · exact ⟨d, member, by simp [other]⟩

end Update

section Register

@[simp] theorem counter_register :
    (store.register declaration).counter = store.counter + 1 := rfl

@[simp] theorem brands_register : (store.register declaration).brands = store.brands := rfl

@[simp] theorem refNames_register : (store.register declaration).refNames = store.refNames := rfl

theorem declarations_register (fresh : declaration.name ∉ store.names) :
    (store.register declaration).declarations =
      store.declarations ++ [{ declaration with order := store.counter }] := by
  simp [register, contains_eq_false.mpr fresh]

theorem names_register (fresh : declaration.name ∉ store.names) :
    (store.register declaration).names = store.names ++ [declaration.name] := by
  simp [names, declarations_register fresh]

end Register

end TypedClient.Store
