import TypedClient.Proofs.Swagger.Contributions

/-! Documents that differ in what operations and paths take: in their lists of parameters, copies
stand in the places of references. Whatever else is read from them is the same, also after
references are moved. -/
namespace TypedClient.Swagger

open Json

section Lookup

def member? (value : Json) (name : String) : Option Json :=
  match value with
  | .obj members => Members.get? members name
  | _ => none

def operationAt (document : Json) (path method : String) : Option Json :=
  ((member? document "paths").bind (member? · path)).bind (member? · method)

def listed (value : Option Json) : List Json :=
  (value.getD (.arr [])).elements.toOption.getD []

def takes (document : Json) (path method : String) : List Json :=
  let item := (member? document "paths").bind (member? · path)
  listed (item.bind (member? · "parameters")) ++
    listed ((item.bind (member? · method)).bind (member? · "parameters"))

theorem rel_bind {α β γ δ : Type} {R : α → β → Prop} {S : γ → δ → Prop} {a : Option α}
    {b : Option β} {f : α → Option γ} {g : β → Option δ} (related : Option.Rel R a b)
    (each : ∀ x y, R x y → Option.Rel S (f x) (g y)) : Option.Rel S (a.bind f) (b.bind g) := by
  cases related with
  | none => exact .none
  | some pair => exact each _ _ pair

theorem rel_mono {α β : Type} {R S : α → β → Prop} {a : Option α} {b : Option β}
    (related : Option.Rel R a b) (implies : ∀ x y, R x y → S x y) : Option.Rel S a b := by
  cases related with
  | none => exact .none
  | some pair => exact .some (implies _ _ pair)

theorem exists_of_some_rel {α β : Type} {R : α → β → Prop} {a : α} {b : Option β}
    (related : Option.Rel R (some a) b) : ∃ y, b = some y ∧ R a y := by
  cases related with
  | some pair => exact ⟨_, rfl, pair⟩

theorem exists_of_rel_some {α β : Type} {R : α → β → Prop} {a : Option α} {b : β}
    (related : Option.Rel R a (some b)) : ∃ x, a = some x ∧ R x b := by
  cases related with
  | some pair => exact ⟨_, rfl, pair⟩

end Lookup

section Swapping

/-- Objects with the same keys and related values, or the same value twice. -/
def Along (related : Key → Json → Json → Prop) (first second : Json) : Prop :=
  first = second ∨ ∃ members others : Members, first = .obj members ∧ second = .obj others ∧
    List.Forall₂ (fun m m' => m'.1 = m.1 ∧ related m.1 m.2 m'.2) members others

def AtKey (name : String) (related : Json → Json → Prop) (key : Key) (first second : Json) : Prop :=
  if key = name then related first second else first = second

def Swapped (reference copy first second : Json) : Prop :=
  first = second ∨ first = reference ∧ second = copy

def SwapsItems (reference copy first second : Json) : Prop :=
  first = second ∨ ∃ items others, first = .arr items ∧ second = .arr others ∧
    List.Forall₂ (Swapped reference copy) items others

def SwapsOperation (reference copy : Json) : Json → Json → Prop :=
  Along (AtKey "parameters" (SwapsItems reference copy))

def SwapsPath (reference copy : Json) : Json → Json → Prop :=
  Along fun key first second =>
    if methods.any fun name => key.same name then SwapsOperation reference copy first second
    else AtKey "parameters" (SwapsItems reference copy) key first second

/-- In the lists of parameters of a document, copies replace some occurrences of a reference. -/
def Swaps (reference copy : Json) : Json → Json → Prop :=
  Along (AtKey "paths" (Along fun _ => SwapsPath reference copy))

variable {reference copy first second : Json} {related : Key → Json → Json → Prop}

theorem AtKey.refl {name : String} {related : Json → Json → Prop} (reflexive : ∀ v, related v v)
    (key : Key) (value : Json) : AtKey name related key value value := by
  unfold AtKey
  split
  · exact reflexive value
  · rfl

theorem Along.members (reflexive : ∀ key value, related key value value) {members : Members}
    (along : Along related (.obj members) second) :
    ∃ others : Members, second = .obj others ∧
      List.Forall₂ (fun m m' => m'.1 = m.1 ∧ related m.1 m.2 m'.2) members others := by
  rcases along with rfl | ⟨_, others, same, rfl, pairs⟩
  · exact ⟨members, rfl, List.forall₂_same.mpr fun m _ => ⟨rfl, reflexive _ _⟩⟩
  · cases same
    exact ⟨others, rfl, pairs⟩

theorem rel_get? {members others : Members}
    (pairs : List.Forall₂ (fun m m' => m'.1 = m.1 ∧ related m.1 m.2 m'.2) members others)
    (name : String) : Option.Rel (related name) (members.get? name) (others.get? name) := by
  induction pairs with
  | nil => exact .none
  | @cons m m' members others pair _ ih =>
    rw [Members.get?_cons, Members.get?_cons, pair.1]
    split
    · rename_i own
      exact .some (own ▸ pair.2)
    · exact ih

theorem Along.rel_member? (reflexive : ∀ key value, related key value value)
    (along : Along related first second) (name : String) :
    Option.Rel (related name) (member? first name) (member? second name) := by
  rcases along with rfl | ⟨members, others, rfl, rfl, pairs⟩
  · cases member? first name with
    | none => exact .none
    | some value => exact .some (reflexive _ value)
  · exact rel_get? pairs name

theorem SwapsItems.elements (swaps : SwapsItems reference copy first second) {items : List Json}
    (read : first.elements = .ok items) :
    ∃ others, second.elements = .ok others ∧ List.Forall₂ (Swapped reference copy) items others := by
  rcases swaps with rfl | ⟨_, others, rfl, rfl, pairs⟩
  · exact ⟨items, read, List.forall₂_same.mpr fun _ _ => .inl rfl⟩
  · cases read
    exact ⟨others, rfl, pairs⟩

theorem listed_swaps {value other : Option Json}
    (swaps : Option.Rel (SwapsItems reference copy) value other) :
    List.Forall₂ (Swapped reference copy) (listed value) (listed other) := by
  cases swaps with
  | none => exact .nil
  | @some first second related =>
    rcases related with rfl | ⟨items, others, rfl, rfl, pairs⟩
    · exact List.forall₂_same.mpr fun _ _ => .inl rfl
    · exact pairs

section

variable {related : Json → Json → Prop} {place : String} (reflexive : ∀ v, related v v)
  (along : Along (AtKey place related) first second)
include reflexive along

theorem Along.own : Option.Rel related (member? first place) (member? second place) :=
  rel_mono (Along.rel_member? (AtKey.refl reflexive) along place) fun _ _ related =>
    (if_pos rfl).mp related

theorem Along.other {name : String} (apart : name ≠ place) :
    member? first name = member? second name := by
  have related := Along.rel_member? (AtKey.refl reflexive) along name
  generalize member? first name = value, member? second name = other at related
  cases related with
  | none => rfl
  | some pair => exact congrArg some ((if_neg (by simpa using apart)).mp pair)

end

theorem SwapsOperation.own (swaps : SwapsOperation reference copy first second) :
    Option.Rel (SwapsItems reference copy) (member? first "parameters")
      (member? second "parameters") :=
  Along.own (fun _ => .inl rfl) swaps

theorem SwapsOperation.other (swaps : SwapsOperation reference copy first second) {name : String}
    (apart : name ≠ "parameters") : member? first name = member? second name :=
  Along.other (fun _ => .inl rfl) swaps apart

theorem swapsPath_refl (key : Key) (value : Json) :
    if methods.any fun name => key.same name then SwapsOperation reference copy value value
    else AtKey "parameters" (SwapsItems reference copy) key value value := by
  split
  · exact .inl rfl
  · exact AtKey.refl (fun _ => .inl rfl) key value

theorem SwapsPath.shared (swaps : SwapsPath reference copy first second) :
    Option.Rel (SwapsItems reference copy) (member? first "parameters")
      (member? second "parameters") :=
  rel_mono (Along.rel_member? swapsPath_refl swaps "parameters") fun _ _ related => related

theorem SwapsPath.operation (swaps : SwapsPath reference copy first second) {method : String}
    (known : method ∈ methods) :
    Option.Rel (SwapsOperation reference copy) (member? first method) (member? second method) :=
  rel_mono (Along.rel_member? swapsPath_refl swaps method) fun _ _ related =>
    (if_pos (any_methods.mpr ⟨method, known, rfl⟩)).mp related

theorem Swaps.item (swaps : Swaps reference copy first second) (path : String) :
    Option.Rel (SwapsPath reference copy) ((member? first "paths").bind (member? · path))
      ((member? second "paths").bind (member? · path)) :=
  rel_bind (Along.own (fun _ => .inl rfl) swaps) fun _ _ related =>
    Along.rel_member? (fun _ _ => .inl rfl) related path

/-- Paths that are an object stay one. -/
theorem Swaps.paths {members others : Members}
    (swaps : Swaps reference copy (.obj members) (.obj others))
    (object : ∀ value, members.get? "paths" = some value → ∃ paths, value = .obj paths) :
    ∀ value, others.get? "paths" = some value → ∃ paths, value = .obj paths := by
  intro value found
  have related : Option.Rel _ (members.get? "paths") (others.get? "paths") :=
    Along.own (fun _ => .inl rfl) swaps
  rw [found] at related
  obtain ⟨old, held, along⟩ := exists_of_rel_some related
  obtain ⟨inner, rfl⟩ := object old held
  obtain ⟨inner', rfl, _⟩ := Along.members (fun _ _ => .inl rfl) along
  exact ⟨inner', rfl⟩

/-- The parameters that an operation takes are swapped. -/
theorem takes_swaps (swaps : Swaps reference copy first second) (path : String) {method : String}
    (known : method ∈ methods) :
    List.Forall₂ (Swapped reference copy) (takes first path method) (takes second path method) := by
  have item := swaps.item path
  refine List.rel_append (listed_swaps ?_) (listed_swaps ?_)
  · exact rel_bind item fun _ _ => SwapsPath.shared
  · exact rel_bind (rel_bind item fun _ _ swaps => swaps.operation known) fun _ _ =>
      SwapsOperation.own

end Swapping

section Moving

variable {reference copy first second : Json}

theorem moveRefsItems_eq (items : List Json) : moveRefsItems items = items.map moveRefs := by
  induction items with
  | nil => rfl
  | cons v rest ih => rw [moveRefsItems, ih, List.map_cons]

theorem moveRefsMembers_eq (members : Members) :
    moveRefsMembers members = members.map fun m => (m.1, moveAt m.1 m.2) := by
  induction members with
  | nil => rfl
  | cons m rest ih => rw [moveRefsMembers_cons, ih, List.map_cons]

theorem moveAt_obj (key : Key) (members : Members) :
    moveAt key (.obj members) = .obj (moveRefsMembers members) := by
  rw [moveAt_other, moveRefs]
  rintro ⟨-, _, text⟩
  cases text

theorem moveAt_of_ne {name : String} (apart : name ≠ "$ref") (value : Json) :
    moveAt name value = moveRefs value :=
  moveAt_other (not_isReference_of_ne apart value)

theorem Along.moveAt {related moved : Key → Json → Json → Prop}
    (moves : ∀ key a b, related key a b → moved key (moveAt key a) (moveAt key b))
    (along : Along related first second) (key : Key) :
    Along moved (moveAt key first) (moveAt key second) := by
  rcases along with rfl | ⟨members, others, rfl, rfl, pairs⟩
  · exact .inl rfl
  · refine .inr ⟨_, _, moveAt_obj _ _, moveAt_obj _ _, ?_⟩
    rw [moveRefsMembers_eq, moveRefsMembers_eq, List.forall₂_map_left_iff, List.forall₂_map_right_iff]
    refine pairs.imp fun m m' pair => ⟨pair.1, ?_⟩
    rw [pair.1]
    exact moves _ _ _ pair.2

theorem AtKey.moveAt {name : String} (apart : name ≠ "$ref") {related moved : Json → Json → Prop}
    (moves : ∀ a b, related a b → moved (moveRefs a) (moveRefs b)) {key : Key}
    (swaps : AtKey name related key first second) :
    AtKey name moved key (moveAt key first) (moveAt key second) := by
  unfold AtKey at swaps ⊢
  split at swaps
  · rename_i own
    rw [if_pos own, own, moveAt_of_ne apart, moveAt_of_ne apart]
    exact moves _ _ swaps
  · rename_i other
    rw [if_neg other, swaps]

theorem SwapsItems.moveRefs (swaps : SwapsItems reference copy first second) :
    SwapsItems (moveRefs reference) (moveRefs copy) (moveRefs first) (moveRefs second) := by
  rcases swaps with rfl | ⟨items, others, rfl, rfl, pairs⟩
  · exact .inl rfl
  · refine .inr ⟨_, _, by rw [Swagger.moveRefs], by rw [Swagger.moveRefs], ?_⟩
    rw [moveRefsItems_eq, moveRefsItems_eq, List.forall₂_map_left_iff, List.forall₂_map_right_iff]
    exact pairs.imp fun a b => Or.imp (congrArg _) (And.imp (congrArg _) (congrArg _))

theorem SwapsOperation.moveAt (swaps : SwapsOperation reference copy first second) (key : Key) :
    SwapsOperation (moveRefs reference) (moveRefs copy) (moveAt key first) (moveAt key second) :=
  Along.moveAt (fun _ _ _ => AtKey.moveAt (by decide) fun _ _ => SwapsItems.moveRefs) swaps key

theorem SwapsPath.moveAt (swaps : SwapsPath reference copy first second) (key : Key) :
    SwapsPath (moveRefs reference) (moveRefs copy) (moveAt key first) (moveAt key second) := by
  refine Along.moveAt (fun key a b related => ?_) swaps key
  split at related
  · rename_i method
    rw [if_pos method]
    exact related.moveAt key
  · rename_i other
    rw [if_neg other]
    exact related.moveAt (by decide) fun _ _ => SwapsItems.moveRefs

/-- Moving the references of a document swaps the moved values. -/
theorem Swaps.moveRefs (swaps : Swaps reference copy first second) :
    Swaps (moveRefs reference) (moveRefs copy) (moveRefs first) (moveRefs second) := by
  have inner (a b : Json) (related : Along (fun _ => SwapsPath reference copy) a b) :
      Along (fun _ => SwapsPath (Swagger.moveRefs reference) (Swagger.moveRefs copy))
        (Swagger.moveRefs a) (Swagger.moveRefs b) := by
    have moved := Along.moveAt (fun key a b swaps => SwapsPath.moveAt swaps key) related "paths"
    rwa [moveAt_of_ne (by decide), moveAt_of_ne (by decide)] at moved
  have moved := Along.moveAt (fun _ _ _ => AtKey.moveAt (by decide) inner) swaps "paths"
  rwa [moveAt_of_ne (by decide), moveAt_of_ne (by decide)] at moved

theorem member?_moveAt (key : Key) (value : Json) (name : String) :
    member? (moveAt key value) name = (member? value name).map (moveAt name) := by
  cases value with
  | obj members =>
    rw [moveAt_obj]
    exact get?_moveRefsMembers members name
  | str text =>
    unfold moveAt
    split <;> rfl
  | _ => rw [moveAt_other (by rintro ⟨-, _, text⟩; cases text), moveRefs] <;> simp [member?]

theorem listed_moveAt (value : Option Json) :
    listed (value.map (moveAt "parameters")) = (listed value).map moveRefs := by
  cases value with
  | none => rfl
  | some value =>
    rw [Option.map_some, moveAt_of_ne (by decide)]
    cases value with
    | arr items => simp [listed, moveRefs, Json.elements, moveRefsItems_eq, Except.toOption]
    | obj members =>
      have scalar (key : Key) : moveRefs key.toJson = key.toJson := by cases key <;> rfl
      simp [listed, moveRefs, Json.elements, moveRefsMembers_eq, Except.toOption, scalar]
    | str text => simp [listed, moveRefs, Json.elements, Except.toOption]
    | _ => rfl

/-- Moving references moves them in the parameters that operations take. -/
theorem takes_moveRefs (document : Json) (path method : String) :
    takes (moveRefs document) path method = (takes document path method).map moveRefs := by
  have moved (value : Option Json) (key name : String) :
      (value.map (moveAt key)).bind (member? · name) =
        (value.bind (member? · name)).map (moveAt name) := by
    cases value with
    | none => rfl
    | some value => exact member?_moveAt key value name
  have paths : member? (moveRefs document) "paths" =
      (member? document "paths").map (moveAt "paths") := by
    rw [← member?_moveAt "paths", moveAt_of_ne (by decide)]
  unfold takes
  simp only [paths, moved, listed_moveAt, List.map_append]

end Moving

end TypedClient.Swagger
