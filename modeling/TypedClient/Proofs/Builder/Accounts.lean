import TypedClient.Proofs.Builder.Replacements

/-! Accounts of what is replaced from one store to another. What is replaced has a brand, and a
brand that is new stands for what is replaced; steps that keep such accounts can be chained. -/
namespace TypedClient

open Schema

def Declaration.Brands (d : Declaration) (base : PrimitiveType) : Prop :=
  d.kind = .brand ∧
    ∃ checks, d.type = some { head := { kind := .primitive, name := base.name, checks } }

theorem Store.find?_register {store : Store} {declaration : Declaration}
    (fresh : declaration.name ∉ store.names) (name : String) :
    (store.register declaration).find? name = if name = declaration.name
      then some { declaration with order := store.counter } else store.find? name := by
  have absent : store.find? declaration.name = none := find?_eq_none.mpr fresh
  unfold Store.find? at absent ⊢
  rw [declarations_register fresh, List.find?_append]
  by_cases same : name = declaration.name
  · simp [same, absent]
  · simp [same, Ne.symm same]

/-- References that are met first lead to names that are new. -/
theorem Store.Grows.fresh_of_new {before after : Store} {entry : String × String}
    (grows : Grows before after) (listed : entry ∈ after.refNames)
    (unlisted : entry ∉ before.refNames) : entry.2 ∉ before.names := by
  obtain ⟨added, refNames, fresh⟩ := grows.referred
  rw [refNames] at listed
  exact fresh entry ((List.mem_append.mp listed).resolve_left unlisted)

namespace Builder

open Build Store Node

variable {document : Json} {known : List (String × String)} {before after : Store}
  {own : String → PrimitiveType → Prop} {brand : String} {base : PrimitiveType}

/-- The declaration of a name, as it is built from a node, refers to the brand for a property. -/
def DeclarationReplaces (document : Json) (known : List (String × String)) (store : Store)
    (name : String) (node : Node) (brand : String) (base : PrimitiveType) : Prop :=
  ∃ result d type, MergesTo document node result ∧ store.find? name = some d ∧
    d.type = some type ∧ Replaces document known result type brand base

def TargetReplaces (document : Json) (known : List (String × String)) (store : Store)
    (entry : String × String) (brand : String) (base : PrimitiveType) : Prop :=
  ∃ node, lookup document (.str entry.1) = .ok (some node) ∧
    DeclarationReplaces document known store entry.2 node brand base

/-- What is replaced from one store to another: properties of one's own, and those of the targets of
references that are met first. -/
def Replaced (document : Json) (known : List (String × String)) (before after : Store)
    (own : String → PrimitiveType → Prop) (brand : String) (base : PrimitiveType) : Prop :=
  own brand base ∨ ∃ entry ∈ after.refNames, entry ∉ before.refNames ∧
    TargetReplaces document known after entry brand base

/-- A store on the way: references that have not been known before lead into the document. -/
structure Underway (document : Json) (known : List (String × String)) (store : Store) : Prop where
  sound : store.Sound
  kept : known ⊆ store.refNames
  resolves : ∀ entry ∈ store.refNames, entry ∈ known ∨
    ∃ target, Pointer.resolve (.str entry.1) document = .ok (some target)

/-- What is replaced has a brand, and a brand that is new stands for what is replaced. -/
structure Accounts (document : Json) (known : List (String × String)) (before after : Store)
    (own : String → PrimitiveType → Prop) : Prop where
  resolves : ∀ entry ∈ after.refNames, entry ∈ before.refNames ∨
    ∃ target, Pointer.resolve (.str entry.1) document = .ok (some target)
  branded : ∀ brand base, Replaced document known before after own brand base →
    (base = .string ∨ base = .integer) ∧ ∃ d, after.find? brand = some d ∧ d.kind = .brand
  origins : ∀ brand d, after.find? brand = some d → d.kind = .brand → brand ∉ before.names →
    ∃ base, d.Brands base ∧ Replaced document known before after own brand base

/-- A step that leaves the declarations as they are and keeps accounts. -/
structure Covers (document : Json) (known : List (String × String)) (before after : Store)
    (own : String → PrimitiveType → Prop) : Prop where
  grows : Grows before after
  accounts : Accounts document known before after own

theorem declarationReplaces_congr {name : String} {node : Node}
    (same : after.find? name = before.find? name) :
    DeclarationReplaces document known after name node brand base ↔
      DeclarationReplaces document known before name node brand base := by
  simp only [DeclarationReplaces, same]

theorem targetReplaces_congr {entry : String × String}
    (same : after.find? entry.2 = before.find? entry.2) :
    TargetReplaces document known after entry brand base ↔
      TargetReplaces document known before entry brand base := by
  simp only [TargetReplaces, declarationReplaces_congr same]

theorem Accounts.congr {own' : String → PrimitiveType → Prop}
    (accounts : Accounts document known before after own)
    (same : ∀ brand base, own' brand base ↔ own brand base) :
    Accounts document known before after own' := by
  obtain rfl : own' = own := funext fun brand => funext fun base => propext (same brand base)
  exact accounts

/-- Of the store at the start only the names matter. -/
theorem Accounts.congr_start {start : Store} (accounts : Accounts document known start after own)
    (names : start.names = before.names) (refNames : start.refNames = before.refNames) :
    Accounts document known before after own := by
  obtain ⟨resolves, branded, origins⟩ := accounts
  simp only [Replaced, names, refNames] at resolves branded origins
  exact ⟨resolves, branded, origins⟩

namespace Covers

theorem congr {own' : String → PrimitiveType → Prop}
    (covers : Covers document known before after own)
    (same : ∀ brand base, own' brand base ↔ own brand base) :
    Covers document known before after own' :=
  ⟨covers.grows, covers.accounts.congr same⟩

/-- No reference is met. -/
theorem of_refNames_eq (grows : Grows before after) (same : after.refNames = before.refNames)
    (branded : ∀ brand base, own brand base → (base = .string ∨ base = .integer) ∧
      ∃ d, after.find? brand = some d ∧ d.kind = .brand)
    (origins : ∀ brand d, after.find? brand = some d → d.kind = .brand → brand ∉ before.names →
      ∃ base, d.Brands base ∧ own brand base) : Covers document known before after own := by
  refine ⟨grows, fun entry listed => .inl (same ▸ listed), ?_, ?_⟩
  · rintro brand base (own | ⟨entry, listed, unlisted, _⟩)
    · exact branded brand base own
    · exact absurd (same ▸ listed) unlisted
  · intro brand d found kind fresh
    obtain ⟨base, brands, own⟩ := origins brand d found kind fresh
    exact ⟨base, brands, .inl own⟩

/-- Nothing happens; what is replaced has its brand already. -/
theorem of_eq {store : Store} (sound : store.Sound)
    (branded : ∀ brand base, own brand base → (base = .string ∨ base = .integer) ∧
      ∃ d, store.find? brand = some d ∧ d.kind = .brand) :
    Covers document known store store own := by
  refine of_refNames_eq (.refl sound) rfl branded fun brand d found _ fresh => ?_
  exact absurd (find?_isSome.mp (Option.isSome_of_eq_some found)) fresh

theorem refl {store : Store} (ready : Underway document known store)
    (untouched : ∀ brand base, ¬ own brand base) : Covers document known store store own :=
  of_eq ready.sound fun brand base replaced => absurd replaced (untouched brand base)

theorem underway (covers : Covers document known before after own)
    (ready : Underway document known before) : Underway document known after := by
  refine ⟨covers.grows.sound, ?_, fun entry listed => ?_⟩
  · exact List.Subset.trans ready.kept covers.grows.refNames_prefix.subset
  · rcases covers.accounts.resolves entry listed with old | resolved
    · exact ready.resolves entry old
    · exact .inr resolved

variable {first second third : Store} {own₁ own₂ : String → PrimitiveType → Prop}

/-- What is replaced in two steps is replaced in one of them: a later step leaves the declarations
of the earlier one as they are. -/
theorem replaced_trans (one : Grows first second) (two : Grows second third) :
    Replaced document known first third (fun brand base => own₁ brand base ∨ own₂ brand base)
      brand base ↔
    Replaced document known first second own₁ brand base ∨
      Replaced document known second third own₂ brand base := by
  have same : ∀ entry ∈ second.refNames, TargetReplaces document known third entry brand base ↔
      TargetReplaces document known second entry brand base := fun entry listed =>
    targetReplaces_congr (two.find?_eq (one.sound.referred entry listed))
  have earlier := one.refNames_prefix.subset
  have later := two.refNames_prefix.subset
  constructor
  · rintro ((own | own) | ⟨entry, listed, unlisted, target⟩)
    · exact .inl (.inl own)
    · exact .inr (.inl own)
    · by_cases met : entry ∈ second.refNames
      · exact .inl (.inr ⟨entry, met, unlisted, (same entry met).mp target⟩)
      · exact .inr (.inr ⟨entry, listed, met, target⟩)
  · rintro ((own | ⟨entry, listed, unlisted, target⟩) | (own | ⟨entry, listed, unlisted, target⟩))
    · exact .inl (.inl own)
    · exact .inr ⟨entry, later listed, unlisted, (same entry listed).mpr target⟩
    · exact .inl (.inr own)
    · exact .inr ⟨entry, listed, fun old => unlisted (earlier old), target⟩

theorem trans (one : Covers document known first second own₁)
    (two : Covers document known second third own₂) :
    Covers document known first third fun brand base => own₁ brand base ∨ own₂ brand base := by
  refine ⟨one.grows.trans two.grows, fun entry listed => ?_, fun brand base replaced => ?_,
    fun brand d found kind fresh => ?_⟩
  · rcases two.accounts.resolves entry listed with old | resolved
    · exact one.accounts.resolves entry old
    · exact .inr resolved
  · rcases (replaced_trans one.grows two.grows).mp replaced with earlier | later
    · obtain ⟨plain, d, found, kind⟩ := one.accounts.branded brand base earlier
      exact ⟨plain, d, two.grows.find? found, kind⟩
    · exact two.accounts.branded brand base later
  · by_cases declared : brand ∈ second.names
    · rw [two.grows.find?_eq declared] at found
      obtain ⟨base, brands, replaced⟩ := one.accounts.origins brand d found kind fresh
      exact ⟨base, brands, (replaced_trans one.grows two.grows).mpr (.inl replaced)⟩
    · obtain ⟨base, brands, replaced⟩ := two.accounts.origins brand d found kind declared
      exact ⟨base, brands, (replaced_trans one.grows two.grows).mpr (.inr replaced)⟩

/-- One step for each item; what is replaced is replaced for one of them. -/
theorem mapM {f : α → Build β} (claims : α → β → String → PrimitiveType → Prop) (Q : α → β → Prop)
    {items : List α} {results : List β} {s t : Session}
    (step : ∀ item ∈ items, ∀ (s : Session) b t, Underway document known s.store →
      f item s = .ok b t → Covers document known s.store t.store (claims item b) ∧ Q item b)
    (start : Underway document known s.store) (done : items.mapM f s = .ok results t) :
    Covers document known s.store t.store
      (fun brand base => ∃ pair ∈ items.zip results, claims pair.1 pair.2 brand base) ∧
    List.Forall₂ Q items results := by
  induction items generalizing s results with
  | nil =>
    cases done
    exact ⟨refl start (by simp), .nil⟩
  | cons item rest ih =>
    rw [List.mapM_cons] at done
    obtain ⟨b, u, stepped, later⟩ := bind_eq_ok.mp done
    obtain ⟨bs, v, mapped, same⟩ := bind_eq_ok.mp later
    cases same
    obtain ⟨first, holds⟩ := step item List.mem_cons_self s b u start stepped
    obtain ⟨others, rest⟩ := ih (fun other member => step other (List.mem_cons_of_mem _ member))
      (first.underway start) mapped
    refine ⟨(first.trans others).congr fun brand base => ?_, .cons holds rest⟩
    rw [List.zip_cons_cons, List.exists_mem_cons_iff]

/-- The type of a declaration is set last, when its parts are accounted for. -/
theorem typed {name : String} {d : Declaration} (covers : Covers document known before after own)
    (type : TypeExpr) (declared : before.find? name = some d) (kind : d.kind ≠ .brand) :
    let typed := after.update name fun d => { d with type := some type }
    Accounts document known before typed own ∧
      typed.find? name = some { d with type := some type } := by
  intro typed
  have listed : name ∈ before.names := find?_isSome.mp (Option.isSome_of_eq_some declared)
  have found := covers.grows.find? declared
  have others : ∀ other ≠ name, typed.find? other = after.find? other := by
    intro other differs
    rw [find?_update (by simp)]
    cases known : after.find? other with
    | none => rfl
    | some e => simp [(mem_of_find? known).2, differs]
  have replaced : ∀ brand base, Replaced document known before typed own brand base ↔
      Replaced document known before after own brand base := by
    intro brand base
    refine or_congr_right (exists_congr fun entry => and_congr_right fun met => and_congr_right
      fun unmet => targetReplaces_congr (others _ ?_))
    rintro rfl
    exact covers.grows.fresh_of_new met unmet listed
  obtain ⟨resolves, branded, origins⟩ := covers.accounts
  refine ⟨⟨resolves, fun brand base claimed => ?_, fun brand e known isBrand fresh => ?_⟩, ?_⟩
  · obtain ⟨plain, e, known, isBrand⟩ := branded brand base ((replaced brand base).mp claimed)
    refine ⟨plain, e, ?_, isBrand⟩
    rw [others brand, known]
    rintro rfl
    rw [found] at known
    cases known
    exact kind isBrand
  · rw [others brand fun same => fresh (same ▸ listed)] at known
    obtain ⟨base, brands, claimed⟩ := origins brand e known isBrand fresh
    exact ⟨base, brands, (replaced brand base).mpr claimed⟩
  · simp [typed, find?_update, found, (mem_of_find? found).2]

end Covers

end Builder

end TypedClient
