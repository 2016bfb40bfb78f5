import TypedClient.Proofs.TypeExpr.Parts

/-! Expressions that can be written: every part has the children that its kind needs, and every
reference leads to one of the given names. -/
namespace TypedClient

namespace TypeExpr

def headComplete (head : TypeHead) (args : List TypeExpr) : Bool :=
  match head.kind with
  | .literal => !head.values.isEmpty
  | .array | .record => !args.isEmpty
  | _ => true

mutual

/-- Every part has what its kind needs, and every field a type. -/
def complete : TypeExpr → Bool
  | ⟨head, args, rest, fields⟩ =>
    headComplete head args && completeArgs args && completeOption rest && completeFields fields

def completeArgs : List TypeExpr → Bool
  | [] => true
  | type :: rest => type.complete && completeArgs rest

def completeOption : Option TypeExpr → Bool
  | none => true
  | some type => type.complete

def completeFields : List (FieldOf TypeExpr) → Bool
  | [] => true
  | ⟨_, type, _, _, _⟩ :: rest => type.isSome && completeOption type && completeFields rest

end

theorem completeArgs_iff {args : List TypeExpr} :
    completeArgs args = true ↔ ∀ type ∈ args, type.complete = true := by
  induction args with
  | nil => simp [completeArgs]
  | cons type rest ih => simp [completeArgs, ih]

theorem completeOption_iff {option : Option TypeExpr} :
    completeOption option = true ↔ ∀ type ∈ option, type.complete = true := by
  cases option <;> simp [completeOption]

theorem completeFields_iff {fields : List Field} : completeFields fields = true ↔
    ∀ field ∈ fields, ∃ type, field.type = some type ∧ type.complete = true := by
  induction fields with
  | nil => simp [completeFields]
  | cons field rest ih =>
    obtain ⟨name, type, wrapper, defaultValue, description⟩ := field
    cases type <;> simp [completeFields, completeOption, ih]

def FitsIn (names : List String) (type : TypeExpr) : Prop :=
  type.complete = true ∧ ∀ name ∈ type.refs, name ∈ names

variable {names : List String}

/-- An expression fits if its head does and its children do. -/
theorem fitsIn_mk {head : TypeHead} {args : List TypeExpr} {rest : Option TypeExpr}
    {fields : List Field} : FitsIn names ⟨head, args, rest, fields⟩ ↔
      headComplete head args = true ∧ (head.kind = .ref → head.name ∈ names) ∧
        (∀ type ∈ args, FitsIn names type) ∧ (∀ type ∈ rest, FitsIn names type) ∧
        ∀ field ∈ fields, ∃ type, field.type = some type ∧ FitsIn names type := by
  simp only [FitsIn, complete, Bool.and_eq_true, completeArgs_iff, completeOption_iff,
    completeFields_iff]
  constructor
  · rintro ⟨⟨⟨⟨whole, args⟩, rest⟩, fields⟩, refs⟩
    have inner (type : TypeExpr) (member : type ∈ children ⟨head, _, _, _⟩) :
        ∀ name ∈ type.refs, name ∈ names :=
      fun name occurs => refs name (mem_refs.mpr (.inr ⟨type, member, occurs⟩))
    refine ⟨whole, fun isRef => refs _ (mem_refs.mpr (.inl ⟨isRef, rfl⟩)), ?_, ?_, ?_⟩
    · exact fun type member => ⟨args type member, inner type (mem_children.mpr (.inl member))⟩
    · exact fun type member =>
        ⟨rest type member, inner type (mem_children.mpr (.inr (.inl member)))⟩
    · intro field member
      obtain ⟨type, typed, whole⟩ := fields field member
      exact ⟨type, typed, whole, inner type (mem_children.mpr (.inr (.inr ⟨field, member, typed⟩)))⟩
  · rintro ⟨whole, isRef, args, rest, fields⟩
    refine ⟨⟨⟨⟨whole, fun type member => (args type member).1⟩,
      fun type member => (rest type member).1⟩, fun field member => ?_⟩, fun name occurs => ?_⟩
    · obtain ⟨type, typed, fits⟩ := fields field member
      exact ⟨type, typed, fits.1⟩
    · rcases mem_refs.mp occurs with ⟨kind, rfl⟩ | ⟨type, member, occurs⟩
      · exact isRef kind
      rcases mem_children.mp member with listed | given | ⟨field, listed, typed⟩
      · exact (args type listed).2 name occurs
      · exact (rest type given).2 name occurs
      · obtain ⟨other, otherTyped, fits⟩ := fields field listed
        obtain rfl := Option.some.inj (otherTyped.symm.trans typed)
        exact fits.2 name occurs

theorem FitsIn.mono {more : List String} {type : TypeExpr} (fits : FitsIn names type)
    (included : names ⊆ more) : FitsIn more type :=
  ⟨fits.1, fun name occurs => included (fits.2 name occurs)⟩

theorem FitsIn.of_reaches {type part : TypeExpr} (fits : FitsIn names type)
    (reaches : Reaches type part) : FitsIn names part := by
  induction reaches with
  | refl => exact fits
  | @tail part child _ member ih =>
    obtain ⟨head, args, rest, fields⟩ := part
    obtain ⟨-, -, ofArgs, ofRest, ofFields⟩ := fitsIn_mk.mp ih
    rcases mem_children.mp member with listed | given | ⟨field, listed, typed⟩
    · exact ofArgs child listed
    · exact ofRest child given
    · obtain ⟨inner, same, inside⟩ := ofFields field listed
      obtain rfl := Option.some.inj (same.symm.trans typed)
      exact inside

theorem fitsIn_json : FitsIn names json :=
  fitsIn_mk.mpr ⟨rfl, by simp, by simp, by simp, by simp⟩

theorem fitsIn_ref {name : String} {nullable : Bool} (declared : name ∈ names) :
    FitsIn names (ref name nullable) :=
  fitsIn_mk.mpr ⟨rfl, fun _ => declared, by simp, by simp, by simp⟩

theorem fitsIn_struct {fields : List Field}
    (fits : ∀ field ∈ fields, ∃ type, field.type = some type ∧ FitsIn names type) :
    FitsIn names (struct fields) :=
  fitsIn_mk.mpr ⟨rfl, by simp, by simp, by simp, fits⟩

theorem FitsIn.orNull {type : TypeExpr} (fits : FitsIn names type) : FitsIn names type.orNull := by
  obtain ⟨head, args, rest, fields⟩ := type
  obtain ⟨whole, declared, inner⟩ := fitsIn_mk.mp fits
  exact fitsIn_mk.mpr ⟨whole, declared, inner⟩

theorem headComplete_args {head : TypeHead} {args : List TypeExpr}
    (whole : headComplete head args = true) (needs : head.kind = .array ∨ head.kind = .record) :
    args ≠ [] := by
  rintro rfl
  rcases needs with kind | kind <;> simp [headComplete, kind] at whole

end TypeExpr

theorem Declaration.fields_fit {declaration : Declaration} {names : List String}
    (fits : ∀ type ∈ declaration.type, type.FitsIn names) :
    ∀ field ∈ declaration.fields, ∃ type, field.type = some type ∧ type.FitsIn names := by
  unfold Declaration.fields
  cases typed : declaration.type with
  | none => simp
  | some type =>
    obtain ⟨head, args, rest, fields⟩ := type
    exact (TypeExpr.fitsIn_mk.mp (fits _ typed)).2.2.2.2

end TypedClient
