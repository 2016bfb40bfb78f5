import TypedClient.Proofs.Schema.Nullable

/-! Replacing a schema inside a fragment. A fragment is read from the forms of the schemas that it
holds, so that one of them may be spelt in another way at any position. -/
namespace TypedClient.Schema

/-- Keywords that hold a schema. Those that are never read are keywords all the same. -/
def schemaKeywords : List String :=
  ["items", "additionalItems", "additionalProperties", "contains", "propertyNames", "not", "if",
    "then", "else", "unevaluatedItems", "unevaluatedProperties", "contentSchema"]

def listKeywords : List String :=
  ["allOf", "anyOf", "oneOf", "prefixItems", "items"]

def mapKeywords : List String :=
  ["properties", "patternProperties", "dependencies", "dependentSchemas", "definitions", "$defs"]

/-- A fragment and the same with one schema in it, at any depth, spelt in another way. -/
inductive Respelt : Json → Json → Prop where
  | spelling {schema first second : Json} (spells : SpellsNullable schema first)
      (respells : SpellsNullable schema second) : Respelt first second
  | schema {name : String} (keyword : name ∈ schemaKeywords) (before after : Members)
      {first second : Json} (inner : Respelt first second) :
      Respelt (.obj (before ++ (.text name, first) :: after))
        (.obj (before ++ (.text name, second) :: after))
  | list {name : String} (keyword : name ∈ listKeywords) (before after : Members)
      (lead rest : List Json) {first second : Json} (inner : Respelt first second) :
      Respelt (.obj (before ++ (.text name, .arr (lead ++ first :: rest)) :: after))
        (.obj (before ++ (.text name, .arr (lead ++ second :: rest)) :: after))
  | map {name : String} (keyword : name ∈ mapKeywords) (before after : Members)
      (lead rest : Members) (key : Key) {first second : Json} (inner : Respelt first second) :
      Respelt (.obj (before ++ (.text name, .obj (lead ++ (key, first) :: rest)) :: after))
        (.obj (before ++ (.text name, .obj (lead ++ (key, second) :: rest)) :: after))

/-- Values of a keyword that differ in schemas of the same form at most. -/
inductive ValueAlike : Key → Json → Json → Prop where
  | same (key : Key) (value : Json) : ValueAlike key value value
  | schema {name : String} (keyword : name ∈ schemaKeywords) {m m' : Key × Json}
      {rest rest' : Members} (forms : form (.obj (m :: rest)) = form (.obj (m' :: rest'))) :
      ValueAlike (.text name) (.obj (m :: rest)) (.obj (m' :: rest'))
  | list {name : String} (keyword : name ∈ listKeywords) {items items' : List Json}
      (forms : items.map form = items'.map form) :
      ValueAlike (.text name) (.arr items) (.arr items')
  | map {name : String} (keyword : name ∈ mapKeywords) {entries entries' : Members}
      (forms : entries.map (fun m => (m.1, form m.2)) = entries'.map fun m => (m.1, form m.2)) :
      ValueAlike (.text name) (.obj entries) (.obj entries')

def MembersAlike (first second : Members) : Prop :=
  List.Forall₂ (fun m m' => m.1 = m'.1 ∧ ValueAlike m.1 m.2 m'.2) first second

namespace MembersAlike

variable {first second : Members}

theorem refl (members : Members) : MembersAlike members members :=
  List.forall₂_same.mpr fun m _ => ⟨rfl, .same m.1 m.2⟩

theorem replace (before after : Members) {key : Key} {value value' : Json}
    (alike : ValueAlike key value value') :
    MembersAlike (before ++ (key, value) :: after) (before ++ (key, value') :: after) :=
  List.rel_append (refl before) (.cons ⟨rfl, alike⟩ (refl after))

theorem get? (alike : MembersAlike first second) (name : String) :
    Option.Rel (ValueAlike name) (first.get? name) (second.get? name) := by
  induction alike with
  | nil => exact .none
  | @cons m m' rest rest' related _ ih =>
    rw [Members.get?_cons, Members.get?_cons, ← related.1]
    split
    · rename_i found
      exact .some (found ▸ related.2)
    · exact ih

theorem plain (alike : MembersAlike first second) {name : String}
    (noSchemas : name ∉ schemaKeywords ++ listKeywords ++ mapKeywords) :
    first.get? name = second.get? name := by
  have related := alike.get? name
  generalize first.get? name = value, second.get? name = value' at related
  cases related with
  | none => rfl
  | some related =>
    cases related with
    | same => rfl
    | schema keyword | list keyword | map keyword => simp [keyword] at noSchemas

theorem withType (alike : MembersAlike first second) (type : Json) :
    MembersAlike (withType first type) (withType second type) := by
  induction alike with
  | nil => exact refl _
  | @cons m m' rest rest' related _ ih =>
    have shared : isShared m = isShared m' := by rw [isShared, isShared, related.1]
    unfold Schema.withType at ih ⊢
    rw [List.filter_cons, List.filter_cons, shared]
    split
    · exact .cons related ih
    · exact ih

theorem lists (alike : MembersAlike first second) (name : String) :
    (listAt? first name "").map (List.map fun part => form part.fragment) =
      (listAt? second name "").map (List.map fun part => form part.fragment) := by
  have related := alike.get? name
  unfold listAt?
  generalize first.get? name = value, second.get? name = value' at related
  cases related with
  | none => rfl
  | some related =>
    cases related with
    | same | schema | map => rfl
    | list keyword forms => simp [map_parts, forms]

theorem items (alike : MembersAlike first second) {name : String} (noMap : name ∉ mapKeywords) :
    (itemsAt first name "").map (fun part => form part.fragment) =
      (itemsAt second name "").map fun part => form part.fragment := by
  have related := alike.get? name
  unfold itemsAt
  generalize first.get? name = value, second.get? name = value' at related
  cases related with
  | none => rfl
  | some related =>
    cases related with
    | same => rfl
    | schema keyword forms => exact congrArg Items.each forms
    | list => simp [Items.map, form, normalize]
    | map keyword => exact absurd keyword noMap

theorem properties (alike : MembersAlike first second) :
    (propertiesAt? first "").map (List.map fun p => (p.1, form p.2.fragment)) =
      (propertiesAt? second "").map (List.map fun p => (p.1, form p.2.fragment)) := by
  have related := alike.get? "properties"
  unfold propertiesAt?
  generalize first.get? _ = value, second.get? _ = value' at related
  cases related with
  | none => rfl
  | some related =>
    cases related with
    | same => rfl
    | schema keyword => exact absurd keyword (by decide)
    | list keyword => exact absurd keyword (by decide)
    | @map _ _ entries entries' forms =>
      cases entries <;> cases entries' <;> simp_all [Function.comp_def]

theorem additional (alike : MembersAlike first second) :
    (additionalAt? first "").map (fun part => form part.fragment) =
      (additionalAt? second "").map fun part => form part.fragment := by
  have related := alike.get? "additionalProperties"
  unfold additionalAt?
  generalize first.get? _ = value, second.get? _ = value' at related
  cases related with
  | none => rfl
  | some related =>
    cases related with
    | same => rfl
    | schema keyword forms => exact congrArg some forms
    | list keyword => exact absurd keyword (by decide)
    | map keyword => exact absurd keyword (by decide)

theorem has (alike : MembersAlike first second) (name : String) :
    first.has name = second.has name := by
  have related := alike.get? name
  unfold Members.has
  generalize first.get? name = value, second.get? name = value' at related
  cases related <;> rfl

/-- Members alike are read alike, once this is known of the fragments of single types. -/
theorem readAlike (alike : MembersAlike first second)
    (typed : ∀ types, (foldType (first.get "type")).1 = .arr types → ∀ t ∈ types,
      form (.obj (Schema.withType first t)) = form (.obj (Schema.withType second t))) :
    ReadAlike (fun part => form part.fragment) first second "" "" := by
  have type : first.get "type" = second.get "type" := by
    rw [Members.get, Members.get, alike.plain (by decide)]
  have plain : ∀ name ∈ plainKeywords, name ∉ schemaKeywords ++ listKeywords ++ mapKeywords := by
    decide
  have noMap : ∀ name ∈ ["items", "additionalItems"], name ∉ mapKeywords := by decide
  refine ⟨fun name member => alike.plain (plain name member), fun name _ => alike.has name,
    by rw [type], ?_, fun name _ => alike.lists name, fun name member => alike.items (noMap name member),
    alike.properties, alike.additional⟩
  unfold typesLayer
  rw [← type]
  split
  · rename_i types folded
    simp only [Option.map_some, List.map_map, Function.comp_def]
    exact congrArg some (List.map_congr_left (typed types folded))
  · rfl

theorem annotate (alike : MembersAlike first second) (node : Node) :
    annotate node first "" = annotate node second "" := by
  have own : ∀ name ∈ ownKeywords, name ∉ schemaKeywords ++ listKeywords ++ mapKeywords := by
    decide
  have get (name : String) (member : name ∈ ownKeywords) : first.get? name = second.get? name :=
    alike.plain (own name member)
  simp only [Schema.annotate, saysNullable, Members.get, get "nullable" (by decide),
    get "x-nullable" (by decide), get "type" (by decide), get "default" (by decide),
    get "title" (by decide), get "description" (by decide)]

/-- Fragments of members alike have the same form. -/
theorem form_eq (alike : MembersAlike first second) : form (.obj first) = form (.obj second) := by
  induction h : (Json.obj first).size using Nat.strong_induction_on generalizing first second with
  | _ n ih =>
    -- a fragment of several types is read again, once for each, with all its other members
    have read := alike.readAlike fun types folded t listed =>
      ih _ (h ▸ (PartOf.typed folded listed).size_lt) (alike.withType t) rfl
    rw [form_obj, form_obj, formOver, formOver, read.layer]
    simp only [alike.annotate]

end MembersAlike

namespace Respelt

variable {first second : Json}

/-- A respelt fragment has the form that it had, and it was an object with members before and
after. -/
theorem form_eq (respelt : Respelt first second) : form first = form second ∧
    (∃ m rest, first = .obj (m :: rest)) ∧ ∃ m rest, second = .obj (m :: rest) := by
  have nonempty (before after : Members) (m : Key × Json) :
      ∃ m' rest, Json.obj (before ++ m :: after) = .obj (m' :: rest) := by
    cases before with
    | nil => exact ⟨m, after, rfl⟩
    | cons m' rest => exact ⟨m', rest ++ m :: after, rfl⟩
  induction respelt with
  | spelling spells respells =>
    exact ⟨spells.form_orNull.trans respells.form_orNull.symm, spells.exists_members,
      respells.exists_members⟩
  | schema keyword before after inner ih =>
    obtain ⟨forms, ⟨m, rest, rfl⟩, m', rest', rfl⟩ := ih
    exact ⟨(MembersAlike.replace before after (.schema keyword forms)).form_eq,
      nonempty before after _, nonempty before after _⟩
  | list keyword before after lead rest inner ih =>
    have forms := ih.1
    exact ⟨(MembersAlike.replace before after (.list keyword (by simp [forms]))).form_eq,
      nonempty before after _, nonempty before after _⟩
  | map keyword before after lead rest key inner ih =>
    have forms := ih.1
    exact ⟨(MembersAlike.replace before after (.map keyword (by simp [forms]))).form_eq,
      nonempty before after _, nonempty before after _⟩

end Respelt

end TypedClient.Schema
