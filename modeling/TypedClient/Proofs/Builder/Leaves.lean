import TypedClient.Proofs.Builder.Unfolding
import TypedClient.Proofs.Schema.Keys

/-! Merging in a document. Where a document has no key twice in an object, what the members of an
`allOf` are merged into is known from their leaves alone. -/
namespace TypedClient.Builder

open Schema Node

variable {document : Json} {members : List Node} {fuel : Nat}

theorem lookup_keyed (unique : document.uniqueKeys = true) {pointer : Json} {node : Node}
    (found : lookup document pointer = .ok (some node)) : node.Keyed := by
  obtain ⟨target, resolved, normal⟩ := lookup_eq_some.mp found
  refine normalize_keyed normal (resolve_keeps (P := (·.uniqueKeys = true)) ?_ ?_ resolved unique)
  · exact Json.uniqueKeys_get?
  · exact fun unique listed => Json.uniqueKeys_arr.mp unique _ listed

/-- The depth that an `allOf` gets is enough to merge its members. -/
theorem mergeAllOf_ends (enough : exprBound { shape := .allOf members } document ≤ fuel) :
    mergeAllOf (lookup document) fuel members ≠ .error .tooDeep := by
  let node : Node := { shape := .allOf members }
  let texts := node.pointers ++ document.references
  have closed : Closed (lookup document) texts document.size :=
    lookup_closed (List.subset_append_right _ _) (Nat.le_refl _)
  have few : texts.length ≤ node.subnodes.length + document.size := by
    rw [List.length_append]
    exact Nat.add_le_add node.length_pointers_le (Json.length_references_le document)
  have bound : texts.length * (document.size + 1) + node.subnodes.length ≤ fuel := by
    refine le_trans ?_ enough
    simp only [exprBound]
    nlinarith
  intro deep
  refine flattenAllOf_ends closed (within_length_subnodes node) (List.subset_append_left _ _) bound ?_
  exact except_bind_eq_error.mpr (.inl deep)

/-- `allOf` is a fold over leaves, whatever the nesting. The members are merged if and only if they
have leaves, and the result is what the leaves are together, laid over each other from left to
right. Nothing but a reference that cannot be followed stands in the way. -/
theorem mergeAllOf_gathers (document : Json) (members : List Node) (fuel : Nat)
    (enough : exprBound { shape := .allOf members } document ≤ fuel)
    (unique : document.uniqueKeys = true)
    (normal : ∀ member ∈ members, ∃ fragment path, fragment.uniqueKeys = true ∧
      normalize fragment path = .ok member) :
    let merged := mergeAllOf (lookup document) fuel members
    (∀ leaves, ExpandsAll (lookup document) [] members leaves →
      ∃ result, merged = .ok result ∧ Gathers leaves result) ∧
    (∀ result, merged = .ok result → ∃ leaves, ExpandsAll (lookup document) [] members leaves) ∧
    ∀ fault, merged = .error fault → ∃ member ∈ members, Stuck (lookup document) fault [] member := by
  have ends := mergeAllOf_ends enough
  refine ⟨fun leaves expands => ?_, fun result done => ?_, fun fault failed => ?_⟩
  · refine mergeWith_gathers (fun member listed _ expands ends => ?_) expands ends
    obtain ⟨fragment, path, own, done⟩ := normal member listed
    exact flatten_amountsTo (lookup_keyed unique) (normalize_keyed done own) expands ends
  · obtain ⟨last, folded, _⟩ := except_bind_eq_ok.mp done
    exact exists_expandsAll (fun _ _ _ => exists_expands) folded
  · obtain ⟨member, listed, stuck⟩ := mergeWith_error failed
    refine ⟨member, listed, (stuck_of_flatten stuck).resolve_left ?_⟩
    rintro rfl
    exact ends failed

/-- A definition that has itself among its members. -/
def loopDocument : Json :=
  .ofMembers [("$defs", .ofMembers [("Item", .ofMembers [
    ("allOf", .arr [.ofMembers [("$ref", "#/$defs/Item")], .ofMembers [("type", "object"),
      ("properties", .ofMembers [("id", .ofMembers [("type", "string")])]),
      ("required", .arr ["id"])]]),
    ("title", "Item"), ("nullable", .bool true)])])]

/-- The definition, and an object that shares a key with it. -/
def loopMembers : List Json :=
  [.ofMembers [("$ref", "#/$defs/Item")],
    .ofMembers [("type", "object"), ("title", "Named"), ("required", .arr ["name", "id"]),
      ("properties", .ofMembers [("name", .ofMembers [("type", "string")]),
        ("id", .ofMembers [("type", "integer")])])]]

theorem mergeAllOf_gathers_loop :
    ∃ members leaves result, loopMembers.mapM (normalize · "#") = .ok members ∧
      ExpandsAll (lookup loopDocument) [] members leaves ∧
      mergeAllOf (lookup loopDocument) (exprBound { shape := .allOf members } loopDocument) members =
        .ok result ∧ Gathers leaves result ∧ result.nullable = true ∧
      result.notes.title = some "Named" ∧
      result.fields?.map (·.required) = some ["id", "name"] := by
  have evaluated : (loopMembers.mapM (normalize · "#")).toOption.any (fun members =>
      (mergeAllOf (lookup loopDocument) (exprBound { shape := .allOf members } loopDocument)
        members).toOption.any fun result => result.nullable && result.notes.title == some "Named" &&
          result.fields?.map (·.required) == some ["id", "name"]) = true := by
    decide +kernel
  cases read : loopMembers.mapM (normalize · "#") with
  | error fault =>
    rw [read] at evaluated
    cases evaluated
  | ok members =>
    rw [read] at evaluated
    have normal (member : Node) (listed : member ∈ members) : ∃ fragment path,
        fragment.uniqueKeys = true ∧ normalize fragment path = .ok member := by
      have unique : ∀ fragment ∈ loopMembers, fragment.uniqueKeys = true := by decide +kernel
      obtain ⟨fragment, held, done⟩ := exists_of_mapM_eq_ok read listed
      exact ⟨fragment, "#", unique fragment held, done⟩
    obtain ⟨gathers, expands, _⟩ := mergeAllOf_gathers loopDocument members _ (Nat.le_refl _)
      (by decide +kernel) normal
    cases merged : mergeAllOf (lookup loopDocument)
        (exprBound { shape := .allOf members } loopDocument) members with
    | error fault =>
      simp [Except.toOption, merged] at evaluated
    | ok result =>
      obtain ⟨leaves, expanded⟩ := expands result merged
      obtain ⟨same, again, gathered⟩ := gathers leaves expanded
      obtain rfl := Except.ok.inj (merged.symm.trans again)
      simp only [Except.toOption, merged, Option.any_some, Bool.and_eq_true, beq_iff_eq] at evaluated
      obtain ⟨⟨nullable, title⟩, required⟩ := evaluated
      exact ⟨members, leaves, result, rfl, expanded, merged, gathered, nullable, title, required⟩

end TypedClient.Builder
