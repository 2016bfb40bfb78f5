import Mathlib
import TypedClient.Declaration

/-! Names of declarations are never empty: a free name has a base, and a brand keeps the last letter
of its key. -/
namespace TypedClient

theorem mem_of_lookup [BEq α] [LawfulBEq α] {entries : List (α × β)} {key : α} {value : β}
    (found : entries.lookup key = some value) : (key, value) ∈ entries := by
  obtain ⟨before, after, split, _⟩ := List.lookup_eq_some_iff.mp found
  simp [split]

namespace Text

theorem mapCase_ne_nil {rows : List (Nat × Nat × Nat × Int)} {expansions : List (Nat × List Nat)}
    (filled : ∀ entry ∈ expansions, entry.2 ≠ []) (c : Char) : mapCase rows expansions c ≠ [] := by
  unfold mapCase
  split
  · rename_i ns found
    simpa using filled (c.toNat, ns) (mem_of_lookup found)
  · simp

theorem upperChar_ne_nil (c : Char) : upperChar c ≠ [] := by
  unfold upperChar
  split
  · simp
  · exact mapCase_ne_nil (by decide) c

theorem lowerChar_ne_nil (c : Char) : lowerChar c ≠ [] := by
  unfold lowerChar
  split
  · simp
  · exact mapCase_ne_nil (by decide) c

end Text

namespace Name

theorem capitalize_ne_empty {text : String} (nonempty : text ≠ "") : capitalize text ≠ "" := by
  unfold capitalize
  split
  · rename_i empty
    exact absurd (String.toList_eq_nil_iff.mp empty) nonempty
  · rename_i c rest _
    simpa using fun empty => absurd empty (Text.upperChar_ne_nil c)

/-- Once a letter is met something is kept. -/
theorem assemble_ne_nil {role : α → Role} {raise keep : α → List Char}
    (raised : ∀ x, raise x ≠ []) (kept : ∀ x, keep x ≠ []) (acc : List (List Char))
    (pending : Bool) (pieces : List α)
    (letter : acc.flatten ≠ [] ∨ ∃ x ∈ pieces, role x = .letter) :
    assemble role raise keep acc pending pieces ≠ [] := by
  induction pieces generalizing acc pending with
  | nil => simpa [assemble] using letter
  | cons x rest ih =>
    unfold assemble
    split
    · apply ih
      left
      cases pending <;> simp [raised, kept]
    · rename_i digit
      split
      · apply ih
        simpa [digit] using letter
      · apply ih
        left
        simp [kept]
    · rename_i symbol
      apply ih
      simpa [symbol] using letter

theorem camelize_ne_empty {text : String} (letter : ∃ c ∈ text.toList, roleOf c = .letter) :
    camelize text ≠ "" := by
  have kept : assemble roleOf (fun c => [c.toUpper]) (fun c => [c]) [] false text.toList ≠ [] :=
    assemble_ne_nil (by simp) (by simp) [] false _ (.inr letter)
  simpa [camelize] using kept

theorem mem_of_endsAfter {before : Char → Bool} {word : String} {reversed : List Char} {c : Char}
    (ends : endsAfter before word reversed = true) (member : c ∈ word.toList) : c ∈ reversed := by
  simp only [endsAfter, Bool.and_eq_true, List.isPrefixOf_iff_prefix] at ends
  exact ends.1.subset (by simpa using member)

/-- Every identifier-shaped key has the letter that ends it. -/
theorem mem_of_idShapedReversed {reversed : List Char} (shaped : idShapedReversed reversed = true) :
    'd' ∈ reversed := by
  simp only [idShapedReversed, Bool.or_eq_true, beq_iff_eq] at shaped
  rcases shaped with ((((rfl | rfl) | ends) | ends) | ends) | ends
  · decide
  · decide
  all_goals exact mem_of_endsAfter ends (by decide)

theorem mem_of_isIdShaped {key : String} (shaped : isIdShaped key = true) : 'd' ∈ key.toList := by
  rw [← List.mem_reverse]
  unfold isIdShaped at shaped
  split at shaped
  · rename_i rest reversed
    rw [reversed]
    rcases Bool.or_eq_true_iff.mp shaped with inner | whole
    · exact List.mem_cons_of_mem _ (mem_of_idShapedReversed inner)
    · exact mem_of_idShapedReversed whole
  · exact mem_of_idShapedReversed shaped

theorem brandOf_ne_empty {key owner : String} (shaped : isIdShaped key = true) :
    brandOf key owner ≠ "" := by
  unfold brandOf
  split
  · rename_i bare
    have raised : capitalize key ≠ "" := by
      rcases bare with rfl | rfl <;> exact capitalize_ne_empty (by decide)
    simp [raised]
  · exact capitalize_ne_empty (camelize_ne_empty ⟨'d', mem_of_isIdShaped shaped, by decide⟩)

end Name

theorem BrandRegistry.brandFor?_ne_empty {key owner brand : String}
    (found : brandFor? key owner = some brand) : brand ≠ "" := by
  unfold brandFor? at found
  split at found
  · rename_i shaped
    obtain rfl := Option.some.inj found
    exact Name.brandOf_ne_empty shaped
  · cases found

theorem Store.uniqueName_ne_empty (store : Store) (name : String) : store.uniqueName name ≠ "" := by
  have nonempty : (if name = "" then "Schema" else name) ≠ "" := by
    split
    · decide
    · assumption
  unfold uniqueName
  generalize (if name = "" then "Schema" else name) = base at nonempty
  simp only
  split
  · cases found : ((List.range' 2 (store.declarations.length + 1)).map
      fun i : Nat => s!"{base}{i}").find? fun c => !store.contains c with
    | none => exact nonempty
    | some candidate =>
      obtain ⟨i, _, rfl⟩ := List.mem_map.mp (List.mem_of_find?_eq_some found)
      simp
  · exact nonempty

end TypedClient
