import Mathlib
import TypedClient.Text.Search

/-! Replacement and cutting. Replacement passes over what is no part of the word. The pieces of a
cut lie in the text and do not hold the character, and a text that is put together of such pieces
is cut back into them. -/
namespace TypedClient.Text

theorem replacePair_other {a b x : Char} (other : x ≠ a) (by_ rest : List Char) :
    replacePair a b by_ (x :: rest) = x :: replacePair a b by_ rest := by
  cases rest with
  | nil => rfl
  | cons y rest => simp [replacePair, other]

theorem not_mem_splitAt {c : Char} {text piece : List Char} (cut : piece ∈ splitAt c text) :
    c ∉ piece := by
  induction text generalizing piece with
  | nil => simp_all [splitAt]
  | cons x rest ih =>
    unfold splitAt at cut
    split at cut
    · rcases List.mem_cons.mp cut with rfl | later
      · simp
      · exact ih later
    · next other =>
      split at cut
      · next first pieces pieced =>
        rcases List.mem_cons.mp cut with rfl | later
        · have inner := @ih first (by simp [pieced])
          simp [inner, Ne.symm other]
        · exact ih (by simp [pieced, later])
      · obtain rfl := List.mem_singleton.mp cut
        simpa using Ne.symm other

theorem splitAt_of_not_mem {c : Char} {text : List Char} (whole : c ∉ text) :
    splitAt c text = [text] := by
  induction text with
  | nil => rfl
  | cons x rest ih =>
    obtain ⟨other, inner⟩ := not_or.mp (List.mem_cons.not.mp whole)
    rw [splitAt, if_neg (Ne.symm other), ih inner]

theorem splitAt_append {c : Char} {piece : List Char} (apart : c ∉ piece) (rest : List Char) :
    splitAt c (piece ++ c :: rest) = piece :: splitAt c rest := by
  induction piece with
  | nil => simp [splitAt]
  | cons x piece ih =>
    rw [List.mem_cons, not_or] at apart
    simp [splitAt, Ne.symm apart.1, ih apart.2]

/-- The first piece of a text is where it starts, and the others are inside. -/
theorem splitAt_pieces (c : Char) (text : List Char) :
    ∃ first others, splitAt c text = first :: others ∧ first <+: text ∧
      ∀ piece ∈ others, piece <:+: text := by
  induction text with
  | nil => exact ⟨[], [], rfl, List.prefix_rfl, by simp⟩
  | cons x rest ih =>
    obtain ⟨first, others, split, start, inside⟩ := ih
    have within {piece : List Char} (part : piece <:+: rest) : piece <:+: x :: rest :=
      part.trans (List.suffix_cons x rest).isInfix
    rw [splitAt, split]
    by_cases cut : x = c
    · rw [if_pos cut]
      refine ⟨[], first :: others, rfl, List.nil_prefix, ?_⟩
      rw [List.forall_mem_cons]
      exact ⟨within start.isInfix, fun piece member => within (inside piece member)⟩
    · rw [if_neg cut]
      exact ⟨x :: first, others, rfl, List.cons_prefix_cons.mpr ⟨rfl, start⟩,
        fun piece member => within (inside piece member)⟩

end TypedClient.Text
