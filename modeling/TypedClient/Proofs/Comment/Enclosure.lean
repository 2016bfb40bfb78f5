import TypedClient.Proofs.Braces.Lexing
import TypedClient.Proofs.Comment.Closing

/-! Comments enclose their descriptions. The only end mark of a comment is the one at its end, also
when the comment is indented; everything before it is read inside of the comment, and no character
of the description is lost but for the line breaks that indentation puts in order. -/
namespace TypedClient

namespace Text

theorem sublist_replacePair {a b : Char} {by_ : List Char} (kept : [a, b].Sublist by_)
    (text : List Char) : text.Sublist (replacePair a b by_ text) := by
  fun_induction replacePair a b by_ text with
  | case1 x y rest pair ih =>
    obtain ⟨rfl, rfl⟩ := pair
    exact kept.append ih
  | case2 x y rest _ ih => exact ih.cons_cons x
  | case3 text => exact .refl text

/-- The pieces of a text make up the text again, with more in their joints or not. -/
theorem sublist_intercalate_splitAt {c : Char} {separator : List Char} (kept : c ∈ separator)
    (text : List Char) : text.Sublist (separator.intercalate (splitAt c text)) := by
  induction text with
  | nil => exact List.nil_sublist _
  | cons x rest ih =>
    obtain ⟨piece, others, split, -⟩ := splitAt_pieces c rest
    rw [split] at ih
    rw [splitAt, split]
    split
    · next cut =>
      rw [List.intercalate_cons_cons, List.nil_append]
      exact ((List.singleton_sublist.mpr (cut ▸ kept)).append ih)
    · rw [Comment.intercalate_cons] at ih ⊢
      exact ih.cons_cons x

/-- Lines hold what no line break is. -/
theorem flatten_linesFrom (line text : List Char) :
    (linesFrom line text).flatten = line.reverse ++ text.filter fun c => !isLineBreak c := by
  fun_induction linesFrom line text with
  | case1 line empty => simpa using empty
  | case2 line _ => simp
  | case3 line rest ih => simp [ih, isLineBreak]
  | case4 line c rest _ ends ih => simp [ih, ends]
  | case5 line c rest _ inside ih => simp [ih, inside]

theorem sublist_indented (text : String) :
    (text.toList.filter fun c => !isLineBreak c).Sublist (indented text).toList := by
  have whole : (text.toList.filter fun c => !isLineBreak c) =
      (lines (text.toList ++ ['\n'])).flatten := by
    rw [lines, flatten_linesFrom]
    simp [isLineBreak]
  have padded (rest : List (List Char)) : rest.flatten.Sublist (rest.map fun line =>
      ['\n'] ++ if line.isEmpty then line else ' ' :: ' ' :: line).flatten := by
    induction rest with
    | nil => exact .refl []
    | cons line rest ih =>
      refine List.Sublist.append (.trans ?_ (List.sublist_append_right _ _)) ih
      split
      · exact .refl line
      · exact List.sublist_append_right [' ', ' '] line
  rw [whole, indented]
  cases lines (text.toList ++ ['\n']) with
  | nil => exact List.nil_sublist _
  | cons first rest =>
    simp only [Comment.intercalate_cons, List.map_map, String.toList_ofList]
    exact (List.sublist_append_right [' ', ' '] first).append (padded rest)

end Text

namespace Comment

open Braces

/-- The text is one comment, which opens with the start: its only end mark is the one at its end,
and what stands in between is read inside of the comment. -/
structure Encloses (start text : String) : Prop where
  only : ∀ before after, text = before ++ "*/" ++ after → after = "\n"
  inside : ∃ inner, text = start ++ inner ++ "*/\n" ∧
    ∀ part : String, part.toList <+: inner.toList → IsInside (Mode.code.run (start ++ part).toList)

/-- Behind text in which no comment ends, the end mark is the first one. -/
theorem eq_of_mark {front before after : List Char} (opened : Open front)
    (same : front ++ ['*', '/', '\n'] = before ++ ('*' :: '/' :: after)) : after = ['\n'] := by
  rcases List.append_eq_append_iff.mp same with ⟨more, rfl, tail⟩ | ⟨more, rfl, tail⟩
  · -- the mark would start behind the end mark's star
    rcases more with _ | ⟨a, _ | ⟨b, _ | ⟨c, more⟩⟩⟩ <;> simp_all
  · rcases more with _ | ⟨a, _ | ⟨b, more⟩⟩
    · simpa [eq_comm] using tail
    · simp at tail
    · obtain ⟨rfl, rfl, -⟩ : a = '*' ∧ b = '/' ∧ _ := by simpa [eq_comm] using tail
      have pair := List.IsChain.right_of_append opened
      exact absurd ⟨rfl, rfl⟩ (List.isChain_cons_cons.mp pair).1

/-- A comment is put together from a start that leads to a star, and a text on lines of its own in
which no comment ends. -/
theorem encloses {start text : String} {inner : List Char}
    (starts : Mode.code.run start.toList = .star) (plain : Open start.toList) (opened : Open inner)
    (next : inner.head? = some '\n')
    (shape : text.toList = start.toList ++ inner ++ ['*', '/', '\n']) : Encloses start text := by
  constructor
  case only =>
    rintro before after rfl
    have front : Open (start.toList ++ inner) := plain.append opened (.inl (by simp [next]))
    have same : start.toList ++ inner ++ ['*', '/', '\n'] =
        before.toList ++ ('*' :: '/' :: after.toList) := by
      rw [← shape]
      simp
    exact String.toList_inj.mp (eq_of_mark front same)
  case inside =>
    refine ⟨String.ofList inner, String.toList_inj.mp (by rw [shape]; simp), fun part within => ?_⟩
    rw [String.toList_ofList] at within
    have partOpen : Open part.toList := opened.part within.isInfix
    have first : part.toList.head? ≠ some '/' := by
      intro slash
      obtain ⟨rest, rfl⟩ := within
      simp [slash] at next
    have starred : IsInside .star := .inr rfl
    obtain ⟨after, stays, reads, -⟩ := reads_open partOpen starred fun _ => first
    have ended : Mode.star.run part.toList = after := by rwa [scan_eq] at reads
    rw [String.toList_append, Mode.run_append, starts, ended]
    exact stays

theorem encloses_block (description : String) : Encloses "/**" (block description) := by
  have inner : Open ("\n* ".toList ++ body description.toList ++ ['\n']) :=
    ((open_body _).after _ (by simp [Open]) (by simp)).append (.singleton '\n') (.inl (by simp))
  exact encloses (by decide) (by simp [Open]) inner rfl (by simp [block])

/-- Lines of which none ends a comment do not end one together. -/
theorem open_lines {lines : List (List Char)} (opened : ∀ line ∈ lines, Open line) :
    Open (lines.map ('\n' :: ·)).flatten ∧ (lines.map ('\n' :: ·)).flatten.head? ≠ some '/' := by
  induction lines with
  | nil => exact ⟨.nil, nofun⟩
  | cons line rest ih =>
    rw [List.forall_mem_cons] at opened
    obtain ⟨others, next⟩ := ih opened.2
    exact ⟨(opened.1.after ['\n'] (by simp [Open]) (by simp)).append others (.inl next),
      by simp⟩

theorem encloses_indented (description : String) :
    Encloses "  /**" (Text.indented (block description)) := by
  obtain ⟨lines, opened, shape⟩ := exists_indented description
  have inner : Open ((lines.map ('\n' :: ·)).flatten ++ "\n  ".toList) :=
    (open_lines opened).1.append (by simp [Open]) (.inl (by simp))
  refine encloses (by decide) (by simp [Open]) inner ?_ (by rw [shape]; simp)
  cases lines <;> rfl

theorem sublist_block (description : String) :
    description.toList.Sublist (block description).toList := by
  have marks : description.toList.Sublist (broken description.toList) :=
    Text.sublist_replacePair (.cons _ (.cons_cons _ (List.sublist_append_right [' '] _))) _
  have kept : description.toList.Sublist (body description.toList) :=
    marks.trans (Text.sublist_intercalate_splitAt List.mem_cons_self _)
  simp only [block, String.toList_append, String.toList_ofList]
  refine .trans ?_ (List.sublist_append_left _ _)
  exact kept.trans (List.sublist_append_right _ _)

/-- A comment is closed once. Whatever its description is, nothing of it stands outside of the
comment, and nothing of it is missing; both hold of the indented comment too, in which the breaks
between lines may be other ones. -/
theorem block_closes_once (description : String) :
    Encloses "/**" (block description) ∧
      description.toList.Sublist (block description).toList ∧
      Encloses "  /**" (Text.indented (block description)) ∧
      (description.toList.filter fun c => !Text.isLineBreak c).Sublist
        (Text.indented (block description)).toList :=
  ⟨encloses_block description, sublist_block description, encloses_indented description,
    ((sublist_block description).filter _).trans (Text.sublist_indented _)⟩

/-- The marks of a description are broken up, also those that replacement brings together. -/
example : block "**//\r/ */" = "/**\n* * * //\r/  * /\n*/\n" := by decide +kernel

end Comment

end TypedClient
