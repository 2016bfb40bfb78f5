import TypedClient.Proofs.Braces.Scanner
import TypedClient.Proofs.Text.Split
import TypedClient.Render.Layout

/-! Comments end where they should. The end mark is broken up in every description, and neither the
stars before its lines nor the indentation of its lines makes a new one. -/
namespace TypedClient

namespace Comment

/-- No comment ends in the text. -/
def Open (text : List Char) : Prop :=
  text.IsChain fun a b => ¬ (a = '*' ∧ b = '/')

theorem Open.append {first second : List Char} (before : Open first) (after : Open second)
    (apart : second.head? ≠ some '/' ∨ first.getLast? ≠ some '*') : Open (first ++ second) := by
  refine List.isChain_append.mpr ⟨before, after, ?_⟩
  rintro a last b head ⟨rfl, rfl⟩
  rcases apart with other | other
  · exact other head
  · exact other last

theorem Open.part {text piece : List Char} (opened : Open text) (within : piece <:+: text) :
    Open piece := by
  obtain ⟨before, after, rfl⟩ := within
  exact List.IsChain.right_of_append (List.IsChain.left_of_append opened)

/-- The word before a text does not end in a star. -/
theorem Open.after {text : List Char} (opened : Open text) (word : List Char) (plain : Open word)
    (ends : word.getLast? ≠ some '*') : Open (word ++ text) :=
  plain.append opened (.inr ends)

section Body

def broken (text : List Char) : List Char :=
  Text.replacePair '*' '/' [' ', '*', ' ', '/'] text

/-- A text starts as before, unless it starts with an end mark. -/
theorem head?_broken (c : Char) (rest : List Char) :
    (broken (c :: rest)).head? = some ' ' ∨ (broken (c :: rest)).head? = some c := by
  unfold broken
  cases rest with
  | nil => exact .inr rfl
  | cons d rest =>
    rw [Text.replacePair]
    split
    · exact .inl rfl
    · exact .inr rfl

theorem open_broken (text : List Char) : Open (broken text) := by
  unfold broken
  fun_induction Text.replacePair '*' '/' [' ', '*', ' ', '/'] text with
  | case1 x y rest mark ih => exact .after ih _ (by simp [Open]) (by simp)
  | case2 x y rest noMark ih =>
    refine List.isChain_cons.mpr ⟨?_, ih⟩
    rintro d head ⟨star, slash⟩
    rcases head?_broken y rest with first | first
    · cases first.symm.trans (head.trans (congrArg some slash))
    · cases first.symm.trans (head.trans (congrArg some slash))
      exact noMark ⟨star, rfl⟩
  | case3 text short =>
    cases text with
    | nil => exact .nil
    | cons x rest =>
      cases rest with
      | nil => exact .singleton x
      | cons y rest => exact (short x y rest rfl).elim

theorem open_intercalate {pieces : List (List Char)} (each : ∀ piece ∈ pieces, Open piece) :
    Open (['\n', '*', ' '].intercalate pieces) := by
  induction pieces with
  | nil => exact .nil
  | cons piece rest ih =>
    rw [List.forall_mem_cons] at each
    cases rest with
    | nil =>
      rw [List.intercalate_singleton]
      exact each.1
    | cons next others =>
      rw [List.intercalate_cons_cons, List.append_assoc]
      refine each.1.append (.after (ih each.2) _ (by simp [Open]) (by decide)) (.inl ?_)
      simp

theorem open_body (text : List Char) : Open (body text) := by
  obtain ⟨first, others, split, start, inside⟩ := Text.splitAt_pieces '\n' (broken text)
  change Open (['\n', '*', ' '].intercalate (Text.splitAt '\n' (broken text)))
  rw [split]
  apply open_intercalate
  rw [List.forall_mem_cons]
  refine ⟨(open_broken text).part start.isInfix, fun piece member => ?_⟩
  exact (open_broken text).part (inside piece member)

end Body

section Lines

open Text

theorem linesFrom_break {c : Char} {rest : List Char} (ends : isLineBreak c = true)
    (single : ∀ tail, c = '\r' → rest = '\n' :: tail → False) (line : List Char) :
    linesFrom line (c :: rest) = line.reverse :: linesFrom [] rest := by
  rw [linesFrom, if_pos ends]
  exact single

theorem linesFrom_inside {c : Char} (inside : isLineBreak c = false) (line rest : List Char) :
    linesFrom line (c :: rest) = linesFrom (c :: line) rest := by
  rw [linesFrom, if_neg (by simp [inside])]
  rintro tail rfl
  cases inside

/-- Text up to a line feed and text after it have lines of their own. -/
theorem linesFrom_append (line before after : List Char) :
    linesFrom line (before ++ '\n' :: after) =
      linesFrom line (before ++ ['\n']) ++ linesFrom [] after := by
  have ended (line rest : List Char) :
      linesFrom line ('\n' :: rest) = line.reverse :: linesFrom [] rest :=
    linesFrom_break rfl (by simp) line
  fun_induction linesFrom line before with
  | case1 line _ => simp [ended, linesFrom]
  | case2 line _ => simp [ended, linesFrom]
  | case3 line rest ih => simp [linesFrom, ih]
  | case4 line c rest single ends ih =>
    cases rest with
    | nil =>
      by_cases joined : c = '\r'
      · simp [joined, linesFrom]
      · simp [linesFrom_break ends (fun _ same => absurd same joined), ended, linesFrom]
    | cons d rest =>
      have apart {tail : List Char} : ∀ rest', c = '\r' → d :: rest ++ tail = '\n' :: rest' → False :=
        fun _ joined same => single rest joined (by rw [(List.cons.inj same).1])
      calc linesFrom line (c :: (d :: rest ++ '\n' :: after))
        _ = line.reverse :: linesFrom [] (d :: rest ++ '\n' :: after) := linesFrom_break ends apart _
        _ = line.reverse :: linesFrom [] (d :: rest ++ ['\n']) ++ linesFrom [] after := by
          rw [ih]
          rfl
        _ = linesFrom line (c :: (d :: rest ++ ['\n'])) ++ linesFrom [] after := by
          rw [linesFrom_break ends apart]
  | case5 line c rest _ inside ih =>
    have inside : isLineBreak c = false := by simpa using inside
    rw [List.cons_append, List.cons_append, linesFrom_inside inside, linesFrom_inside inside, ih]

theorem open_of_mem_linesFrom {line text piece : List Char} (opened : Open (line.reverse ++ text))
    (member : piece ∈ linesFrom line text) : Open piece := by
  have later {line rest : List Char} {c : Char} (opened : Open (line.reverse ++ c :: rest)) :
      Open rest :=
    (List.isChain_cons.mp opened.right_of_append).2
  fun_induction linesFrom line text with
  | case1 line empty => simp at member
  | case2 line some =>
    obtain rfl := List.mem_singleton.mp member
    exact opened.left_of_append
  | case3 line rest ih =>
    rcases List.mem_cons.mp member with rfl | member
    · exact opened.left_of_append
    · exact ih (List.isChain_cons.mp (later opened)).2 member
  | case4 line c rest _ ends ih =>
    rcases List.mem_cons.mp member with rfl | member
    · exact opened.left_of_append
    · exact ih (later opened) member
  | case5 line c rest _ inside ih =>
    refine ih ?_ member
    rwa [List.reverse_cons, List.append_assoc, List.singleton_append]

/-- The lines of a comment. What stands between its marks ends no comment. -/
theorem exists_lines (description : String) :
    ∃ inner : List (List Char), (∀ line ∈ inner, Open line) ∧
      lines ((block description).toList ++ ['\n']) =
        ['/', '*', '*'] :: (inner ++ [['*', '/'], []]) := by
  have shape : (block description).toList ++ ['\n'] =
      ['/', '*', '*'] ++ '\n' :: (('*' :: ' ' :: body description.toList) ++
        '\n' :: ['*', '/', '\n', '\n']) := by
    simp [block]
  have ended : Open (body description.toList ++ ['\n']) :=
    (open_body _).append (.singleton '\n') (.inl (by simp))
  have inner : Open (['*', ' '] ++ (body description.toList ++ ['\n'])) :=
    ended.after _ (by simp [Open]) (by simp)
  refine ⟨linesFrom [] (('*' :: ' ' :: body description.toList) ++ ['\n']), ?_, ?_⟩
  · exact fun line member => open_of_mem_linesFrom inner member
  · rw [lines, shape, linesFrom_append, linesFrom_append [] ('*' :: ' ' :: body description.toList)]
    rfl

end Lines

section Scanning

open Braces

def IsInside (mode : Mode) : Prop :=
  mode = .block ∨ mode = .star

/-- Text that does not lead out of a block comment. -/
def Inside (text : List Char) : Prop :=
  ∀ mode, IsInside mode → ∃ after, IsInside after ∧ Reads mode text after 0

theorem Inside.append {first second : List Char} (before : Inside first) (rest : Inside second) :
    Inside (first ++ second) := by
  intro mode inside
  obtain ⟨middle, stays, reads⟩ := before mode inside
  obtain ⟨after, remains, further⟩ := rest middle stays
  exact ⟨after, remains, reads.append further⟩

theorem Inside.flatten {texts : List (List Char)} (each : ∀ text ∈ texts, Inside text) :
    Inside texts.flatten := by
  induction texts with
  | nil => exact fun mode inside => ⟨mode, inside, .nil⟩
  | cons text rest ih =>
    rw [List.forall_mem_cons] at each
    exact each.1.append (ih each.2)

/-- Text in which no comment ends is read to its end, from a star unless it starts with a slash. -/
theorem reads_open {text : List Char} (opened : Open text) {mode : Mode} (inside : IsInside mode)
    (start : mode = .star → text.head? ≠ some '/') :
    ∃ after, IsInside after ∧ Reads mode text after 0 := by
  induction text generalizing mode with
  | nil => exact ⟨mode, inside, .nil⟩
  | cons c rest ih =>
    obtain ⟨next, later⟩ := List.isChain_cons.mp opened
    have outside : mode.isCode = false := by
      rcases inside with rfl | rfl <;> rfl
    have step : IsInside (mode.next c) ∧ (mode.next c = .star → c = '*') := by
      rcases inside with rfl | rfl
      · rw [Mode.next]
        by_cases star : c = '*' <;> simp [star, IsInside]
      · have slash : c ≠ '/' := fun same => start rfl (congrArg some same)
        rw [Mode.next, if_neg slash]
        by_cases star : c = '*' <;> simp [star, IsInside]
    obtain ⟨after, stays, reads⟩ := ih later step.1 fun star slash =>
      next '/' slash ⟨step.2 star, rfl⟩
    exact ⟨after, stays, .cons outside reads⟩

/-- A line feed leads away from a star, so the line after it cannot end the comment. -/
theorem inside_line {line : List Char} (opened : Open line) : Inside ('\n' :: line) := by
  intro mode inside
  have outside : mode.isCode = false ∧ mode.next '\n' = .block := by
    rcases inside with rfl | rfl <;> exact ⟨rfl, rfl⟩
  obtain ⟨after, stays, reads⟩ := reads_open opened (show IsInside .block from .inl rfl) nofun
  exact ⟨after, stays, .cons outside.1 (outside.2 ▸ reads)⟩

theorem whole_block (description : String) : Whole (block description) := by
  obtain ⟨after, stays, inner⟩ :=
    reads_open (open_body description.toList) (show IsInside .block from .inl rfl) nofun
  have opened : Reads .code "/**\n* ".toList .block 0 := by decide
  have closed : Reads after "\n*/\n".toList .code 0 := by
    rcases stays with rfl | rfl <;> decide
  have shape : (block description).toList =
      "/**\n* ".toList ++ body description.toList ++ "\n*/\n".toList := by
    simp [block]
  rw [Whole, shape]
  exact (opened.append inner).append closed

theorem intercalate_cons (separator first : List Char) (rest : List (List Char)) :
    separator.intercalate (first :: rest) = first ++ (rest.map (separator ++ ·)).flatten := by
  induction rest generalizing first with
  | nil => simp
  | cons next others ih => rw [List.intercalate_cons_cons, ih]; simp

/-- An indented comment, line by line. Its lines end no comment. -/
theorem exists_indented (description : String) :
    ∃ lines : List (List Char), (∀ line ∈ lines, Open line) ∧
      (Text.indented (block description)).toList =
        "  /**".toList ++ (lines.map ('\n' :: ·)).flatten ++ "\n  */\n".toList := by
  obtain ⟨inner, opened, split⟩ := exists_lines description
  let pad (line : List Char) := if line.isEmpty then line else ' ' :: ' ' :: line
  refine ⟨inner.map pad, fun line member => ?_, ?_⟩
  · obtain ⟨line, listed, rfl⟩ := List.mem_map.mp member
    simp only [pad]
    split
    · exact opened line listed
    · exact (opened line listed).after [' ', ' '] (by simp [Open]) (by simp)
  · simp [Text.indented, split, intercalate_cons, pad, Function.comp_def]

/-- An indented comment is a comment. -/
theorem whole_indented (description : String) : Whole (Text.indented (block description)) := by
  obtain ⟨lines, opened, shape⟩ := exists_indented description
  have inner : Inside (lines.map ('\n' :: ·)).flatten := by
    refine .flatten fun text member => ?_
    obtain ⟨line, listed, rfl⟩ := List.mem_map.mp member
    exact inside_line (opened line listed)
  obtain ⟨after, stays, reads⟩ := inner .star (.inr rfl)
  have start : Reads .code "  /**".toList .star 0 := by decide
  have closed : Reads after "\n  */\n".toList .code 0 := by
    rcases stays with rfl | rfl <;> decide
  rw [Whole, shape]
  exact (start.append reads).append closed

end Scanning

end Comment

end TypedClient
