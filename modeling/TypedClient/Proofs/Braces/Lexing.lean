import TypedClient.Proofs.Braces.Scanner

/-! The count of braces is that of a lexer. A brace counts just where it is read in code, and texts
are counted apart from what follows them just if they end there. -/
namespace TypedClient.Braces

namespace Mode

def run (mode : Mode) (text : List Char) : Mode :=
  text.foldl (fun mode c => mode.next c) mode

theorem run_append (mode : Mode) (first second : List Char) :
    mode.run (first ++ second) = (mode.run first).run second :=
  List.foldl_append

/-- The number of places where a character is read in code. -/
def readInCode (mode : Mode) (c : Char) (text : List Char) : Nat :=
  (List.range text.length).countP fun i => text[i]? = some c ∧ (mode.run (text.take i)).isCode

theorem readInCode_cons (mode : Mode) (c first : Char) (rest : List Char) :
    mode.readInCode c (first :: rest) =
      (if mode.isCode ∧ first = c then 1 else 0) + (mode.next first).readInCode c rest := by
  have later : (fun i => decide ((first :: rest)[i]? = some c ∧
        (mode.run ((first :: rest).take i)).isCode = true)) ∘ Nat.succ =
      fun i => decide (rest[i]? = some c ∧ ((mode.next first).run (rest.take i)).isCode = true) :=
    rfl
  rw [readInCode, List.length_cons, List.range_succ_eq_map, List.countP_cons, List.countP_map,
    later, ← readInCode, Nat.add_comm]
  simp [run, and_comm]

def Quoted : Mode → Prop
  | string quote | escaped quote => isQuote quote = true
  | _ => True

theorem quoted_ofCode (c : Char) : (ofCode c).Quoted := by
  unfold ofCode
  split
  · next quote => exact quote
  · split <;> trivial

theorem Quoted.next {mode : Mode} (quoted : mode.Quoted) (c : Char) : (mode.next c).Quoted := by
  cases mode with
  | code => exact quoted_ofCode c
  | slash =>
    rw [Mode.next]
    split
    · trivial
    · split
      · trivial
      · exact quoted_ofCode c
  | string quote =>
    rw [Mode.next]
    split
    · trivial
    · split <;> exact quoted
  | escaped quote => exact quoted
  | line | block =>
    rw [Mode.next]
    split <;> trivial
  | star =>
    rw [Mode.next]
    split
    · trivial
    · split <;> trivial

theorem Quoted.run {mode : Mode} (quoted : mode.Quoted) (text : List Char) :
    (mode.run text).Quoted := by
  induction text generalizing mode with
  | nil => exact quoted
  | cons c rest ih => exact ih (quoted.next c)

end Mode

/-- The scan ends where the automaton does, with the braces that it reads in code. -/
theorem scan_eq (mode : Mode) (text : List Char) :
    scan mode text =
      ⟨mode.run text, mode.readInCode '\x7b' text, mode.readInCode '\x7d' text⟩ := by
  induction text generalizing mode with
  | nil => rfl
  | cons c rest ih => rw [scan, ih, Mode.readInCode_cons, Mode.readInCode_cons]; rfl

theorem count_append (first second : String) :
    count (first ++ second) =
      count first + (scan (Mode.code.run first.toList) second.toList).counts := by
  rw [count_eq, count_eq, String.toList_append, scan_append, scan_eq .code first.toList]
  rfl

/-- In every mode but code some text is counted otherwise than in code. After a slash it takes a
second slash, everywhere else a brace will do. -/
theorem exists_counts_ne {mode : Mode} (other : mode ≠ .code) :
    ∃ text : String, (scan mode text.toList).counts ≠ (scan .code text.toList).counts := by
  cases mode with
  | code => exact absurd rfl other
  | slash => exact ⟨"/\x7b", by decide⟩
  | string quote | escaped quote => exact ⟨"\x7b", nofun⟩
  | line | block | star => exact ⟨"\x7b", by decide⟩

/-- The braces that count are those which the automaton reads in code. What follows a text is
counted for itself just if the automaton is in code after the text, and not just after a slash. -/
theorem count_lexes (text : String) :
    count text =
        (Mode.code.readInCode '\x7b' text.toList, Mode.code.readInCode '\x7d' text.toList) ∧
      (Mode.code.run text.toList).Quoted ∧
      (Mode.code.run text.toList = .code ↔
        ∀ more, count (text ++ more) = count text + count more) := by
  refine ⟨?_, (show Mode.code.Quoted from trivial).run _, ?_, ?_⟩
  · rw [count_eq, scan_eq]
    rfl
  · intro ended more
    rw [count_append, ended, ← count_eq]
  · intro additive
    by_contra other
    obtain ⟨more, differ⟩ := exists_counts_ne other
    have same := additive more
    rw [count_append, count_eq more] at same
    exact differ (add_left_cancel same)

/-- A quote in a comment opens no string, and the comment ends at its first end mark. -/
example : count "/*/ \x7b ' */ \x7d // \x7b\n\"\\\"\x7b\" \x7b" = (1, 1) := by
  rw [count_eq]
  decide

end TypedClient.Braces
