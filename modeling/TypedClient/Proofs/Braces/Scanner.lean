import Mathlib
import TypedClient.Braces

/-! The count of braces as an automaton that reads one character at a time. What a text adds to the
count depends on the mode in which it is read, so texts are put together along modes. -/
namespace TypedClient.Braces

inductive Mode where
  | code
  /-- Just after a slash in code. -/
  | slash
  | string (quote : Char)
  /-- Just after a backslash in a string. -/
  | escaped (quote : Char)
  | line
  | block
  /-- Just after a star in a block comment. -/
  | star
deriving DecidableEq, Repr

namespace Mode

def ofCode (c : Char) : Mode :=
  if isQuote c then .string c else if c = '/' then .slash else .code

def next (c : Char) : Mode → Mode
  | code => ofCode c
  | slash => if c = '/' then line else if c = '*' then block else ofCode c
  | string quote => if c = quote then code else if c = '\\' then escaped quote else string quote
  | escaped quote => string quote
  | line => if c = '\n' then code else line
  | block => if c = '*' then star else block
  | star => if c = '/' then code else if c = '*' then star else block

def isCode : Mode → Bool
  | code | slash => true
  | _ => false

end Mode

/-- Where reading a text ends, with the braces that count. -/
structure Scan where
  mode : Mode
  opening : Nat := 0
  closing : Nat := 0
deriving DecidableEq, Repr

/-- One step of the automaton before the others. -/
def Scan.after (mode : Mode) (c : Char) (rest : Scan) : Scan where
  mode := rest.mode
  opening := (if mode.isCode ∧ c = '\x7b' then 1 else 0) + rest.opening
  closing := (if mode.isCode ∧ c = '\x7d' then 1 else 0) + rest.closing

def scan (mode : Mode) : List Char → Scan
  | [] => ⟨mode, 0, 0⟩
  | c :: rest => .after mode c (scan (mode.next c) rest)

theorem scan_append (mode : Mode) (first second : List Char) :
    scan mode (first ++ second) =
      let before := scan mode first
      let after := scan before.mode second
      ⟨after.mode, before.opening + after.opening, before.closing + after.closing⟩ := by
  induction first generalizing mode with
  | nil => simp [scan]
  | cons c rest ih => simp [scan, Scan.after, ih, Nat.add_assoc]

section Count

def Scan.counts (result : Scan) : Nat × Nat :=
  (result.opening, result.closing)

theorem counts_after {mode : Mode} {c : Char} {rest : Scan} (outside : mode.isCode = false) :
    (Scan.after mode c rest).counts = rest.counts := by
  simp [Scan.after, Scan.counts, outside]

theorem counts_string (quote : Char) (text : List Char) :
    (scan (.string quote) text).counts = (scan .code (afterString quote text)).counts := by
  fun_induction afterString quote text with
  | case1 => rfl
  | case2 rest => rw [scan, counts_after rfl, Mode.next, if_pos rfl]
  | case3 other => simp [scan, Scan.after, Scan.counts, Mode.next, Mode.isCode]
  | case4 other next rest ih =>
    rw [scan, counts_after rfl, Mode.next, if_neg (by assumption), if_pos rfl, scan,
      counts_after rfl]
    exact ih
  | case5 c rest other plain ih =>
    rw [scan, counts_after rfl, Mode.next, if_neg other, if_neg plain]
    exact ih

theorem counts_line (text : List Char) :
    (scan .line text).counts = (scan .code (afterLine text)).counts := by
  unfold afterLine
  induction text with
  | nil => rfl
  | cons c rest ih =>
    rw [scan, counts_after rfl, Mode.next]
    by_cases ended : c = '\n'
    · simp [ended]
    · simpa [ended] using ih

theorem afterBlock_other {c : Char} (other : c ≠ '*') (rest : List Char) :
    afterBlock (c :: rest) = afterBlock rest := by
  rw [afterBlock]
  intro tail same
  exact absurd same other

theorem afterBlock_star {c : Char} (open_ : c ≠ '/') (rest : List Char) :
    afterBlock ('*' :: c :: rest) = afterBlock (c :: rest) := by
  rw [afterBlock]
  intro tail _ same
  exact absurd (List.cons.inj same).1 open_

/-- After a star the comment may end at once. -/
theorem counts_block (text : List Char) :
    (scan .block text).counts = (scan .code (afterBlock text)).counts ∧
      (scan .star text).counts = (scan .code (afterBlock ('*' :: text))).counts := by
  induction text with
  | nil => exact ⟨rfl, rfl⟩
  | cons c rest ih =>
    rw [scan, scan, counts_after rfl, counts_after rfl, Mode.next, Mode.next]
    by_cases star : c = '*'
    · rw [star, if_pos rfl, if_neg (by decide), afterBlock_star (by decide)]
      exact ⟨ih.2, ih.2⟩
    by_cases slash : c = '/'
    · rw [if_neg star, if_pos slash, slash, afterBlock_other (by decide), afterBlock]
      exact ⟨ih.1, rfl⟩
    · rw [if_neg star, if_neg slash, afterBlock_star slash, afterBlock_other star]
      exact ⟨ih.1, ih.1⟩

/-- A slash that opens no comment is a character like others. -/
theorem counts_slash {text : List Char} (line : ∀ rest, text ≠ '/' :: rest)
    (block : ∀ rest, text ≠ '*' :: rest) :
    (scan .slash text).counts = (scan .code text).counts := by
  cases text with
  | nil => rfl
  | cons c rest =>
    have noLine : c ≠ '/' := fun same => line rest (same ▸ rfl)
    have noBlock : c ≠ '*' := fun same => block rest (same ▸ rfl)
    simp [scan, Scan.after, Scan.counts, Mode.next, Mode.isCode, noLine, noBlock]

theorem countFrom_eq (opening closing : Nat) (text : List Char) :
    countFrom opening closing text =
      (opening + (scan .code text).counts.1, closing + (scan .code text).counts.2) := by
  fun_induction countFrom opening closing text with
  | case1 => rfl
  | case2 opening closing rest ih =>
    rw [ih, ← counts_line]
    simp [scan, Scan.after, Scan.counts, Mode.next, Mode.isCode, Mode.ofCode, isQuote]
  | case3 opening closing rest ih =>
    rw [ih, ← (counts_block rest).1]
    simp [scan, Scan.after, Scan.counts, Mode.next, Mode.isCode, Mode.ofCode, isQuote]
  | case4 opening closing c rest _ _ quote ih =>
    have brace : c ≠ '\x7b' ∧ c ≠ '\x7d' := by
      constructor <;> rintro rfl <;> cases quote
    rw [ih, ← counts_string]
    simp [scan, Scan.after, Scan.counts, Mode.next, Mode.ofCode, quote, brace]
  | case5 opening closing rest _ _ plain ih =>
    rw [ih]
    simp [scan, Scan.after, Scan.counts, Mode.next, Mode.ofCode, Mode.isCode, isQuote]
    omega
  | case6 opening closing rest _ _ plain _ ih =>
    rw [ih]
    simp [scan, Scan.after, Scan.counts, Mode.next, Mode.ofCode, Mode.isCode, isQuote]
    omega
  | case7 opening closing c rest line block plain notOpening notClosing ih =>
    have step : (scan .code (c :: rest)).counts = (scan (Mode.ofCode c) rest).counts := by
      simp [scan, Scan.after, Scan.counts, Mode.next, notOpening, notClosing]
    rw [ih, step, Mode.ofCode, if_neg plain]
    by_cases slash : c = '/'
    · rw [if_pos slash, counts_slash (fun tail => line tail slash) (fun tail => block tail slash)]
    · rw [if_neg slash]

theorem count_eq (text : String) : count text = (scan .code text.toList).counts := by
  rw [count, countFrom_eq, Nat.zero_add, Nat.zero_add]

end Count

section Reading

/-- Reading a text leads from one mode to another and so many braces up. -/
def Reads (mode : Mode) (text : List Char) (after : Mode) (depth : Int) : Prop :=
  (scan mode text).mode = after ∧
    ((scan mode text).opening : Int) - (scan mode text).closing = depth

instance (mode : Mode) (text : List Char) (after : Mode) (depth : Int) :
    Decidable (Reads mode text after depth) :=
  inferInstanceAs (Decidable (_ ∧ _))

variable {mode middle after : Mode} {first second : List Char} {depth further : Int}

theorem Reads.nil : Reads mode [] mode 0 :=
  ⟨rfl, rfl⟩

/-- A character that is not in code only changes the mode. -/
theorem Reads.cons {c : Char} (outside : mode.isCode = false)
    (rest : Reads (mode.next c) second after depth) : Reads mode (c :: second) after depth := by
  obtain ⟨ends, up⟩ := rest
  simp only [Reads, scan, Scan.after, outside]
  exact ⟨ends, by simpa using up⟩

theorem Reads.append (before : Reads mode first middle depth)
    (rest : Reads middle second after further) :
    Reads mode (first ++ second) after (depth + further) := by
  obtain ⟨rfl, up⟩ := before
  obtain ⟨rfl, more⟩ := rest
  simp only [Reads, scan_append, true_and]
  push_cast
  omega

theorem Reads.append_string {first second : String} (before : Reads mode first.toList middle depth)
    (rest : Reads middle second.toList after further) :
    Reads mode (first ++ second).toList after (depth + further) := by
  rw [String.toList_append]
  exact before.append rest

/-- Texts that each lead back to their mode and depth do so together. -/
theorem Reads.flatten {texts : List (List Char)} (each : ∀ text ∈ texts, Reads mode text mode 0) :
    Reads mode texts.flatten mode 0 := by
  induction texts with
  | nil => exact .nil
  | cons text rest ih =>
    rw [List.forall_mem_cons] at each
    exact each.1.append (ih each.2)

/-- Characters that mean nothing in code, and end no line. -/
def isPlain (c : Char) : Bool :=
  !isQuote c && c ≠ '/' && c ≠ '\x7b' && c ≠ '\x7d' && c ≠ '\n'

theorem reads_plain {text : List Char} (plain : ∀ c ∈ text, isPlain c = true) :
    Reads .code text .code 0 := by
  rw [← List.flatMap_singleton' text]
  refine Reads.flatten fun piece member => ?_
  obtain ⟨c, inside, rfl⟩ := List.mem_map.mp member
  have plain : isQuote c = false ∧ c ≠ '/' ∧ c ≠ '\x7b' ∧ c ≠ '\x7d' ∧ c ≠ '\n' := by
    simpa [isPlain, and_assoc] using plain c inside
  simp [Reads, scan, Scan.after, Mode.next, Mode.ofCode, plain]

/-- Nothing ends a string but its quote, unless a backslash comes before. -/
theorem reads_inside {quote : Char} {text : List Char}
    (inside : ∀ c ∈ text, c ≠ quote ∧ c ≠ '\\') : Reads (.string quote) text (.string quote) 0 := by
  rw [← List.flatMap_singleton' text]
  refine Reads.flatten fun piece member => ?_
  obtain ⟨c, listed, rfl⟩ := List.mem_map.mp member
  simp [Reads, scan, Scan.after, Mode.next, Mode.isCode, inside c listed]

/-- Text that stands for itself: it starts and ends in code, with as many braces of either sort. -/
def Whole (text : String) : Prop :=
  Reads .code text.toList .code 0

instance (text : String) : Decidable (Whole text) :=
  inferInstanceAs (Decidable (Reads ..))

theorem intercalate_of_append {P : String → Prop} (empty : P "")
    (append : ∀ {first second}, P first → P second → P (first ++ second)) {separator : String}
    {texts : List String} (between : P separator) (each : ∀ text ∈ texts, P text) :
    P (separator.intercalate texts) := by
  induction texts with
  | nil => exact empty
  | cons text rest ih =>
    rw [List.forall_mem_cons] at each
    cases rest with
    | nil =>
      rw [String.intercalate_singleton]
      exact each.1
    | cons next others =>
      rw [String.intercalate_cons_cons]
      exact append (append each.1 between) (ih each.2)

theorem Whole.append {first second : String} (before : Whole first) (rest : Whole second) :
    Whole (first ++ second) :=
  Reads.append_string before rest

theorem Whole.count {text : String} (whole : Whole text) : ∃ n, Braces.count text = (n, n) := by
  refine ⟨(scan .code text.toList).opening, ?_⟩
  have level := whole.2
  have same : (scan .code text.toList).closing = (scan .code text.toList).opening := by omega
  rw [count_eq, Scan.counts, same]

def Inline (text : String) : Prop :=
  Whole text ∧ '\n' ∉ text.toList

instance (text : String) : Decidable (Inline text) :=
  inferInstanceAs (Decidable (_ ∧ _))

namespace Inline

theorem append {first second : String} (before : Inline first) (rest : Inline second) :
    Inline (first ++ second) := by
  refine ⟨before.1.append rest.1, ?_⟩
  rw [String.toList_append, List.mem_append, not_or]
  exact ⟨before.2, rest.2⟩

theorem of_plain {text : String} (plain : ∀ c ∈ text.toList, isPlain c = true) : Inline text := by
  refine ⟨reads_plain plain, fun inside => ?_⟩
  exact absurd (plain '\n' inside) (by decide)

theorem intercalate {separator : String} {texts : List String} (between : Inline separator)
    (each : ∀ text ∈ texts, Inline text) : Inline (separator.intercalate texts) :=
  intercalate_of_append (of_plain (by simp)) append between each

/-- Between braces, with blanks or without. -/
theorem braced {text left right : String} (inner : Inline text)
    (opened : Reads .code left.toList .code 1 ∧ '\n' ∉ left.toList)
    (closed : Reads .code right.toList .code (-1) ∧ '\n' ∉ right.toList) :
    Inline (left ++ text ++ right) := by
  constructor
  · exact (opened.1.append_string inner.1).append_string closed.1
  · rw [String.toList_append, String.toList_append, List.mem_append, List.mem_append]
    rintro ((inside | inside) | inside)
    · exact opened.2 inside
    · exact inner.2 inside
    · exact closed.2 inside

end Inline

end Reading

end TypedClient.Braces
