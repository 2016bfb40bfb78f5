import TypedClient.Fault
import TypedClient.Text.Blank

/-! A check of generated text: it is not blank, and outside strings and comments it has as many
opening as closing braces. -/
namespace TypedClient.Braces

def isQuote (c : Char) : Bool :=
  c == '"' || c == '\x27' || c == '\x60'

/-- What follows a string, after its opening quote. A backslash takes the next character. -/
def afterString (quote : Char) : List Char → List Char
  | [] => []
  | c :: rest =>
    if c = quote then rest
    else if c = '\\' then
      match rest with
      | [] => []
      | _ :: rest => afterString quote rest
    else afterString quote rest

/-- What follows a line comment. -/
def afterLine (text : List Char) : List Char :=
  (text.dropWhile (· != '\n')).drop 1

/-- What follows a block comment, after its opening mark. -/
def afterBlock : List Char → List Char
  | '*' :: '/' :: rest => rest
  | _ :: rest => afterBlock rest
  | [] => []

theorem afterString_length_le (quote : Char) (text : List Char) :
    (afterString quote text).length ≤ text.length := by
  fun_induction afterString quote text <;> simp_all <;> omega

theorem afterLine_length_le (text : List Char) : (afterLine text).length ≤ text.length := by
  have := (List.dropWhile_sublist (l := text) (· != '\n')).length_le
  simp only [afterLine, List.length_drop]
  omega

theorem afterBlock_length_le (text : List Char) : (afterBlock text).length ≤ text.length := by
  fun_induction afterBlock text <;> simp_all <;> omega

/-- The opening and closing braces of a text, added to those before. -/
def countFrom (opening closing : Nat) : List Char → Nat × Nat
  | [] => (opening, closing)
  | '/' :: '/' :: rest => countFrom opening closing (afterLine rest)
  | '/' :: '*' :: rest => countFrom opening closing (afterBlock rest)
  | c :: rest =>
    if isQuote c then countFrom opening closing (afterString c rest)
    else if c = '\x7b' then countFrom (opening + 1) closing rest
    else if c = '\x7d' then countFrom opening (closing + 1) rest
    else countFrom opening closing rest
termination_by text => text.length
decreasing_by
  all_goals simp_wf
  · have := afterLine_length_le rest; omega
  · have := afterBlock_length_le rest; omega
  · have := afterString_length_le c rest; omega

/-- The opening and closing braces outside strings and comments. -/
def count (text : String) : Nat × Nat :=
  countFrom 0 0 text.toList

/-- Why generated text is refused, if it is. -/
def problem? (text : String) : Option Malformed :=
  if Text.stripped text = "" then some .empty
  else
    let (opening, closing) := count text
    if opening = closing then none else some (.unbalanced opening closing)

/-- Refuses text that cannot be a module. -/
def validate (text label : String) : Except Fault Unit :=
  match problem? text with
  | some cause => .error (.malformed label cause)
  | none => .ok ()

end TypedClient.Braces
