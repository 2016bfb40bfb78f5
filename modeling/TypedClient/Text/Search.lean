/-! Substrings: search, replacement and splitting, on lists of characters. -/
namespace TypedClient.Text

/-- A word occurs somewhere in a text. -/
def occurs (word : List Char) : List Char → Bool
  | [] => word.isEmpty
  | c :: rest => word.isPrefixOf (c :: rest) || occurs word rest

/-- Replaces the occurrences of a two-letter word, from left to right. -/
def replacePair (a b : Char) (by_ : List Char) : List Char → List Char
  | x :: y :: rest =>
    if x = a ∧ y = b then by_ ++ replacePair a b by_ rest else x :: replacePair a b by_ (y :: rest)
  | rest => rest

/-- Cuts a text at every occurrence of a character; the pieces are one more than the cuts. -/
def splitAt (c : Char) : List Char → List (List Char)
  | [] => [[]]
  | x :: rest =>
    if x = c then [] :: splitAt c rest
    else match splitAt c rest with
      | piece :: pieces => (x :: piece) :: pieces
      | [] => [[x]]

/-- The word occurs in the text. -/
def contains (text word : String) : Bool :=
  occurs word.toList text.toList

end TypedClient.Text
