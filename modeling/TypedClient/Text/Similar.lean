/-! How alike two words are: the share of their characters that lie in common blocks. The longest
block of characters that both words have is taken first, then the longest ones on either side of
it. -/
namespace TypedClient.Text

/-- The number of characters with which both texts start. -/
def commonStart : List Char → List Char → Nat
  | a :: as, b :: bs => if a = b then commonStart as bs + 1 else 0
  | _, _ => 0

/-- A block of characters that two texts have, by its place in each. -/
structure Block where
  first : Nat
  second : Nat
  size : Nat

/-- The longest common block; of several, the earliest in the first text, then in the second. -/
def longestBlock (a b : List Char) : Block :=
  let places := (List.range a.length).flatMap fun i => (List.range b.length).map fun j => (i, j)
  places.foldl
    (fun best p =>
      let size := commonStart (a.drop p.1) (b.drop p.2)
      if best.size < size then ⟨p.1, p.2, size⟩ else best)
    ⟨0, 0, 0⟩

/-- The number of characters of two texts that lie in common blocks. The fuel bounds the number of
blocks. -/
def matched : Nat → List Char → List Char → Nat
  | 0, _, _ => 0
  | fuel + 1, a, b =>
    let block := longestBlock a b
    if block.size = 0 then 0
    else block.size + matched fuel (a.take block.first) (b.take block.second) +
      matched fuel (a.drop (block.first + block.size)) (b.drop (block.second + block.size))

/-- A known word, with the characters that match a given one and those of both. -/
structure Likeness where
  word : String
  common : Nat
  total : Nat

namespace Likeness

def ofWords (known given : String) : Likeness :=
  ⟨known, matched known.length known.toList given.toList, known.length + given.length⟩

/-- Six tenths of all characters match. -/
def isClose (x : Likeness) : Bool :=
  3 * x.total ≤ 10 * x.common

/-- The more alike first; of equally alike words, the later in the order of words. -/
def before (x y : Likeness) : Bool :=
  let (m, n) := (x.common * y.total, y.common * x.total)
  n < m || (m == n && y.word ≤ x.word)

end Likeness

/-- The known words that are like a given one, at most three, in the order of words. -/
def suggestions (known : List String) (given : String) : List String :=
  let close := (known.map fun word => Likeness.ofWords word given).filter (·.isClose)
  (((close.mergeSort Likeness.before).take 3).map (·.word)).mergeSort fun a b => a ≤ b

end TypedClient.Text
