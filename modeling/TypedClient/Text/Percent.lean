/-! Percent escapes. A run of ASCII text stands for the octets of its characters and escapes,
read as UTF-8; every ill-formed stretch of octets becomes one replacement character. -/
namespace TypedClient.Text

/-- What is still owed to a character begun: the bits so far, the number of octets to come and
the range of the next one. -/
structure Owed where
  bits : Nat
  left : Nat
  least : Nat
  most : Nat

def replacement : Char := Char.ofNat 0xFFFD

/-- Starts a character with its first octet: a whole character, or what is owed to it. -/
def beginChar (b : Nat) : Char ⊕ Owed :=
  if b < 0x80 then .inl (Char.ofNat b)
  else if 0xC2 ≤ b ∧ b ≤ 0xDF then .inr ⟨b - 0xC0, 1, 0x80, 0xBF⟩
  else if b = 0xE0 then .inr ⟨0, 2, 0xA0, 0xBF⟩
  else if b = 0xED then .inr ⟨0xD, 2, 0x80, 0x9F⟩
  else if 0xE1 ≤ b ∧ b ≤ 0xEF then .inr ⟨b - 0xE0, 2, 0x80, 0xBF⟩
  else if b = 0xF0 then .inr ⟨0, 3, 0x90, 0xBF⟩
  else if b = 0xF4 then .inr ⟨4, 3, 0x80, 0x8F⟩
  else if 0xF1 ≤ b ∧ b ≤ 0xF3 then .inr ⟨b - 0xF0, 3, 0x80, 0xBF⟩
  else .inl replacement

/-- Reads octets as UTF-8 from the middle of a character. -/
def decodeFrom : Option Owed → List Nat → List Char
  | none, [] => []
  | some _, [] => [replacement]
  | none, b :: rest =>
    match beginChar b with
    | .inl c => c :: decodeFrom none rest
    | .inr owed => decodeFrom (some owed) rest
  | some owed, b :: rest =>
    if owed.least ≤ b ∧ b ≤ owed.most then
      let bits := owed.bits * 64 + (b - 0x80)
      if owed.left ≤ 1 then Char.ofNat bits :: decodeFrom none rest
      else decodeFrom (some ⟨bits, owed.left - 1, 0x80, 0xBF⟩) rest
    else
      replacement :: match beginChar b with
        | .inl c => c :: decodeFrom none rest
        | .inr next => decodeFrom (some next) rest

def decodeUtf8 (octets : List Nat) : List Char :=
  decodeFrom none octets

def hexValue? (c : Char) : Option Nat :=
  if '0' ≤ c ∧ c ≤ '9' then some (c.toNat - '0'.toNat)
  else if 'a' ≤ c ∧ c ≤ 'f' then some (c.toNat - 'a'.toNat + 10)
  else if 'A' ≤ c ∧ c ≤ 'F' then some (c.toNat - 'A'.toNat + 10)
  else none

/-- The octets of ASCII text with its escapes; a percent sign that starts none stands for
itself. -/
def escapedOctets : List Char → List Nat
  | '%' :: a :: b :: rest =>
    match hexValue? a, hexValue? b with
    | some x, some y => (16 * x + y) :: escapedOctets rest
    | _, _ => '%'.toNat :: escapedOctets (a :: b :: rest)
  | c :: rest => c.toNat :: escapedOctets rest
  | [] => []
termination_by text => text.length

/-- Decodes text whose ASCII run so far is given, last character first. -/
def percentDecodeFrom (run : List Char) : List Char → List Char
  | [] => decodeUtf8 (escapedOctets run.reverse)
  | c :: rest =>
    if c.toNat < 0x80 then percentDecodeFrom (c :: run) rest
    else decodeUtf8 (escapedOctets run.reverse) ++ c :: percentDecodeFrom [] rest

def percentDecode (text : List Char) : List Char :=
  percentDecodeFrom [] text

end TypedClient.Text
