import Mathlib
import TypedClient.Text.Percent

/-! Percent escapes undone. Text may be written with any of its characters escaped, as octets in
hexadecimal digits, as long as the percent signs are; decoding gives it back. -/
namespace TypedClient.Text

def utf8 (c : Char) : List Nat :=
  (String.utf8EncodeChar c).map UInt8.toNat

theorem toNat_range (c : Char) : c.toNat < 0xD800 ∨ 0xDFFF < c.toNat ∧ c.toNat < 0x110000 :=
  c.valid

theorem utf8_eq (c : Char) : utf8 c =
    if c.toNat < 0x80 then [c.toNat]
    else if c.toNat < 0x800 then [0xC0 + c.toNat / 64, 0x80 + c.toNat % 64]
    else if c.toNat < 0x10000 then
      [0xE0 + c.toNat / 4096, 0x80 + c.toNat / 64 % 64, 0x80 + c.toNat % 64]
    else
      [0xF0 + c.toNat / 262144, 0x80 + c.toNat / 4096 % 64, 0x80 + c.toNat / 64 % 64,
        0x80 + c.toNat % 64] := by
  have range := toNat_range c
  have value : c.val.toNat = c.toNat := rfl
  simp only [utf8, String.utf8EncodeChar, value]
  by_cases one : c.toNat < 0x80
  · rw [if_pos (by omega), if_pos one]
    simp only [List.map_cons, List.map_nil, UInt8.toNat_ofNat', List.cons.injEq, and_true]
    omega
  rw [if_neg (by omega), if_neg one]
  by_cases two : c.toNat < 0x800
  · rw [if_pos (by omega), if_pos two]
    simp only [List.map_cons, List.map_nil, UInt8.toNat_ofNat', List.cons.injEq, and_true]
    omega
  rw [if_neg (by omega), if_neg two]
  by_cases three : c.toNat < 0x10000
  · rw [if_pos (by omega), if_pos three]
    simp only [List.map_cons, List.map_nil, UInt8.toNat_ofNat', List.cons.injEq, and_true]
    omega
  · rw [if_neg (by omega), if_neg three]
    simp only [List.map_cons, List.map_nil, UInt8.toNat_ofNat', List.cons.injEq, and_true]
    omega

theorem decodeFrom_last {bits least most m : Nat} (low : least ≤ 0x80 + m)
    (high : 0x80 + m ≤ most) (rest : List Nat) :
    decodeFrom (some ⟨bits, 1, least, most⟩) ((0x80 + m) :: rest) =
      Char.ofNat (bits * 64 + m) :: decodeFrom none rest := by
  simp [decodeFrom, low, high]

theorem decodeFrom_next {bits left least most m : Nat} (low : least ≤ 0x80 + m)
    (high : 0x80 + m ≤ most) (rest : List Nat) :
    decodeFrom (some ⟨bits, left + 2, least, most⟩) ((0x80 + m) :: rest) =
      decodeFrom (some ⟨bits * 64 + m, left + 1, 0x80, 0xBF⟩) rest := by
  simp [decodeFrom, low, high]

theorem decodeFrom_begin {b : Nat} {owed : Owed} (begun : beginChar b = .inr owed)
    (rest : List Nat) : decodeFrom none (b :: rest) = decodeFrom (some owed) rest := by
  simp [decodeFrom, begun]

theorem beginChar_two {m : Nat} (low : 2 ≤ m) (high : m < 32) :
    beginChar (0xC0 + m) = .inr ⟨m, 1, 0x80, 0xBF⟩ := by
  interval_cases m <;> rfl

theorem beginChar_three {m : Nat} (high : m < 16) : beginChar (0xE0 + m) =
    .inr ⟨m, 2, if m = 0 then 0xA0 else 0x80, if m = 13 then 0x9F else 0xBF⟩ := by
  interval_cases m <;> rfl

theorem beginChar_four {m : Nat} (high : m < 5) : beginChar (0xF0 + m) =
    .inr ⟨m, 3, if m = 0 then 0x90 else 0x80, if m = 4 then 0x8F else 0xBF⟩ := by
  interval_cases m <;> rfl

theorem decodeFrom_utf8 (c : Char) (rest : List Nat) :
    decodeFrom none (utf8 c ++ rest) = c :: decodeFrom none rest := by
  have range := toNat_range c
  have back {n : Nat} (same : n = c.toNat) : Char.ofNat n = c := by rw [same, Char.ofNat_toNat]
  rw [utf8_eq]
  split
  · rename_i one
    simp [decodeFrom, beginChar, one]
  split
  · simp only [List.cons_append, List.nil_append]
    rw [decodeFrom_begin (beginChar_two (by omega) (by omega)),
      decodeFrom_last (by omega) (by omega), back (by omega)]
  split
  · simp only [List.cons_append, List.nil_append]
    rw [decodeFrom_begin (beginChar_three (by omega)),
      decodeFrom_next (by split <;> omega) (by split <;> omega),
      decodeFrom_last (by omega) (by omega), back (by omega)]
  · simp only [List.cons_append, List.nil_append]
    rw [decodeFrom_begin (beginChar_four (by omega)),
      decodeFrom_next (by split <;> omega) (by split <;> omega),
      decodeFrom_next (by omega) (by omega), decodeFrom_last (by omega) (by omega),
      back (by omega)]

inductive Escapes : List Nat → List Char → Prop
  | nil : Escapes [] []
  | cons {a b : Char} {x y : Nat} {octets : List Nat} {text : List Char}
      (first : hexValue? a = some x) (second : hexValue? b = some y)
      (rest : Escapes octets text) : Escapes ((16 * x + y) :: octets) ('%' :: a :: b :: text)

/-- Text and what it is written as: a character stands for itself, unless it is a percent sign, or
its octets are escaped. -/
inductive Encodes : List Char → List Char → Prop
  | nil : Encodes [] []
  | plain {c : Char} {text code : List Char} (other : c ≠ '%') (rest : Encodes text code) :
      Encodes (c :: text) (c :: code)
  | escaped {c : Char} {text escapes code : List Char} (octets : Escapes (utf8 c) escapes)
      (rest : Encodes text code) : Encodes (c :: text) (escapes ++ code)

theorem escapedOctets_plain {c : Char} (other : c ≠ '%') (rest : List Char) :
    escapedOctets (c :: rest) = c.toNat :: escapedOctets rest := by
  rw [escapedOctets]
  intro a b tail same
  exact absurd same other

theorem Escapes.octets {octets : List Nat} {text : List Char} (escapes : Escapes octets text)
    (rest : List Char) : escapedOctets (text ++ rest) = octets ++ escapedOctets rest := by
  induction escapes with
  | nil => rfl
  | cons first second _ ih => simp [escapedOctets, first, second, ih]

theorem hexValue?_ascii {c : Char} {n : Nat} (digit : hexValue? c = some n) :
    c.toNat < 0x80 ∧ c ≠ '/' := by
  have bounds : '0'.toNat ≤ c.toNat ∧ c.toNat ≤ 'f'.toNat := by
    have within {low high : Char} (between : low ≤ c ∧ c ≤ high) (above : '0' ≤ low)
        (below : high ≤ 'f') : '0' ≤ c ∧ c ≤ 'f' :=
      ⟨above.trans between.1, between.2.trans below⟩
    unfold hexValue? at digit
    split at digit
    · exact within ‹_› (by decide) (by decide)
    split at digit
    · exact within ‹_› (by decide) (by decide)
    split at digit
    · exact within ‹_› (by decide) (by decide)
    · cases digit
  refine ⟨bounds.2.trans_lt (by decide), ?_⟩
  rintro rfl
  exact absurd bounds.1 (by decide)

theorem Escapes.ascii {octets : List Nat} {text : List Char} (escapes : Escapes octets text) :
    ∀ c ∈ text, c.toNat < 0x80 ∧ c ≠ '/' := by
  induction escapes with
  | nil => simp
  | cons first second _ ih =>
    simp only [List.forall_mem_cons]
    exact ⟨by decide, hexValue?_ascii first, hexValue?_ascii second, ih⟩

theorem Encodes.append {first second code rest : List Char} (before : Encodes first code)
    (after : Encodes second rest) : Encodes (first ++ second) (code ++ rest) := by
  induction before with
  | nil => exact after
  | plain other _ ih => exact .plain other ih
  | escaped octets _ ih =>
    rw [List.append_assoc]
    exact .escaped octets ih

/-- The octets of ASCII code are those of the text. -/
theorem Encodes.decodeUtf8 {text code : List Char} (encodes : Encodes text code)
    (ascii : ∀ c ∈ code, c.toNat < 0x80) : decodeUtf8 (escapedOctets code) = text := by
  unfold Text.decodeUtf8
  induction encodes with
  | nil => simp [escapedOctets, decodeFrom]
  | plain other _ ih =>
    rw [List.forall_mem_cons] at ascii
    simp [escapedOctets_plain other, decodeFrom, beginChar, ascii.1, ih ascii.2]
  | escaped octets _ ih =>
    rw [octets.octets, decodeFrom_utf8, ih fun c member => ascii c (List.mem_append_right _ member)]

theorem percentDecodeFrom_ascii {code : List Char} (ascii : ∀ c ∈ code, c.toNat < 0x80)
    (run rest : List Char) :
    percentDecodeFrom run (code ++ rest) = percentDecodeFrom (code.reverse ++ run) rest := by
  induction code generalizing run with
  | nil => rfl
  | cons c code ih =>
    rw [List.forall_mem_cons] at ascii
    rw [List.cons_append, percentDecodeFrom, if_pos ascii.1, ih ascii.2]
    simp

/-- Decoding from within a run of ASCII code: the run is read when it ends. -/
theorem Encodes.percentDecodeFrom {before run text code : List Char}
    (begun : Encodes before run.reverse) (ascii : ∀ c ∈ run, c.toNat < 0x80)
    (encodes : Encodes text code) : percentDecodeFrom run code = before ++ text := by
  induction encodes generalizing before run with
  | nil =>
    rw [Text.percentDecodeFrom, begun.decodeUtf8 (by simpa using ascii), List.append_nil]
  | @plain c text code other rest ih =>
    rw [Text.percentDecodeFrom]
    split
    · rename_i short
      have longer : Encodes (before ++ [c]) (c :: run).reverse := by
        rw [List.reverse_cons]
        exact begun.append (.plain other .nil)
      rw [ih longer (List.forall_mem_cons.mpr ⟨short, ascii⟩), List.append_assoc,
        List.singleton_append]
    · rw [begun.decodeUtf8 (by simpa using ascii), ih .nil (by simp), List.nil_append]
  | @escaped c text escapes code octets rest ih =>
    have longer : Encodes (before ++ [c]) (escapes.reverse ++ run).reverse := by
      rw [List.reverse_append, List.reverse_reverse, ← List.append_nil escapes]
      exact begun.append (.escaped octets .nil)
    rw [percentDecodeFrom_ascii fun c member => (octets.ascii c member).1,
      ih longer fun c member => ?_, List.append_assoc, List.singleton_append]
    rcases List.mem_append.mp member with inside | inside
    · exact (octets.ascii c (List.mem_reverse.mp inside)).1
    · exact ascii c inside

theorem Encodes.percentDecode {text code : List Char} (encodes : Encodes text code) :
    percentDecode code = text := by
  have begun : Encodes [] ([] : List Char).reverse := .nil
  exact begun.percentDecodeFrom (by simp) encodes

theorem Encodes.slash_not_mem {text code : List Char} (encodes : Encodes text code)
    (plain : '/' ∉ text) : '/' ∉ code := by
  induction encodes with
  | nil => simp
  | plain _ _ ih =>
    rw [List.mem_cons, not_or] at plain ⊢
    exact ⟨plain.1, ih plain.2⟩
  | escaped octets _ ih =>
    rw [List.mem_append, not_or]
    exact ⟨fun inside => (octets.ascii _ inside).2 rfl, ih (List.not_mem_of_not_mem_cons plain)⟩

end TypedClient.Text
