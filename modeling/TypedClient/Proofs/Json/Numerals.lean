import Mathlib
import TypedClient.Json.Display

/-! The characters of numbers. Numbers are written with letters, digits, signs and a point, and so
are the words for what is no number. -/
namespace TypedClient

/-- Characters that numbers and words for them are written with. -/
def Text.isNumeral (c : Char) : Bool :=
  c.isAlphanum || c == '+' || c == '-' || c == '.'

def Text.Numeral (text : List Char) : Prop :=
  ∀ c ∈ text, isNumeral c = true

namespace Text.Numeral

theorem append {first second : List Char} (before : Numeral first) (after : Numeral second) :
    Numeral (first ++ second) :=
  List.forall_mem_append.mpr ⟨before, after⟩

theorem cons {c : Char} {text : List Char} (first : isNumeral c = true) (rest : Numeral text) :
    Numeral (c :: text) :=
  List.forall_mem_cons.mpr ⟨first, rest⟩

theorem of_all {text : List Char} (all : text.all isNumeral = true) : Numeral text :=
  List.all_eq_true.mp all

theorem toDigits (n : Nat) : Numeral (Nat.toDigits 10 n) := by
  intro c member
  have digit := Nat.isDigit_of_mem_toDigits (by decide) (by decide) member
  simp [isNumeral, Char.isAlphanum, digit]

theorem zeros (n : Nat) : Numeral (List.replicate n '0') := by
  intro c member
  rw [List.eq_of_mem_replicate member]
  rfl

theorem mono {part text : List Char} (subset : part ⊆ text) (numeral : Numeral text) :
    Numeral part :=
  fun c member => numeral c (subset member)

theorem digits (layout : Decimal.Layout) (d : Decimal.Digits) :
    Numeral (d.text layout).toList := by
  have all := toDigits d.digits
  have cut (n : Nat) : Numeral ((Nat.toDigits 10 d.digits).take n) ∧
      Numeral ((Nat.toDigits 10 d.digits).drop n) :=
    ⟨all.mono (List.take_subset _ _), all.mono (List.drop_subset _ _)⟩
  simp only [Decimal.Digits.text]
  split
  · rw [String.toList_ofList]
    split
    · exact .cons rfl (.cons rfl ((zeros _).append all))
    split
    · exact (all.append (zeros _)).append (.of_all rfl)
    · exact (cut _).1.append (.cons rfl (cut _).2)
  · rw [String.toList_ofList]
    refine append ?_ (.cons rfl (.cons ?_ ((zeros _).append (toDigits _))))
    · split
      · exact all
      · exact (cut _).1.append (.cons rfl (cut _).2)
    · split <;> rfl

/-- A number in digits, or one of two words. -/
theorem decimal (layout : Decimal.Layout) {infinity nan : String} (word : Numeral infinity.toList)
    (other : Numeral nan.toList) (x : Double) :
    Numeral (Decimal.text layout infinity nan x).toList := by
  have signed (negative : Bool) {text : String} (numeral : Numeral text.toList) :
      Numeral ((if negative then "-" else "") ++ text).toList := by
    rw [String.toList_append]
    cases negative with
    | true => exact append (.of_all rfl) numeral
    | false => exact numeral
  cases x with
  | finite negative m q =>
    refine signed negative ?_
    split
    · exact .of_all rfl
    · exact digits layout _
  | infinite negative => exact signed negative word
  | nan => exact other

theorem floatText (x : Double) : Numeral (Json.floatText x).toList :=
  decimal _ (.of_all rfl) (.of_all rfl) x

theorem showFloat (x : Double) : Numeral (Json.showFloat x).toList :=
  decimal _ (.of_all rfl) (.of_all rfl) x

theorem int (n : Int) : Numeral (toString n).toList := by
  cases n with
  | ofNat n =>
    change Numeral (String.ofList (Nat.toDigits 10 n)).toList
    rw [String.toList_ofList]
    exact toDigits n
  | negSucc n =>
    change Numeral ("-" ++ String.ofList (Nat.toDigits 10 (n + 1))).toList
    rw [String.toList_append]
    refine append (.of_all rfl) ?_
    rw [String.toList_ofList]
    exact toDigits _

end Text.Numeral

/-- A key that is not text is shown as a number or as a word. -/
theorem Key.numeral_display {key : Key} (other : ∀ s, key ≠ .text s) :
    Text.Numeral key.display.toList := by
  cases key with
  | text s => exact absurd rfl (other s)
  | int n => exact .int n
  | float x => exact .showFloat x
  | bool b => cases b <;> exact .of_all rfl
  | null => exact .of_all rfl

end TypedClient
