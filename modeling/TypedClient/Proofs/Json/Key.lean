import Mathlib
import TypedClient.Json.Basic

/-! Keys that count as the same. They are those that mean the same thing: a text, a number, whether
it is written as an integer, a fraction or a truth value, or null. A key that is no number at all
means nothing, and is not even the same as itself. -/
namespace TypedClient

inductive Meaning where
  | text (value : String)
  | number (value : ℚ)
  | infinite (negative : Bool)
  | null

namespace Quantity

def meaning? : Quantity → Option Meaning
  | .dyadic n q => some (.number (n * 2 ^ q))
  | .infinite negative => some (.infinite negative)
  | .none => Option.none

/-- Fractions are compared as the numbers that they are. -/
theorem le_dyadic (a p b q : Int) :
    le (.dyadic a p) (.dyadic b q) = true ↔ (a : ℚ) * 2 ^ p ≤ b * 2 ^ q := by
  let least := if p ≤ q then p else q
  have scaled : ∀ n e : Int, least ≤ e →
      (n : ℚ) * 2 ^ e = ((n * Int.ofNat (Nat.pow 2 (e - least).toNat) : Int) : ℚ) * 2 ^ least := by
    intro n e above
    have power : (2 : ℚ) ^ e = 2 ^ (e - least).toNat * 2 ^ least := by
      rw [← zpow_natCast, ← zpow_add₀ (by norm_num)]
      congr 1
      omega
    rw [power, Int.ofNat_eq_natCast, Nat.pow_eq]
    push_cast
    ring
  have low : least ≤ p ∧ least ≤ q := by
    simp only [least]
    split <;> omega
  rw [scaled a p low.1, scaled b q low.2, mul_le_mul_iff_left₀ (by positivity), Int.cast_le]
  simp [le, aligned, least]

theorem same_iff {x y : Quantity} :
    x.same y = true ↔ ∃ meaning, x.meaning? = some meaning ∧ y.meaning? = some meaning := by
  cases x with
  | dyadic a p =>
    cases y with
    | dyadic b q =>
      rw [same, Bool.and_eq_true, le_dyadic, le_dyadic, ← le_antisymm_iff]
      simp [meaning?, eq_comm]
    | infinite | none => simp [same, le, meaning?]
  | infinite s =>
    cases y with
    | infinite t => cases s <;> cases t <;> simp [same, le, meaning?]
    | dyadic | none => simp [same, le, meaning?]
  | none => simp [same, le, meaning?]

theorem meaning?_ne_text (x : Quantity) (value : String) : x.meaning? ≠ some (.text value) := by
  cases x <;> simp [meaning?]

theorem meaning?_ne_null (x : Quantity) : x.meaning? ≠ some .null := by
  cases x <;> simp [meaning?]

end Quantity

namespace Key

def meaning? : Key → Option Meaning
  | .text value => some (.text value)
  | .null => some .null
  | key => key.quantity?.bind (·.meaning?)

theorem same_iff {a b : Key} :
    a.same b = true ↔ ∃ meaning, a.meaning? = some meaning ∧ b.meaning? = some meaning := by
  cases a with
  | text s =>
    cases b with
    | text t => exact (beq_iff_eq.trans eq_comm).trans (by simp [meaning?])
    | null | int | float | bool => simp [same, quantity?, meaning?, Quantity.meaning?_ne_text]
  | null => cases b <;> simp [same, quantity?, meaning?, Quantity.meaning?_ne_null]
  | int | float | bool =>
    cases b with
    | text t => simp [same, quantity?, meaning?, Quantity.meaning?_ne_text]
    | null => simp [same, quantity?, meaning?, Quantity.meaning?_ne_null]
    | int | float | bool => exact Quantity.same_iff

/-- Keys that are the same as one key are the same as each other. -/
theorem same_of_same {a b c : Key} (first : c.same a = true) (second : c.same b = true) :
    a.same b = true := by
  obtain ⟨meaning, ofC, ofA⟩ := same_iff.mp first
  obtain ⟨other, again, ofB⟩ := same_iff.mp second
  cases ofC.symm.trans again
  exact same_iff.mpr ⟨meaning, ofA, ofB⟩

end Key

end TypedClient
