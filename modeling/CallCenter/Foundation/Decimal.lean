import CallCenter.Foundation.Numerals
import Mathlib

/-!
# Decimal numbers in C strings

`%d` printing is `toString` on `Int`; `atoi` reads a number back.  The facts proved are the
ones keys built by `sprintf("%d_%d", ..)` rest on: a printed number has no separator in it,
so the text determines both numbers.
-/

namespace CallCenter.Foundation

open Numerals

/-- `atoi`, which casts the `long` of `strtol` to `int`. -/
def atoi (text : String) : Int := toInt32 (atol text.toList)

theorem atoi_toString {z : Int} (least : -2 ^ 31 ≤ z) (most : z < 2 ^ 31) : atoi (toString z) = z := by
  rw [atoi, atol_toString (by simp only [longMin]; omega) (by simp only [longMax]; omega),
    toInt32_of_fits least most]

/-- The text of `sprintf(_, "%d_%d", first, second)`. -/
def underscored (first second : Int) : String := toString first ++ "_" ++ toString second

theorem underscore_notMem_repr (n : Nat) : '_' ∉ n.repr.toList := by
  intro member
  rw [Nat.toList_repr] at member
  have digit := Nat.isDigit_of_mem_toDigits (by decide) (by decide) member
  exact absurd digit (by decide)

theorem underscore_notMem_toString (z : Int) : '_' ∉ (toString z).toList := by
  rw [Int.toString_eq_repr, Int.repr_eq_if]
  split
  · exact underscore_notMem_repr _
  · rw [String.toList_append, List.mem_append]
    rintro (sign | digits)
    · simp at sign
    · exact underscore_notMem_repr _ digits

/-- Two texts split at their first separator agree in both parts. -/
theorem append_cons_inj {α : Type} {separator : α} :
    ∀ {left₁ right₁ left₂ right₂ : List α}, separator ∉ left₁ → separator ∉ left₂ →
      left₁ ++ separator :: right₁ = left₂ ++ separator :: right₂ → left₁ = left₂ ∧ right₁ = right₂
  | [], _, [], _, _, _, same => by
    simp only [List.nil_append, List.cons.injEq, true_and] at same
    exact ⟨rfl, same⟩
  | [], _, c :: left₂, _, _, absent, same => by
    simp only [List.nil_append, List.cons_append, List.cons.injEq] at same
    exact absurd (same.1 ▸ List.mem_cons_self) absent
  | c :: left₁, _, [], _, absent, _, same => by
    simp only [List.nil_append, List.cons_append, List.cons.injEq] at same
    exact absurd (same.1 ▸ List.mem_cons_self) absent
  | c :: left₁, _, d :: left₂, _, absent₁, absent₂, same => by
    simp only [List.cons_append, List.cons.injEq] at same
    obtain ⟨lefts, rights⟩ := append_cons_inj (fun member => absent₁ (List.mem_cons_of_mem _ member))
      (fun member => absent₂ (List.mem_cons_of_mem _ member)) same.2
    exact ⟨by rw [same.1, lefts], rights⟩

theorem toString_int_inj {a b : Int} (same : toString a = toString b) : a = b := by
  rw [Int.toString_eq_repr, Int.toString_eq_repr] at same
  exact Int.repr_inj.mp same

/-- The key text determines both numbers. -/
theorem underscored_inj {first₁ second₁ first₂ second₂ : Int} :
    underscored first₁ second₁ = underscored first₂ second₂ ↔ first₁ = first₂ ∧ second₁ = second₂ := by
  constructor
  · intro same
    have texts := congrArg String.toList same
    simp only [underscored, String.toList_append, List.append_assoc] at texts
    obtain ⟨firsts, seconds⟩ := append_cons_inj (underscore_notMem_toString first₁)
      (underscore_notMem_toString first₂) texts
    exact ⟨toString_int_inj (String.toList_inj.mp firsts), toString_int_inj (String.toList_inj.mp seconds)⟩
  · rintro ⟨rfl, rfl⟩
    rfl

end CallCenter.Foundation
