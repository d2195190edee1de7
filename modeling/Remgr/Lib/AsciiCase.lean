/-
Module: Remgr.Lib.AsciiCase
Purpose: Texts compared without regard to the case of ASCII letters.
Trusted boundary: none
Main exports: toLower_cases, eq_of_toLower, map_toLower_eq_self
-/
import Remgr.Lib.Text

namespace Remgr.Lib.Text

/-- Lowering a character moves the capitals by 32 and leaves everything else. -/
theorem toLower_cases (c : Char) :
    c.toLower = c ∨ 65 ≤ c.toNat ∧ c.toNat ≤ 90 ∧ c.toLower.toNat = c.toNat + 32 := by
  unfold Char.toLower
  split
  · next upper =>
      right
      have low : 65 ≤ c.val.toNat := upper.1
      have high : c.val.toNat ≤ 90 := upper.2
      refine ⟨low, high, ?_⟩
      change (c.val + 32).toNat = c.val.toNat + 32
      have step : (32 : UInt32).toNat = 32 := rfl
      rw [UInt32.toNat_add]
      omega
  · exact .inl rfl

/-- A character that is no small letter is the image of itself alone. -/
theorem eq_of_toLower {c d : Char} (plain : d.toNat < 97 ∨ 122 < d.toNat) (lowered : c.toLower = d) :
    c = d := by
  rcases toLower_cases c with same | ⟨low, high, moved⟩
  · exact same.symm.trans lowered
  · rw [lowered] at moved
    omega

theorem toLower_eq_self {c : Char} (plain : c.toNat < 65 ∨ 90 < c.toNat) : c.toLower = c := by
  rcases toLower_cases c with same | ⟨low, high, -⟩
  · exact same
  · omega

theorem map_toLower_eq_self {text : List Char} (plain : ∀ c ∈ text, c.toNat < 65 ∨ 90 < c.toNat) :
    text.map Char.toLower = text := by
  rw [List.map_congr_left fun c inside => toLower_eq_self (plain c inside), List.map_id']

end Remgr.Lib.Text
