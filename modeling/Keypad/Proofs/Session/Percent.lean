import Keypad.Proofs.Session.Reading

/-!
# Keypad.Proofs.Session.Percent — a hundredth of the number, or nothing

* `percentOperand`: the number that the percent key takes, the carried one if nothing is entered.
* `percentOperand_eq_none_iff`: when there is none.
* `percent_of_operand`, `percent_of_no_operand`: the session after the key, in full.
* `percent_exact`: a hundredth of the number takes its place, or the session stays as it is.
-/

namespace Keypad.Session

open Binary64

/-- The number that the percent key takes: the carried result if nothing is entered, else the single number that is. -/
def percentOperand (s : Session) : Option Binary64 :=
  if s.shown = .error then none
  else if s.buffer = {} then s.lastResult
  else if s.buffer.isSingleNumber then Binary64.read? s.buffer.currentNumber
  else none

variable {s : Session} {x : Binary64}

theorem percentOperand_of_empty (herror : s.shown ≠ .error) (hempty : s.buffer = {}) :
    s.percentOperand = s.lastResult := by
  rw [percentOperand, if_neg herror, if_pos hempty]

/-- What is entered is taken as the current number. -/
theorem percentOperand_of_ne (herror : s.shown ≠ .error) (hne : s.buffer ≠ {}) :
    s.percentOperand = s.currentValue := by
  rw [percentOperand, if_neg herror, if_neg hne, currentValue, if_neg herror,
    if_neg (mt Buffer.isEmpty_iff.mp hne)]

/-- **No number** is taken of an error, of an expression with an operator, of nothing at all, and of a bare sign. -/
theorem Sound.percentOperand_eq_none_iff (h : s.Sound) :
    s.percentOperand = none ↔
      s.shown = .error ∨ (∃ op, .operator op ∈ s.buffer.tokens) ∨ (s.buffer = {} ∧ s.lastResult = none) ∨
        IsBareSign s.buffer.text := by
  by_cases herror : s.shown = .error
  · exact iff_of_true (if_pos herror) (Or.inl herror)
  by_cases hempty : s.buffer = {}
  · have hoperator : ¬ ∃ op, .operator op ∈ s.buffer.tokens := by
      rw [hempty]
      nofun
    have hsign : ¬ IsBareSign s.buffer.text := by
      rw [hempty]
      decide
    rw [percentOperand_of_empty herror hempty, or_iff_right herror, or_iff_right hoperator, or_iff_left hsign,
      and_iff_right hempty]
  · rw [percentOperand_of_ne herror hempty, h.currentValue_eq_none_iff]
    simp only [hempty, false_and, false_or]

theorem Sound.isFinite_percentOperand (h : s.Sound) (hx : s.percentOperand = some x) : x.isFinite := by
  by_cases herror : s.shown = .error
  · rw [percentOperand, if_pos herror] at hx
    cases hx
  by_cases hempty : s.buffer = {}
  · rw [percentOperand_of_empty herror hempty] at hx
    exact (h.coherent.carried x hx).1
  · rw [percentOperand_of_ne herror hempty] at hx
    exact isFinite_of_currentValue h.layout hx

/-- **The key** puts a hundredth of the number in its place. -/
theorem Sound.percent_of_operand (h : s.Sound) (hx : s.percentOperand = some x) :
    s.percent = { s with
      buffer := .seed (carriedText (x / .ofNat 100)), phase := .building
      shown := .result (displayText (x / .ofNat 100)) } := by
  have herror : s.shown ≠ .error := fun herror => by
    rw [percentOperand, if_pos herror] at hx
    cases hx
  by_cases hempty : s.buffer = {}
  · -- the carried number is put into the buffer first, and read back as it is
    rw [percentOperand_of_empty herror hempty] at hx
    obtain ⟨hfinite, hzero⟩ := h.coherent.carried x hx
    have hseeded : s.seedCarried carriedText = { s with buffer := .seed (carriedText x) } :=
      seedCarried_of_some hempty hx
    have hcurrent := currentValue_seed (s := { s with buffer := .seed (carriedText x) }) hfinite herror rfl
    refine percent_of_some herror ?_ ?_
    · rw [hseeded]
      nofun
    · rw [hseeded, hcurrent, unsigned_of_ne hzero]
  · rw [percentOperand_of_ne herror hempty] at hx
    have hseeded : s.seedCarried carriedText = s := seedCarried_of_ne hempty
    refine percent_of_some herror ?_ ?_
    · rwa [hseeded]
    · rwa [hseeded]

/-- Without a number to take, nothing was put into the buffer either. -/
theorem percent_of_no_operand (hnone : s.percentOperand = none) : s.percent = s := by
  by_cases herror : s.shown = .error
  · exact if_pos herror
  by_cases hempty : s.buffer = {}
  · rw [percentOperand_of_empty herror hempty] at hnone
    have hseeded : s.seedCarried carriedText = s := seedCarried_of_none hnone
    rw [percent_of_none herror (Or.inl (by rwa [hseeded])), hseeded]
  · rw [percentOperand_of_ne herror hempty] at hnone
    have hseeded : s.seedCarried carriedText = s := seedCarried_of_ne hempty
    rw [percent_of_none herror (Or.inr (by rwa [hseeded])), hseeded]

/-- **Percent** is exact or does nothing.  A hundredth of the number that the key takes is put into the buffer in full,
is the current number, and is shown as far as it fits; the carried result stays.  Where the key takes no number, the
session stays as it is. -/
theorem percent_exact (hs : s.Reachable) :
    (∀ x, s.percentOperand = some x →
        s.percent = { s with
          buffer := .seed (carriedText (x / .ofNat 100)), phase := .building
          shown := .result (displayText (x / .ofNat 100)) } ∧
        s.percent.currentValue = some (unsigned (x / .ofNat 100)) ∧
        s.percent.display = displayText (x / .ofNat 100)) ∧
      (s.percentOperand = none → s.percent = s) ∧
      (s.percentOperand = none ↔
        s.shown = .error ∨ (∃ op, .operator op ∈ s.buffer.tokens) ∨ (s.buffer = {} ∧ s.lastResult = none) ∨
          IsBareSign s.buffer.text) := by
  refine ⟨fun x hx => ?_, percent_of_no_operand, hs.sound.percentOperand_eq_none_iff⟩
  have hafter := hs.sound.percent_of_operand hx
  have hfinite : (x / .ofNat 100).isFinite :=
    isFinite_div_ofNat (hs.sound.isFinite_percentOperand hx) (by omega) (by decide)
  have hshown : s.percent.shown ≠ .error := by
    rw [hafter]
    nofun
  refine ⟨hafter, currentValue_seed hfinite hshown ?_, ?_⟩
  · rw [hafter]
  · rw [hafter]
    rfl

/-- A carried eighth, taken although nothing is entered, and a sum, of which nothing is taken. -/
theorem percent_exact_eighth :
    let s := (({} : Session).pressAll
      [.digit '1', .operator .divide, .digit '8', .evaluate, .digit '5', .backspace]).1
    let t := (({} : Session).pressAll [.digit '1', .operator .add, .digit '8']).1
    (s.Reachable ∧ s.buffer = {} ∧ s.percentOperand = some (ofScientific false 125 (-3)) ∧
        s.percent.buffer = .seed "0.00125".toList ∧ s.percent.lastResult = some (ofScientific false 125 (-3)) ∧
        s.percent.currentValue = some (ofScientific false 125 (-5)) ∧ s.percent.display = "0.00125".toList) ∧
      t.Reachable ∧ t.percentOperand = none ∧ t.percent = t := by
  intro s t
  have hs : s.Reachable := Reachable.start.pressAll _
  have ht : t.Reachable := Reachable.start.pressAll _
  have hempty : s.buffer = {} := by decide +kernel
  have hoperand : s.percentOperand = some (ofScientific false 125 (-3)) := by decide +kernel
  have hlast : s.lastResult = some (ofScientific false 125 (-3)) := by decide +kernel
  have hhundredth : ofScientific false 125 (-3) / .ofNat 100 = ofScientific false 125 (-5) := by decide +kernel
  have hunsigned : unsigned (ofScientific false 125 (-5)) = ofScientific false 125 (-5) := by decide +kernel
  have htext : carriedText (ofScientific false 125 (-5)) = "0.00125".toList := by decide +kernel
  obtain ⟨-, hidle, hnone⟩ := percent_exact ht
  have hnothing : t.percentOperand = none := hnone.mpr (Or.inr (Or.inl ⟨.add, by decide⟩))
  -- the keys have done their part, and the session is better not computed again
  clear_value s
  obtain ⟨hafter, hcurrent, hdisplay⟩ := (percent_exact hs).1 _ hoperand
  rw [hhundredth] at hafter hcurrent hdisplay
  rw [hunsigned] at hcurrent
  rw [displayText, htext] at hdisplay
  refine ⟨⟨hs, hempty, hoperand, ?_, ?_, hcurrent, hdisplay⟩, ht, hnothing, hidle hnothing⟩
  · rw [hafter, ← htext]
  · rw [hafter]
    exact hlast

end Keypad.Session
