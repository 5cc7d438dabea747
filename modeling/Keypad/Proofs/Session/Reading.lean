import Keypad.Proofs.Buffer.Reading
import Keypad.Proofs.Buffer.Typing
import Keypad.Proofs.Decimal.Cut
import Keypad.Proofs.Session.Coherent

/-!
# Keypad.Proofs.Session.Reading — the number that the display stands for

* `currentValue_eq_read?_iff`: the current number is what the display reads as, unless a result is shown that was cut.
* `currentValue_eq_none_iff`, `reads_what_is_typed`: where there is none, and which expressions are malformed.
* `ShowsCut`: such a result while an expression is being built; `currentValue_press_iff`: a digit or point that leaves
  the display as it is changes the current number there, and nowhere else.
-/

namespace Keypad

open Decimal Binary64

/-- The keys that enter a digit or a point. -/
def Key.entersNumber : Key → Bool
  | digit c => c.isDigit
  | dot => true
  | _ => false

theorem Key.entersNumber_cases {key : Key} (h : key.entersNumber = true) :
    (∃ c, key = .digit c ∧ c.isDigit = true) ∨ key = .dot := by
  cases key with
  | digit c => exact Or.inl ⟨c, rfl, h⟩
  | dot => exact Or.inr rfl
  | operator op => cases h
  | percent => cases h
  | backspace => cases h
  | evaluate => cases h
  | clear => cases h

namespace Session

variable {s : Session} {key : Key}

/-- A result that was cut fills the display. -/
theorem Sound.length_of_cut {text : List Char} (h : s.Sound) (hshown : s.shown = .result text)
    (hcut : s.buffer.text ≠ text) : text.length = displayWidth := by
  obtain ⟨x, -, hbuffer, rfl, -⟩ := h.coherent.result text hshown
  rw [hbuffer, Buffer.text_seed] at hcut
  have hlong : displayWidth < (carriedText x).length := by
    refine Nat.lt_of_not_le fun hle => hcut ?_
    exact (List.take_of_length_le hle).symm
  exact List.length_take_of_le (Nat.le_of_lt hlong)

/-- What is shown of a result that was cut reads as another number. -/
theorem Sound.currentValue_of_cut {text : List Char} (h : s.Sound) (hshown : s.shown = .result text)
    (hcut : s.buffer.text ≠ text) : s.currentValue ≠ Binary64.read? text := by
  obtain ⟨x, hx, hbuffer, rfl, -⟩ := h.coherent.result text hshown
  rw [hbuffer, Buffer.text_seed] at hcut
  rw [currentValue_seed hx (by rw [hshown]; nofun) hbuffer]
  exact (read?_ne_of_cut hx (List.take_prefix _ _) hcut.symm).symm

theorem Sound.currentValue_eq (h : s.Sound) (hshown : s.shown ≠ .error) (hne : s.buffer ≠ {}) :
    s.currentValue = Binary64.read? s.buffer.text := by
  rw [currentValue, if_neg hshown, if_neg (mt Buffer.isEmpty_iff.mp hne), h.layout.read?_text hne]

/-- **The current number** is what the display reads as, unless a result is shown that does not fit. -/
theorem currentValue_eq_read?_iff (h : s.Sound) :
    s.currentValue = Binary64.read? s.display ↔ ∀ text, s.shown = .result text → s.buffer.text = text := by
  cases hshown : s.shown with
  | error =>
    refine iff_of_true ?_ fun text htext => by cases htext
    rw [currentValue, display, hshown]
    rfl
  | expression =>
    have herror : s.shown ≠ .error := by simp [hshown]
    refine iff_of_true ?_ fun text htext => by cases htext
    by_cases hempty : s.buffer = {}
    · rw [currentValue, display, hshown, if_neg (hshown ▸ herror), if_pos (Buffer.isEmpty_iff.mpr hempty),
        if_pos (Buffer.isEmpty_iff.mpr hempty)]
      decide +kernel
    · rw [h.currentValue_eq herror hempty, display, hshown, if_neg (mt Buffer.isEmpty_iff.mp hempty)]
  | result text =>
    obtain ⟨x, -, hbuffer, -⟩ := h.coherent.result text hshown
    have herror : s.shown ≠ .error := by simp [hshown]
    have hne : s.buffer ≠ {} := by
      rw [hbuffer]
      exact mt Buffer.isEmpty_iff.mpr Bool.false_ne_true
    have hdisplay : s.display = text := by rw [display, hshown]
    rw [hdisplay]
    constructor
    · intro hvalue text' htext
      cases htext
      exact not_not.mp fun hcut => h.currentValue_of_cut hshown hcut hvalue
    · intro hwhole
      rw [h.currentValue_eq herror hne, hwhole text rfl]

/-! ## Expressions without a current number -/

theorem Sound.currentValue_eq_none_iff (h : s.Sound) :
    s.currentValue = none ↔
      s.shown = .error ∨ (∃ op, .operator op ∈ s.buffer.tokens) ∨ IsBareSign s.buffer.text := by
  by_cases herror : s.shown = .error
  · exact iff_of_true (if_pos herror) (Or.inl herror)
  rw [or_iff_right herror]
  by_cases hempty : s.buffer = {}
  · -- an empty expression stands for zero
    have hoperator : ¬ ∃ op, .operator op ∈ ({} : Buffer).tokens := by simp [Buffer.tokens]
    rw [currentValue, if_neg herror, if_pos (Buffer.isEmpty_iff.mpr hempty), hempty]
    exact iff_of_false (Option.some_ne_none _) (not_or.mpr ⟨hoperator, by decide⟩)
  · rw [h.currentValue_eq herror hempty]
    exact h.layout.read?_text_eq_none_iff hempty

/-- **What can be typed can be read.**  An expression that ends with an operand is malformed if and only if nothing is
left of its first number but a minus sign.  There is no current number exactly if an error is shown, or the expression
has an operator, or is such a sign; otherwise the current number is finite. -/
theorem reads_what_is_typed (hs : s.Reachable) :
    (s.buffer ≠ {} → (∀ op, s.buffer.tokens.getLast? ≠ some (.operator op)) →
        (Keypad.evaluate s.buffer.tokens = .error .malformedExpression ↔
          IsBareSign (Runs.ofTokens s.buffer.tokens).first)) ∧
      (s.currentValue = none ↔
        s.shown = .error ∨ (∃ op, .operator op ∈ s.buffer.tokens) ∨ IsBareSign s.buffer.text) ∧
      ∀ x, s.currentValue = some x → x.isFinite := by
  have hlayout := hs.sound.layout
  refine ⟨fun hne hlast => ?_, hs.sound.currentValue_eq_none_iff, fun x hx => isFinite_of_currentValue hlayout hx⟩
  have htokens : s.buffer.tokens ≠ [] :=
    fun hnil => hne (congrArg Buffer.mk (List.reverse_eq_nil_iff.mp hnil))
  exact evaluate_eq_malformed_iff hlayout htokens hlast

/-- What is left of minus two is a sign; with a point and a digit behind it, it is a dividend. -/
theorem reads_what_is_typed_sign :
    let s := (({} : Session).pressAll [.digit '1', .operator .subtract, .digit '3', .evaluate, .backspace]).1
    let t := (s.pressAll [.dot, .digit '5', .operator .divide, .digit '0']).1
    (s.Reachable ∧ s.buffer.text = ['-'] ∧ s.currentValue = none ∧
        Keypad.evaluate s.buffer.tokens = .error .malformedExpression) ∧
      t.Reachable ∧ t.buffer.text = "-.5÷0".toList ∧ t.currentValue = none ∧ t.buffer ≠ {} ∧
        (∀ op, t.buffer.tokens.getLast? ≠ some (.operator op)) ∧
        Keypad.evaluate t.buffer.tokens ≠ .error .malformedExpression := by
  intro s t
  have hs : s.Reachable := Reachable.start.pressAll _
  have ht : t.Reachable := hs.pressAll _
  have hbuffer : s.buffer = ⟨[.literal ['-']]⟩ := by decide +kernel
  have hbuffer' : t.buffer = ⟨[.literal ['0'], .operator .divide, .literal ['5'], .dot, .literal ['-']]⟩ := by
    decide +kernel
  obtain ⟨hvalue, hcurrent, -⟩ := reads_what_is_typed hs
  obtain ⟨hvalue', hcurrent', -⟩ := reads_what_is_typed ht
  rw [hbuffer] at hvalue hcurrent ⊢
  rw [hbuffer'] at hvalue' hcurrent' ⊢
  refine ⟨⟨hs, rfl, hcurrent.mpr (Or.inr (Or.inr (Or.inl rfl))), (hvalue nofun nofun).mpr (Or.inl rfl)⟩, ht, rfl,
    hcurrent'.mpr (Or.inr (Or.inl ⟨.divide, by decide⟩)), nofun, nofun, fun h => ?_⟩
  exact absurd ((hvalue' nofun nofun).mp h) (by decide)

/-! ## Keys that leave the display as it is -/

/-- A result that was cut is shown while an expression is built, so that the next digit or point edits what is shown. -/
def ShowsCut (s : Session) : Prop := s.phase = .building ∧ s.shown = .result s.display ∧ s.buffer.text ≠ s.display

instance (s : Session) : Decidable s.ShowsCut := inferInstanceAs (Decidable (_ ∧ _))

theorem press_of_entersNumber (hkey : key.entersNumber = true) :
    (s.press key).1 = s.prepareNumber.entering (s.prepareNumber.buffer.typed key) := by
  rcases Key.entersNumber_cases hkey with ⟨c, rfl, hc⟩ | rfl
  · show s.digit c = s.prepareNumber.entering ((if c.isDigit = true then _ else none).getD _)
    rw [digit, if_pos hc, if_pos hc]
  · rfl

/-- In the fresh phase a digit or point takes the place of a result, and is all that is shown then. -/
theorem length_display_press_of_fresh (hphase : s.phase = .fresh) (hshown : s.shown ≠ .expression)
    (hkey : key.entersNumber = true) : (s.press key).1.display.length ≤ 2 := by
  have hready : s.prepareNumber = { s with buffer := {} } := if_pos ⟨hphase, hshown⟩
  rw [press_of_entersNumber hkey, hready]
  rcases Key.entersNumber_cases hkey with ⟨c, rfl, hc⟩ | rfl
  · have htyped : ({} : Buffer).typed (.digit c) = ⟨[.literal [c]]⟩ := by
      show (if c.isDigit = true then _ else none : Option Buffer).getD _ = _
      rw [if_pos hc]
      rfl
    dsimp only
    rw [htyped]
    exact Nat.le_succ 1
  · exact le_rfl

/-- What is typed is read from the display. -/
theorem currentValue_press_of_entersNumber (hs : s.Reachable) (hkey : key.entersNumber = true) :
    (s.press key).1.currentValue = Binary64.read? (s.press key).1.display := by
  rw [currentValue_eq_read?_iff (hs.sound.press key), press_of_entersNumber hkey]
  intro text htext
  cases htext

/-- **A refused key**: a digit or point that leaves the display as it is leaves the current number as it is too, except
where the display shows a result that was cut and is being edited: there what is shown takes its place. -/
theorem currentValue_press_iff (hs : s.Reachable) (hkey : (∃ c, key = .digit c) ∨ key = .dot)
    (hdisplay : (s.press key).1.display = s.display) :
    ((s.press key).1.currentValue = s.currentValue ↔ ¬ (key.entersNumber = true ∧ s.ShowsCut)) ∧
      (key.entersNumber = true → (s.press key).1.currentValue = Binary64.read? s.display) := by
  by_cases henters : key.entersNumber = true
  · have hafter := currentValue_press_of_entersNumber hs henters
    rw [hdisplay] at hafter
    refine ⟨?_, fun _ => hafter⟩
    rw [hafter, eq_comm, currentValue_eq_read?_iff hs.sound]
    constructor
    · rintro hwhole ⟨-, -, hshown, hcut⟩
      exact hcut (hwhole _ hshown)
    · intro hedits text hshown
      by_contra hcut
      have hshows : s.display = text := by rw [display, hshown]
      cases hphase : s.phase with
      | building => exact hedits ⟨henters, hphase, by rw [hshows, hshown], by rwa [hshows]⟩
      | fresh =>
        -- a new number is not as wide as the display
        have hshort := length_display_press_of_fresh hphase (by rw [hshown]; nofun) henters
        rw [hdisplay, hshows, hs.sound.length_of_cut hshown hcut] at hshort
        exact absurd hshort (by decide)
  · refine ⟨iff_of_true ?_ fun hboth => henters hboth.1, fun h => absurd h henters⟩
    rcases hkey with ⟨c, rfl⟩ | rfl
    · have hc : ¬ c.isDigit = true := henters
      show (s.digit c).currentValue = s.currentValue
      rw [digit, if_neg hc]
    · exact absurd rfl henters

/-- A tenth digit and a second point are refused. -/
theorem currentValue_press_tenth_digit :
    let s := (({} : Session).pressAll ("1234.6789".toList.map fun c => if c = '.' then .dot else .digit c)).1
    s.Reachable ∧ (∃ c, Key.digit '5' = .digit c) ∧ (s.press (.digit '5')).1.display = s.display ∧
      (s.press .dot).1.display = s.display ∧ s.currentValue = some (ofScientific false 12346789 (-4)) ∧
      (s.press (.digit '5')).1.currentValue = s.currentValue ∧ (s.press .dot).1.currentValue = s.currentValue := by
  intro s
  have hs : s.Reachable := Reachable.start.pressAll _
  have hdigit : (s.press (.digit '5')).1.display = s.display := by decide +kernel
  have hdot : (s.press .dot).1.display = s.display := by decide +kernel
  have hcut : ¬ s.ShowsCut := by decide +kernel
  have hvalue : s.currentValue = some (ofScientific false 12346789 (-4)) := by decide +kernel
  exact ⟨hs, ⟨'5', rfl⟩, hdigit, hdot, hvalue,
    (currentValue_press_iff hs (Or.inl ⟨'5', rfl⟩) hdigit).1.mpr fun hboth => hcut hboth.2,
    (currentValue_press_iff hs (Or.inr rfl) hdot).1.mpr fun hboth => hcut hboth.2⟩

/-- A digit that does not fit behind a hundredth, which is shown without its last place, drops that place. -/
theorem currentValue_press_after_percent_ne :
    let s := (({} : Session).pressAll ("123456789".toList.map .digit ++ [.percent])).1
    let after := (s.press (.digit '5')).1
    s.Reachable ∧ s.display = "1234567.8".toList ∧ after.display = s.display ∧
      s.currentValue = some (ofScientific false 123456789 (-2)) ∧
      after.currentValue = some (ofScientific false 12345678 (-1)) ∧ after.currentValue ≠ s.currentValue := by
  intro s after
  have hs : s.Reachable := Reachable.start.pressAll _
  have hfacts : s.display = "1234567.8".toList ∧ after.display = s.display ∧
      s.currentValue = some (ofScientific false 123456789 (-2)) ∧
      after.currentValue = some (ofScientific false 12345678 (-1)) ∧ after.currentValue ≠ s.currentValue := by
    decide +kernel
  exact ⟨hs, hfacts⟩

end Session

end Keypad
