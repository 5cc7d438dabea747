import Keypad.Proofs.Buffer.Layout
import Keypad.Session.Basic

/-!
# Keypad.Proofs.Session.Keys — what the keys do to a session

* `seedCarried_cases`, `seedCarried_eq`, `editShown_eq`: how the buffer is made ready.
* `currentValue_seed`: a number that was carried into the buffer is the current one.
* `percent_of_some`, `percent_of_none`, `backspace_eq`, `evaluate_of_some`, `evaluate_of_value`: a key, as an equation
  for the session.
* `press_lastResult`: only an evaluation and the clear key change the carried result.
-/

namespace Keypad.Session

open Binary64

variable {s : Session} {render : Binary64 → List Char}

/-! ## Preparing the buffer -/

theorem seedCarried_of_ne (h : s.buffer ≠ {}) : s.seedCarried render = s := by
  have hfull : s.buffer.isEmpty = false := Bool.eq_false_iff.mpr (mt Buffer.isEmpty_iff.mp h)
  rw [seedCarried, hfull]

theorem seedCarried_of_none (h : s.lastResult = none) : s.seedCarried render = s := by
  obtain ⟨buffer, last, phase, shown⟩ := s
  obtain rfl : last = none := h
  unfold seedCarried
  cases buffer.isEmpty <;> rfl

theorem seedCarried_of_some {x : Binary64} (hbuffer : s.buffer = {}) (h : s.lastResult = some x) :
    s.seedCarried render = { s with buffer := .seed (render x) } := by
  have hempty : s.buffer.isEmpty = true := Buffer.isEmpty_iff.mpr hbuffer
  rw [seedCarried, hempty, h]

/-- The carried result is put into the buffer, or there is nothing to do. -/
theorem seedCarried_cases (render : Binary64 → List Char) (s : Session) :
    s.seedCarried render = s ∧ (s.buffer = {} → s.lastResult = none) ∨
      ∃ x, s.buffer = {} ∧ s.lastResult = some x ∧ s.seedCarried render = { s with buffer := .seed (render x) } := by
  by_cases hbuffer : s.buffer = {}
  · rcases Option.eq_none_or_eq_some s.lastResult with hlast | ⟨x, hlast⟩
    · exact Or.inl ⟨seedCarried_of_none hlast, fun _ => hlast⟩
    · exact Or.inr ⟨x, hbuffer, hlast, seedCarried_of_some hbuffer hlast⟩
  · exact Or.inl ⟨seedCarried_of_ne hbuffer, fun h => absurd h hbuffer⟩

/-- Seeding changes nothing but the buffer. -/
theorem seedCarried_eq (render : Binary64 → List Char) (s : Session) :
    s.seedCarried render = { s with buffer := (s.seedCarried render).buffer } := by
  rcases seedCarried_cases render s with ⟨h, -⟩ | ⟨x, -, -, h⟩ <;> rw [h]

theorem seedCarried_lastResult : (s.seedCarried render).lastResult = s.lastResult := by
  rw [seedCarried_eq]

theorem editShown_of_ne (h : ∀ t, s.shown ≠ .result t) : s.editShown = s := by
  unfold editShown
  split
  · exact absurd ‹_› (h _)
  · rfl

/-- Editing what is shown turns it into an expression. -/
theorem editShown_eq (h : s.shown ≠ .error) :
    s.editShown = { s with buffer := s.editShown.buffer, shown := .expression } := by
  obtain ⟨buffer, last, phase, shown⟩ := s
  cases shown with
  | expression => rfl
  | result t => rfl
  | error => exact absurd rfl h

theorem editShown_lastResult : s.editShown.lastResult = s.lastResult := by
  unfold editShown
  split <;> rfl

theorem prepareNumber_lastResult : s.prepareNumber.lastResult = s.lastResult := by
  unfold prepareNumber
  split
  · rfl
  · dsimp only
    split
    · rw [seedCarried_lastResult, editShown_lastResult]
    · exact editShown_lastResult

/-- A digit or point goes straight into an expression that is shown. -/
theorem prepareNumber_of_expression (hshown : s.shown = .expression) (hne : s.buffer ≠ {}) : s.prepareNumber = s := by
  have hedit : s.editShown = s := editShown_of_ne fun t ht => by rw [hshown] at ht; cases ht
  rw [prepareNumber, if_neg fun hboth => hboth.2 hshown]
  dsimp only
  rw [hedit, seedCarried_of_ne hne, ite_self]

/-! ## Keys -/

theorem currentValue_seed {x : Binary64} (hx : x.isFinite) (hshown : s.shown ≠ .error)
    (hbuffer : s.buffer = .seed (carriedText x)) : s.currentValue = some (unsigned x) := by
  rw [currentValue, if_neg hshown, hbuffer, if_neg nofun, if_pos (Buffer.isSingleNumber_seed _),
    Buffer.currentNumber_seed]
  exact read?_carriedText hx

/-- A number that is current becomes a hundredth of it. -/
theorem percent_of_some {x : Binary64} (hshown : s.shown ≠ .error) (hne : (s.seedCarried carriedText).buffer ≠ {})
    (hx : (s.seedCarried carriedText).currentValue = some x) :
    s.percent = { s with
      buffer := .seed (carriedText (x / .ofNat 100)), phase := .building
      shown := .result (displayText (x / .ofNat 100)) } := by
  have hfull : (s.seedCarried carriedText).buffer.isEmpty = false :=
    Bool.eq_false_iff.mpr (mt Buffer.isEmpty_iff.mp hne)
  rw [percent, if_neg hshown]
  dsimp only
  rw [hfull, hx]
  dsimp only
  rw [seedCarried_lastResult]

/-- Without a current number the percent key does nothing but seed the buffer. -/
theorem percent_of_none (hshown : s.shown ≠ .error)
    (h : (s.seedCarried carriedText).buffer = {} ∨ (s.seedCarried carriedText).currentValue = none) :
    s.percent = s.seedCarried carriedText := by
  rw [percent, if_neg hshown]
  dsimp only
  split
  · rename_i hfull hx
    rcases h with h | h
    · rw [Buffer.isEmpty_iff.mpr h] at hfull
      simp at hfull
    · rw [h] at hx
      simp at hx
  · rfl

/-- What the backspace key leaves of the displayed text. -/
theorem backspace_eq (hshown : s.shown ≠ .error) :
    s.backspace = { s with
      buffer := (s.editShown.seedCarried displayText).buffer.pop.2
      phase := if (s.editShown.seedCarried displayText).buffer.pop.2.isEmpty ∧ s.lastResult = none then .fresh
        else s.phase
      shown := .expression } := by
  have hseed := seedCarried_eq displayText s.editShown
  have hedit := editShown_eq hshown
  rw [backspace, if_neg hshown]
  dsimp only
  generalize s.editShown.seedCarried displayText = seeded at hseed ⊢
  generalize s.editShown = edited at hseed hedit
  rw [hseed]
  dsimp only
  rw [hedit]

theorem evaluate_of_some {s : Session} {o : Outcome} (ho : s.evaluate.2 = some o) :
    o.result = Keypad.evaluate s.buffer.tokens ∧ s.evaluate.1 = s.conclude o.result := by
  unfold Session.evaluate at ho ⊢
  by_cases hidle : s.phase = .fresh ∨ s.buffer.isEmpty = true
  · rw [if_pos hidle] at ho
    simp at ho
  · rw [if_neg hidle] at ho ⊢
    obtain rfl := Option.some.inj ho
    exact ⟨rfl, rfl⟩

theorem evaluate_of_value {s : Session} {o : Outcome} {v : Binary64} (ho : s.evaluate.2 = some o)
    (hv : o.value? = some v) : Keypad.evaluate s.buffer.tokens = .ok v ∧ s.evaluate.1 = s.conclude (.ok v) := by
  obtain ⟨htokens, hafter⟩ := evaluate_of_some ho
  have hresult : o.result = .ok v := Outcome.value?_eq_some_iff.mp hv
  exact ⟨htokens.symm.trans hresult, hafter.trans (congrArg s.conclude hresult)⟩

/-! ## The carried result -/

theorem digit_lastResult {c : Char} : (s.digit c).lastResult = s.lastResult := by
  unfold Session.digit
  split
  · exact prepareNumber_lastResult
  · rfl

theorem operator_lastResult {op : Operator} : (s.operator op).lastResult = s.lastResult := by
  unfold Session.operator
  split
  · rfl
  · dsimp only
    split <;> exact seedCarried_lastResult

theorem percent_lastResult : s.percent.lastResult = s.lastResult := by
  unfold Session.percent
  split
  · rfl
  · dsimp only
    split <;> exact seedCarried_lastResult

theorem backspace_lastResult : s.backspace.lastResult = s.lastResult := by
  unfold Session.backspace
  split
  · rfl
  · exact seedCarried_lastResult.trans editShown_lastResult

/-- The carried result changes only with an evaluation that has an outcome, and with the clear key. -/
theorem press_lastResult (s : Session) (key : Key) :
    (s.press key).1.lastResult = s.lastResult ∨ (key = .evaluate ∧ (s.press key).2.isSome) ∨ key = .clear := by
  cases key with
  | digit c => exact Or.inl digit_lastResult
  | dot => exact Or.inl prepareNumber_lastResult
  | operator op => exact Or.inl operator_lastResult
  | percent => exact Or.inl percent_lastResult
  | backspace => exact Or.inl backspace_lastResult
  | evaluate =>
    by_cases hidle : s.phase = .fresh ∨ s.buffer.isEmpty = true
    · exact Or.inl (by rw [press, Session.evaluate, if_pos hidle])
    · exact Or.inr (Or.inl ⟨rfl, by rw [press, Session.evaluate, if_neg hidle]; rfl⟩)
  | clear => exact Or.inr (Or.inr rfl)

end Keypad.Session
