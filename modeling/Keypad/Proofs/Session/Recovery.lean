import Keypad.Proofs.Session.Keys
import Keypad.Session.Reachable

/-!
# Keypad.Proofs.Session.Recovery — after an evaluation that failed

A failed evaluation forgets everything and leaves only the error on the display.

* `failed`: the session that shows an error; `evaluate_of_error`: every failed evaluation ends in it.
* `Key.restarts`: the keys that take the error off the display.
* `press_failed_of_restarts`, `press_of_not_restarts`: such a key makes it a new session, any other does nothing.
* `pressAll_failed_of_restarts`, `pressAll_of_not_restarts`: keys have the outcomes they have on a new session.
* `recover_of_evaluate`: so nothing of a failed evaluation is left.
-/

namespace Keypad

/-- The keys that start a new expression whatever the display shows. -/
def Key.restarts : Key → Bool
  | digit c => c.isDigit
  | dot | clear => true
  | _ => false

namespace Session

/-- The session that shows an error. -/
def failed : Session := { shown := .error }

theorem display_failed : failed.display = errorMarker := rfl

theorem evaluate_of_error {s : Session} {o : Outcome} {e : EvalError} (ho : s.evaluate.2 = some o)
    (he : o.result = .error e) : s.evaluate.1 = failed := by
  obtain ⟨-, hafter⟩ := evaluate_of_some ho
  rw [hafter, he]
  rfl

/-! ## One key -/

theorem press_failed_of_restarts {key : Key} (h : key.restarts = true) :
    failed.press key = ({} : Session).press key := by
  cases key with
  | digit c =>
    have hc : c.isDigit = true := h
    show (failed.digit c, none) = (({} : Session).digit c, none)
    rw [digit, if_pos hc, digit, if_pos hc]
    rfl
  | dot => rfl
  | operator op => cases h
  | percent => cases h
  | backspace => cases h
  | evaluate => cases h
  | clear => rfl

/-- Other keys find nothing to go on from, neither after an error nor on a new session. -/
theorem press_of_not_restarts {key : Key} (h : key.restarts = false) :
    failed.press key = (failed, none) ∧ ({} : Session).press key = ({}, none) := by
  cases key with
  | digit c =>
    have hc : ¬ c.isDigit = true := Bool.eq_false_iff.mp h
    show (failed.digit c, none) = _ ∧ (({} : Session).digit c, none) = _
    rw [digit, if_neg hc, digit, if_neg hc]
    exact ⟨rfl, rfl⟩
  | dot => cases h
  | operator op => exact ⟨rfl, rfl⟩
  | percent => exact ⟨rfl, rfl⟩
  | backspace => exact ⟨rfl, rfl⟩
  | evaluate => exact ⟨rfl, rfl⟩
  | clear => cases h

/-! ## Many keys -/

theorem pressAll_failed_of_restarts {keys : List Key} (h : keys.any Key.restarts = true) :
    failed.pressAll keys = ({} : Session).pressAll keys := by
  induction keys with
  | nil => cases h
  | cons key keys ih =>
    cases hkey : key.restarts with
    | true => rw [pressAll_cons, pressAll_cons, press_failed_of_restarts hkey]
    | false =>
      obtain ⟨hfailed, hnew⟩ := press_of_not_restarts hkey
      rw [List.any_cons, hkey, Bool.false_or] at h
      rw [pressAll_cons, pressAll_cons, hfailed, hnew, ih h]

/-- Keys of which none starts a new expression do nothing. -/
theorem pressAll_of_not_restarts {keys : List Key} (h : keys.any Key.restarts = false) :
    failed.pressAll keys = (failed, keys.map fun _ => none) ∧
      ({} : Session).pressAll keys = ({}, keys.map fun _ => none) := by
  induction keys with
  | nil => exact ⟨rfl, rfl⟩
  | cons key keys ih =>
    rw [List.any_cons, Bool.or_eq_false_iff] at h
    obtain ⟨hkey, hkeys⟩ := h
    obtain ⟨hfailed, hnew⟩ := press_of_not_restarts hkey
    obtain ⟨ihfailed, ihnew⟩ := ih hkeys
    rw [pressAll_cons, pressAll_cons, hfailed, hnew, ihfailed, ihnew]
    exact ⟨rfl, rfl⟩

/-- **Recovery**: after an evaluation that failed, keys have the outcomes that they have on a new session.  With the
first key that starts a new expression the two sessions are the same; up to it the error stays on the display. -/
theorem recover_of_evaluate {s : Session} {o : Outcome} {e : EvalError} (ho : s.evaluate.2 = some o)
    (he : o.result = .error e) (keys : List Key) :
    (s.evaluate.1.pressAll keys).2 = (({} : Session).pressAll keys).2 ∧
      ((∃ key ∈ keys, key.restarts = true) →
        (s.evaluate.1.pressAll keys).1 = (({} : Session).pressAll keys).1) ∧
      ((∀ key ∈ keys, key.restarts = false) →
        (s.evaluate.1.pressAll keys).1 = s.evaluate.1 ∧ (s.evaluate.1.pressAll keys).1.display = errorMarker) := by
  rw [evaluate_of_error ho he]
  refine ⟨?_, fun h => ?_, fun h => ?_⟩
  · cases hkeys : keys.any Key.restarts with
    | true => rw [pressAll_failed_of_restarts hkeys]
    | false =>
      obtain ⟨hfailed, hnew⟩ := pressAll_of_not_restarts hkeys
      rw [hfailed, hnew]
  · rw [pressAll_failed_of_restarts (List.any_eq_true.mpr h)]
  · obtain ⟨hfailed, -⟩ := pressAll_of_not_restarts (List.any_eq_false.mpr fun key hkey => by simp [h key hkey])
    rw [hfailed]
    exact ⟨rfl, display_failed⟩

theorem evaluate_zero_divisor :
    (({} : Session).pressAll [.digit '1', .operator .divide, .digit '0']).1.evaluate.2 =
      some ⟨"1÷0".toList, .error .divisionByZero⟩ := by
  have hresult : Keypad.evaluate [.literal ['1'], .operator .divide, .literal ['0']] = .error .divisionByZero := by
    decide +kernel
  exact congrArg (fun result => some (Outcome.mk "1÷0".toList result)) hresult

/-- One divided by zero, and keys after it. -/
theorem recover_of_zero_divisor :
    let s := (({} : Session).pressAll [.digit '1', .operator .divide, .digit '0']).1
    let o : Outcome := ⟨"1÷0".toList, .error .divisionByZero⟩
    let keys := [Key.percent, .operator .add, .digit '5', .evaluate]
    s.evaluate.2 = some o ∧ o.result = .error .divisionByZero ∧
      (s.evaluate.1.pressAll keys).2 = (({} : Session).pressAll keys).2 ∧
      (∃ key ∈ keys, key.restarts = true) ∧
      (s.evaluate.1.pressAll keys).1 = (({} : Session).pressAll keys).1 ∧
      (∀ key ∈ [Key.percent, .operator .add], key.restarts = false) ∧
      (s.evaluate.1.pressAll [.percent, .operator .add]).1.display = "Error".toList := by
  intro s o keys
  have hrestarts : ∃ key ∈ keys, key.restarts = true := by decide
  have hnot : ∀ key ∈ [Key.percent, .operator .add], key.restarts = false := by decide
  obtain ⟨houtcomes, hsame, -⟩ := recover_of_evaluate evaluate_zero_divisor rfl keys
  obtain ⟨-, -, hbefore⟩ := recover_of_evaluate evaluate_zero_divisor rfl [.percent, .operator .add]
  exact ⟨evaluate_zero_divisor, rfl, houtcomes, hrestarts, hsame hrestarts, hnot, (hbefore hnot).2⟩

/-- A digit key whose character is no digit leaves the error on the display, where a new session shows zero. -/
theorem letter_after_error_ne :
    let s := (({} : Session).pressAll [.digit '1', .operator .divide, .digit '0']).1
    s.Reachable ∧ s.evaluate.2 = some ⟨"1÷0".toList, .error .divisionByZero⟩ ∧
      (s.evaluate.1.pressAll [.digit 'a']).1 ≠ (({} : Session).pressAll [.digit 'a']).1 := by
  intro s
  have hfailed : s.evaluate.1 = failed := evaluate_of_error evaluate_zero_divisor rfl
  refine ⟨Reachable.start.pressAll _, evaluate_zero_divisor, ?_⟩
  rw [hfailed]
  decide

end Session

end Keypad
