import Keypad.Proofs.Pending

/-!
# Keypad.Proofs.Evaluator — the machine computes what the grammar says

Both read an expression from left to right, but the machine cuts it at every operator while the grammar descends into
terms.  So the grammar is resumed in the middle: `Pending.descend` reads on from pending operations, and `descend_cons`
cuts off its first operator.

* `sum_eq_lastTerm`: a sum is its last term with what stands before it.
* `scan_finish`: from pending operations on, the machine gives what the grammar gives from there.
* `evaluate_eq_expression`, `evaluate_eq_grammar`: the value or error of every token list.
-/

namespace Keypad

open Grammar Machine

/-! ## Reading on from pending operations -/

/-- A sum that goes on is its last term, settled with the sum before it. -/
theorem sum_eq_lastTerm (before : Option (Binary64 × Operator)) (term : Binary64)
    (rest : List (Operator × List Char)) :
    (settle before term >>= fun value => sum value rest) =
      lastTerm before term rest >>= fun h => settle h.1 h.2 := by
  induction before, term, rest using lastTerm.induct with
  | case1 before term =>
    rw [lastTerm]
    show _ = settle before term
    cases settle before term with
    | error e => rfl
    | ok value => show sum value [] = _; rw [sum]
  | case2 before term op text rest ih =>
    rw [lastTerm_cons]
    cases settle before term with
    | error e => rfl
    | ok value =>
      show sum value ((op, text) :: rest) = _
      rw [sum_cons]
      cases readOperand text with
      | error e => rfl
      | ok operand =>
        show product operand rest >>= _ = (product operand rest >>= _) >>= _
        cases hp : product operand rest with
        | error e => rfl
        | ok h => exact ih value operand h.1 h.2 hp

namespace Pending

/-- Reads an operand and all that follows it up to the last term, which is left with the sum before it. -/
def descend (p : Pending) (text : List Char) (rest : List (Operator × List Char)) :
    Except EvalError (Option (Binary64 × Operator) × Binary64) := do
  let operand ← readOperand text
  let value ← settle p.term operand
  let (term, later) ← product value rest
  lastTerm p.sum term later

theorem descend_nil (p : Pending) (text : List Char) :
    p.descend text [] = readOperand text >>= fun operand => (settle p.term operand).map fun term => (p.sum, term) := by
  rw [descend]
  cases readOperand text with
  | error e => rfl
  | ok operand =>
    show (settle p.term operand >>= fun value => product value [] >>= fun h => lastTerm p.sum h.1 h.2) =
      (settle p.term operand).map fun term => (p.sum, term)
    cases settle p.term operand with
    | error e => rfl
    | ok value =>
      show (product value [] >>= fun h => lastTerm p.sum h.1 h.2) = .ok (p.sum, value)
      rw [product]
      show lastTerm p.sum value [] = _
      rw [lastTerm]

/-- **The first operator**: what follows it is read on from the operations that are pending then. -/
theorem descend_cons (p : Pending) (text : List Char) (op : Operator) (next : List Char)
    (rest : List (Operator × List Char)) :
    p.descend text ((op, next) :: rest) =
      readOperand text >>= fun operand => p.push operand op >>= fun q => q.descend next rest := by
  rw [descend]
  cases readOperand text with
  | error e => rfl
  | ok operand =>
    show (settle p.term operand >>= fun value =>
      product value ((op, next) :: rest) >>= fun h => lastTerm p.sum h.1 h.2) = p.push operand op >>= _
    rw [push]
    cases settle p.term operand with
    | error e => rfl
    | ok value =>
      show (product value ((op, next) :: rest) >>= fun h => lastTerm p.sum h.1 h.2) = p.follow value op >>= _
      rw [product]
      cases hop : op.isFactor with
      | true =>
        rw [if_pos rfl, follow_factor p value hop]
        show _ = descend _ next rest
        rw [descend]
        cases readOperand next with
        | error e => rfl
        | ok operand =>
          show ((op.apply value operand >>= fun next => product next rest) >>= _) = op.apply value operand >>= _
          cases op.apply value operand <;> rfl
      | false =>
        rw [if_neg (by decide), follow_sum p value hop]
        show lastTerm p.sum value ((op, next) :: rest) = _
        rw [lastTerm_cons]
        cases settle p.sum value <;> rfl

/-- The value of an expression that goes on from pending operations, or its error. -/
def resume (p : Pending) (text : List Char) (rest : List (Operator × List Char)) : Except EvalError Binary64 :=
  match rest.getLast? with
  | none => if text = [] then .error p.stuckError else p.descend text [] >>= fun h => settle h.1 h.2
  | some (op, []) => .error (missing (p.descend text rest.dropLast >>= fun h => attempt op h.1 h.2))
  | some (_, _ :: _) => p.descend text rest >>= fun h => settle h.1 h.2

/-- An error on the way to the last operator is the one that is reported. -/
theorem missing_bind {α : Type} (x : Except EvalError α) (f : α → Except EvalError Binary64) :
    (.error (missing (x >>= f)) : Except EvalError Binary64) = x >>= fun a => .error (missing (f a)) := by
  cases x <;> rfl

/-- Without an operand after it, an operator leaves its pending operations stuck. -/
theorem missing_follow (p : Pending) (term : Binary64) (op : Operator) :
    (.error (missing (attempt op p.sum term)) : Except EvalError Binary64) =
      p.follow term op >>= fun q => .error q.stuckError := by
  cases hop : op.isFactor with
  | true => rw [follow_factor p term hop]; rfl
  | false =>
    have hattempt : attempt op p.sum term = settle p.sum term := by rw [attempt, hop, if_neg (by decide)]
    rw [hattempt, follow_sum p term hop]
    cases settle p.sum term <;> rfl

theorem resume_single (p : Pending) (text : List Char) (op : Operator) :
    p.resume text [(op, [])] = readOperand text >>= fun operand => p.push operand op >>= fun q => q.resume [] [] := by
  show (.error (missing (p.descend text [] >>= fun h => attempt op h.1 h.2)) : Except EvalError Binary64) = _
  rw [missing_bind, descend_nil]
  cases readOperand text with
  | error e => rfl
  | ok operand =>
    show ((settle p.term operand).map fun term => (p.sum, term)) >>= _ = p.push operand op >>= _
    rw [push]
    cases settle p.term operand with
    | error e => rfl
    | ok term => exact missing_follow p term op

theorem resume_of_getLast_nil (p : Pending) (text : List Char) {rest : List (Operator × List Char)} {op : Operator}
    (h : rest.getLast? = some (op, [])) :
    p.resume text rest = p.descend text rest.dropLast >>= fun h => .error (missing (attempt op h.1 h.2)) := by
  rw [resume, h]
  exact missing_bind _ _

theorem resume_of_getLast_cons (p : Pending) (text : List Char) {rest : List (Operator × List Char)} {op : Operator}
    {c : Char} {cs : List Char} (h : rest.getLast? = some (op, c :: cs)) :
    p.resume text rest = p.descend text rest >>= fun h => settle h.1 h.2 := by
  rw [resume, h]

theorem resume_cons (p : Pending) (text : List Char) (op : Operator) (next : List Char)
    (rest : List (Operator × List Char)) :
    p.resume text ((op, next) :: rest) =
      readOperand text >>= fun operand => p.push operand op >>= fun q => q.resume next rest := by
  rcases rest with _ | ⟨second, rest⟩
  · rcases next with _ | ⟨c, cs⟩
    · exact resume_single p text op
    · rw [resume_of_getLast_cons p text rfl, descend_cons]
      simp only [bind_assoc]
      rfl
  · obtain ⟨⟨last, lastText⟩, hlast⟩ := Option.isSome_iff_exists.mp
      (List.getLast?_isSome.mpr (List.cons_ne_nil second rest))
    have hlast' : ((op, next) :: second :: rest).getLast? = some (last, lastText) := by
      rw [List.getLast?_cons_cons, hlast]
    rcases lastText with _ | ⟨c, cs⟩
    · simp only [resume_of_getLast_nil _ _ hlast, resume_of_getLast_nil _ _ hlast', List.dropLast_cons_cons,
        descend_cons, bind_assoc]
    · simp only [resume_of_getLast_cons _ _ hlast, resume_of_getLast_cons _ _ hlast', descend_cons, bind_assoc]

/-- With nothing pending the whole expression is read by the grammar. -/
theorem resume_start (text : List Char) (rest : List (Operator × List Char)) :
    start.resume text rest = readOperand text >>= fun operand => expression operand rest := by
  have hdescend (ops : List (Operator × List Char)) : start.descend text ops =
      readOperand text >>= fun operand => product operand ops >>= fun h => lastTerm none h.1 h.2 := rfl
  cases hlast : rest.getLast? with
  | none =>
    obtain rfl := List.getLast?_eq_none_iff.mp hlast
    rcases text with _ | ⟨c, cs⟩
    · rfl
    · show start.descend (c :: cs) [] >>= _ = _
      rw [descend_nil]
      cases readOperand (c :: cs) with
      | error e => rfl
      | ok operand => simp [expression, product, Grammar.sum, start, settle, bind, Except.bind, Except.map]
  | some last =>
    obtain ⟨op, lastText⟩ := last
    rcases lastText with _ | ⟨c, cs⟩
    · rw [resume_of_getLast_nil _ _ hlast, hdescend]
      simp only [expression, hlast, early, missing_bind, bind_assoc]
    · rw [resume_of_getLast_cons _ _ hlast, hdescend]
      simp only [expression, hlast, bind_assoc, ← sum_eq_lastTerm]
      rfl

end Pending

/-! ## The whole expression -/

theorem mapError_failed_error {α : Type} (x : Except EvalError α) :
    (x.mapError Fault.failed).mapError Fault.error = x := by
  cases x <;> rfl

/-- **The run**: from pending operations on, the machine gives what the grammar gives. -/
theorem scan_finish : ∀ (tokens : List Token) (p : Pending) (text : List Char),
    ((p.machine text).scan tokens >>= finish).mapError Fault.error =
      p.resume (text ++ (Runs.ofTokens tokens).first) (Runs.ofTokens tokens).rest
  | [], p, [] => p.finish_machine_nil
  | [], p, c :: cs => by
    show (p.machine (c :: cs)).finish.mapError Fault.error = p.resume (c :: cs ++ []) []
    rw [p.finish_machine (List.cons_ne_nil c cs), mapError_failed_error, List.append_nil]
    show _ = p.descend (c :: cs) [] >>= fun h => settle h.1 h.2
    rw [p.descend_nil]
    cases readOperand (c :: cs) with
    | error e => rfl
    | ok operand =>
      show settle p.term operand >>= _ = (settle p.term operand).map _ >>= _
      cases settle p.term operand <;> rfl
  | .literal t :: tokens, p, text => by
    have ih := scan_finish tokens p (text ++ t)
    rw [List.append_assoc] at ih
    exact ih
  | .dot :: tokens, p, text => by
    have ih := scan_finish tokens p (text ++ ['.'])
    rw [List.append_assoc] at ih
    exact ih
  | .operator op :: tokens, p, text => by
    rw [scan_cons, p.step_operator]
    show _ = p.resume (text ++ []) ((op, (Runs.ofTokens tokens).first) :: (Runs.ofTokens tokens).rest)
    rw [List.append_nil, p.resume_cons]
    cases readOperand text with
    | error e => rfl
    | ok operand =>
      show ((((p.push operand op).mapError Fault.failed).map (·.machine [])) >>= _ >>= _).mapError Fault.error =
        p.push operand op >>= _
      cases p.push operand op with
      | error e => rfl
      | ok q => exact scan_finish tokens q []

/-- The value of every token list, complete or not, by the grammar. -/
theorem evaluate_eq_expression (tokens : List Token) :
    evaluate tokens =
      (readOperand (Runs.ofTokens tokens).first >>= fun operand =>
        expression operand (Runs.ofTokens tokens).rest).map (roundTo · resultPlaces) := by
  rw [← Pending.resume_start]
  exact congrArg (Except.map (roundTo · resultPlaces)) (scan_finish tokens Pending.start [])

theorem expression_of_last_ne {r : Runs} (h : r.last ≠ []) :
    (readOperand r.first >>= fun operand => expression operand r.rest) = r.value := by
  obtain ⟨first, rest⟩ := r
  cases hlast : rest.getLast? with
  | none => simp only [expression, hlast]; rfl
  | some last =>
    obtain ⟨op, lastText⟩ := last
    rcases lastText with _ | ⟨c, cs⟩
    · simp [Runs.last, hlast] at h
    · simp only [expression, hlast]; rfl

theorem expression_of_last_eq {r : Runs} (h : r.last = []) :
    (readOperand r.first >>= fun operand => expression operand r.rest) = .error r.danglingError := by
  obtain ⟨first, rest⟩ := r
  rw [Runs.danglingError]
  cases hlast : rest.getLast? with
  | none =>
    obtain rfl := List.getLast?_eq_none_iff.mp hlast
    have hfirst : first = [] := h
    subst hfirst
    rfl
  | some last =>
    obtain ⟨op, lastText⟩ := last
    have hnil : lastText = [] := by simpa [Runs.last, hlast] using h
    subst hnil
    simp only [expression, hlast, Pending.missing_bind]

/-- **The evaluator**: an expression with a last operand has the rounded value, or the error, of the sum of terms that
its runs spell; without one it always has an error. -/
theorem evaluate_eq_grammar (tokens : List Token) :
    evaluate tokens =
      if (Runs.ofTokens tokens).last = [] then .error (Runs.ofTokens tokens).danglingError
      else (Runs.ofTokens tokens).value.map (roundTo · resultPlaces) := by
  rw [evaluate_eq_expression]
  by_cases h : (Runs.ofTokens tokens).last = []
  · rw [if_pos h, expression_of_last_eq h]; rfl
  · rw [if_neg h, expression_of_last_ne h]

end Keypad
