import Keypad.Proofs.Buffer.Typing
import Keypad.Proofs.Session.Coherent

/-!
# Keypad.Proofs.Session.Chain — expressions that go on from a result

* `pressAll_entry`: while an expression is entered, digit, point and operator keys only type into the buffer.
* `pressAll_conclude`: after a result they leave its carried text in front of what they type.
* `evaluate_carried`: a buffer that starts with a carried text has the value that starts with the number.
* `evaluate_chain`: a result is carried in full, into the display as far as it fits and into the next expression.
-/

namespace Keypad.Session

open Binary64

/-! ## Typing into an expression -/

/-- An expression with at least one token is being entered. -/
structure Entering (s : Session) : Prop where
  phase : s.phase = .building
  shown : s.shown = .expression
  buffer : s.buffer ≠ {}

theorem Entering.entering_self {s : Session} (h : s.Entering) : s.entering s.buffer = s := by
  obtain ⟨buffer, last, phase, shown⟩ := s
  obtain rfl : phase = .building := h.phase
  obtain rfl : shown = .expression := h.shown
  rfl

theorem Entering.entering {s : Session} {buffer : Buffer} (h : buffer ≠ {}) : (s.entering buffer).Entering :=
  ⟨rfl, rfl, h⟩

theorem Entering.press {s : Session} (h : s.Entering) {key : Key} (hkey : key.isEntry) :
    (s.press key).1 = s.entering (s.buffer.typed key) := by
  cases key with
  | digit c =>
    show s.digit c = s.entering ((if c.isDigit = true then _ else none).getD s.buffer)
    rw [Session.digit, prepareNumber_of_expression h.shown h.buffer]
    split
    · rfl
    · exact h.entering_self.symm
  | dot =>
    show s.dot = _
    rw [Session.dot, prepareNumber_of_expression h.shown h.buffer]
    rfl
  | operator op =>
    have hidle : ¬ (s.phase = .fresh ∧ s.lastResult = none) := by
      rw [h.phase]
      exact fun hboth => nomatch hboth.1
    show s.operator op = s.entering ((s.buffer.pushOperator? op).getD s.buffer)
    rw [Session.operator, if_neg hidle, seedCarried_of_ne h.buffer]
    dsimp only
    cases s.buffer.pushOperator? op with
    | none => exact h.entering_self.symm
    | some buffer => rfl
  | percent => cases hkey
  | backspace => cases hkey
  | evaluate => cases hkey
  | clear => cases hkey

theorem Entering.evaluate {s : Session} (h : s.Entering) :
    s.evaluate.2 = some (Outcome.ofTokens s.buffer.text s.buffer.tokens) := by
  have hidle : ¬ (s.phase = .fresh ∨ s.buffer.isEmpty = true) := by
    rw [h.phase, Buffer.isEmpty_iff]
    exact not_or.mpr ⟨nofun, h.buffer⟩
  rw [Session.evaluate, if_neg hidle]

/-- **Entry keys** type into the buffer, one after the other. -/
theorem pressAll_entry {s : Session} (h : s.Entering) {keys : List Key} (hkeys : ∀ key ∈ keys, key.isEntry) :
    (s.pressAll keys).1 = s.entering (keys.foldl Buffer.typed s.buffer) := by
  induction keys generalizing s with
  | nil => exact h.entering_self.symm
  | cons key keys ih =>
    obtain ⟨hkey, hkeys⟩ := List.forall_mem_cons.mp hkeys
    have hpress := h.press hkey
    have hnext : (s.press key).1.Entering := hpress ▸ .entering (Buffer.typed_ne_empty h.buffer key)
    rw [List.foldl_cons]
    show ((s.press key).1.pressAll keys).1 = _
    rw [ih hnext hkeys, hpress]
    rfl

/-! ## Going on from a result -/

/-- After a result, an operator and the keys after it leave the carried text where it is. -/
theorem pressAll_conclude (s : Session) (x : Binary64) (op : Operator) {keys : List Key}
    (hkeys : ∀ key ∈ keys, key.isEntry) :
    (((s.conclude (.ok x)).pressAll (.operator op :: keys)).1) =
      (s.conclude (.ok x)).entering
        ((keys.foldl Buffer.typed (.afterOperator op)).onto [.literal (carriedText x)]) := by
  have hoperator : (s.conclude (.ok x)).operator op =
      (s.conclude (.ok x)).entering ((Buffer.afterOperator op).onto [.literal (carriedText x)]) := rfl
  have hentering : ((s.conclude (.ok x)).operator op).Entering := hoperator ▸ .entering nofun
  show (((s.conclude (.ok x)).operator op).pressAll keys).1 = _
  rw [pressAll_entry hentering hkeys, hoperator,
    ← Buffer.foldl_typed_onto _ (Buffer.continues_afterOperator op) keys]
  rfl

/-- A carried text stands for its number, whatever follows it. -/
theorem evaluate_carried {x : Binary64} (hx : x.isFinite) (hzero : x ≠ signedZero true) {later : List Token}
    (hlater : (Runs.ofTokens later).first = []) :
    Keypad.evaluate (.literal (carriedText x) :: later) =
      (Grammar.expression x (Runs.ofTokens later).rest).map (roundTo · resultPlaces) := by
  have hruns : Runs.ofTokens (.literal (carriedText x) :: later) = ⟨carriedText x, (Runs.ofTokens later).rest⟩ := by
    show Runs.mk (carriedText x ++ (Runs.ofTokens later).first) (Runs.ofTokens later).rest = _
    rw [hlater, List.append_nil]
  rw [evaluate_eq_expression, hruns]
  dsimp only
  rw [readOperand_carriedText hx, unsigned_of_ne hzero]
  rfl

theorem tokens_onto (b : Buffer) (below : List Token) : (b.onto below).tokens = below.reverse ++ b.tokens :=
  List.reverse_append

/-- **A result** is carried in full.  It is the current number, and the display shows its first characters; an operator
and the keys after it are typed behind its carried text, and the expression is evaluated with the number itself. -/
theorem evaluate_chain {s : Session} {o : Outcome} {v : Binary64} (ho : s.evaluate.2 = some o)
    (hv : o.value? = some v) :
    s.evaluate.1.lastResult = some v ∧ s.evaluate.1.currentValue = some v ∧
      s.evaluate.1.display = (carriedText v).take displayWidth ∧
      ∀ (op : Operator) (keys : List Key), (∀ key ∈ keys, key.isEntry) →
        let typed := (s.evaluate.1.pressAll (.operator op :: keys)).1
        typed.buffer.tokens = .literal (carriedText v) :: continuation op keys ∧
          (Runs.ofTokens (continuation op keys)).first = [] ∧
          (typed.press .evaluate).2 = some ⟨typed.buffer.text,
            (Grammar.expression v (Runs.ofTokens (continuation op keys)).rest).map (roundTo · resultPlaces)⟩ := by
  obtain ⟨hresult, hafter⟩ := evaluate_of_value ho hv
  obtain ⟨hfinite, hzero⟩ := isFinite_of_evaluate hresult
  have hshown : (s.conclude (.ok v)).shown ≠ .error := fun h : Shown.result (displayText v) = .error => nomatch h
  rw [hafter]
  refine ⟨rfl, ?_, rfl, fun op keys hkeys => ?_⟩
  · rw [currentValue_seed hfinite hshown rfl, unsigned_of_ne hzero]
  · have hfirst := continuation_first op keys
    have htokens : ((keys.foldl Buffer.typed (.afterOperator op)).onto [.literal (carriedText v)]).tokens =
        .literal (carriedText v) :: continuation op keys := tokens_onto _ _
    have hne : (keys.foldl Buffer.typed (.afterOperator op)).onto [.literal (carriedText v)] ≠ {} := by
      intro hempty
      rw [hempty] at htokens
      cases htokens
    rw [pressAll_conclude s v op hkeys]
    refine ⟨htokens, hfirst, (Entering.entering hne).evaluate.trans ?_⟩
    rw [Outcome.ofTokens]
    refine congrArg some (congrArg (Outcome.mk _) ?_)
    exact (congrArg Keypad.evaluate htokens).trans (evaluate_carried hfinite hzero hfirst)

/-- One divided by three, and the quotient times three. -/
theorem evaluate_chain_third :
    let s := (({} : Session).pressAll [.digit '1', .operator .divide, .digit '3']).1
    let typed := (s.evaluate.1.pressAll [.operator .multiply, .digit '3']).1
    let third := ofScientific false 333333 (-6)
    s.evaluate.2 = some ⟨"1÷3".toList, .ok third⟩ ∧ s.evaluate.1.lastResult = some third ∧
      s.evaluate.1.currentValue = some third ∧ s.evaluate.1.display = "0.333333".toList ∧
      (∀ key ∈ [Key.digit '3'], key.isEntry) ∧
      typed.buffer.tokens = [.literal "0.333333".toList, .operator .multiply, .literal ['3']] ∧
      (typed.press .evaluate).2 = some ⟨typed.buffer.text, .ok (ofScientific false 999999 (-6))⟩ := by
  intro s typed third
  have hvalue : Keypad.evaluate [.literal ['1'], .operator .divide, .literal ['3']] = .ok third := by decide +kernel
  have hevaluate : s.evaluate.2 = some ⟨"1÷3".toList, .ok third⟩ :=
    congrArg (fun result => some (Outcome.mk "1÷3".toList result)) hvalue
  have hkeys : ∀ key ∈ [Key.digit '3'], key.isEntry := by decide
  have hcarried : carriedText third = "0.333333".toList := by decide +kernel
  have hproduct : (Grammar.expression third [(.multiply, ['3'])]).map (roundTo · resultPlaces) =
      .ok (ofScientific false 999999 (-6)) := by decide +kernel
  obtain ⟨hlast, hcurrent, hdisplay, hchain⟩ := evaluate_chain hevaluate rfl
  obtain ⟨htokens, -, houtcome⟩ := hchain .multiply [.digit '3'] hkeys
  rw [hcarried] at hdisplay htokens
  exact ⟨hevaluate, hlast, hcurrent, hdisplay, hkeys, htokens,
    houtcome.trans (congrArg (fun result => some (Outcome.mk typed.buffer.text result)) hproduct)⟩

end Keypad.Session
