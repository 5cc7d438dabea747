import Keypad.Proofs.Buffer.Retype
import Keypad.Proofs.Session.Coherent

/-!
# Keypad.Proofs.Session.Retype — the text of a session's expression, typed again

* `Unseeded`: nothing was put into the buffer but by typing; `Unseeded.press`: every key that computes no number keeps
  it so.
* `retype_text`: the text in the buffer can be typed into an empty one, with the same value, and without a computed
  number with the same tokens.
-/

namespace Keypad.Session

/-- The buffer holds what was typed, and nothing is carried that could be put into it. -/
structure Unseeded (s : Session) : Prop where
  lastResult : s.lastResult = none
  shown : s.shown = .expression
  plain : Plain s.buffer.stack

variable {s : Session}

theorem Unseeded.start : ({} : Session).Unseeded := ⟨rfl, rfl, fun _ h => nomatch h⟩

theorem Unseeded.editShown (h : s.Unseeded) : s.editShown = s :=
  editShown_of_ne fun t ht => by rw [h.shown] at ht; cases ht

theorem Unseeded.prepareNumber (h : s.Unseeded) : s.prepareNumber = s := by
  rw [Session.prepareNumber, if_neg fun hboth => hboth.2 h.shown]
  dsimp only
  rw [h.editShown, seedCarried_of_none h.lastResult, ite_self]

theorem Unseeded.entering {buffer : Buffer} (h : s.Unseeded) (hplain : Plain buffer.stack) :
    (s.entering buffer).Unseeded :=
  ⟨h.lastResult, rfl, hplain⟩

/-- **The step**: a key that computes no number only types into the buffer, or removes from it. -/
theorem Unseeded.press (h : s.Unseeded) {key : Key} (hkey : key ≠ .evaluate ∧ key ≠ .percent) :
    (s.press key).1.Unseeded := by
  cases key with
  | digit c =>
    show (s.digit c).Unseeded
    rw [digit, h.prepareNumber]
    by_cases hc : c.isDigit = true
    · rw [if_pos hc]
      refine h.entering ?_
      cases hpush : s.buffer.pushDigit? c with
      | none => exact h.plain
      | some buffer => exact h.plain.pushDigit? hc hpush
    · rw [if_neg hc]
      exact h
  | dot =>
    show (s.dot).Unseeded
    rw [dot, h.prepareNumber]
    refine h.entering ?_
    cases hpush : s.buffer.pushDot? with
    | none => exact h.plain
    | some buffer => exact h.plain.pushDot? hpush
  | operator op =>
    show (s.operator op).Unseeded
    rw [operator, seedCarried_of_none h.lastResult]
    split
    · exact h
    · dsimp only
      cases hpush : s.buffer.pushOperator? op with
      | none => exact h
      | some buffer => exact h.entering (h.plain.pushOperator? hpush)
  | percent => exact absurd rfl hkey.2
  | backspace =>
    show (s.backspace).Unseeded
    have hshown : s.shown ≠ .error := by rw [h.shown]; nofun
    rw [backspace_eq hshown, h.editShown, seedCarried_of_none h.lastResult]
    exact ⟨h.lastResult, rfl, h.plain.pop⟩
  | evaluate => exact absurd rfl hkey.1
  | clear => exact .start

theorem Unseeded.pressAll {keys : List Key} (hkeys : ∀ key ∈ keys, key ≠ .evaluate ∧ key ≠ .percent) :
    ∀ {s : Session}, s.Unseeded → (s.pressAll keys).1.Unseeded := by
  induction keys with
  | nil => exact fun h => h
  | cons key keys ih =>
    intro s h
    obtain ⟨hkey, hkeys⟩ := List.forall_mem_cons.mp hkeys
    exact ih hkeys (h.press hkey)

/-- **The text** of an expression without a minus sign, all of whose numbers fit the display, can be typed into an empty
buffer.  It spells itself there and has the same value or error; if no key computed a number, it has the same tokens. -/
theorem retype_text {keys : List Key} (hs : (({} : Session).pressAll keys).1 = s) (hdash : '-' ∉ s.buffer.text)
    (hfits : ∀ text ∈ (Runs.ofTokens s.buffer.tokens).texts, text.length ≤ displayWidth) :
    ∃ typed, ({} : Buffer).typeText? s.buffer.text = some typed ∧ typed.text = s.buffer.text ∧
      Keypad.evaluate typed.tokens = Keypad.evaluate s.buffer.tokens ∧
      ((∀ key ∈ keys, key ≠ .evaluate ∧ key ≠ .percent) → typed.tokens = s.buffer.tokens) := by
  have hlayout : Layout s.buffer.tokens := hs ▸ (Reachable.start.pressAll keys).sound.layout
  obtain ⟨typed, h⟩ := hlayout.retyped hdash hfits
  have htokens : (⟨typed.reverse⟩ : Buffer).tokens = typed := List.reverse_reverse typed
  refine ⟨⟨typed.reverse⟩, h.typing, ?_, ?_, fun hkeys => ?_⟩
  · rw [Buffer.text, htokens, h.text, Buffer.text]
  · have hruns : Runs.ofTokens typed = Runs.ofTokens s.buffer.tokens := h.runs ⟨[], []⟩
    rw [htokens, evaluate_eq_expression, evaluate_eq_expression, hruns]
  · have hunseeded : s.Unseeded := hs ▸ Unseeded.pressAll hkeys .start
    rw [htokens]
    exact h.plain (hunseeded.plain.of_subset fun t ht => List.mem_reverse.mp ht)

/-- Twice a third, with the third carried as one literal, and a quotient of two typed numbers. -/
theorem retype_text_third :
    let s := (({} : Session).pressAll
      [.digit '1', .operator .divide, .digit '3', .evaluate, .operator .multiply, .digit '2']).1
    let keys := [Key.dot, .digit '5', .operator .add, .operator .divide, .digit '0']
    let t := (({} : Session).pressAll keys).1
    (s.buffer.text = "0.333333×2".toList ∧ '-' ∉ s.buffer.text ∧
        (∀ text ∈ (Runs.ofTokens s.buffer.tokens).texts, text.length ≤ displayWidth) ∧
        ∃ typed, ({} : Buffer).typeText? s.buffer.text = some typed ∧ typed.text = s.buffer.text ∧
          Keypad.evaluate typed.tokens = Keypad.evaluate s.buffer.tokens) ∧
      (t.buffer.text = "0.5÷0".toList ∧ '-' ∉ t.buffer.text ∧
        (∀ text ∈ (Runs.ofTokens t.buffer.tokens).texts, text.length ≤ displayWidth) ∧
        (∀ key ∈ keys, key ≠ .evaluate ∧ key ≠ .percent) ∧
        ∃ typed, ({} : Buffer).typeText? t.buffer.text = some typed ∧ typed.tokens = t.buffer.tokens) := by
  intro s keys t
  have hs : s.buffer = ⟨[.literal ['2'], .operator .multiply, .literal "0.333333".toList]⟩ := by decide +kernel
  have hdash : '-' ∉ s.buffer.text := by rw [hs]; decide
  have hfits : ∀ text ∈ (Runs.ofTokens s.buffer.tokens).texts, text.length ≤ displayWidth := by rw [hs]; decide
  have hdash' : '-' ∉ t.buffer.text := by decide
  have hfits' : ∀ text ∈ (Runs.ofTokens t.buffer.tokens).texts, text.length ≤ displayWidth := by decide
  have hkeys : ∀ key ∈ keys, key ≠ .evaluate ∧ key ≠ .percent := by decide
  obtain ⟨typed, htyping, htext, hvalue, -⟩ := retype_text rfl hdash hfits
  obtain ⟨typed', htyping', -, -, htokens'⟩ := retype_text rfl hdash' hfits'
  exact ⟨⟨by rw [hs]; rfl, hdash, hfits, typed, htyping, htext, hvalue⟩,
    rfl, hdash', hfits', hkeys, typed', htyping', htokens' hkeys⟩

end Keypad.Session
