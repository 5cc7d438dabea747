import Keypad.Proofs.Results
import Keypad.Proofs.Session.Keys
import Keypad.Session.Reachable

/-!
# Keypad.Proofs.Session.Coherent — the parts of a session agree

* `Coherent`: how the buffer, the carried result, the phase and what is shown depend on each other.
* `Sound`: a coherent session whose buffer is laid out as one that is typed.
* `Sound.press`: every key keeps a session sound; `Reachable.sound`: so keys never lead out of it.
* `layout_pressAll`, `coherent_pressAll`: the buffer, and the session as a whole, after any keys.
-/

namespace Keypad.Session

open Binary64

/-- How the parts of a session depend on each other. -/
structure Coherent (s : Session) : Prop where
  /-- An error leaves nothing behind. -/
  error : s.shown = .error → s.buffer = {} ∧ s.lastResult = none ∧ s.phase = .fresh
  /-- A result is shown of the number in the buffer; before the next key that is the carried one. -/
  result : ∀ t, s.shown = .result t → ∃ x : Binary64, x.isFinite ∧ s.buffer = .seed (carriedText x) ∧
    t = displayText x ∧ (s.phase = .fresh → s.lastResult = some x)
  /-- Before the first key of an expression, and without a carried result, there is nothing. -/
  fresh : s.phase = .fresh → s.lastResult = none → s.buffer = {} ∧ ∀ t, s.shown ≠ .result t
  /-- Where there is nothing, a new expression starts. -/
  empty : s.buffer = {} → s.lastResult = none → s.phase = .fresh
  /-- A finite number is carried, and zero without a sign. -/
  carried : ∀ x, s.lastResult = some x → x.isFinite ∧ x ≠ signedZero true

/-- A coherent session whose buffer has the layout of typed expressions. -/
structure Sound (s : Session) : Prop where
  layout : Layout s.buffer.tokens
  coherent : s.Coherent

variable {s : Session} {render : Binary64 → List Char}

/-! ## Layout of a prepared buffer -/

theorem layout_seedCarried (hlayout : Layout s.buffer.tokens) (hfinite : ∀ x, s.lastResult = some x → x.isFinite)
    (hrender : ∀ x : Binary64, x.isFinite → Layout (Buffer.seed (render x)).tokens) :
    Layout (s.seedCarried render).buffer.tokens := by
  rcases seedCarried_cases render s with ⟨h, -⟩ | ⟨x, -, hx, h⟩
  · rwa [h]
  · rw [h]
    exact hrender x (hfinite x hx)

theorem Sound.layout_editShown (h : s.Sound) : Layout s.editShown.buffer.tokens := by
  unfold editShown
  split
  · rename_i t hshown
    obtain ⟨x, hx, -, rfl, -⟩ := h.coherent.result t hshown
    exact .seed_displayText hx
  · exact h.layout

theorem Sound.layout_edited (h : s.Sound) : Layout (s.editShown.seedCarried displayText).buffer.tokens := by
  refine layout_seedCarried h.layout_editShown (fun x hx => ?_) fun x hx => .seed_displayText hx
  rw [editShown_lastResult] at hx
  exact (h.coherent.carried x hx).1

theorem Sound.layout_seeded (h : s.Sound) : Layout (s.seedCarried carriedText).buffer.tokens :=
  layout_seedCarried h.layout (fun x hx => (h.coherent.carried x hx).1) fun _ hx => .seed_carriedText hx

theorem Sound.layout_prepareNumber (h : s.Sound) : Layout s.prepareNumber.buffer.tokens := by
  unfold prepareNumber
  split
  · exact .nil
  · dsimp only
    split
    · exact h.layout_edited
    · exact h.layout_editShown

/-! ## The keys -/

theorem Sound.entering {buffer : Buffer} (h : s.Sound) {ready : Session} (hlast : ready.lastResult = s.lastResult)
    (hlayout : Layout buffer.tokens) (hne : buffer ≠ {}) : (ready.entering buffer).Sound where
  layout := hlayout
  coherent :=
    { error := nofun
      result := nofun
      fresh := nofun
      empty := fun hempty _ => absurd hempty hne
      carried := fun x hx => h.coherent.carried x (hlast ▸ hx) }

theorem Sound.digit (h : s.Sound) (c : Char) : (s.digit c).Sound := by
  unfold Session.digit
  by_cases hc : c.isDigit = true
  · rw [if_pos hc]
    refine h.entering prepareNumber_lastResult ?_ (Buffer.pushDigit?_ne_empty c)
    cases hpush : s.prepareNumber.buffer.pushDigit? c with
    | none => exact h.layout_prepareNumber
    | some buffer => exact h.layout_prepareNumber.pushDigit? hc hpush
  · rw [if_neg hc]
    exact h

theorem Sound.dot (h : s.Sound) : s.dot.Sound := by
  refine h.entering prepareNumber_lastResult ?_ Buffer.pushDot?_ne_empty
  cases hpush : s.prepareNumber.buffer.pushDot? with
  | none => exact h.layout_prepareNumber
  | some buffer => exact h.layout_prepareNumber.pushDot? hpush

theorem Sound.operator (h : s.Sound) (op : Operator) : (s.operator op).Sound := by
  unfold Session.operator
  by_cases hidle : s.phase = .fresh ∧ s.lastResult = none
  · rw [if_pos hidle]
    exact h
  rw [if_neg hidle]
  dsimp only
  cases hpush : (s.seedCarried carriedText).buffer.pushOperator? op with
  | some buffer =>
    exact h.entering seedCarried_lastResult (h.layout_seeded.pushOperator? hpush) (Buffer.pushOperator?_ne_empty hpush)
  | none =>
    -- the buffer is still empty, so nothing was carried into it
    rcases seedCarried_cases carriedText s with ⟨hsame, -⟩ | ⟨x, -, -, hseeded⟩
    · rw [hsame]
      exact h
    · rw [hseeded] at hpush
      cases hpush

/-- A number that takes the place of the buffer, with its text on the display. -/
theorem Sound.showing (h : s.Sound) {x : Binary64} (hx : x.isFinite) :
    ({ s with
      buffer := .seed (carriedText x), phase := .building
      shown := .result (displayText x) } : Session).Sound where
  layout := .seed_carriedText hx
  coherent :=
    { error := nofun
      result := fun _ ht => ⟨x, hx, rfl, (Shown.result.inj ht).symm, nofun⟩
      fresh := nofun
      empty := nofun
      carried := h.coherent.carried }

theorem isFinite_of_currentValue {x : Binary64} (hlayout : Layout s.buffer.tokens) (h : s.currentValue = some x) :
    x.isFinite := by
  unfold currentValue at h
  split at h
  · simp at h
  · split at h
    · obtain rfl := Option.some.inj h
      rfl
    · split at h
      · exact hlayout.isFinite_currentNumber h
      · simp at h

theorem Sound.percent (h : s.Sound) : s.percent.Sound := by
  by_cases hshown : s.shown = .error
  · rw [Session.percent, if_pos hshown]
    exact h
  by_cases hnone : (s.seedCarried carriedText).buffer = {} ∨ (s.seedCarried carriedText).currentValue = none
  · rw [percent_of_none hshown hnone]
    rcases seedCarried_cases carriedText s with ⟨hsame, -⟩ | ⟨x, -, hx, hseeded⟩
    · rw [hsame]
      exact h
    · -- a carried number would have been current
      have hfinite := (h.coherent.carried x hx).1
      have hcurrent := currentValue_seed (s := { s with buffer := .seed (carriedText x) }) hfinite hshown rfl
      rw [hseeded, hcurrent] at hnone
      rcases hnone with hnone | hnone <;> cases hnone
  · obtain ⟨hne, hsome⟩ := not_or.mp hnone
    obtain ⟨x, hx⟩ := Option.ne_none_iff_exists'.mp hsome
    rw [percent_of_some hshown hne hx]
    exact h.showing (isFinite_div_ofNat (isFinite_of_currentValue h.layout_seeded hx) (by omega) (by decide))

theorem Sound.backspace (h : s.Sound) : s.backspace.Sound := by
  by_cases hshown : s.shown = .error
  · rw [Session.backspace, if_pos hshown]
    exact h
  rw [backspace_eq hshown]
  refine ⟨h.layout_edited.pop, ?_, ?_, ?_, ?_, h.coherent.carried⟩
  · intro herror
    simp at herror
  · intro t hresult
    simp at hresult
  · intro hphase hnone
    refine ⟨?_, fun t ht => by cases ht⟩
    show (s.editShown.seedCarried displayText).buffer.pop.2 = {}
    by_cases hempty : (s.editShown.seedCarried displayText).buffer.pop.2 = {}
    · exact hempty
    · -- without a carried result, there was nothing to remove
      have hfresh : s.phase = .fresh := (if_neg fun hboth => hempty (Buffer.isEmpty_iff.mp hboth.1)).symm.trans hphase
      have hlast : s.lastResult = none := hnone
      obtain ⟨hbuffer, hresult⟩ := h.coherent.fresh hfresh hlast
      rw [editShown_of_ne hresult, seedCarried_of_none hlast, hbuffer]
      rfl
  · intro hempty hnone
    exact if_pos ⟨Buffer.isEmpty_iff.mpr hempty, hnone⟩

theorem Sound.start : ({} : Session).Sound where
  layout := .nil
  coherent :=
    { error := nofun
      result := nofun
      fresh := fun _ _ => ⟨rfl, nofun⟩
      empty := fun _ _ => rfl
      carried := fun x hx => absurd hx.symm (Option.some_ne_none x) }

/-- A finite value is carried, any error starts from nothing. -/
theorem Sound.conclude (s : Session) {result : Except EvalError Binary64}
    (h : ∀ x, result = .ok x → x.isFinite ∧ x ≠ signedZero true) : (s.conclude result).Sound := by
  cases result with
  | ok x =>
    obtain ⟨hx, hzero⟩ := h x rfl
    refine ⟨.seed_carriedText hx, nofun, ?_, nofun, nofun, ?_⟩
    · exact fun _ ht => ⟨x, hx, rfl, (Shown.result.inj ht).symm, fun _ => rfl⟩
    · exact fun _ hy => Option.some.inj hy ▸ ⟨hx, hzero⟩
  | error e =>
    refine ⟨.nil, fun _ => ⟨rfl, rfl, rfl⟩, nofun, fun _ _ => ⟨rfl, nofun⟩, fun _ _ => rfl, ?_⟩
    exact fun x hx => absurd hx.symm (Option.some_ne_none x)

theorem Sound.evaluate (h : s.Sound) : s.evaluate.1.Sound := by
  unfold Session.evaluate
  by_cases hidle : s.phase = .fresh ∨ s.buffer.isEmpty = true
  · rw [if_pos hidle]
    exact h
  · rw [if_neg hidle]
    exact .conclude s fun x hx => isFinite_of_evaluate hx

/-! ## Runs of keys -/

/-- **The step**: every key keeps a session sound. -/
theorem Sound.press (h : s.Sound) (key : Key) : (s.press key).1.Sound := by
  cases key with
  | digit c => exact h.digit c
  | dot => exact h.dot
  | operator op => exact h.operator op
  | percent => exact h.percent
  | backspace => exact h.backspace
  | evaluate => exact h.evaluate
  | clear => exact .start

theorem Reachable.sound (h : s.Reachable) : s.Sound := by
  induction h with
  | start => exact .start
  | press key _ ih => exact ih.press key

/-- **The buffer**: whatever keys are pressed, it holds operands with single operators between them. -/
theorem layout_pressAll (keys : List Key) : Layout (({} : Session).pressAll keys).1.buffer.tokens :=
  (Reachable.start.pressAll keys).sound.layout

/-- **The session**: whatever keys are pressed, its parts agree, and the next key changes the carried result only if it
evaluates an expression or clears. -/
theorem coherent_pressAll (keys : List Key) (key : Key) :
    let s := (({} : Session).pressAll keys).1
    s.Coherent ∧
      ((s.press key).1.lastResult = s.lastResult ∨ (key = .evaluate ∧ (s.press key).2.isSome) ∨ key = .clear) :=
  ⟨(Reachable.start.pressAll keys).sound.coherent, press_lastResult _ key⟩

end Keypad.Session
