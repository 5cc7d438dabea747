import Keypad.Proofs.Buffer.Erase
import Keypad.Proofs.Session.Coherent

/-!
# Keypad.Proofs.Session.Erase — the backspace key

* `erasable`: the text that the key shortens; `backspace_erases`: it takes off the last character and nothing else.
* `press_of_display_ne`: a key that changes a shown expression typed into its buffer.
* `backspace_undoes`: right after a key that made the display one character longer, it puts everything back.
-/

namespace Keypad.Session

open Binary64

variable {s : Session} {key : Key}

/-! ## One character less -/

/-- The text that the backspace key shortens: a shown result, the expression, or the carried result as it is shown. -/
def erasable (s : Session) : List Char :=
  match s.shown with
  | .result text => text
  | _ => if s.buffer = {} then (s.lastResult.map displayText).getD [] else s.buffer.text

theorem text_edited (hshown : s.shown ≠ .error) : (s.editShown.seedCarried displayText).buffer.text = s.erasable := by
  obtain ⟨buffer, last, phase, shown⟩ := s
  cases shown with
  | error => exact absurd rfl hshown
  | result text =>
    have hseed : (Session.mk (.seed text) last phase .expression).seedCarried displayText =
        ⟨.seed text, last, phase, .expression⟩ := seedCarried_of_ne nofun
    show ((Session.mk (.seed text) last phase .expression).seedCarried displayText).buffer.text = text
    rw [hseed]
    exact Buffer.text_seed text
  | expression =>
    show ((Session.mk buffer last phase .expression).seedCarried displayText).buffer.text =
      if buffer = {} then (last.map displayText).getD [] else buffer.text
    rcases seedCarried_cases displayText ⟨buffer, last, phase, .expression⟩ with ⟨h, hnone⟩ | ⟨x, hempty, hlast, h⟩
    · rw [h]
      split
      · rename_i hempty
        obtain rfl : last = none := hnone hempty
        rw [hempty]
        rfl
      · rfl
    · obtain rfl : buffer = {} := hempty
      obtain rfl : last = some x := hlast
      rw [h, if_pos rfl]
      exact Buffer.text_seed (displayText x)

/-- **Backspace** takes the last character off the text, and the token that would become empty.  The carried result
stays; with nothing left and nothing carried a new expression starts.  An error stays as it is. -/
theorem backspace_erases (hs : s.Reachable) :
    (s.shown = .error → s.backspace = s) ∧
      (s.shown ≠ .error →
        s.backspace.buffer.text = s.erasable.dropLast ∧ (∀ t ∈ s.backspace.buffer.tokens, t.text ≠ []) ∧
          s.backspace.shown = .expression ∧ s.backspace.lastResult = s.lastResult ∧
          s.backspace.phase = if s.backspace.buffer = {} ∧ s.lastResult = none then .fresh else s.phase) := by
  refine ⟨fun hshown => if_pos hshown, fun hshown => ?_⟩
  have hlayout := hs.sound.layout_edited
  rw [backspace_eq hshown]
  refine ⟨?_, hlayout.pop.token_text_ne_nil, rfl, rfl, ?_⟩
  · rw [← text_edited hshown]
    exact Buffer.text_pop hlayout.token_text_ne_nil
  · simp only [Buffer.isEmpty_iff]

/-- A third, as it is shown and carried, without its last digit. -/
theorem backspace_erases_third :
    let s := (({} : Session).pressAll [.digit '1', .operator .divide, .digit '3', .evaluate]).1
    s.Reachable ∧ s.shown ≠ .error ∧ s.erasable = "0.333333".toList ∧ s.backspace.buffer.text = "0.33333".toList ∧
      (∀ t ∈ s.backspace.buffer.tokens, t.text ≠ []) ∧ s.backspace.shown = .expression ∧
      s.backspace.lastResult = s.lastResult ∧ s.backspace.phase = .fresh := by
  intro s
  have hs : s.Reachable := Reachable.start.pressAll _
  have hshown : s.shown ≠ .error := by decide +kernel
  have hphase : s.phase = .fresh := by decide +kernel
  have herasable : s.erasable = "0.333333".toList := by decide +kernel
  obtain ⟨htext, htokens, hexpression, hlast, hafter⟩ := (backspace_erases hs).2 hshown
  rw [herasable] at htext
  rw [hphase, ite_self] at hafter
  exact ⟨hs, hshown, herasable, htext, htokens, hexpression, hlast, hafter⟩

/-! ## Taking back a key -/

/-- A digit, point or operator that changes the display of an expression was typed into its buffer. -/
theorem press_of_display_ne (hshown : s.shown = .expression) (hne : s.buffer ≠ {}) (hkey : key.isEntry)
    (hdisplay : (s.press key).1.display ≠ s.display) :
    ∃ buffer, s.buffer.push? key = some buffer ∧ (s.press key).1 = s.entering buffer := by
  have hready := prepareNumber_of_expression hshown hne
  have hseeded : s.seedCarried carriedText = s := seedCarried_of_ne hne
  have hsame : (s.entering s.buffer).display = s.display := by
    rw [display, display, hshown]
    rfl
  cases key with
  | digit c =>
    have hpress : (s.press (.digit c)).1 = s.digit c := rfl
    rw [hpress, digit, hready] at hdisplay ⊢
    dsimp only at hdisplay ⊢
    split at hdisplay
    · rename_i hc
      cases hpush : s.buffer.pushDigit? c with
      | none =>
        rw [hpush] at hdisplay
        exact absurd hsame hdisplay
      | some buffer =>
        rw [if_pos hc]
        exact ⟨buffer, (if_pos hc).trans hpush, rfl⟩
    · exact absurd rfl hdisplay
  | dot =>
    have hpress : (s.press .dot).1 = s.dot := rfl
    rw [hpress, dot, hready] at hdisplay ⊢
    cases hpush : s.buffer.pushDot? with
    | none =>
      rw [hpush] at hdisplay
      exact absurd hsame hdisplay
    | some buffer => exact ⟨buffer, hpush, rfl⟩
  | operator op =>
    have hpress : (s.press (.operator op)).1 = s.operator op := rfl
    rw [hpress, operator, hseeded] at hdisplay ⊢
    split at hdisplay
    · exact absurd rfl hdisplay
    · rename_i hidle
      rw [if_neg hidle]
      dsimp only at hdisplay ⊢
      cases hpush : s.buffer.pushOperator? op with
      | none =>
        rw [hpush] at hdisplay
        exact absurd rfl hdisplay
      | some buffer => exact ⟨buffer, hpush, rfl⟩
  | percent => cases hkey
  | backspace => cases hkey
  | evaluate => cases hkey
  | clear => cases hkey

theorem backspace_entering {buffer : Buffer} (hshown : s.shown = .expression) (hne : s.buffer ≠ {})
    (hbuffer : buffer ≠ {}) (hpop : buffer.pop.2 = s.buffer) : (s.entering buffer).backspace = { s with phase := .building } := by
  have hshown' : (s.entering buffer).shown ≠ .error := nofun
  have hedit : (s.entering buffer).editShown = s.entering buffer := rfl
  have hseed : (s.entering buffer).seedCarried displayText = s.entering buffer := seedCarried_of_ne hbuffer
  have hphase : (if buffer.pop.2.isEmpty = true ∧ s.lastResult = none then Phase.fresh else .building) = .building :=
    if_neg fun hboth => hne (hpop.symm.trans (Buffer.isEmpty_iff.mp hboth.1))
  rw [backspace_eq hshown', hedit, hseed]
  show Session.mk buffer.pop.2 s.lastResult (if buffer.pop.2.isEmpty = true ∧ s.lastResult = none then .fresh
    else .building) .expression = _
  rw [hphase, hpop, ← hshown]

/-- **Backspace undoes**: pressed right after a digit, point or operator that made the display of an expression one
character longer, it puts back the tokens, the display and the values; and the session as a whole, if it was being
built. -/
theorem backspace_undoes (hs : s.Reachable) (hshown : s.shown = .expression) (hne : s.buffer ≠ {}) (hkey : key.isEntry)
    (hlonger : (s.press key).1.display.length = s.display.length + 1) :
    let after := ((s.press key).1.press .backspace).1
    after.buffer.tokens = s.buffer.tokens ∧ after.display = s.display ∧ after.currentValue = s.currentValue ∧
      after.lastResult = s.lastResult ∧ (s.phase = .building → after = s) := by
  intro after
  obtain ⟨buffer, hpush, hpress⟩ := press_of_display_ne hshown hne hkey fun h => by rw [h] at hlonger; omega
  have hbuffer : buffer ≠ {} := Buffer.push?_ne_empty hpush
  have htext {b : Buffer} (hb : b ≠ {}) {t : Session} (ht : t.shown = .expression) (htb : t.buffer = b) :
      t.display = b.text := by
    rw [display, ht, htb]
    exact if_neg (mt Buffer.isEmpty_iff.mp hb)
  rw [hpress, htext hbuffer rfl rfl, htext hne hshown rfl] at hlonger
  have hpop := Buffer.pop_of_push? hs.sound.layout.token_text_ne_nil hpush hlonger
  have hafter : after = { s with phase := .building } := by
    show (s.press key).1.backspace = _
    rw [hpress, backspace_entering hshown hne hbuffer hpop]
  rw [hafter]
  refine ⟨rfl, rfl, rfl, rfl, fun hphase => ?_⟩
  rw [← hphase]

/-- A digit behind what is left of a carried third, and an operator behind a typed number. -/
theorem backspace_undoes_third :
    let s := (({} : Session).pressAll [.digit '1', .operator .divide, .digit '3', .evaluate, .backspace]).1
    let t := (({} : Session).pressAll [.digit '2', .dot]).1
    (s.Reachable ∧ s.shown = .expression ∧ s.buffer ≠ {} ∧ (Key.digit '9').isEntry = true ∧
        (s.press (.digit '9')).1.display.length = s.display.length + 1 ∧
        s.buffer.tokens = [.literal "0.33333".toList] ∧
        ((s.press (.digit '9')).1.press .backspace).1.buffer.tokens = s.buffer.tokens) ∧
      (t.Reachable ∧ t.shown = .expression ∧ t.buffer ≠ {} ∧ (Key.operator .add).isEntry = true ∧
        (t.press (.operator .add)).1.display.length = t.display.length + 1 ∧ t.phase = .building ∧
        ((t.press (.operator .add)).1.press .backspace).1 = t) := by
  intro s t
  have hs : s.Reachable := Reachable.start.pressAll _
  have ht : t.Reachable := Reachable.start.pressAll _
  have hfacts : s.shown = .expression ∧ s.buffer ≠ {} ∧ (Key.digit '9').isEntry = true ∧
      (s.press (.digit '9')).1.display.length = s.display.length + 1 ∧
      s.buffer.tokens = [.literal "0.33333".toList] := by decide +kernel
  obtain ⟨hshown, hne, hkey, hlonger, htokens⟩ := hfacts
  have hfacts' : t.shown = .expression ∧ t.buffer ≠ {} ∧ (Key.operator .add).isEntry = true ∧
      (t.press (.operator .add)).1.display.length = t.display.length + 1 ∧ t.phase = .building := by decide
  obtain ⟨hshown', hne', hkey', hlonger', hphase⟩ := hfacts'
  obtain ⟨hback, -⟩ := backspace_undoes hs hshown hne hkey hlonger
  obtain ⟨-, -, -, -, hback'⟩ := backspace_undoes ht hshown' hne' hkey' hlonger'
  exact ⟨⟨hs, hshown, hne, hkey, hlonger, htokens, hback⟩, ht, hshown', hne', hkey', hlonger', hphase, hback' hphase⟩

end Keypad.Session
