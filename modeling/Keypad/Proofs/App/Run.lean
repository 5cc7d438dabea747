import Keypad.Program
import Keypad.Proofs.App.Exchange

/-!
# Keypad.Proofs.App.Run — scripts that are run

* `run_append`: a script in two parts is run as the one after the other; a character without a key stops all of it.
* `LastOutcome`: the outcome of the last key that evaluated; `lastOutcome_pressAll_iff`: the calculator finds that one.
* `pressAll_idle`: a key that had nothing to evaluate may as well be left out.
* `conversionLines_eq_iff`: the line that an amount is converted on.
* `run_prints`: the lines that a script prints.
-/

namespace Keypad

open Text

/-! ## Scripts in two parts -/

namespace App

/-- **Two parts of a script** are read as one: with the first error met, counted from the start, or with the keys of
both.  So the calculator ends up as if it had run the one and then the other; and if any character lacks a key, then it
stays as it is and nothing is printed but the error, or nothing at all if the script was all there was to run. -/
theorem run_append (a b : List Char) :
    (∀ e, Script.parse a = .error e → Script.parse (a ++ b) = .error e) ∧
      (∀ first e, Script.parse a = .ok first → Script.parse b = .error e →
        Script.parse (a ++ b) = .error { e with position := e.position + a.length }) ∧
      (∀ first second, Script.parse a = .ok first → Script.parse b = .ok second →
        Script.parse (a ++ b) = .ok (first ++ second)) ∧
      ∀ app : App,
        (∀ first second, Script.parse a = .ok first → Script.parse b = .ok second →
          ∃ middle after lines more both, app.run a = .ok (middle, lines) ∧ middle.run b = .ok (after, more) ∧
            app.run (a ++ b) = .ok (after, both)) ∧
        ((∃ c ∈ a ++ b, isBlank c = false ∧ Key.ofChar? c = none) →
          ∃ e, Script.parse (a ++ b) = .error e ∧ app.run (a ++ b) = .error e ∧
            app.execute (.keys (a ++ b)) = { app := app, lines := [e.message] } ∧
            Program.runKeys app (String.ofList (a ++ b)) = { lines := [], status := .failure }) := by
  have hboth : ∀ first second, Script.parse a = .ok first → Script.parse b = .ok second →
      Script.parse (a ++ b) = .ok (first ++ second) := by
    intro first second hfirst hsecond
    rw [Script.parse_append, hfirst, hsecond]
    rfl
  refine ⟨fun e h => ?_, fun first e hfirst h => ?_, hboth, fun app => ⟨fun first second hfirst hsecond => ?_,
    fun hunknown => ?_⟩⟩
  · rw [Script.parse_append, h]
    rfl
  · rw [Script.parse_append, hfirst, h]
    rfl
  · have hrun := run_of_parse app (hboth first second hfirst hsecond)
    rw [← pressed_pressed] at hrun
    exact ⟨_, _, _, _, _, run_of_parse app hfirst, run_of_parse (app.pressed first) hsecond, hrun⟩
  · obtain ⟨e, he⟩ := Script.exists_parse_error_iff.mpr hunknown
    have hrun : app.run (a ++ b) = .error e := by
      rw [run, he]
      rfl
    refine ⟨e, he, hrun, ?_, ?_⟩
    · rw [execute, hrun]
    · rw [Program.runKeys, String.toList_ofList, hrun]

end App

/-! ## The last outcome -/

namespace Session

variable {s : Session} {o : Outcome}

/-- The outcome is that of the last of the keys that evaluated an expression. -/
def LastOutcome (s : Session) (keys : List Key) (o : Outcome) : Prop :=
  ∃ before after, keys = before ++ .evaluate :: after ∧ (s.pressAll before).1.evaluate.2 = some o ∧
    ∀ outcome ∈ ((s.pressAll before).1.evaluate.1.pressAll after).2, outcome = none

theorem press_evaluate (s : Session) : s.press .evaluate = s.evaluate := rfl

/-- Only one key has outcomes. -/
theorem press_eq_evaluate {key : Key} (h : (s.press key).2 = some o) : key = .evaluate := by
  cases key with
  | evaluate => rfl
  | digit c => cases h
  | dot => cases h
  | operator op => cases h
  | percent => cases h
  | backspace => cases h
  | clear => cases h

/-- Without an outcome there was nothing to evaluate. -/
theorem evaluate_of_none (h : s.evaluate.2 = none) : s.evaluate = (s, none) := by
  unfold Session.evaluate at h ⊢
  by_cases hidle : s.phase = .fresh ∨ s.buffer.isEmpty = true
  · rw [if_pos hidle]
  · rw [if_neg hidle] at h
    cases h

end Session

namespace App

open Session

variable {s : Session} {o : Outcome}

theorem lastOutcome_append (xs ys : List (Option Outcome)) :
    lastOutcome (xs ++ ys) = (lastOutcome ys).or (lastOutcome xs) := by
  rw [lastOutcome, List.filterMap_append, List.getLast?_append]
  rfl

theorem lastOutcome_of_none {outcomes : List (Option Outcome)} (h : ∀ outcome ∈ outcomes, outcome = none) :
    lastOutcome outcomes = none := by
  have hnil : outcomes.filterMap id = [] := List.filterMap_eq_nil_iff.mpr h
  rw [lastOutcome, hnil]
  rfl

/-- **The last outcome** that is found is that of the last key that evaluated. -/
theorem lastOutcome_pressAll_iff {keys : List Key} :
    lastOutcome (s.pressAll keys).2 = some o ↔ s.LastOutcome keys o := by
  constructor
  · induction keys using List.reverseRecOn with
    | nil =>
      intro h
      cases h
    | append_singleton keys key ih =>
      intro h
      have hlast : (s.pressAll (keys ++ [key])).2 =
          (s.pressAll keys).2 ++ [((s.pressAll keys).1.press key).2] := by
        rw [pressAll_append]
        rfl
      rw [hlast, lastOutcome_append] at h
      cases hkey : ((s.pressAll keys).1.press key).2 with
      | some o' =>
        -- the last key evaluated
        have hsingle : lastOutcome [some o'] = some o' := rfl
        rw [hkey, hsingle, Option.some_or] at h
        obtain rfl := Option.some.inj h
        obtain rfl := press_eq_evaluate hkey
        rw [press_evaluate] at hkey
        exact ⟨keys, [], rfl, hkey, List.forall_mem_nil _⟩
      | none =>
        have hsingle : lastOutcome [none] = none := rfl
        rw [hkey, hsingle, Option.none_or] at h
        obtain ⟨before, after, rfl, houtcome, hafter⟩ := ih h
        refine ⟨before, after ++ [key], by rw [List.append_assoc, List.cons_append], houtcome, ?_⟩
        rw [pressAll_append]
        refine List.forall_mem_append.mpr ⟨hafter, List.forall_mem_singleton.mpr ?_⟩
        rw [pressAll_append] at hkey
        exact hkey
  · rintro ⟨before, after, rfl, houtcome, hafter⟩
    have hpressed : (s.pressAll (before ++ .evaluate :: after)).2 = (s.pressAll before).2 ++
        ([(s.pressAll before).1.evaluate.2] ++ ((s.pressAll before).1.evaluate.1.pressAll after).2) := by
      rw [pressAll_append, pressAll_cons, press_evaluate]
      rfl
    rw [hpressed, lastOutcome_append, lastOutcome_append, lastOutcome_of_none hafter, houtcome]
    rfl

/-- Its value, if it has one. -/
theorem bind_lastOutcome_eq_some_iff {keys : List Key} {value : Binary64} :
    (lastOutcome (s.pressAll keys).2).bind Outcome.value? = some value ↔
      ∃ o, s.LastOutcome keys o ∧ o.result = .ok value := by
  simp only [Option.bind_eq_some_iff, lastOutcome_pressAll_iff, Outcome.value?_eq_some_iff]

/-- **A key that had nothing to evaluate** changes neither the session nor the last outcome. -/
theorem pressAll_idle {before : List Key} (h : (s.pressAll before).1.evaluate.2 = none) (after : List Key) :
    (s.pressAll (before ++ .evaluate :: after)).1 = (s.pressAll (before ++ after)).1 ∧
      lastOutcome (s.pressAll (before ++ .evaluate :: after)).2 = lastOutcome (s.pressAll (before ++ after)).2 := by
  rw [pressAll_append, pressAll_append, pressAll_cons, press_evaluate, evaluate_of_none h]
  refine ⟨rfl, ?_⟩
  show lastOutcome ((s.pressAll before).2 ++ none :: ((s.pressAll before).1.pressAll after).2) = _
  rw [lastOutcome_append, lastOutcome_append]
  rfl

/-! ## What a script prints -/

variable (app : App)

/-- **The line of a converted amount**, printed if there is a table with a usable rate for both currencies. -/
theorem conversionLines_eq_iff (value : Binary64) (text : String) :
    app.conversionLines value = [text] ↔ ∃ table sourceRate targetRate, app.rates = some table ∧
      table.usable? app.pair.source = some sourceRate ∧ table.usable? app.pair.target = some targetRate ∧
      text = s!"{convertedText (value / sourceRate * targetRate)} {app.pair.target}" := by
  cases htable : app.rates with
  | none => simp [conversionLines, htable]
  | some table =>
    rw [conversionLines_eq app htable, Pair.amountLines_eq_iff]
    constructor
    · rintro ⟨sourceRate, targetRate, hrates⟩
      exact ⟨table, sourceRate, targetRate, rfl, hrates⟩
    · rintro ⟨table', sourceRate, targetRate, h, hrates⟩
      obtain rfl := Option.some.inj h
      exact ⟨sourceRate, targetRate, hrates⟩

/-- So there is one for a value that may be missing if it is not. -/
theorem flatMap_conversionLines_eq_iff (value? : Option Binary64) (text : String) :
    value?.toList.flatMap app.conversionLines = [text] ↔
      ∃ value, value? = some value ∧ app.conversionLines value = [text] := by
  cases value? with
  | none => simp
  | some value => simp

theorem length_conversionLines_le (value : Binary64) : (app.conversionLines value).length ≤ 1 := by
  unfold conversionLines
  cases app.rates with
  | none => exact Nat.zero_le 1
  | some table =>
    dsimp only
    cases app.pair.convertedText value table with
    | ok text => exact le_rfl
    | error e => exact Nat.zero_le 1

/-- The lines after the display are those of the last outcome's value. -/
theorem run_of_lastOutcome {line : List Char} {keys : List Key} (hline : Script.parse line = .ok keys) :
    app.run line = .ok (app.pressed keys, String.ofList (app.pressed keys).session.display ::
      ((lastOutcome (app.session.pressAll keys).2).bind Outcome.value?).toList.flatMap app.conversionLines) :=
  run_of_parse app hline

/-- **What a script prints**: the display after its last key, and below it at most one line.  That line is there exactly
if some key evaluated an expression, the last that did had a value, and both currencies have a usable rate; it gives
that value, converted.  So no value is converted that an error followed, and a key that had nothing to evaluate may as
well be left out. -/
theorem run_prints {line : List Char} {keys : List Key} (hline : Script.parse line = .ok keys) :
    ∃ conversion, app.run line =
        .ok (app.pressed keys, String.ofList (app.pressed keys).session.display :: conversion) ∧
      conversion.length ≤ 1 ∧
      (∀ text, conversion = [text] ↔ ∃ o value table sourceRate targetRate,
        app.session.LastOutcome keys o ∧ o.result = .ok value ∧ app.rates = some table ∧
          table.usable? app.pair.source = some sourceRate ∧ table.usable? app.pair.target = some targetRate ∧
          text = s!"{convertedText (value / sourceRate * targetRate)} {app.pair.target}") ∧
      (∀ o e, app.session.LastOutcome keys o → o.result = .error e → conversion = []) ∧
      ∀ before after shorter, keys = before ++ .evaluate :: after →
        (app.session.pressAll before).1.evaluate.2 = none → Script.parse shorter = .ok (before ++ after) →
          app.run shorter = app.run line := by
  refine ⟨_, run_of_lastOutcome app hline, ?_, fun text => ?_, fun o e ho he => ?_,
    fun before after shorter hkeys hidle hshorter => ?_⟩
  · cases (lastOutcome (app.session.pressAll keys).2).bind Outcome.value? with
    | none => exact Nat.zero_le 1
    | some value =>
      rw [Option.toList_some, List.flatMap_singleton]
      exact length_conversionLines_le app value
  · rw [flatMap_conversionLines_eq_iff]
    constructor
    · rintro ⟨value, hvalue, htext⟩
      obtain ⟨o, ho, hresult⟩ := bind_lastOutcome_eq_some_iff.mp hvalue
      obtain ⟨table, sourceRate, targetRate, hrates⟩ := (conversionLines_eq_iff app value text).mp htext
      exact ⟨o, value, table, sourceRate, targetRate, ho, hresult, hrates⟩
    · rintro ⟨o, value, table, sourceRate, targetRate, ho, hresult, hrates⟩
      exact ⟨value, bind_lastOutcome_eq_some_iff.mpr ⟨o, ho, hresult⟩,
        (conversionLines_eq_iff app value text).mpr ⟨table, sourceRate, targetRate, hrates⟩⟩
  · have hvalue : o.value? = none := by rw [Outcome.value?, he]; rfl
    rw [lastOutcome_pressAll_iff.mpr ho, Option.bind_some, hvalue]
    rfl
  · obtain ⟨hsession, hlast⟩ := pressAll_idle hidle after
    rw [run_of_lastOutcome app hshorter, run_of_lastOutcome app hline, hkeys, hlast, pressed, pressed, hsession]

/-- A quarter is converted, also if the key is pressed once more, but not if it is divided by zero after that. -/
theorem run_prints_quarter :
    let table : RateTable := { base := "USD", rates := [("USD", .ofNat 1), ("TWD", .ofNat 32)] }
    let app : App := { pair := ⟨"USD", "TWD"⟩, rates := some table }
    let quarter := [Key.digit '1', .operator .divide, .digit '4', .evaluate]
    let failing := quarter ++ [.operator .divide, .digit '0', .evaluate]
    Script.parse "1/4==".toList = .ok (quarter ++ [.evaluate]) ∧ Script.parse "1/4=/0=".toList = .ok failing ∧
      app.run "1/4==".toList = .ok (app.pressed (quarter ++ [.evaluate]), ["0.25", "8.000 TWD"]) ∧
      app.run "1/4=".toList = app.run "1/4==".toList ∧
      app.run "1/4=/0=".toList = .ok (app.pressed failing, ["Error"]) := by
  intro table app quarter failing
  have hagain : Script.parse "1/4==".toList = .ok (quarter ++ [.evaluate]) := by decide
  have honce : Script.parse "1/4=".toList = .ok (quarter ++ []) := by decide
  have hfailing : Script.parse "1/4=/0=".toList = .ok failing := by decide
  have hvalue : (lastOutcome (app.session.pressAll (quarter ++ [.evaluate])).2).map Outcome.result =
      some (.ok (Binary64.ofScientific false 25 (-2))) := by decide +kernel
  have herror : (lastOutcome (app.session.pressAll failing).2).map Outcome.result =
      some (.error .divisionByZero) := by decide +kernel
  have hidle : (app.session.pressAll quarter).1.evaluate.2.isNone = true := by decide +kernel
  have hdisplay : String.ofList (app.pressed (quarter ++ [.evaluate])).session.display = "0.25" := by decide +kernel
  have hmarker : String.ofList (app.pressed failing).session.display = "Error" := by decide +kernel
  have hrates : table.usable? "USD" = some (.ofNat 1) ∧ table.usable? "TWD" = some (.ofNat 32) := by decide +kernel
  have htext : "8.000 TWD" =
      s!"{convertedText (Binary64.ofScientific false 25 (-2) / .ofNat 1 * .ofNat 32)} {app.pair.target}" := by
    decide +kernel
  obtain ⟨o, hlast, hresult⟩ := Option.map_eq_some_iff.mp hvalue
  obtain ⟨o', hlast', hresult'⟩ := Option.map_eq_some_iff.mp herror
  obtain ⟨conversion, hrun, -, hiff, -, hshorter⟩ := run_prints app hagain
  obtain ⟨conversion', hrun', -, -, hnone, -⟩ := run_prints app hfailing
  have hconversion := (hiff "8.000 TWD").mpr ⟨o, _, table, _, _, lastOutcome_pressAll_iff.mp hlast, hresult, rfl,
    hrates.1, hrates.2, htext⟩
  have hconversion' := hnone o' _ (lastOutcome_pressAll_iff.mp hlast') hresult'
  rw [hdisplay, hconversion] at hrun
  rw [hmarker, hconversion'] at hrun'
  exact ⟨hagain, hfailing, hrun, hshorter quarter [] _ rfl (Option.isNone_iff_eq_none.mp hidle) honce, hrun'⟩

end App

end Keypad
