import Keypad.App
import Keypad.Proofs.Script

/-!
# Keypad.Proofs.App.Lines — what lines of input do to the calculator

* `isQuit`, `isSwap`: the lines that stop, and those that exchange the currencies.
* `run_of_parse`: a script with keys presses them; `run_trim`: blanks around it do not count.
* `handle_of_not_isQuit`: a line that does not stop presses the keys of a script or exchanges the currencies.
* `looksLike_agrees_parse`: a line is taken for a script if and only if it can be run as one.
* `handleAll_app`: lines that do not stop press the keys of the scripts among them, in order.
* `handleAll_eq_pressAll`: so do any lines, up to the first one that stops.
-/

namespace Keypad

open Text

/-! ## Commands -/

/-- The words that are commands. -/
def Command.words : List (List Char) := ["quit".toList, "exit".toList, "swap".toList, "rate".toList]

/-- The line asks to stop. -/
def isQuit (line : List Char) : Bool := trim line == "quit".toList || trim line == "exit".toList

/-- The line asks to exchange the currencies. -/
def isSwap (line : List Char) : Bool := trim line == "swap".toList

section Command

variable {line : List Char}

theorem isQuit_iff : isQuit line = true ↔ trim line = "quit".toList ∨ trim line = "exit".toList := by
  rw [isQuit, Bool.or_eq_true, beq_iff_eq, beq_iff_eq]

theorem isSwap_iff : isSwap line = true ↔ trim line = "swap".toList := beq_iff_eq

/-- No command is spelled with the characters of the keypad. -/
theorem trim_ne_of_looksLike (h : Script.looksLike line = true) {word : List Char}
    (hword : Script.looksLike word = false) : trim line ≠ word := by
  rintro rfl
  rw [Script.looksLike_trim, h] at hword
  cases hword

theorem ofLine_of_looksLike (h : Script.looksLike line = true) : Command.ofLine line = .keys (trim line) := by
  have hne {word : List Char} (hword : Script.looksLike word = false) : trim line ≠ word :=
    trim_ne_of_looksLike h hword
  have hquit : ¬ (trim line = "quit".toList ∨ trim line = "exit".toList) :=
    not_or.mpr ⟨hne (by decide), hne (by decide)⟩
  unfold Command.ofLine
  dsimp only
  rw [if_neg (hne (by decide)), if_neg hquit, if_neg (hne (by decide)), if_neg (hne (by decide)),
    if_pos (by rwa [Script.looksLike_trim])]

theorem looksLike_of_ofLine {script : List Char} (h : Command.ofLine line = .keys script) :
    Script.looksLike line = true ∧ script = trim line := by
  unfold Command.ofLine at h
  dsimp only at h
  split_ifs at h with hnil hquit hswap hrate hscript
  obtain rfl := Command.keys.inj h
  exact ⟨by rwa [Script.looksLike_trim] at hscript, rfl⟩

theorem ofLine_of_isQuit (h : isQuit line = true) : Command.ofLine line = .quit := by
  have htrim := isQuit_iff.mp h
  have hne : trim line ≠ [] := by
    rcases htrim with h | h <;> rw [h] <;> decide
  unfold Command.ofLine
  dsimp only
  rw [if_neg hne, if_pos htrim]

theorem ofLine_of_isSwap (h : isSwap line = true) : Command.ofLine line = .swap := by
  unfold Command.ofLine
  dsimp only
  rw [isSwap_iff.mp h]
  rfl

/-- What is neither a script nor a command is blank, or it is not recognized. -/
theorem ofLine_of_not_looksLike (h : Script.looksLike line = false) (hwords : trim line ∉ Command.words)
    (hne : trim line ≠ []) : Command.ofLine line = .unrecognized (trim line) := by
  have hother {word : List Char} (hword : word ∈ Command.words) : trim line ≠ word :=
    fun htrim => hwords (htrim ▸ hword)
  have hquit : ¬ (trim line = "quit".toList ∨ trim line = "exit".toList) :=
    not_or.mpr ⟨hother (by decide), hother (by decide)⟩
  unfold Command.ofLine
  dsimp only
  rw [if_neg hne, if_neg hquit, if_neg (hother (by decide)), if_neg (hother (by decide)),
    if_neg (by rw [Script.looksLike_trim, h]; decide)]

end Command

/-! ## One line -/

/-- The currencies after a number of exchanges, of which each second one undoes the one before. -/
def Pair.exchanged (pair : Pair) (count : Nat) : Pair := if count % 2 = 1 then pair.swap else pair

theorem Pair.exchanged_exchanged (pair : Pair) (count more : Nat) :
    (pair.exchanged count).exchanged more = pair.exchanged (more + count) := by
  unfold exchanged
  by_cases hcount : count % 2 = 1
  · by_cases hmore : more % 2 = 1
    · rw [if_pos hcount, if_pos hmore, if_neg (by omega), swap_swap]
    · rw [if_pos hcount, if_neg hmore, if_pos (by omega)]
  · by_cases hmore : more % 2 = 1
    · rw [if_neg hcount, if_pos hmore, if_pos (by omega)]
    · rw [if_neg hcount, if_neg hmore, if_neg (by omega)]

namespace App

variable (app : App) {line : List Char}

/-- The calculator after keys are pressed. -/
def pressed (keys : List Key) : App := { app with session := (app.session.pressAll keys).1 }

theorem run_of_parse {script : List Char} {keys : List Key} (h : Script.parse script = .ok keys) :
    app.run script = .ok (app.pressed keys, String.ofList (app.session.pressAll keys).1.display ::
      ((lastOutcome (app.session.pressAll keys).2).bind Outcome.value?).toList.flatMap
        (app.pressed keys).conversionLines) := by
  rw [run, h]
  rfl

/-- Blanks around a script do not count. -/
theorem run_trim {script : List Char} {keys : List Key} (h : Script.parse script = .ok keys) :
    app.run (trim script) = app.run script := by
  rw [run_of_parse app h, run_of_parse app (Script.parse_trim h)]

/-- A script is run as it stands. -/
theorem handle_of_run {after : App} {lines : List String} (h : Script.looksLike line = true)
    (hrun : app.run line = .ok (after, lines)) : app.handle line = { app := after, lines := lines } := by
  obtain ⟨-, keys, hkeys⟩ := Script.looksLike_iff.mp h
  rw [handle, ofLine_of_looksLike h, execute, run_trim app hkeys, hrun]

theorem handle_of_looksLike (h : Script.looksLike line = true) :
    ∃ keys lines, Script.parse line = .ok keys ∧ app.handle line = { app := app.pressed keys, lines := lines } := by
  obtain ⟨-, keys, hkeys⟩ := Script.looksLike_iff.mp h
  exact ⟨keys, _, hkeys, handle_of_run app h (run_of_parse app hkeys)⟩

theorem handle_of_isQuit (h : isQuit line = true) : app.handle line = { app := app, continues := false } := by
  rw [handle, ofLine_of_isQuit h, execute]

theorem handle_of_isSwap (h : isSwap line = true) :
    app.handle line = { app := app.swap.1, lines := app.swap.2 } := by
  rw [handle, ofLine_of_isSwap h, execute]

/-- Any other line leaves the calculator as it is. -/
theorem handle_of_other (hscript : Script.looksLike line = false) (hquit : isQuit line = false)
    (hswap : isSwap line = false) : ∃ lines, app.handle line = { app := app, lines := lines } := by
  have hquit : ¬ (trim line = "quit".toList ∨ trim line = "exit".toList) := by
    rw [← isQuit_iff, hquit]
    decide
  have hswap : ¬ trim line = "swap".toList := by
    rw [← isSwap_iff, hswap]
    decide
  have hscript : ¬ Script.looksLike (trim line) = true := by
    rw [Script.looksLike_trim, hscript]
    decide
  unfold handle Command.ofLine
  dsimp only
  by_cases hnil : trim line = []
  · exact ⟨[], by rw [if_pos hnil, execute]⟩
  rw [if_neg hnil, if_neg hquit, if_neg hswap]
  by_cases hrate : trim line = "rate".toList
  · exact ⟨app.rateLines, by rw [if_pos hrate, execute]⟩
  · rw [if_neg hrate, if_neg hscript]
    exact ⟨_, rfl⟩

/-- **One line** that does not stop presses the keys of a script, or exchanges the currencies, or neither. -/
theorem handle_of_not_isQuit (h : isQuit line = false) :
    ∃ keys lines, (if Script.looksLike line then Script.parse line = .ok keys else keys = []) ∧
      app.handle line = {
        app := { app.pressed keys with pair := app.pair.exchanged (if isSwap line then 1 else 0) }
        lines := lines } := by
  by_cases hscript : Script.looksLike line = true
  · have hswap : isSwap line = false :=
      Bool.eq_false_iff.mpr (isSwap_iff.not.mpr (trim_ne_of_looksLike hscript (by decide)))
    obtain ⟨keys, lines, hkeys, hline⟩ := handle_of_looksLike app hscript
    refine ⟨keys, lines, by rwa [if_pos hscript], ?_⟩
    rw [hline, hswap]
    rfl
  · have hno := Bool.eq_false_iff.mpr hscript
    by_cases hswap : isSwap line = true
    · refine ⟨[], app.swap.2, by rw [if_neg hscript], ?_⟩
      rw [handle_of_isSwap app hswap, if_pos hswap]
      rfl
    · obtain ⟨lines, hline⟩ := handle_of_other app hno h (Bool.eq_false_iff.mpr hswap)
      refine ⟨[], lines, by rw [if_neg hscript], ?_⟩
      rw [hline, if_neg hswap]
      rfl

theorem handle_continues (line : List Char) : (app.handle line).continues = !isQuit line := by
  cases hquit : isQuit line with
  | true => rw [handle_of_isQuit app hquit]; rfl
  | false =>
    obtain ⟨keys, lines, -, hline⟩ := handle_of_not_isQuit app hquit
    rw [hline]
    rfl

/-! ## Many lines -/

theorem handleAll_cons_of_isQuit (h : isQuit line = true) (rest : List (List Char)) :
    app.handleAll (line :: rest) = { app := app, continues := false } := by
  rw [handleAll, handle_of_isQuit app h]
  rfl

theorem handleAll_cons_of_not (h : isQuit line = false) (rest : List (List Char)) :
    app.handleAll (line :: rest) =
      { (app.handle line).app.handleAll rest with
        lines := (app.handle line).lines ++ ((app.handle line).app.handleAll rest).lines } := by
  have hcontinues : (app.handle line).continues = true := by rw [handle_continues, h]; rfl
  rw [handleAll]
  dsimp only
  rw [if_pos hcontinues]

theorem pressed_pressed (keys more : List Key) : (app.pressed keys).pressed more = app.pressed (keys ++ more) := by
  unfold pressed
  rw [Session.pressAll_append]

/-- **The run**: lines that do not stop press the keys of the scripts among them, in order, and exchange the
currencies as often as they ask for it. -/
theorem handleAll_app (lines : List (List Char)) : ∀ app : App, (∀ line ∈ lines, isQuit line = false) →
    (app.handleAll lines).continues = true ∧
      ∃ scripts, (lines.filter Script.looksLike).mapM Script.parse = .ok scripts ∧
        (app.handleAll lines).app =
          { app.pressed scripts.flatten with pair := app.pair.exchanged (lines.countP isSwap) } := by
  induction lines with
  | nil => exact fun app _ => ⟨rfl, [], rfl, rfl⟩
  | cons line rest ih =>
    intro app hquit
    obtain ⟨hline, hrest⟩ := List.forall_mem_cons.mp hquit
    obtain ⟨keys, printed, hkeys, hreply⟩ := handle_of_not_isQuit app hline
    obtain ⟨hcontinues, scripts, hscripts, happ⟩ := ih (app.handle line).app hrest
    have hafter : (app.handleAll (line :: rest)).app =
        { app.pressed (keys ++ scripts.flatten) with
          pair := app.pair.exchanged ((line :: rest).countP isSwap) } := by
      rw [handleAll_cons_of_not app hline]
      dsimp only
      rw [happ, hreply, List.countP_cons, ← Pair.exchanged_exchanged, ← pressed_pressed]
      rfl
    refine ⟨by rwa [handleAll_cons_of_not app hline], ?_⟩
    rw [hafter]
    by_cases hscript : Script.looksLike line = true
    · rw [if_pos hscript] at hkeys
      exact ⟨keys :: scripts, by rw [List.filter_cons_of_pos hscript, List.mapM_cons, hkeys, hscripts]; rfl, rfl⟩
    · rw [if_neg hscript] at hkeys
      exact ⟨scripts, by rwa [List.filter_cons_of_neg hscript], by rw [hkeys]; rfl⟩

/-- Lines after one that stops are not read. -/
theorem handleAll_takeWhile (lines : List (List Char)) : ∀ app : App,
    app.handleAll lines =
      { app.handleAll (lines.takeWhile fun line => !isQuit line) with continues := !lines.any isQuit } := by
  induction lines with
  | nil => exact fun _ => rfl
  | cons line rest ih =>
    intro app
    cases hline : isQuit line with
    | true =>
      rw [handleAll_cons_of_isQuit app hline, List.takeWhile_cons_of_neg (by simp [hline]), List.any_cons, hline]
      rfl
    | false =>
      rw [handleAll_cons_of_not app hline, List.takeWhile_cons_of_pos (by simp [hline]),
        handleAll_cons_of_not app hline, List.any_cons, hline, ih]
      rfl

/-! ## Scripts and runs of lines -/

theorem handle_session_of_not_looksLike (h : Script.looksLike line = false) :
    (app.handle line).app.session = app.session := by
  cases hquit : isQuit line with
  | true => rw [handle_of_isQuit app hquit]
  | false =>
    obtain ⟨keys, lines, hkeys, hline⟩ := handle_of_not_isQuit app hquit
    rw [if_neg (by rw [h]; decide)] at hkeys
    rw [hline, hkeys]
    rfl

/-- **The check** before a line is run as a script holds exactly of the lines that are not blank and have keys.  So
handling such a line is running it, no script is rejected, and any other line that is no command is answered as
unrecognized. -/
theorem looksLike_agrees_parse (line : List Char) :
    (Script.looksLike line = true ↔ (∃ c ∈ line, isBlank c = false) ∧ ∃ keys, Script.parse line = .ok keys) ∧
      ∀ app : App,
        (Script.looksLike line = true → ∃ after lines, app.run line = .ok (after, lines) ∧
          app.handle line = { app := after, lines := lines, continues := true }) ∧
        (∀ script, Command.ofLine line = .keys script → ∃ after lines, app.run script = .ok (after, lines)) ∧
        (trim line ∉ Command.words → (∃ c ∈ line, isBlank c = false) → (∀ keys, Script.parse line ≠ .ok keys) →
          app.handle line = {
            app := app
            lines := [s!"unrecognized input: {String.ofList (trim line)}"]
            continues := true }) := by
  refine ⟨Script.looksLike_iff, fun app => ⟨fun h => ?_, fun script hscript => ?_, fun hwords hsolid hkeys => ?_⟩⟩
  · obtain ⟨-, keys, hkeys⟩ := Script.looksLike_iff.mp h
    have hrun := run_of_parse app hkeys
    exact ⟨_, _, hrun, handle_of_run app h hrun⟩
  · obtain ⟨hlooks, rfl⟩ := looksLike_of_ofLine hscript
    obtain ⟨-, keys, hkeys⟩ := Script.looksLike_iff.mp hlooks
    rw [run_trim app hkeys]
    exact ⟨_, _, run_of_parse app hkeys⟩
  · have hno : Script.looksLike line = false := by
      rw [Bool.eq_false_iff, ne_eq, Script.looksLike_iff]
      rintro ⟨-, keys, h⟩
      exact hkeys keys h
    have hne : trim line ≠ [] := by
      rwa [ne_eq, trim_eq_nil_iff, ← ne_eq, solid_ne_nil_iff]
    rw [handle, ofLine_of_not_looksLike hno hwords hne, execute]

/-- **A whole run**: the first line that stops is the last one read.  The lines before it press the keys of the scripts
among them and exchange the currencies as often as they ask for it, and nothing else counts for the session. -/
theorem handleAll_eq_pressAll (app : App) (lines : List (List Char)) :
    let earlier := lines.takeWhile fun line => !isQuit line
    (∃ scripts, (earlier.filter Script.looksLike).mapM Script.parse = .ok scripts ∧
        (app.handleAll lines).app =
          { session := (app.session.pressAll scripts.flatten).1
            pair := if earlier.countP isSwap % 2 = 1 then ⟨app.pair.target, app.pair.source⟩ else app.pair
            rates := app.rates }) ∧
      (∀ (app : App) (line : List Char), (app.handle line).continues = !isQuit line) ∧
      app.handleAll lines = { app.handleAll earlier with continues := !lines.any isQuit } ∧
      (∀ (app : App) (line : List Char), Script.looksLike line = false →
        (app.handle line).app.session = app.session) ∧
      ∀ pair rates,
        (({ app with pair := pair, rates := rates } : App).handleAll lines).app.session =
          (app.handleAll lines).app.session := by
  intro earlier
  have hearlier : ∀ line ∈ earlier, isQuit line = false := by
    intro line hline
    simpa using List.mem_takeWhile_imp hline
  have happ (app : App) : (app.handleAll lines).app = (app.handleAll earlier).app := by
    rw [handleAll_takeWhile]
  obtain ⟨-, scripts, hscripts, hrun⟩ := handleAll_app earlier app hearlier
  refine ⟨⟨scripts, hscripts, by rw [happ, hrun]; rfl⟩, fun app line => handle_continues app line,
    handleAll_takeWhile lines app, fun app line h => handle_session_of_not_looksLike app h, fun pair rates => ?_⟩
  obtain ⟨-, scripts', hscripts', hrun'⟩ :=
    handleAll_app earlier { app with pair := pair, rates := rates } hearlier
  obtain rfl : scripts = scripts' := Except.ok.inj (hscripts.symm.trans hscripts')
  rw [happ, happ, hrun, hrun']
  rfl

/-- Two scripts, one exchange between them, and lines after the end. -/
theorem handleAll_eq_pressAll_exchange :
    let app : App := { pair := ⟨"TWD", "USD"⟩ }
    let lines := ["3+1=", " swap ", "2?", "", "×2=", "exit", "swap", "5="].map String.toList
    (app.handleAll lines).app.pair = ⟨"USD", "TWD"⟩ ∧
      (app.handleAll lines).app.session.lastResult = some (.ofNat 8) ∧
      (app.handleAll lines).app.rates = none ∧ (app.handleAll lines).continues = false ∧
      Script.looksLike "2?".toList = false ∧ (app.handle "2?".toList).app.session = app.session := by
  intro app lines
  have hcount : (lines.takeWhile fun line => !isQuit line).countP isSwap = 1 := by decide +kernel
  have hkeys : ((lines.takeWhile fun line => !isQuit line).filter Script.looksLike).mapM Script.parse =
      .ok [[.digit '3', .operator .add, .digit '1', .evaluate], [.operator .multiply, .digit '2', .evaluate]] := by
    decide +kernel
  have hno : Script.looksLike "2?".toList = false := by decide +kernel
  obtain ⟨⟨scripts, hscripts, hafter⟩, -, hstop, hother, -⟩ := handleAll_eq_pressAll app lines
  obtain rfl := Except.ok.inj (hscripts.symm.trans hkeys)
  rw [hcount] at hafter
  refine ⟨by rw [hafter]; rfl, ?_, by rw [hafter], ?_, hno, hother app _ hno⟩
  · rw [hafter]
    decide +kernel
  · rw [hstop]
    decide +kernel

end App

end Keypad
