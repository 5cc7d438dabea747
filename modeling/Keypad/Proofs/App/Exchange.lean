import Keypad.Proofs.App.Lines
import Keypad.Proofs.Session.Coherent

/-!
# Keypad.Proofs.App.Exchange — a result in either currency

* `RateTable.usable?`, `Pair.amountLines`: the listed rates that can be used, and the line that an amount is converted
  on if there is one for both sides; `conversionLines_eq`: the calculator prints just that.
* `handleAll_of_isSwap`: lines that exchange the currencies do nothing else.
* `run_of_evaluate`: a script whose last key evaluates prints the conversion of its result.
* `swap_reconverts`: however often the currencies are exchanged, it is the result itself that is converted anew.
-/

namespace Keypad

open Text

/-! ## Converted amounts -/

/-- The listed rate of a code, if it is usable. -/
def RateTable.usable? (table : RateTable) (code : String) : Option Binary64 := (table.listed? code).filter isUsableRate

/-- The converted amount with its currency, or nothing if one of the codes has no usable rate. -/
def Pair.amountLines (pair : Pair) (value : Binary64) (table : RateTable) : List String :=
  match table.usable? pair.source, table.usable? pair.target with
  | some sourceRate, some targetRate =>
    let text := Keypad.convertedText (value / sourceRate * targetRate)
    [s!"{text} {pair.target}"]
  | _, _ => []

theorem Pair.amountLines_eq_iff (pair : Pair) (value : Binary64) (table : RateTable) (text : String) :
    pair.amountLines value table = [text] ↔ ∃ sourceRate targetRate,
      table.usable? pair.source = some sourceRate ∧ table.usable? pair.target = some targetRate ∧
      text = s!"{Keypad.convertedText (value / sourceRate * targetRate)} {pair.target}" := by
  unfold amountLines
  cases table.usable? pair.source with
  | none => simp
  | some sourceRate =>
    cases table.usable? pair.target with
    | none => simp
    | some targetRate => simp [eq_comm]

theorem RateTable.rate_eq (table : RateTable) (code : String) :
    table.rate code = (table.usable? code).elim (.error (.unavailable code)) .ok := by
  unfold rate usable?
  cases table.listed? code with
  | none => rfl
  | some r =>
    rw [Option.filter_some]
    dsimp only
    split <;> rfl

theorem Pair.exchanged_succ (pair : Pair) (count : Nat) : pair.exchanged (count + 1) = (pair.exchanged count).swap := by
  rw [Nat.add_comm, ← exchanged_exchanged]
  rfl

theorem Pair.exchanged_of_even (pair : Pair) {count : Nat} (h : count % 2 = 0) : pair.exchanged count = pair :=
  if_neg (by omega)

/-- A result is the current number. -/
theorem Session.currentValue_of_evaluate {s : Session} {o : Outcome} {v : Binary64} (ho : s.evaluate.2 = some o)
    (hv : o.value? = some v) : s.evaluate.1.currentValue = some v := by
  obtain ⟨hresult, hafter⟩ := evaluate_of_value ho hv
  obtain ⟨hfinite, hzero⟩ := isFinite_of_evaluate hresult
  have hshown : (s.conclude (.ok v)).shown ≠ .error := fun h : Shown.result (displayText v) = .error => nomatch h
  rw [hafter, currentValue_seed hfinite hshown rfl, unsigned_of_ne hzero]

namespace App

variable (app : App) {table : RateTable} {line : List Char}

theorem conversionLines_eq (htable : app.rates = some table) (value : Binary64) :
    app.conversionLines value = app.pair.amountLines value table := by
  unfold conversionLines Pair.amountLines Pair.convertedText Pair.convert convert
  rw [htable]
  dsimp only
  rw [table.rate_eq, table.rate_eq]
  cases table.usable? app.pair.source with
  | none => rfl
  | some sourceRate =>
    cases table.usable? app.pair.target with
    | none => rfl
    | some targetRate => rfl

/-! ## Exchanging the currencies -/

/-- A line that exchanges the currencies converts the current value anew. -/
theorem handle_of_isSwap_of_value (htable : app.rates = some table) {value : Binary64}
    (hvalue : app.session.currentValue = some value) (h : isSwap line = true) :
    app.handle line =
      { app := { app with pair := app.pair.swap }
        lines := app.pair.swap.text :: app.pair.swap.amountLines value table } := by
  have hlines : app.swap.2 = app.pair.swap.text :: app.pair.swap.amountLines value table := by
    rw [swap, hvalue, ← conversionLines_eq { app with pair := app.pair.swap } htable]
    exact congrArg (_ :: ·) (List.flatMap_singleton _ value)
  rw [handle_of_isSwap app h, hlines]
  rfl

/-- **Lines that exchange the currencies** do nothing else. -/
theorem handleAll_of_isSwap {lines : List (List Char)} (h : ∀ line ∈ lines, isSwap line = true) :
    (app.handleAll lines).app = { app with pair := app.pair.exchanged lines.length } := by
  have hquit : ∀ line ∈ lines, isQuit line = false := by
    intro line hline
    rw [Bool.eq_false_iff, ne_eq, isQuit_iff, isSwap_iff.mp (h line hline)]
    decide
  have hscripts : lines.filter Script.looksLike = [] := by
    refine List.filter_eq_nil_iff.mpr fun line hline hscript => ?_
    exact trim_ne_of_looksLike hscript (by decide) (isSwap_iff.mp (h line hline))
  obtain ⟨-, scripts, hkeys, hrun⟩ := handleAll_app lines app hquit
  rw [hscripts] at hkeys
  obtain rfl : [] = scripts := Except.ok.inj hkeys
  rw [hrun, List.countP_eq_length.mpr h]
  rfl

/-- Whatever number of exchanges went before, the next one converts the same value. -/
theorem handle_after_swaps (htable : app.rates = some table) {value : Binary64}
    (hvalue : app.session.currentValue = some value) {swaps : List (List Char)}
    (hswaps : ∀ swapLine ∈ swaps, isSwap swapLine = true) (h : isSwap line = true) :
    (app.handleAll swaps).app.handle line =
      { app := { app with pair := app.pair.exchanged (swaps.length + 1) }
        lines := (app.pair.exchanged (swaps.length + 1)).text ::
          (app.pair.exchanged (swaps.length + 1)).amountLines value table } := by
  rw [handleAll_of_isSwap app hswaps, Pair.exchanged_succ]
  exact handle_of_isSwap_of_value { app with pair := app.pair.exchanged swaps.length } htable hvalue h

/-! ## Scripts that end with an evaluation -/

/-- A script with at least one key is not blank. -/
theorem looksLike_of_parse {keys : List Key} (h : Script.parse line = .ok keys) (hne : keys ≠ []) :
    Script.looksLike line = true := by
  refine Script.looksLike_iff.mpr ⟨solid_ne_nil_iff.mp fun hnil => hne ?_, keys, h⟩
  have hkeys := Script.toOption_parseFrom line 0
  rw [hnil, ← Script.parse, h] at hkeys
  exact Option.some.inj hkeys

/-- The last key of the script decides what is converted. -/
theorem run_of_evaluate (htable : app.rates = some table) {keys : List Key}
    (hline : Script.parse line = .ok (keys ++ [.evaluate])) {o : Outcome} {v : Binary64}
    (ho : (app.session.pressAll keys).1.evaluate.2 = some o) (hv : o.value? = some v) :
    app.run line = .ok (app.pressed (keys ++ [.evaluate]),
      String.ofList (app.pressed (keys ++ [.evaluate])).session.display :: app.pair.amountLines v table) := by
  have hlast : (lastOutcome (app.session.pressAll (keys ++ [.evaluate])).2).bind Outcome.value? = some v := by
    rw [Session.pressAll_append]
    show (lastOutcome ((app.session.pressAll keys).2 ++ [(app.session.pressAll keys).1.evaluate.2])).bind _ = _
    rw [ho]
    simpa [lastOutcome] using hv
  rw [run_of_parse app hline, hlast, Option.toList_some, List.flatMap_singleton,
    conversionLines_eq (app.pressed _) htable]
  rfl

/-- **A result** is converted as it is, and exchanging the currencies converts that same result anew.  So after an even
number of exchanges the amount reads as it was printed at first. -/
theorem swap_reconverts (htable : app.rates = some table) {keys : List Key}
    (hline : Script.parse line = .ok (keys ++ [.evaluate])) {o : Outcome} {v : Binary64}
    (ho : (app.session.pressAll keys).1.evaluate.2 = some o) (hv : o.value? = some v) :
    let after := (app.handle line).app
    app.run line = .ok (after, (app.handle line).lines) ∧
      (app.handle line).lines = String.ofList after.session.display :: app.pair.amountLines v table ∧
      ∀ swaps : List (List Char), (∀ swapLine ∈ swaps, isSwap swapLine = true) →
        ∀ swapLine, isSwap swapLine = true →
          let reply := (after.handleAll swaps).app.handle swapLine
          let pair := app.pair.exchanged (swaps.length + 1)
          reply = { app := { after with pair := pair }, lines := pair.text :: pair.amountLines v table } ∧
            ((swaps.length + 1) % 2 = 0 → reply.lines.tail = (app.handle line).lines.tail) := by
  have hrun := run_of_evaluate app htable hline ho hv
  have hhandle := handle_of_run app (looksLike_of_parse hline (by simp)) hrun
  have hvalue : (app.pressed (keys ++ [.evaluate])).session.currentValue = some v := by
    rw [pressed, Session.pressAll_append]
    exact Session.currentValue_of_evaluate ho hv
  rw [hhandle]
  refine ⟨hrun, rfl, fun swaps hswaps swapLine hswap => ?_⟩
  have hreply := handle_after_swaps (app.pressed (keys ++ [.evaluate])) htable hvalue hswaps hswap
  refine ⟨hreply, fun heven => ?_⟩
  have hpair : app.pair.exchanged (swaps.length + 1) = app.pair := app.pair.exchanged_of_even heven
  refine (congrArg (·.lines.tail) hreply).trans ?_
  show (app.pair.exchanged (swaps.length + 1)).amountLines v table = app.pair.amountLines v table
  rw [hpair]

/-- Three in the one currency and in the other, through two exchanges. -/
theorem swap_reconverts_three :
    let table : RateTable := { base := "USD", rates := [("USD", .ofNat 1), ("TWD", .ofNat 32)] }
    let app : App := { pair := ⟨"TWD", "USD"⟩, rates := some table }
    let after := (app.handle "3=".toList).app
    app.rates = some table ∧ Script.parse "3=".toList = .ok ([.digit '3'] ++ [.evaluate]) ∧
      (app.session.pressAll [.digit '3']).1.evaluate.2 = some ⟨['3'], .ok (.ofNat 3)⟩ ∧
      (app.handle "3=".toList).lines = ["3", "0.094 USD"] ∧
      isSwap "swap".toList = true ∧ (∀ swapLine ∈ ["swap".toList], isSwap swapLine = true) ∧
      (after.handle "swap".toList).lines = ["USD → TWD", "96.000 TWD"] ∧
      ((after.handleAll ["swap".toList]).app.handle "swap".toList).lines = ["TWD → USD", "0.094 USD"] := by
  intro table app after
  have hkeys : Script.parse "3=".toList = .ok ([.digit '3'] ++ [.evaluate]) := by decide
  have hvalue : Keypad.evaluate [.literal ['3']] = .ok (.ofNat 3) := by decide +kernel
  have houtcome : (app.session.pressAll [.digit '3']).1.evaluate.2 = some ⟨['3'], .ok (.ofNat 3)⟩ :=
    congrArg (fun result => some (Outcome.mk ['3'] result)) hvalue
  have hswap : isSwap "swap".toList = true := by decide
  have hswaps : ∀ swapLine ∈ ["swap".toList], isSwap swapLine = true := by decide
  obtain ⟨-, hfirst, hlater⟩ := swap_reconverts app rfl hkeys houtcome rfl
  have hdisplay : String.ofList after.session.display = "3" := by decide +kernel
  have hamount : app.pair.amountLines (.ofNat 3) table = ["0.094 USD"] := by decide +kernel
  have hback : app.pair.swap.amountLines (.ofNat 3) table = ["96.000 TWD"] := by decide +kernel
  have hone : (after.handle "swap".toList).lines = [app.pair.swap.text, "96.000 TWD"] := by
    rw [← hback]
    exact congrArg Reply.lines (hlater [] (by simp) _ hswap).1
  have htwo : ((after.handleAll ["swap".toList]).app.handle "swap".toList).lines = [app.pair.text, "0.094 USD"] := by
    rw [← hamount]
    exact congrArg Reply.lines (hlater _ hswaps _ hswap).1
  refine ⟨rfl, hkeys, houtcome, ?_, hswap, hswaps, hone, htwo⟩
  rw [hfirst, hdisplay, hamount]

end App

end Keypad
