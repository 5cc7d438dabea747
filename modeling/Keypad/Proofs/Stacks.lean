import Keypad.Proofs.Masking
import Mathlib.Data.List.Basic

/-!
# Keypad.Proofs.Stacks — the two stacks never run short during a scan

Which values wait does not matter here, only how many there are and how tight their operators bind.

* `Tightening`, `Steady`: the operators bind tighter towards the top, and each of them waits with one operand.
* `Supplied`: a computation that finds all the operands it asks for, though it may fail otherwise.
* `supplied_release`, `supplied_step`, `supplied_scan`: the operators that are released, one token, and a token list.
* `drain`: what applies at the end of the expression; `drain_eq_operandMissing_iff`: when an operand is missing there.
* `steady_scan`: both for every token list.
-/

namespace Keypad

namespace Machine

/-! ## The stacks -/

/-- The operators bind tighter and tighter towards the top of the stack, which is the head of the list. -/
def Tightening (operators : List Operator) : Prop :=
  operators.Pairwise fun upper lower => lower.precedence < upper.precedence

/-- Every waiting operator has its left operand, and binds tighter than those below it. -/
structure Steady (m : Machine) : Prop where
  tightening : Tightening m.operators
  length_operands : m.operands.length = m.operators.length

theorem precedence_bounds (op : Operator) : 1 ≤ op.precedence ∧ op.precedence ≤ 2 := by
  cases op <;> decide

/-- Precedences below the one on top bound the height of the stack. -/
theorem Tightening.length_le : ∀ {op : Operator} {held : List Operator}, Tightening (op :: held) →
    held.length + 1 ≤ op.precedence
  | op, [], _ => (precedence_bounds op).1
  | op, top :: held, h => by
    obtain ⟨hop, hheld⟩ := List.pairwise_cons.mp h
    have hbelow := Tightening.length_le hheld
    have htop := hop top List.mem_cons_self
    rw [List.length_cons]
    omega

/-- There are two precedences, so at most two operators wait. -/
theorem Tightening.length_le_two {operators : List Operator} (h : Tightening operators) : operators.length ≤ 2 := by
  cases operators with
  | nil => exact Nat.zero_le 2
  | cons op held =>
    rw [List.length_cons]
    exact le_trans h.length_le (precedence_bounds op).2

/-! ## Computations that find their operands -/

/-- A computation that does not lack an operand: it has a value with the property, or fails for another reason. -/
def Supplied {α : Type} (P : α → Prop) : Except Fault α → Prop
  | .ok a => P a
  | .error f => f ≠ .operandMissing

section Supplied

variable {α β : Type} {P : α → Prop} {Q : β → Prop} {x : Except Fault α}

theorem Supplied.bind {f : α → Except Fault β} (hx : Supplied P x) (hf : ∀ a, P a → Supplied Q (f a)) :
    Supplied Q (x >>= f) := by
  cases x with
  | error e => exact hx
  | ok a => exact hf a hx

theorem Supplied.map {f : α → β} (hx : Supplied P x) (hf : ∀ a, P a → Q (f a)) : Supplied Q (x.map f) := by
  cases x with
  | error e => exact hx
  | ok a => exact hf a hx

theorem Supplied.mono {R : α → Prop} (hx : Supplied P x) (h : ∀ a, x = .ok a → P a → R a) : Supplied R x := by
  cases x with
  | error e => exact hx
  | ok a => exact h a rfl hx

theorem Supplied.of_ok {a : α} (hx : Supplied P x) (ha : x = .ok a) : P a := by
  rw [ha] at hx
  exact hx

theorem Supplied.ne_operandMissing (hx : Supplied P x) : x ≠ .error .operandMissing := by
  rintro rfl
  exact hx rfl

end Supplied

variable {m : Machine} {operands : List Binary64} {operators : List Operator}

/-- An operator lacks an operand if and only if fewer than two are there. -/
theorem reduce_eq_operandMissing_iff (op : Operator) :
    reduce operands op = .error .operandMissing ↔ operands.length < 2 := by
  match operands with
  | [] => simp [reduce]
  | [_] => simp [reduce]
  | rhs :: lhs :: rest =>
    simp only [reduce, List.length_cons]
    cases op.apply lhs rhs <;> simp [Except.mapError, Except.map]

/-- An operator with two operands leaves one in their place. -/
theorem supplied_reduce (op : Operator) (h : 2 ≤ operands.length) :
    Supplied (fun left => left.length + 1 = operands.length) (reduce operands op) := by
  cases hreduce : reduce operands op with
  | error f =>
    rintro rfl
    have hshort := (reduce_eq_operandMissing_iff op).mp hreduce
    omega
  | ok left =>
    match operands with
    | rhs :: lhs :: rest =>
      obtain ⟨value, -, rfl⟩ := map_eq_ok.mp hreduce
      rfl

/-- **The released operators**: with one operand more than operators, each of them finds two, and what goes on waiting
binds less tight than the incoming operator. -/
theorem supplied_release (incoming : Operator) : ∀ {operators : List Operator} {operands : List Binary64},
    Tightening operators → operands.length = operators.length + 1 →
      Supplied (fun left => Tightening (incoming :: left.1) ∧ left.2.length = left.1.length + 1)
        (release incoming operators operands)
  | [], _, _, hlength => ⟨List.pairwise_singleton _ incoming, hlength⟩
  | top :: held, operands, htight, hlength => by
    obtain ⟨htop, hheld⟩ := List.pairwise_cons.mp htight
    rw [List.length_cons] at hlength
    rw [release]
    by_cases hle : incoming.precedence ≤ top.precedence
    · rw [if_pos hle]
      refine (supplied_reduce top (by omega)).bind fun reduced hreduced => ?_
      exact supplied_release incoming hheld (by omega)
    · -- the top stays, and whatever is below it binds even less tight
      rw [if_neg hle]
      refine ⟨List.pairwise_cons.mpr ⟨fun lower hlower => ?_, htight⟩, by rw [List.length_cons]; exact hlength⟩
      rcases List.mem_cons.mp hlower with rfl | hlower
      · omega
      · have hbelow := htop lower hlower
        omega

/-! ## One token and a token list -/

theorem Steady.start : Steady {} := ⟨List.Pairwise.nil, rfl⟩

theorem supplied_operand (text : List Char) : Supplied (fun _ => True) (operand text) := by
  rw [operand]
  cases readOperand text with
  | error e => exact Fault.noConfusion
  | ok value => trivial

/-- An operator pushes itself, with its left operand, onto what it does not release. -/
theorem supplied_step_operator (h : Steady m) (op : Operator) :
    Supplied (fun next => Steady next ∧ next.operators ≠ []) (m.step (.operator op)) := by
  refine (supplied_operand m.pending).bind fun value _ => ?_
  refine (supplied_release op h.tightening (congrArg (· + 1) h.length_operands)).bind fun left hleft => ?_
  exact ⟨⟨hleft.1, hleft.2⟩, List.cons_ne_nil op left.1⟩

theorem supplied_step (h : Steady m) (t : Token) : Supplied Steady (m.step t) := by
  cases t with
  | literal text => exact ⟨h.tightening, h.length_operands⟩
  | dot => exact ⟨h.tightening, h.length_operands⟩
  | operator op => exact (supplied_step_operator h op).mono fun _ _ hnext => hnext.1

/-- **The scan**: no operator that is released lacks an operand, and the stacks stay in step. -/
theorem supplied_scan (tokens : List Token) (h : Steady m) : Supplied Steady (m.scan tokens) := by
  induction tokens generalizing m with
  | nil => exact h
  | cons t tokens ih =>
    rw [scan_cons]
    exact (supplied_step h t).bind fun next hnext => ih hnext

theorem scan_concat (m : Machine) (tokens : List Token) (t : Token) :
    m.scan (tokens ++ [t]) = m.scan tokens >>= fun next => next.step t := by
  rw [scan_append]
  refine bind_congr fun next => ?_
  rw [scan_cons]
  exact bind_pure (next.step t)

/-- A scan that has just taken up an operator has operators waiting. -/
theorem supplied_scan_operator (before : List Token) (op : Operator) :
    Supplied (fun m => Steady m ∧ m.operators ≠ []) (scan {} (before ++ [.operator op])) := by
  rw [scan_concat]
  exact (supplied_scan before Steady.start).bind fun m hm => supplied_step_operator hm op

/-! ## The end of the expression -/

/-- Takes up the last operand and applies all waiting operators. -/
def drain (m : Machine) : Except Fault (List Binary64) := m.flush >>= fun operands => m.operators.foldlM reduce operands

theorem finish_eq_drain (m : Machine) : m.finish = m.drain >>= fun left =>
    match left with
    | [value] => .ok value
    | _ => .error .operandMissing := by
  unfold finish drain
  exact (bind_assoc _ _ _).symm

/-- With more operands than operators all of them apply, and what is left is the difference. -/
theorem supplied_foldlM : ∀ {operators : List Operator} {operands : List Binary64},
    operators.length < operands.length →
      Supplied (fun left => left.length + operators.length = operands.length) (operators.foldlM reduce operands)
  | [], _, _ => rfl
  | op :: operators, operands, h => by
    rw [List.length_cons] at h ⊢
    rw [List.foldlM_cons]
    refine (supplied_reduce op (by omega)).bind fun reduced hreduced => ?_
    exact (supplied_foldlM (by omega)).mono fun left _ hleft => by omega

theorem supplied_flush (h : Steady m) (hpending : m.pending ≠ []) :
    Supplied (fun left => left.length = m.operators.length + 1) m.flush := by
  rw [flush, if_neg (by simpa using hpending)]
  exact (supplied_operand m.pending).map fun value _ => congrArg (· + 1) h.length_operands

/-- With a last operand one value is left. -/
theorem supplied_drain (h : Steady m) (hpending : m.pending ≠ []) : Supplied (fun left => left.length = 1) m.drain := by
  refine (supplied_flush h hpending).bind fun operands hlength => ?_
  exact (supplied_foldlM (by omega)).mono fun left _ hleft => by omega

theorem supplied_finish (h : Steady m) (hpending : m.pending ≠ []) : Supplied (fun _ => True) m.finish := by
  rw [finish_eq_drain]
  refine (supplied_drain h hpending).bind fun left hleft => ?_
  obtain ⟨value, rfl⟩ := List.length_eq_one_iff.mp hleft
  trivial

/-- With as many operands as operators the last one lacks an operand, unless one before it fails. -/
theorem foldlM_eq_operandMissing_iff (hlength : operands.length = operators.length) (hle : operators.length ≤ 2) :
    operators.foldlM reduce operands = .error .operandMissing ↔
      ∃ op ∈ operators.head?, ∀ lhs rhs, operands = [rhs, lhs] → ∃ value, op.apply lhs rhs = .ok value := by
  have hmissing (value : Binary64) (op : Operator) : reduce [value] op = .error .operandMissing :=
    (reduce_eq_operandMissing_iff op).mpr Nat.one_lt_two
  rcases operators with _ | ⟨op, _ | ⟨below, _ | ⟨third, rest⟩⟩⟩
  · obtain rfl := List.length_eq_zero_iff.mp hlength
    simp [pure, Except.pure]
  · obtain ⟨value, rfl⟩ := List.length_eq_one_iff.mp hlength
    simp [hmissing, bind, Except.bind]
  · obtain ⟨rhs, lhs, rfl⟩ := List.length_eq_two.mp hlength
    rw [List.foldlM_cons, reduce]
    cases happly : op.apply lhs rhs with
    | error e => simp [happly, Except.mapError, Except.map, bind, Except.bind]
    | ok value => simp [happly, hmissing, Except.mapError, Except.map, bind, Except.bind]
  · simp only [List.length_cons] at hle
    omega

/-- **The missing operand**: an operator at the end lacks one only if the last operand is not there. -/
theorem drain_eq_operandMissing_iff (h : Steady m) :
    m.drain = .error .operandMissing ↔ m.pending = [] ∧
      ∃ op ∈ m.operators.head?, ∀ lhs rhs, m.operands = [rhs, lhs] → ∃ value, op.apply lhs rhs = .ok value := by
  by_cases hpending : m.pending = []
  · have hdrain : m.drain = m.operators.foldlM reduce m.operands := by
      rw [drain, flush, hpending]
      rfl
    rw [hdrain, foldlM_eq_operandMissing_iff h.length_operands h.tightening.length_le_two]
    exact ⟨fun hop => ⟨hpending, hop⟩, And.right⟩
  · have hdrain : m.drain ≠ .error .operandMissing := (supplied_drain h hpending).ne_operandMissing
    exact ⟨fun hmissing => absurd hmissing hdrain, fun hempty => absurd hempty.1 hpending⟩

/-! ## The whole expression -/

/-- A scan leaves the text of the last operand. -/
theorem pending_of_scan {tokens : List Token} (h : scan {} tokens = .ok m) :
    m.pending = (Runs.ofTokens tokens).last := by
  obtain ⟨q, rfl⟩ := scan_machine tokens Pending.start [] h
  rfl

/-- An expression that ends with an operand lacks none. -/
theorem supplied_run {tokens : List Token} (hlast : (Runs.ofTokens tokens).last ≠ []) :
    Supplied (fun _ => True) (run tokens) := by
  have hscan : Supplied (fun m => Steady m ∧ m.pending ≠ []) (scan {} tokens) :=
    (supplied_scan tokens Steady.start).mono fun m hm hsteady => ⟨hsteady, pending_of_scan hm ▸ hlast⟩
  exact hscan.bind fun m hm => supplied_finish hm.1 hm.2

/-- **Stack discipline**: wherever a scan stands right after an operator, at least one and at most two operators wait,
binding tighter towards the top, with one operand each.  No operator that is released lacks an operand.  At the
end one does if and only if operators wait, the last operand is missing, and no operation on the others fails first; so
an expression that ends with an operand is never stopped for lack of one. -/
theorem steady_scan (tokens : List Token) :
    (∀ before op after m, tokens = before ++ .operator op :: after → scan {} (before ++ [.operator op]) = .ok m →
      m.operators ≠ [] ∧ Tightening m.operators ∧ m.operators.length ≤ 2 ∧
        m.operands.length = m.operators.length) ∧
    scan {} tokens ≠ .error .operandMissing ∧
    (∀ m, scan {} tokens = .ok m → (m.drain = .error .operandMissing ↔ (Runs.ofTokens tokens).last = [] ∧
      ∃ op ∈ m.operators.head?, ∀ lhs rhs, m.operands = [rhs, lhs] → ∃ value, op.apply lhs rhs = .ok value)) ∧
    (run tokens = .error .operandMissing → (Runs.ofTokens tokens).last = []) := by
  refine ⟨fun before op after m _ hscan => ?_, (supplied_scan tokens Steady.start).ne_operandMissing,
    fun m hscan => ?_, fun hrun => ?_⟩
  · obtain ⟨hsteady, hwaiting⟩ := (supplied_scan_operator before op).of_ok hscan
    exact ⟨hwaiting, hsteady.tightening, hsteady.tightening.length_le_two, hsteady.length_operands⟩
  · have hsteady := (supplied_scan tokens Steady.start).of_ok hscan
    rw [drain_eq_operandMissing_iff hsteady, pending_of_scan hscan]
  · by_contra hlast
    exact (supplied_run hlast).ne_operandMissing hrun

/-- Two plus three times nothing: both operators wait, two times three is computed, and then the sum lacks an
operand. -/
theorem steady_scan_product :
    let before : List Token := [.literal ['2'], .operator .add, .literal ['3']]
    let m : Machine := { operands := [.ofNat 3, .ofNat 2], operators := [.multiply, .add] }
    scan {} (before ++ [.operator .multiply]) = .ok m ∧
      (m.operators ≠ [] ∧ Tightening m.operators ∧ m.operators.length ≤ 2 ∧
        m.operands.length = m.operators.length) ∧
      scan {} (before ++ [.operator .multiply]) ≠ .error .operandMissing ∧
      Operator.multiply.apply (.ofNat 2) (.ofNat 3) = .ok (.ofNat 6) ∧ m.drain = .error .operandMissing ∧
      run (before ++ [.operator .multiply]) = .error .operandMissing ∧
      (Runs.ofTokens (before ++ [.operator .multiply])).last = [] := by
  intro before m
  have hscan : scan {} (before ++ [.operator .multiply]) = .ok m := by decide +kernel
  have hlast : (Runs.ofTokens (before ++ [.operator .multiply])).last = [] := by decide
  have happly : Operator.multiply.apply (.ofNat 2) (.ofNat 3) = .ok (.ofNat 6) := by decide +kernel
  have hrun : run (before ++ [.operator .multiply]) = .error .operandMissing := by decide +kernel
  obtain ⟨hafter, hscanned, hdrain, hended⟩ := steady_scan (before ++ [.operator .multiply])
  refine ⟨hscan, hafter before .multiply [] m rfl hscan, hscanned, happly, (hdrain m hscan).mpr ⟨hlast, ?_⟩, hrun,
    hended hrun⟩
  refine ⟨.multiply, rfl, fun lhs rhs hoperands => ⟨.ofNat 6, ?_⟩⟩
  obtain ⟨rfl, rfl⟩ : .ofNat 3 = rhs ∧ .ofNat 2 = lhs := by simpa [m] using hoperands
  exact happly

/-- Five plus zero, divided by nothing: the quotient takes both numbers and fails before an operand is missing. -/
example : Machine.run [.literal ['5'], .operator .add, .literal ['0'], .operator .divide] =
    .error (.failed .divisionByZero) := by
  decide +kernel

end Machine

end Keypad
