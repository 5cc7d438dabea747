import Keypad.Operator

/-!
# Keypad.Token — entries of an expression

* `Token`: digits or a carried number, a decimal point, or an operator.
* `Token.text`, `Token.width`: what an entry shows and how many characters that takes; `width_eq` ties them.
* `Runs`: a token list cut at its operators, the text of each operand in one piece; `ofTokens_append_operator` says
  where the cuts are.
-/

namespace Keypad

/-- One entry of an expression.

Neighbouring literals and points form a single number.  A carried result such as `-5` is one literal, so its sign is
never taken for a subtraction. -/
inductive Token
  /-- Digits, or the text of a carried result. -/
  | literal (text : List Char)
  /-- A decimal point. -/
  | dot
  /-- A binary operator. -/
  | operator (op : Operator)
  deriving DecidableEq, Repr

namespace Token

/-- Whether the entry is an operator. -/
def isOperator : Token → Bool
  | operator _ => true
  | _ => false

/-- What the entry shows. -/
def text : Token → List Char
  | literal t => t
  | dot => ['.']
  | operator op => [op.symbol]

/-- The number of characters that the entry takes on the display. -/
def width : Token → Nat
  | literal t => t.length
  | _ => 1

theorem width_eq (t : Token) : t.width = t.text.length := by
  cases t <;> rfl

/-- Whether the entry brings a decimal point. -/
def hasDot : Token → Bool
  | literal t => t.contains '.'
  | dot => true
  | operator _ => false

end Token

/-! ## Operands and operators -/

/-- An expression cut at its operators: the text of the first operand, then each operator with the text after it. -/
structure Runs where
  first : List Char
  rest : List (Operator × List Char)
  deriving DecidableEq, Repr

namespace Runs

/-- Puts one more token in front. -/
def cons : Token → Runs → Runs
  | .operator op, r => ⟨[], (op, r.first) :: r.rest⟩
  | t, r => ⟨t.text ++ r.first, r.rest⟩

/-- Cuts a token list at its operators. -/
def ofTokens (tokens : List Token) : Runs := tokens.foldr cons ⟨[], []⟩

/-- The text of the last operand. -/
def last (r : Runs) : List Char := (r.rest.getLast?.map Prod.snd).getD r.first

@[simp] theorem ofTokens_nil : ofTokens [] = ⟨[], []⟩ := rfl

@[simp] theorem ofTokens_cons (t : Token) (ts : List Token) : ofTokens (t :: ts) = cons t (ofTokens ts) := rfl

/-- An operator ends the runs before it and starts a new one. -/
theorem ofTokens_append_operator (op : Operator) (rest : List Token) : ∀ before : List Token,
    ofTokens (before ++ .operator op :: rest) =
      ⟨(ofTokens before).first,
        (ofTokens before).rest ++ (op, (ofTokens rest).first) :: (ofTokens rest).rest⟩
  | [] => rfl
  | t :: before => by
    rw [List.cons_append, ofTokens_cons, ofTokens_append_operator op rest before]
    cases t <;> rfl

end Runs

end Keypad
