import Keypad.Key
import Keypad.Text.Blank
import Keypad.Text.Quoted

/-!
# Keypad.Script — key scripts

A key script is a text that stands for key presses, one character a key; blanks between them are skipped.

* `Script.parse`: the keys of a script, or the first character without a key and its position; `parseFrom_append`
  splits it at any point.
* `Script.looksLike`: the quick check on the characters alone.
-/

namespace Keypad

/-- A character without a key, at a position counted in characters. -/
structure UnknownKey where
  key : Char
  position : Nat
  deriving DecidableEq, Repr

/-- The text of the error. -/
def UnknownKey.message (e : UnknownKey) : String :=
  s!"unknown key {Text.quotedChar e.key} at position {e.position}"

namespace Script

/-- The keys of a script whose first character stands at the given position. -/
def parseFrom (position : Nat) : List Char → Except UnknownKey (List Key)
  | [] => .ok []
  | c :: rest =>
    if Text.isBlank c then parseFrom (position + 1) rest
    else match Key.ofChar? c with
      | none => .error ⟨c, position⟩
      | some key => (parseFrom (position + 1) rest).map (key :: ·)

/-- The keys of a script. -/
def parse (script : List Char) : Except UnknownKey (List Key) := parseFrom 0 script

/-- A script in two parts: the second is read only if the first has a key for every character. -/
theorem parseFrom_append (b : List Char) : ∀ (position : Nat) (a : List Char),
    parseFrom position (a ++ b) =
      parseFrom position a >>= fun keys => (parseFrom (position + a.length) b).map (keys ++ ·)
  | position, [] => by
    show parseFrom position b = (parseFrom (position + 0) b).map (fun keys => keys)
    cases parseFrom position b <;> rfl
  | position, c :: a => by
    have ih := parseFrom_append b (position + 1) a
    have hlen : position + (c :: a).length = position + 1 + a.length := by simp only [List.length_cons]; omega
    rw [List.cons_append, parseFrom, parseFrom, hlen, ih]
    by_cases hc : Text.isBlank c = true
    · rw [if_pos hc, if_pos hc]
    · rw [if_neg hc, if_neg hc]
      cases Key.ofChar? c with
      | none => rfl
      | some key =>
        cases parseFrom (position + 1) a with
        | error e => rfl
        | ok keys => cases parseFrom (position + 1 + a.length) b <;> rfl

/-- The characters of the keypad. -/
def keypadChars : List Char := "0123456789.+-−*x×/÷%=cC<".toList

/-- Whether a text could be a script: it is not blank, and holds only blanks and characters of the keypad. -/
def looksLike (text : List Char) : Bool :=
  let trimmed := Text.trim text
  !trimmed.isEmpty && trimmed.all fun c => Text.isBlank c || keypadChars.contains c

end Script

end Keypad
