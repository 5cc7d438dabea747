import Keypad.Session.Basic

/-!
# Keypad.Session.Reachable — what key presses can lead to

* `Reachable s`: keys pressed on a new session lead to `s`.
* `Reachable.pressAll`: a list of keys keeps a session reachable.
-/

namespace Keypad.Session

/-- Keys pressed on a new session lead to the session. -/
inductive Reachable : Session → Prop
  | start : Reachable {}
  | press {s : Session} (key : Key) : Reachable s → Reachable (s.press key).1

theorem Reachable.pressAll {s : Session} (h : Reachable s) (keys : List Key) : Reachable (s.pressAll keys).1 := by
  induction keys generalizing s with
  | nil => exact h
  | cons key keys ih => exact ih (h.press key)

end Keypad.Session
