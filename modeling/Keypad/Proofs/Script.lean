import Keypad.Script
import Mathlib.Data.List.TakeWhile
import Mathlib.Tactic.IntervalCases

/-!
# Keypad.Proofs.Script — the quick check accepts exactly the scripts that have keys

Blanks are trimmed by the check and skipped by the reader, so both depend on the other characters only.

* `solid_trim`: trimming removes blanks; `trim_eq_nil_iff`: it leaves nothing only of a blank text.
* `isSome_ofChar?_iff`: a character has a key iff it is one of the characters of the keypad.
* `toOption_parseFrom`, `exists_parse_iff`: the keys of a script, and when it has them.
* `parse_append`, `parse_eq_error_iff`: a script in two parts, and the character that a script is refused for.
* `looksLike_iff`: the check holds of a script that has keys and is not blank.
* `parse_trim`, `looksLike_trim`: blanks around a script change neither.
-/

namespace Keypad

/-! ## Blanks -/

namespace Text

/-- A text without its blanks. -/
def solid (text : List Char) : List Char := text.filter fun c => !isBlank c

theorem solid_cons_of_isBlank {c : Char} (h : isBlank c = true) (text : List Char) :
    solid (c :: text) = solid text := by
  rw [solid, List.filter_cons_of_neg (by simp [h]), solid]

theorem solid_cons_of_not {c : Char} (h : ¬ isBlank c = true) (text : List Char) :
    solid (c :: text) = c :: solid text := by
  rw [solid, List.filter_cons_of_pos (by simp [h]), solid]

theorem mem_solid {c : Char} {text : List Char} : c ∈ solid text ↔ c ∈ text ∧ isBlank c = false := by
  simp [solid]

theorem solid_trimStart (text : List Char) : solid (trimStart text) = solid text := by
  induction text with
  | nil => rfl
  | cons c text ih =>
    by_cases hc : isBlank c = true
    · rw [trimStart, List.dropWhile_cons_of_pos hc, solid_cons_of_isBlank hc]
      exact ih
    · rw [trimStart, List.dropWhile_cons_of_neg hc]

theorem solid_reverse (text : List Char) : solid text.reverse = (solid text).reverse := List.filter_reverse ..

/-- Trimming removes nothing but blanks. -/
theorem solid_trim (text : List Char) : solid (trim text) = solid text := by
  rw [trim, trimEnd, solid_reverse, solid_trimStart, solid_reverse, List.reverse_reverse, solid_trimStart]

theorem trim_eq_nil_iff {text : List Char} : trim text = [] ↔ solid text = [] := by
  constructor
  · intro h
    rw [← solid_trim, h]
    rfl
  · intro h
    have hblank : trimStart text = [] := by
      rw [trimStart, List.dropWhile_eq_nil_iff]
      intro c hc
      by_contra hsolid
      exact List.ne_nil_of_mem (mem_solid.mpr ⟨hc, Bool.eq_false_iff.mpr hsolid⟩) h
    rw [trim, hblank]
    rfl

theorem solid_ne_nil_iff {text : List Char} : solid text ≠ [] ↔ ∃ c ∈ text, isBlank c = false := by
  constructor
  · intro h
    obtain ⟨c, hc⟩ := List.exists_mem_of_ne_nil _ h
    exact ⟨c, mem_solid.mp hc⟩
  · rintro ⟨c, hc⟩
    exact List.ne_nil_of_mem (mem_solid.mpr hc)

end Text

open Text

/-! ## The characters of the keypad -/

namespace Script

theorem mem_keypadChars_of_isDigit {c : Char} (h : c.isDigit) : c ∈ keypadChars := by
  have hbounds : 48 ≤ c.toNat ∧ c.toNat ≤ 57 := by
    simpa [Char.isDigit, UInt32.le_iff_toNat_le] using h
  obtain ⟨n, hn⟩ : ∃ n, c.toNat = n := ⟨_, rfl⟩
  have hc : c = Char.ofNat n := by rw [← hn, Char.ofNat_toNat]
  rw [hn] at hbounds
  obtain ⟨hlow, hhigh⟩ := hbounds
  subst hc
  interval_cases n <;> decide

theorem mem_keypadChars_of_operator {c : Char} {op : Operator} (h : Operator.ofChar? c = some op) :
    c ∈ keypadChars := by
  unfold Operator.ofChar? at h
  split at h
  case h_9 => cases h
  all_goals decide

/-- A character has a key if and only if it is on the keypad. -/
theorem isSome_ofChar?_iff {c : Char} : (Key.ofChar? c).isSome ↔ c ∈ keypadChars := by
  constructor
  · intro h
    unfold Key.ofChar? at h
    by_cases hc : c.isDigit = true
    · exact mem_keypadChars_of_isDigit hc
    · rw [if_neg hc] at h
      split at h
      case h_7 =>
        obtain ⟨op, hop⟩ := Option.isSome_iff_exists.mp (Option.isSome_map.symm.trans h)
        exact mem_keypadChars_of_operator hop
      all_goals decide
  · intro h
    have hall : (keypadChars.all fun c => (Key.ofChar? c).isSome) = true := by decide
    exact List.all_eq_true.mp hall c h

/-! ## Reading a script -/

/-- A script has the keys of its characters, blanks left out. -/
theorem toOption_parseFrom (text : List Char) : ∀ position : Nat,
    (parseFrom position text).toOption = (solid text).mapM Key.ofChar? := by
  induction text with
  | nil => exact fun _ => rfl
  | cons c text ih =>
    intro position
    rw [parseFrom]
    by_cases hc : isBlank c = true
    · rw [if_pos hc, solid_cons_of_isBlank hc]
      exact ih (position + 1)
    · rw [if_neg hc, solid_cons_of_not hc, List.mapM_cons, ← ih (position + 1)]
      cases Key.ofChar? c with
      | none => rfl
      | some key => cases parseFrom (position + 1) text <;> rfl

theorem isSome_mapM_iff {α β : Type} {f : α → Option β} {l : List α} :
    (l.mapM f).isSome ↔ ∀ a ∈ l, (f a).isSome := by
  induction l with
  | nil => simp
  | cons a l ih =>
    rw [List.mapM_cons, List.forall_mem_cons, ← ih]
    cases f a with
    | none => simp
    | some b => cases l.mapM f <;> simp

/-- A script has keys if all its characters but the blanks are on the keypad. -/
theorem exists_parse_iff {text : List Char} :
    (∃ keys, parse text = .ok keys) ↔ ∀ c ∈ solid text, c ∈ keypadChars := by
  have hsome : (∃ keys, parse text = .ok keys) ↔ (parse text).toOption.isSome := by
    cases parse text with
    | error e => exact ⟨nofun, nofun⟩
    | ok keys => exact ⟨fun _ => rfl, fun _ => ⟨keys, rfl⟩⟩
  rw [hsome, parse, toOption_parseFrom, isSome_mapM_iff]
  simp only [isSome_ofChar?_iff]

theorem parse_trim {text : List Char} {keys : List Key} (h : parse text = .ok keys) :
    parse (trim text) = .ok keys := by
  have htrim : (parse (trim text)).toOption = some keys := by
    rw [parse, toOption_parseFrom, solid_trim, ← toOption_parseFrom text 0]
    exact congrArg Except.toOption h
  cases hparse : parse (trim text) with
  | error e => rw [hparse] at htrim; cases htrim
  | ok read => rw [hparse] at htrim; exact congrArg Except.ok (Option.some.inj htrim)

/-! ## Scripts in two parts -/

/-- The position of the first character counts for that of the error and for nothing else. -/
theorem parseFrom_add (more : Nat) (text : List Char) : ∀ position : Nat,
    parseFrom (position + more) text =
      (parseFrom position text).mapError fun e => { e with position := e.position + more } := by
  induction text with
  | nil => exact fun _ => rfl
  | cons c text ih =>
    intro position
    have hposition : position + more + 1 = position + 1 + more := by omega
    rw [parseFrom, parseFrom, hposition, ih]
    by_cases hc : isBlank c = true
    · rw [if_pos hc, if_pos hc]
    · rw [if_neg hc, if_neg hc]
      cases Key.ofChar? c with
      | none => rfl
      | some key => cases parseFrom (position + 1) text <;> rfl

/-- **Two parts**: the keys of the one and then those of the other, and an error of the second is as far behind as the
first is long. -/
theorem parse_append (a b : List Char) :
    parse (a ++ b) = parse a >>= fun keys =>
      ((parse b).mapError fun e => { e with position := e.position + a.length }).map (keys ++ ·) := by
  unfold parse
  rw [parseFrom_append, parseFrom_add]

theorem exists_of_parseFrom_eq_error (text : List Char) : ∀ (position : Nat) {e : UnknownKey},
    parseFrom position text = .error e → ∃ before after keys, text = before ++ e.key :: after ∧
      e.position = position + before.length ∧ isBlank e.key = false ∧ Key.ofChar? e.key = none ∧
      parseFrom position before = .ok keys := by
  induction text with
  | nil => nofun
  | cons c text ih =>
    intro position e h
    rw [parseFrom] at h
    by_cases hc : isBlank c = true
    · rw [if_pos hc] at h
      obtain ⟨before, after, keys, rfl, hposition, hsolid, hkey, hbefore⟩ := ih (position + 1) h
      refine ⟨c :: before, after, keys, rfl, ?_, hsolid, hkey, ?_⟩
      · rw [hposition, List.length_cons]
        omega
      · rwa [parseFrom, if_pos hc]
    · rw [if_neg hc] at h
      cases hkey : Key.ofChar? c with
      | none =>
        rw [hkey] at h
        obtain rfl := Except.error.inj h
        exact ⟨[], text, [], rfl, rfl, Bool.eq_false_iff.mpr hc, hkey, rfl⟩
      | some key =>
        rw [hkey] at h
        have hlater : parseFrom (position + 1) text = .error e := by
          cases hrest : parseFrom (position + 1) text with
          | error e' => rw [hrest] at h; exact congrArg Except.error (Except.error.inj h)
          | ok keys => rw [hrest] at h; cases h
        obtain ⟨before, after, keys, rfl, hposition, hsolid, hnone, hbefore⟩ := ih (position + 1) hlater
        refine ⟨c :: before, after, key :: keys, rfl, ?_, hsolid, hnone, ?_⟩
        · rw [hposition, List.length_cons]
          omega
        · rw [parseFrom, if_neg hc, hkey, hbefore]
          rfl

/-- **The error** names the first character without a key, and how many characters stand before it. -/
theorem parse_eq_error_iff {text : List Char} {e : UnknownKey} :
    parse text = .error e ↔ ∃ before after, text = before ++ e.key :: after ∧ e.position = before.length ∧
      isBlank e.key = false ∧ Key.ofChar? e.key = none ∧ ∃ keys, parse before = .ok keys := by
  constructor
  · intro h
    obtain ⟨before, after, keys, htext, hposition, hsolid, hkey, hbefore⟩ := exists_of_parseFrom_eq_error text 0 h
    rw [Nat.zero_add] at hposition
    exact ⟨before, after, htext, hposition, hsolid, hkey, keys, hbefore⟩
  · rintro ⟨before, after, rfl, hposition, hsolid, hkey, keys, hbefore⟩
    have hfirst : parse (e.key :: after) = .error ⟨e.key, 0⟩ := by
      rw [parse, parseFrom, if_neg (by rw [hsolid]; decide), hkey]
    have herror : UnknownKey.mk e.key (0 + before.length) = e := by
      rw [Nat.zero_add, ← hposition]
    rw [parse_append, hbefore, hfirst]
    exact congrArg Except.error herror

/-- Blanks count. -/
example : parse "2 ^ 3".toList = .error ⟨'^', 2⟩ := by decide

/-- A script is refused if one of its characters has no key. -/
theorem exists_parse_error_iff {text : List Char} :
    (∃ e, parse text = .error e) ↔ ∃ c ∈ text, isBlank c = false ∧ Key.ofChar? c = none := by
  constructor
  · rintro ⟨e, h⟩
    obtain ⟨before, after, rfl, -, hsolid, hkey, -⟩ := parse_eq_error_iff.mp h
    exact ⟨e.key, List.mem_append_right before List.mem_cons_self, hsolid, hkey⟩
  · rintro ⟨c, hc, hsolid, hkey⟩
    cases hparse : parse text with
    | error e => exact ⟨e, rfl⟩
    | ok keys =>
      have hsome := isSome_ofChar?_iff.mpr (exists_parse_iff.mp ⟨keys, hparse⟩ c (mem_solid.mpr ⟨hc, hsolid⟩))
      rw [hkey] at hsome
      cases hsome

/-! ## The quick check -/

/-- The check looks at the characters that are no blanks. -/
theorem looksLike_iff_solid {text : List Char} :
    looksLike text = true ↔ solid text ≠ [] ∧ ∀ c ∈ solid text, c ∈ keypadChars := by
  have hall : ((trim text).all fun c => isBlank c || keypadChars.contains c) = true ↔
      ∀ c ∈ solid (trim text), c ∈ keypadChars := by
    rw [List.all_eq_true]
    refine forall_congr' fun c => ?_
    rw [mem_solid]
    cases isBlank c <;> simp
  have hne : (!(trim text).isEmpty) = true ↔ solid text ≠ [] := by
    rw [ne_eq, ← trim_eq_nil_iff]
    simp
  rw [looksLike, Bool.and_eq_true, hne, hall, solid_trim]

theorem looksLike_trim (text : List Char) : looksLike (trim text) = looksLike text := by
  rw [Bool.eq_iff_iff, looksLike_iff_solid, looksLike_iff_solid, solid_trim]

/-- **The check** holds exactly of the scripts that have keys, the blank ones aside. -/
theorem looksLike_iff {text : List Char} :
    looksLike text = true ↔ (∃ c ∈ text, isBlank c = false) ∧ ∃ keys, parse text = .ok keys := by
  rw [looksLike_iff_solid, solid_ne_nil_iff, exists_parse_iff]

end Script

end Keypad
