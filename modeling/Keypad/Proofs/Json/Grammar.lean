import Keypad.Json.Parser
import Keypad.Proofs.Decimal.Numeral

/-!
# Keypad.Proofs.Json.Grammar — how JSON values are written

The grammar of JSON texts, as relations between values and the characters that stand for them.

* `WrittenParts`: the parts of a string between its quotes; `Plain`: those that are written without escapes.
* `WrittenExponent`, `WrittenNumber`: numbers with sign, whole part, fraction and exponent.
* `Written`: values, with any blanks between tokens; `WrittenItems`, `WrittenMember`, `WrittenMembers`: what stands in
  arrays and objects.
* `Document`: a text that is one value.
-/

namespace Keypad.Json

open Text Decimal Binary64

/-! ## Strings -/

/-- The parts of a string, written out: a character stands for itself unless it is a control character, a quote or a
backslash; it may be written by its escape, and a 16-bit unit by four hexadecimal digits. -/
inductive WrittenParts : List StringPart → List Char → Prop
  | nil : WrittenParts [] []
  | plain {c : Char} {parts : List StringPart} {text : List Char} (hcontrol : ¬ c < ' ') (hquote : c ≠ '"')
      (hbackslash : c ≠ '\\') (h : WrittenParts parts text) : WrittenParts (.plain c :: parts) (c :: text)
  | escape {e c : Char} {parts : List StringPart} {text : List Char} (he : escape? e = some c)
      (h : WrittenParts parts text) : WrittenParts (.plain c :: parts) ('\\' :: e :: text)
  | unit {i j k l : Char} {n : Nat} {parts : List StringPart} {text : List Char} (hn : hexNumber? [i, j, k, l] = some n)
      (h : WrittenParts parts text) : WrittenParts (.unit n :: parts) ('\\' :: 'u' :: i :: j :: k :: l :: text)

/-- The text that the parts of a string stand for. -/
def textOf (parts : List StringPart) : Option String := (decodeParts parts).map String.ofList

/-- Characters that stand for themselves in a string. -/
def Plain (text : List Char) : Prop := ∀ c ∈ text, ¬ c < ' ' ∧ c ≠ '"' ∧ c ≠ '\\'

instance (text : List Char) : Decidable (Plain text) :=
  List.decidableBAll (fun c => ¬ c < ' ' ∧ c ≠ '"' ∧ c ≠ '\\') text

theorem Plain.written {text : List Char} (h : Plain text) : WrittenParts (text.map .plain) text := by
  induction text with
  | nil => exact .nil
  | cons c text ih =>
    obtain ⟨⟨hcontrol, hquote, hbackslash⟩, hmore⟩ := List.forall_mem_cons.mp h
    exact .plain hcontrol hquote hbackslash (ih hmore)

theorem textOf_plain (text : String) : textOf (text.toList.map .plain) = some text := by
  have hdecode (chars : List Char) : decodeParts (chars.map .plain) = some chars := by
    induction chars with
    | nil => rfl
    | cons c chars ih => rw [List.map_cons, decodeParts, ih, Option.map_some]
  rw [textOf, hdecode, Option.map_some, String.ofList_toList]

/-! ## Numbers -/

/-- An exponent, or none: `([eE][+-]?[0-9]+)?`. -/
inductive WrittenExponent : Option Int → List Char → Prop
  | none : WrittenExponent none []
  | positive {mark : Char} {sign digits : List Char} (hmark : mark = 'e' ∨ mark = 'E')
      (hsign : sign = [] ∨ sign = ['+']) (hdigits : Digits digits) (hne : digits ≠ []) :
      WrittenExponent (some (Nat.ofDigitChars 10 digits 0 : Nat)) (mark :: (sign ++ digits))
  | negative {mark : Char} {digits : List Char} (hmark : mark = 'e' ∨ mark = 'E') (hdigits : Digits digits)
      (hne : digits ≠ []) : WrittenExponent (some (-(Nat.ofDigitChars 10 digits 0 : Nat))) (mark :: '-' :: digits)

/-- A number: `-?(0|[1-9][0-9]*)(\.[0-9]+)?` and perhaps an exponent. -/
def WrittenNumber (n : Number) (text : List Char) : Prop :=
  IsWhole n.whole ∧ Digits n.fraction ∧ ∃ exponent, WrittenExponent n.exponent exponent ∧
    text = signText n.negative ++ (n.whole ++ ((if n.fraction = [] then [] else '.' :: n.fraction) ++ exponent))

/-! ## Values -/

/-- Blanks, or nothing. -/
def Blanks (text : List Char) : Prop := ∀ c ∈ text, isBlank c

theorem Blanks.nil : Blanks [] := nofun

theorem Blanks.space : Blanks [' '] := by simp [Blanks, isBlank]

mutual

/-- A value, written out. -/
inductive Written : Json → List Char → Prop
  | nullWord : Written .null "null".toList
  | trueWord : Written (.bool true) "true".toList
  | falseWord : Written (.bool false) "false".toList
  | number {n : Number} {text : List Char} (h : WrittenNumber n text) : Written (.number n) text
  | string {parts : List StringPart} {text : List Char} (h : WrittenParts parts text) :
      Written (.string (textOf parts)) ('"' :: (text ++ ['"']))
  | noItems {blanks : List Char} (hblanks : Blanks blanks) : Written (.array []) ('[' :: (blanks ++ [']']))
  | array {blanks text : List Char} {items : List Json} (hblanks : Blanks blanks) (h : WrittenItems items text) :
      Written (.array items) ('[' :: (blanks ++ (text ++ [']'])))
  | noMembers {blanks : List Char} (hblanks : Blanks blanks) : Written (.object []) ('\x7b' :: (blanks ++ ['\x7d']))
  | object {blanks text : List Char} {members : List (Option String × Json)} (hblanks : Blanks blanks)
      (h : WrittenMembers members text) : Written (.object members) ('\x7b' :: (blanks ++ (text ++ ['\x7d'])))

/-- The items of an array, at least one. -/
inductive WrittenItems : List Json → List Char → Prop
  | last {item : Json} {text blanks : List Char} (h : Written item text) (hblanks : Blanks blanks) :
      WrittenItems [item] (text ++ blanks)
  | more {item : Json} {items : List Json} {text rest before after : List Char} (h : Written item text)
      (hbefore : Blanks before) (hafter : Blanks after) (hrest : WrittenItems items rest) :
      WrittenItems (item :: items) (text ++ (before ++ ',' :: (after ++ rest)))

/-- A member: its name, a colon and the value. -/
inductive WrittenMember : Option String × Json → List Char → Prop
  | mk {parts : List StringPart} {value : Json} {name text before after : List Char} (hname : WrittenParts parts name)
      (hbefore : Blanks before) (hafter : Blanks after) (h : Written value text) :
      WrittenMember (textOf parts, value) ('"' :: (name ++ '"' :: (before ++ ':' :: (after ++ text))))

/-- The members of an object, at least one. -/
inductive WrittenMembers : List (Option String × Json) → List Char → Prop
  | last {member : Option String × Json} {text blanks : List Char} (h : WrittenMember member text)
      (hblanks : Blanks blanks) : WrittenMembers [member] (text ++ blanks)
  | more {member : Option String × Json} {members : List (Option String × Json)} {text rest before after : List Char}
      (h : WrittenMember member text) (hbefore : Blanks before) (hafter : Blanks after)
      (hrest : WrittenMembers members rest) :
      WrittenMembers (member :: members) (text ++ (before ++ ',' :: (after ++ rest)))

end

theorem Written.plain (text : String) (h : Plain text.toList) :
    Written (.string (some text)) ('"' :: (text.toList ++ ['"'])) := by
  rw [← textOf_plain]
  exact .string h.written

theorem WrittenMember.plain (name : String) {value : Json} {text before after : List Char} (hname : Plain name.toList)
    (hbefore : Blanks before) (hafter : Blanks after) (h : Written value text) :
    WrittenMember (some name, value) ('"' :: (name.toList ++ '"' :: (before ++ ':' :: (after ++ text)))) := by
  rw [← textOf_plain]
  exact .mk hname.written hbefore hafter h

/-- A text that is one value with blanks around it. -/
def Document (value : Json) (text : List Char) : Prop :=
  ∃ before written after, Blanks before ∧ Written value written ∧ Blanks after ∧ text = before ++ (written ++ after)

end Keypad.Json
