import Keypad.Text.Reader
import Mathlib.Data.List.TakeWhile

/-!
# Keypad.Proofs.Text.Reader — what readers take and what they leave

* `bind_run`, `bind_eq_some_iff`: readers one after the other.
* `expect_eq_some_iff`, `word_eq_some_iff`: fixed characters.
* `accept_run`, `accept_run_of_ne`, `accept_eq_some`: a character that may be missing.
* `takeWhile1_run`, `takeWhile1_eq_some`, `skipWhile_run`, `skipWhile_eq_some`: characters of a class.
* `readAll?_eq_some_iff`: a text that is read to its end.
-/

namespace Keypad.Text.Reader

section

variable {α β : Type} {r : Reader α} {f : α → Reader β} {text rest : List Char} {a : α} {b : β}

/-! ## In sequence -/

theorem bind_run (h : r text = some (a, rest)) : (r >>= f) text = f a rest := by
  show (r text).bind _ = _
  rw [h]
  rfl

theorem bind_eq_some_iff :
    (r >>= f) text = some (b, rest) ↔ ∃ a mid, r text = some (a, mid) ∧ f a mid = some (b, rest) := by
  show (r text).bind _ = _ ↔ _
  rw [Option.bind_eq_some_iff]
  exact ⟨fun ⟨(a, mid), h⟩ => ⟨a, mid, h⟩, fun ⟨a, mid, h⟩ => ⟨(a, mid), h⟩⟩

theorem pure_eq_some_iff {a' : α} : (pure a : Reader α) text = some (a', rest) ↔ a = a' ∧ text = rest := by
  show some (a, text) = _ ↔ _
  rw [Option.some_inj, Prod.mk.injEq]

theorem readAll?_eq_some_iff : readAll? r text = some a ↔ r text = some (a, []) := by
  unfold readAll?
  split
  · rename_i value h
    rw [h, Option.some_inj, Option.some_inj, Prod.mk.injEq]
    exact ⟨fun heq => ⟨heq, rfl⟩, And.left⟩
  · rename_i h
    exact iff_of_false nofun fun heq => h a heq

end

variable {p : Char → Bool} {c : Char} {text rest run word : List Char} {u : Unit}

/-! ## Fixed characters -/

theorem peek?_run (text : List Char) : peek? text = some (text.head?, text) := rfl

theorem expect_eq_some_iff : expect c text = some (u, rest) ↔ text = c :: rest := by
  rcases text with _ | ⟨d, text⟩
  · exact iff_of_false nofun nofun
  · show (if d = c then pure () else failure : Reader Unit) text = _ ↔ _
    by_cases h : d = c
    · rw [if_pos h, pure_eq_some_iff, h, List.cons.injEq]
      exact ⟨fun heq => ⟨rfl, heq.2⟩, fun heq => ⟨rfl, heq.2⟩⟩
    · rw [if_neg h]
      exact iff_of_false nofun fun heq => h (List.cons.inj heq).1

theorem expect_run (c : Char) (rest : List Char) : expect c (c :: rest) = some ((), rest) := expect_eq_some_iff.mpr rfl

theorem word_eq_some_iff : Reader.word word text = some (u, rest) ↔ text = word ++ rest := by
  induction word generalizing text with
  | nil => exact pure_eq_some_iff.trans ⟨And.right, fun h => ⟨rfl, h⟩⟩
  | cons c word ih =>
    rw [Reader.word, bind_eq_some_iff]
    constructor
    · rintro ⟨_, mid, hc, hword⟩
      rw [expect_eq_some_iff.mp hc, ih.mp hword]
      rfl
    · intro h
      exact ⟨(), word ++ rest, expect_eq_some_iff.mpr h, ih.mpr rfl⟩

theorem word_run (word rest : List Char) : Reader.word word (word ++ rest) = some ((), rest) :=
  word_eq_some_iff.mpr rfl

/-! ## Characters that may be missing -/

theorem acceptIf_run (h : p c) (rest : List Char) : acceptIf p (c :: rest) = some (true, rest) := by
  rw [acceptIf, if_pos h]

theorem acceptIf_run_of_ne (h : ∀ c ∈ text.head?, p c = false) : acceptIf p text = some (false, text) := by
  rcases text with _ | ⟨c, text⟩
  · rfl
  · rw [acceptIf, if_neg (by rw [h c rfl]; decide)]

theorem acceptIf_eq_some {found : Bool} (h : acceptIf p text = some (found, rest)) :
    (found = true ∧ ∃ c, p c ∧ text = c :: rest) ∨ (found = false ∧ text = rest) := by
  rcases text with _ | ⟨c, text⟩
  · obtain ⟨rfl, rfl⟩ := Prod.mk.inj (Option.some.inj h)
    exact Or.inr ⟨rfl, rfl⟩
  · rw [acceptIf] at h
    split at h
    · obtain ⟨rfl, rfl⟩ := Prod.mk.inj (Option.some.inj h)
      exact Or.inl ⟨rfl, c, ‹_›, rfl⟩
    · obtain ⟨rfl, rfl⟩ := Prod.mk.inj (Option.some.inj h)
      exact Or.inr ⟨rfl, rfl⟩

theorem accept_run (c : Char) (rest : List Char) : accept c (c :: rest) = some (true, rest) :=
  acceptIf_run (by simp) rest

theorem accept_run_of_ne (h : ∀ d ∈ text.head?, d ≠ c) : accept c text = some (false, text) :=
  acceptIf_run_of_ne fun d hd => by simpa using h d hd

theorem accept_eq_some {found : Bool} (h : accept c text = some (found, rest)) :
    (found = true ∧ text = c :: rest) ∨ (found = false ∧ text = rest) := by
  rcases acceptIf_eq_some h with ⟨hfound, d, hd, htext⟩ | hnone
  · rw [beq_iff_eq.mp hd] at htext
    exact Or.inl ⟨hfound, htext⟩
  · exact Or.inr hnone

/-! ## Characters of a class -/

theorem takeWhile_append (hrun : ∀ c ∈ run, p c) (hrest : ∀ c ∈ rest.head?, p c = false) :
    (run ++ rest).takeWhile p = run ∧ (run ++ rest).dropWhile p = rest := by
  have hstop : rest.takeWhile p = [] ∧ rest.dropWhile p = rest := by
    rcases rest with _ | ⟨c, rest⟩
    · exact ⟨rfl, rfl⟩
    · simp [hrest c rfl]
  rw [List.takeWhile_append_of_pos hrun, List.dropWhile_append_of_pos hrun, hstop.1, hstop.2, List.append_nil]
  exact ⟨rfl, rfl⟩

theorem takeWhile1_run (hne : run ≠ []) (hrun : ∀ c ∈ run, p c) (hrest : ∀ c ∈ rest.head?, p c = false) :
    takeWhile1 p (run ++ rest) = some (run, rest) := by
  obtain ⟨htake, hdrop⟩ := takeWhile_append hrun hrest
  have htaken : Reader.takeWhile p (run ++ rest) = some (run, rest) := by rw [Reader.takeWhile, htake, hdrop]
  rw [takeWhile1, bind_run htaken, if_neg (by simpa using hne)]
  rfl

theorem takeWhile1_eq_some (h : takeWhile1 p text = some (run, rest)) :
    text = run ++ rest ∧ run ≠ [] ∧ ∀ c ∈ run, p c := by
  obtain ⟨taken, mid, htake, h⟩ := bind_eq_some_iff.mp h
  obtain ⟨rfl, rfl⟩ := Prod.mk.inj (Option.some.inj htake)
  split at h
  · cases h
  · rename_i hne
    obtain ⟨rfl, rfl⟩ := pure_eq_some_iff.mp h
    exact ⟨List.takeWhile_append_dropWhile.symm, by simpa using hne, fun c hc => List.mem_takeWhile_imp hc⟩

theorem skipWhile_run (hrun : ∀ c ∈ run, p c) (hrest : ∀ c ∈ rest.head?, p c = false) :
    skipWhile p (run ++ rest) = some ((), rest) := by
  rw [skipWhile, (takeWhile_append hrun hrest).2]

theorem skipWhile_eq_some (h : skipWhile p text = some (u, rest)) :
    ∃ run, text = run ++ rest ∧ ∀ c ∈ run, p c := by
  obtain ⟨-, rfl⟩ := Prod.mk.inj (Option.some.inj h)
  exact ⟨text.takeWhile p, List.takeWhile_append_dropWhile.symm, fun c hc => List.mem_takeWhile_imp hc⟩

end Keypad.Text.Reader
