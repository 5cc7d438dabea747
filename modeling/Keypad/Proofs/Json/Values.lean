import Keypad.Proofs.Json.Tokens

/-!
# Keypad.Proofs.Json.Values — the grammar decides which texts are JSON

* `Written.head`: a value starts with a character that is neither a blank nor closes an array.
* `readValue_run`, `readItems_run`, `readMember_run`, `readMembers_run`: what is written is read, if the bound on the
  recursion is twice its length.
* `written_of_readValue`, `written_of_readItems`, `written_of_readMembers`: what is read is written so.
* `parse?_eq_some_iff`: the texts that hold a value are its documents.
-/

namespace Keypad.Json

open Text Reader

variable {text rest : List Char}

/-! ## Values -/

theorem WrittenNumber.head {n : Number} (h : WrittenNumber n text) :
    ∃ c more, text = c :: more ∧ (c = '-' ∨ c.isDigit) := by
  obtain ⟨hwhole, -, exponent, -, rfl⟩ := h
  obtain ⟨first, digits, hdigits⟩ := List.exists_cons_of_ne_nil hwhole.ne_nil
  have hfirst : first.isDigit := hwhole.digits first (by rw [hdigits]; exact List.mem_cons_self)
  cases n.negative with
  | true => exact ⟨_, _, rfl, Or.inl rfl⟩
  | false => exact ⟨first, _, by rw [hdigits]; rfl, Or.inr hfirst⟩

/-- Numbers do not start with a blank, nor as an array ends. -/
theorem number_start {c : Char} (h : c = '-' ∨ c.isDigit) : isBlank c = false ∧ c ≠ ']' := by
  rcases h with rfl | h
  · decide
  · refine ⟨Bool.eq_false_iff.mpr fun hblank => ?_, ?_⟩
    · rcases isBlank_iff.mp hblank with rfl | rfl | rfl | rfl <;> cases h
    · rintro rfl
      cases h

/-- A value starts with a character that is neither a blank nor closes an array. -/
theorem Written.head {value : Json} (h : Written value text) :
    ∃ c more, text = c :: more ∧ isBlank c = false ∧ c ≠ ']' := by
  cases h with
  | number h =>
    obtain ⟨c, more, rfl, hc⟩ := h.head
    exact ⟨c, more, rfl, number_start hc⟩
  | nullWord | trueWord | falseWord | string _ | noItems _ | array _ _ | noMembers _ | object _ _ =>
    exact ⟨_, _, rfl, by decide, by decide⟩

theorem WrittenItems.head {items : List Json} (h : WrittenItems items text) :
    ∃ c more, text = c :: more ∧ isBlank c = false ∧ c ≠ ']' := by
  cases h with
  | last h _ | more h _ _ _ =>
    obtain ⟨c, more, rfl, hc⟩ := h.head
    exact ⟨c, _, rfl, hc⟩

theorem WrittenMembers.head {members : List (Option String × Json)} (h : WrittenMembers members text) :
    ∃ more, text = '"' :: more := by
  cases h with
  | last h _ | more h _ _ _ =>
    cases h
    exact ⟨_, rfl⟩

theorem readValue_number {n : Number} {fuel : Nat} {blanks : List Char} (h : WrittenNumber n text)
    (hblanks : Blanks blanks) (hrest : Follows rest) :
    readValue (fuel + 1) (blanks ++ (text ++ rest)) = some (.number n, rest) := by
  have hread := readNumber_run h hrest
  obtain ⟨c, more, rfl, hc⟩ := h.head
  have hkind : c ≠ 'n' ∧ c ≠ 't' ∧ c ≠ 'f' ∧ c ≠ '"' ∧ c ≠ '[' ∧ c ≠ '\x7b' := by
    rcases hc with rfl | hc
    · decide
    · refine ⟨?_, ?_, ?_, ?_, ?_, ?_⟩ <;> (rintro rfl; cases hc)
  obtain ⟨hn, ht, hf, hquote, hbracket, hbrace⟩ := hkind
  rw [List.cons_append] at hread ⊢
  rw [readValue, bind_run (skipBlanks_cons hblanks (number_start hc).1 _), bind_run (peek?_run _)]
  simp only [List.head?_cons, Option.some.injEq, hn, ht, hf, hquote, hbracket, hbrace, imp_self]
  exact bind_run hread

theorem readName_run {parts : List StringPart} {name before after : List Char} (hname : WrittenParts parts name)
    (hbefore : Blanks before) (hafter : Blanks after) :
    readName (after ++ '"' :: (name ++ '"' :: (before ++ ':' :: rest))) = some (textOf parts, rest) := by
  rw [readName, bind_run (skipBlanks_cons hafter (by decide) _), bind_run (expect_run '"' _),
    bind_run (readString_run hname _), bind_run (skipBlanks_cons hbefore (by decide) _), bind_run (expect_run ':' _)]
  rfl

-- By recursion on how the value is written.  Each bracket and each comma takes two from the bound, which is twice the
-- length: one for the value and one for the list that it stands in.
mutual

/-- A value is read where it is written. -/
theorem readValue_run : ∀ {value : Json} {text blanks rest : List Char} {fuel : Nat}, Written value text →
    Blanks blanks → Follows rest → 2 * text.length ≤ fuel →
    readValue fuel (blanks ++ (text ++ rest)) = some (value, rest)
  | _, _, _, rest, 0, h, _, _, hfuel => by
    obtain ⟨c, more, rfl, -⟩ := h.head
    cases hfuel
  | _, _, _, rest, fuel + 1, .nullWord, hblanks, _, _ => by
    show readValue _ (_ ++ 'n' :: ('u' :: 'l' :: 'l' :: rest)) = _
    rw [readValue, bind_run (skipBlanks_cons hblanks (by decide) _), bind_run (peek?_run _)]
    exact bind_run (word_run "null".toList rest)
  | _, _, _, rest, fuel + 1, .trueWord, hblanks, _, _ => by
    show readValue _ (_ ++ 't' :: ('r' :: 'u' :: 'e' :: rest)) = _
    rw [readValue, bind_run (skipBlanks_cons hblanks (by decide) _), bind_run (peek?_run _)]
    exact bind_run (word_run "true".toList rest)
  | _, _, _, rest, fuel + 1, .falseWord, hblanks, _, _ => by
    show readValue _ (_ ++ 'f' :: ('a' :: 'l' :: 's' :: 'e' :: rest)) = _
    rw [readValue, bind_run (skipBlanks_cons hblanks (by decide) _), bind_run (peek?_run _)]
    exact bind_run (word_run "false".toList rest)
  | _, _, _, _, fuel + 1, .number h, hblanks, hrest, _ => readValue_number h hblanks hrest
  | _, _, _, rest, fuel + 1, .string h, hblanks, _, _ => by
    rw [List.cons_append, List.append_assoc, readValue, bind_run (skipBlanks_cons hblanks (by decide) _),
      bind_run (peek?_run _)]
    simp only [List.head?_cons]
    rw [bind_run (expect_run '"' _)]
    exact bind_run (readString_run h rest)
  | _, _, _, rest, fuel + 1, .noItems hinner, hblanks, _, _ => by
    rw [List.cons_append, List.append_assoc, readValue, bind_run (skipBlanks_cons hblanks (by decide) _),
      bind_run (peek?_run _)]
    simp only [List.head?_cons]
    rw [bind_run (expect_run '[' _), List.singleton_append, bind_run (skipBlanks_cons hinner (by decide) _),
      bind_run (accept_run ']' _)]
    rfl
  | _, _, _, rest, fuel + 1, .array hinner h, hblanks, _, hfuel => by
    have hitems : readItems fuel ([] ++ (_ ++ ']' :: rest)) = some (_, rest) := readItems_run h nofun (by grind)
    obtain ⟨c, more, rfl, hc, hclose⟩ := h.head
    rw [List.cons_append, List.append_assoc, readValue, bind_run (skipBlanks_cons hblanks (by decide) _),
      bind_run (peek?_run _)]
    simp only [List.head?_cons]
    rw [bind_run (expect_run '[' _), List.append_assoc, List.cons_append, bind_run (skipBlanks_cons hinner hc _),
      bind_run (accept_run_of_ne (by simpa using hclose))]
    exact bind_run hitems
  | _, _, _, rest, fuel + 1, .noMembers hinner, hblanks, _, _ => by
    rw [List.cons_append, List.append_assoc, readValue, bind_run (skipBlanks_cons hblanks (by decide) _),
      bind_run (peek?_run _)]
    simp only [List.head?_cons]
    rw [bind_run (expect_run '\x7b' _), List.singleton_append, bind_run (skipBlanks_cons hinner (by decide) _),
      bind_run (accept_run '\x7d' _)]
    rfl
  | _, _, _, rest, fuel + 1, .object hinner h, hblanks, _, hfuel => by
    have hmembers : readMembers fuel ([] ++ (_ ++ '\x7d' :: rest)) = some (_, rest) :=
      readMembers_run h nofun (by grind)
    obtain ⟨more, rfl⟩ := h.head
    rw [List.cons_append, List.append_assoc, readValue, bind_run (skipBlanks_cons hblanks (by decide) _),
      bind_run (peek?_run _)]
    simp only [List.head?_cons]
    rw [bind_run (expect_run '\x7b' _), List.append_assoc, List.cons_append,
      bind_run (skipBlanks_cons hinner (by decide) _), bind_run (accept_run_of_ne (by simp))]
    exact bind_run hmembers

/-- The items of an array are read up to its closing bracket. -/
theorem readItems_run : ∀ {items : List Json} {text blanks rest : List Char} {fuel : Nat}, WrittenItems items text →
    Blanks blanks → 2 * text.length + 1 ≤ fuel →
    readItems fuel (blanks ++ (text ++ ']' :: rest)) = some (items, rest)
  | _, _, _, _, 0, _, _, hfuel => by omega
  | _, _, _, _, fuel + 1, .last h hafter, hblanks, hfuel => by
    rw [List.append_assoc, readItems, bind_run (readValue_run h hblanks (follows_append hafter (by simp)) (by grind)),
      bind_run (skipBlanks_cons hafter (by decide) _), bind_run (accept_run_of_ne (by simp)), if_neg (by simp),
      bind_run (expect_run ']' _)]
    rfl
  | _, _, _, _, fuel + 1, .more h hbefore hafter hmore, hblanks, hfuel => by
    simp only [List.append_assoc, List.cons_append]
    rw [readItems, bind_run (readValue_run h hblanks (follows_append hbefore (by simp)) (by grind)),
      bind_run (skipBlanks_cons hbefore (by decide) _), bind_run (accept_run ',' _), if_pos rfl,
      bind_run (readItems_run hmore hafter (by grind))]
    rfl

/-- The name and the value of a member are read one after the other. -/
theorem readMember_run : ∀ {member : Option String × Json} {text blanks rest : List Char} {fuel : Nat},
    WrittenMember member text → Blanks blanks → Follows rest → 2 * text.length ≤ fuel →
    ∃ mid, readName (blanks ++ (text ++ rest)) = some (member.1, mid) ∧ readValue fuel mid = some (member.2, rest)
  | _, _, _, _, _, .mk hname hbefore hafter h, hblanks, hrest, hfuel => by
    simp only [List.append_assoc, List.cons_append]
    exact ⟨_, readName_run hname hbefore hblanks, readValue_run h hafter hrest (by grind)⟩

/-- The members of an object are read up to its closing brace. -/
theorem readMembers_run : ∀ {members : List (Option String × Json)} {text blanks rest : List Char} {fuel : Nat},
    WrittenMembers members text → Blanks blanks → 2 * text.length + 1 ≤ fuel →
    readMembers fuel (blanks ++ (text ++ '\x7d' :: rest)) = some (members, rest)
  | _, _, _, _, 0, _, _, hfuel => by omega
  | _, _, _, rest, fuel + 1, .last h hafter, hblanks, hfuel => by
    have hfollows : Follows (_ ++ '\x7d' :: rest) := follows_append hafter (by simp)
    obtain ⟨mid, hname, hvalue⟩ := @readMember_run _ _ _ _ fuel h hblanks hfollows (by grind)
    rw [List.append_assoc, readMembers, bind_run hname, bind_run hvalue,
      bind_run (skipBlanks_cons hafter (by decide) _), bind_run (accept_run_of_ne (by simp)), if_neg (by simp),
      bind_run (expect_run '\x7d' _)]
    rfl
  | _, _, _, rest, fuel + 1, @WrittenMembers.more _ _ _ more before after h hbefore hafter hmore, hblanks, hfuel => by
    simp only [List.append_assoc, List.cons_append]
    have hfollows : Follows (before ++ ',' :: (after ++ (more ++ '\x7d' :: rest))) := follows_append hbefore (by simp)
    obtain ⟨mid, hname, hvalue⟩ := @readMember_run _ _ _ _ fuel h hblanks hfollows (by grind)
    rw [readMembers, bind_run hname, bind_run hvalue,
      bind_run (skipBlanks_cons hbefore (by decide) _), bind_run (accept_run ',' _), if_pos rfl,
      bind_run (readMembers_run hmore hafter (by grind))]
    rfl

end

/-! ## Everything that is read is written so -/

theorem written_of_readName {name : Option String} (h : readName text = some (name, rest)) :
    ∃ blanks parts w before, Blanks blanks ∧ WrittenParts parts w ∧ Blanks before ∧ name = textOf parts ∧
      text = blanks ++ '"' :: (w ++ '"' :: (before ++ ':' :: rest)) := by
  obtain ⟨_, mid, hskip, hquoted⟩ := bind_eq_some_iff.mp h
  obtain ⟨blanks, hblanks, rfl⟩ := blanks_of_skipBlanks hskip
  obtain ⟨_, mid, hquote, hnamed⟩ := bind_eq_some_iff.mp hquoted
  obtain rfl := expect_eq_some_iff.mp hquote
  obtain ⟨value, mid, hstring, hcolon⟩ := bind_eq_some_iff.mp hnamed
  obtain ⟨parts, w, rfl, hparts, rfl⟩ := writtenParts_of_readString hstring
  obtain ⟨_, mid, hskip, hexpect⟩ := bind_eq_some_iff.mp hcolon
  obtain ⟨before, hbefore, rfl⟩ := blanks_of_skipBlanks hskip
  obtain ⟨_, mid, hcolon, hname⟩ := bind_eq_some_iff.mp hexpect
  obtain rfl := expect_eq_some_iff.mp hcolon
  obtain ⟨rfl, rfl⟩ := pure_eq_some_iff.mp hname
  exact ⟨blanks, parts, w, before, hblanks, hparts, hbefore, rfl, rfl⟩

-- By recursion on the bound, which every call of the readers lowers.
mutual

theorem written_of_readValue : ∀ {fuel : Nat} {value : Json} {text rest : List Char},
    readValue fuel text = some (value, rest) →
    ∃ blanks w, Blanks blanks ∧ Written value w ∧ text = blanks ++ (w ++ rest)
  | 0, _, _, _, h => nomatch h
  | fuel + 1, value, text, rest, h => by
    rw [readValue] at h
    obtain ⟨_, mid, hskip, hpeek⟩ := bind_eq_some_iff.mp h
    obtain ⟨blanks, hblanks, rfl⟩ := blanks_of_skipBlanks hskip
    rw [bind_run (peek?_run mid)] at hpeek
    suffices hwritten : ∃ w, Written value w ∧ mid = w ++ rest by
      obtain ⟨w, hw, rfl⟩ := hwritten
      exact ⟨blanks, w, hblanks, hw, rfl⟩
    obtain ⟨reader, hreader, hread⟩ : ∃ reader : Reader Json, reader = _ ∧ reader mid = some (value, rest) :=
      ⟨_, rfl, hpeek⟩
    split at hreader <;> subst hreader
    · obtain ⟨_, left, hword, hvalue⟩ := bind_eq_some_iff.mp hread
      obtain ⟨rfl, rfl⟩ := pure_eq_some_iff.mp hvalue
      exact ⟨_, .nullWord, word_eq_some_iff.mp hword⟩
    · obtain ⟨_, left, hword, hvalue⟩ := bind_eq_some_iff.mp hread
      obtain ⟨rfl, rfl⟩ := pure_eq_some_iff.mp hvalue
      exact ⟨_, .trueWord, word_eq_some_iff.mp hword⟩
    · obtain ⟨_, left, hword, hvalue⟩ := bind_eq_some_iff.mp hread
      obtain ⟨rfl, rfl⟩ := pure_eq_some_iff.mp hvalue
      exact ⟨_, .falseWord, word_eq_some_iff.mp hword⟩
    · obtain ⟨_, afterQuote, hquote, hstring⟩ := bind_eq_some_iff.mp hread
      obtain rfl := expect_eq_some_iff.mp hquote
      obtain ⟨string, left, hparts, hvalue⟩ := bind_eq_some_iff.mp hstring
      obtain ⟨parts, w, rfl, hw, rfl⟩ := writtenParts_of_readString hparts
      obtain ⟨rfl, rfl⟩ := pure_eq_some_iff.mp hvalue
      exact ⟨_, .string hw, by simp⟩
    · obtain ⟨_, afterOpen, hopen, hinner⟩ := bind_eq_some_iff.mp hread
      obtain rfl := expect_eq_some_iff.mp hopen
      obtain ⟨_, inner, hskip, hitems⟩ := bind_eq_some_iff.mp hinner
      obtain ⟨before, hbefore, rfl⟩ := blanks_of_skipBlanks hskip
      obtain ⟨closed, left, haccept, hclosed⟩ := bind_eq_some_iff.mp hitems
      rcases accept_eq_some haccept with ⟨rfl, rfl⟩ | ⟨rfl, rfl⟩
      · obtain ⟨rfl, rfl⟩ := pure_eq_some_iff.mp hclosed
        exact ⟨_, .noItems hbefore, by simp⟩
      · obtain ⟨items, left, hlist, hvalue⟩ := bind_eq_some_iff.mp hclosed
        obtain ⟨rfl, rfl⟩ := pure_eq_some_iff.mp hvalue
        obtain ⟨blanks, w, hblanks, hw, rfl⟩ := written_of_readItems hlist
        exact ⟨_, .array (hbefore.append hblanks) hw, by simp⟩
    · obtain ⟨_, afterOpen, hopen, hinner⟩ := bind_eq_some_iff.mp hread
      obtain rfl := expect_eq_some_iff.mp hopen
      obtain ⟨_, inner, hskip, hmembers⟩ := bind_eq_some_iff.mp hinner
      obtain ⟨before, hbefore, rfl⟩ := blanks_of_skipBlanks hskip
      obtain ⟨closed, left, haccept, hclosed⟩ := bind_eq_some_iff.mp hmembers
      rcases accept_eq_some haccept with ⟨rfl, rfl⟩ | ⟨rfl, rfl⟩
      · obtain ⟨rfl, rfl⟩ := pure_eq_some_iff.mp hclosed
        exact ⟨_, .noMembers hbefore, by simp⟩
      · obtain ⟨members, left, hlist, hvalue⟩ := bind_eq_some_iff.mp hclosed
        obtain ⟨rfl, rfl⟩ := pure_eq_some_iff.mp hvalue
        obtain ⟨blanks, w, hblanks, hw, rfl⟩ := written_of_readMembers hlist
        exact ⟨_, .object (hbefore.append hblanks) hw, by simp⟩
    · obtain ⟨n, left, hnumber, hvalue⟩ := bind_eq_some_iff.mp hread
      obtain ⟨rfl, rfl⟩ := pure_eq_some_iff.mp hvalue
      obtain ⟨w, hw, rfl⟩ := writtenNumber_of_readNumber hnumber
      exact ⟨w, .number hw, rfl⟩

theorem written_of_readItems : ∀ {fuel : Nat} {items : List Json} {text rest : List Char},
    readItems fuel text = some (items, rest) →
    ∃ blanks w, Blanks blanks ∧ WrittenItems items w ∧ text = blanks ++ (w ++ ']' :: rest)
  | 0, _, _, _, h => nomatch h
  | fuel + 1, _, _, _, h => by
    rw [readItems] at h
    obtain ⟨item, afterItem, hitem, hskipped⟩ := bind_eq_some_iff.mp h
    obtain ⟨blanks, w, hblanks, hw, rfl⟩ := written_of_readValue hitem
    obtain ⟨_, afterBlanks, hskip, hrest⟩ := bind_eq_some_iff.mp hskipped
    obtain ⟨before, hbefore, rfl⟩ := blanks_of_skipBlanks hskip
    obtain ⟨more, left, haccept, hlist⟩ := bind_eq_some_iff.mp hrest
    rcases accept_eq_some haccept with ⟨rfl, rfl⟩ | ⟨rfl, rfl⟩
    · obtain ⟨items, left, hitems, hvalue⟩ := bind_eq_some_iff.mp hlist
      obtain ⟨rfl, rfl⟩ := pure_eq_some_iff.mp hvalue
      obtain ⟨after, w', hafter, hw', rfl⟩ := written_of_readItems hitems
      exact ⟨blanks, _, hblanks, .more hw hbefore hafter hw', by simp⟩
    · obtain ⟨_, left, hclose, hvalue⟩ := bind_eq_some_iff.mp hlist
      obtain rfl := expect_eq_some_iff.mp hclose
      obtain ⟨rfl, rfl⟩ := pure_eq_some_iff.mp hvalue
      exact ⟨blanks, _, hblanks, .last hw hbefore, by simp⟩

theorem written_of_readMembers : ∀ {fuel : Nat} {members : List (Option String × Json)} {text rest : List Char},
    readMembers fuel text = some (members, rest) →
    ∃ blanks w, Blanks blanks ∧ WrittenMembers members w ∧ text = blanks ++ (w ++ '\x7d' :: rest)
  | 0, _, _, _, h => nomatch h
  | fuel + 1, _, _, _, h => by
    rw [readMembers] at h
    obtain ⟨name, afterName, hname, hnamed⟩ := bind_eq_some_iff.mp h
    obtain ⟨blanks, parts, w, beforeColon, hblanks, hparts, hcolon, rfl, rfl⟩ := written_of_readName hname
    obtain ⟨value, afterValue, hvalue, hskipped⟩ := bind_eq_some_iff.mp hnamed
    obtain ⟨afterColon, w', hafterColon, hw', rfl⟩ := written_of_readValue hvalue
    have hmember := WrittenMember.mk hparts hcolon hafterColon hw'
    obtain ⟨_, afterBlanks, hskip, hrest⟩ := bind_eq_some_iff.mp hskipped
    obtain ⟨before, hbefore, rfl⟩ := blanks_of_skipBlanks hskip
    obtain ⟨more, left, haccept, hlist⟩ := bind_eq_some_iff.mp hrest
    rcases accept_eq_some haccept with ⟨rfl, rfl⟩ | ⟨rfl, rfl⟩
    · obtain ⟨members, left, hmembers, hreturn⟩ := bind_eq_some_iff.mp hlist
      obtain ⟨rfl, rfl⟩ := pure_eq_some_iff.mp hreturn
      obtain ⟨after, w'', hafter, hw'', rfl⟩ := written_of_readMembers hmembers
      exact ⟨blanks, _, hblanks, .more hmember hbefore hafter hw'', by simp⟩
    · obtain ⟨_, left, hclose, hreturn⟩ := bind_eq_some_iff.mp hlist
      obtain rfl := expect_eq_some_iff.mp hclose
      obtain ⟨rfl, rfl⟩ := pure_eq_some_iff.mp hreturn
      exact ⟨blanks, _, hblanks, .last hmember hbefore, by simp⟩

end

/-! ## Texts -/

/-- The grammar decides which texts are read, and as what. -/
theorem parse?_eq_some_iff {value : Json} : parse? text = some value ↔ Document value text := by
  rw [parse?, readAll?_eq_some_iff]
  constructor
  · intro h
    obtain ⟨v, mid, hvalue, hskipped⟩ := bind_eq_some_iff.mp h
    obtain ⟨_, left, hskip, hreturn⟩ := bind_eq_some_iff.mp hskipped
    obtain ⟨rfl, rfl⟩ := pure_eq_some_iff.mp hreturn
    obtain ⟨after, hafter, rfl⟩ := blanks_of_skipBlanks hskip
    obtain ⟨before, w, hbefore, hw, rfl⟩ := written_of_readValue hvalue
    exact ⟨before, w, after, hbefore, hw, hafter, by simp⟩
  · rintro ⟨before, w, after, hbefore, hw, hafter, rfl⟩
    have hfollows : Follows after := fun c hc => Or.inl (hafter c (List.mem_of_mem_head? hc))
    have hfuel : 2 * w.length ≤ 2 * (before ++ (w ++ after)).length + 2 := by grind
    have hskip : skipBlanks after = some ((), []) := by
      rw [← List.append_nil after]
      exact skipBlanks_run hafter nofun
    rw [bind_run (readValue_run hw hbefore hfollows hfuel), bind_run hskip]
    rfl

end Keypad.Json
