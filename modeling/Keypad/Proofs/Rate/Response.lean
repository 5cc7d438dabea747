import Keypad.Proofs.Json.Range
import Keypad.Proofs.Json.Values
import Keypad.Rate.Response
import Mathlib.Data.List.Forall2
import Mathlib.Data.List.Perm.Basic

/-!
# Keypad.Proofs.Rate.Response — which answers hold a rate table

* `OccursOnce`, `IsTime`, `IsRate`, `Shape`: what the members of an answer have to be.
* `one?_eq_some_iff`, `time?_eq_some_iff`, `rates?_eq_some_iff`, `ofMembers?_eq_some_iff`: the answer is read if and
  only if they are.
* `Shape.of_perm`: neither the order of the members nor other members count.
* `lookup_reverse_iff`: the rate of a code is the last one listed for it.
* `parse?_eq_some_iff`: the answer in a text that is one object.
* `RateTable.ofJson_of_object`: the table, or the error, that such a text comes to.
-/

namespace Keypad

open Binary64

/-- The integer before the point of a number, with its sign. -/
def Json.Number.wholeNumber (n : Number) : Int := signed n.negative (Nat.ofDigitChars 10 n.whole 0)

theorem Json.Number.integer?_eq_some_iff {n : Number} {t : Int} :
    n.integer? = some t ↔
      n.fraction = [] ∧ n.exponent = none ∧ ¬ (n.negative ∧ n.wholeNumber = 0) ∧ t = n.wholeNumber := by
  have hzero : n.wholeNumber = 0 ↔ Nat.ofDigitChars 10 n.whole 0 = 0 := by
    unfold wholeNumber signed
    split <;> omega
  rw [hzero, ← List.isEmpty_iff]
  unfold integer?
  dsimp only
  split
  · rename_i h
    rw [Option.some_inj]
    exact ⟨fun ht => ⟨h.1, h.2.1, h.2.2, ht.symm⟩, fun ht => ht.2.2.2.symm⟩
  · rename_i h
    exact iff_of_false nofun fun ht => h ⟨ht.1, ht.2.1, ht.2.2.1⟩

namespace Response

/-! ## What the members of an answer have to be -/

/-- The member of a name occurs once, with a value. -/
def OccursOnce (name : String) (value : Json) (members : List (String × Json)) : Prop :=
  ∃ before after, members = before ++ (name, value) :: after ∧ name ∉ before.map Prod.fst ∧ name ∉ after.map Prod.fst

/-- A time is null, or an integer of 64 bits with sign that is written without fraction and exponent, and not `-0`. -/
inductive IsTime : Json → Option Int → Prop
  | null : IsTime .null none
  | integer {n : Json.Number} (hfraction : n.fraction = []) (hexponent : n.exponent = none)
      (hzero : ¬ (n.negative ∧ n.wholeNumber = 0)) (hlow : -(twoPow 63 : Int) ≤ n.wholeNumber)
      (hhigh : n.wholeNumber < (twoPow 63 : Int)) : IsTime (.number n) (some n.wholeNumber)

/-- A rate is a number that stays finite in binary floating point. -/
inductive IsRate : Option String × Json → String × Binary64 → Prop
  | mk {code : String} {n : Json.Number} {rate : Binary64} (hrate : n.toBinary64? = some rate) :
      IsRate (some code, .number n) (code, rate)

/-- The members of an answer: two texts and the rates occur once, and the time at most once. -/
structure Shape (members : List (String × Json)) (r : Response) : Prop where
  result : OccursOnce "result" (.string (some r.result)) members
  baseCode : OccursOnce "base_code" (.string (some r.baseCode)) members
  updatedAt : (r.updatedAt = none ∧ "time_last_update_unix" ∉ members.map Prod.fst) ∨
    ∃ value, OccursOnce "time_last_update_unix" value members ∧ IsTime value r.updatedAt
  rates : ∃ listed, OccursOnce "conversion_rates" (.object listed) members ∧ List.Forall₂ IsRate listed r.rates

/-! ## Members of a name -/

variable {name : String} {value : Json} {members members' : List (String × Json)} {r : Response}

theorem valuesOf_eq_nil_iff : valuesOf name members = [] ↔ name ∉ members.map Prod.fst := by
  rw [valuesOf, List.map_eq_nil_iff, List.filter_eq_nil_iff]
  simp only [List.mem_map, beq_iff_eq]
  exact ⟨fun h ⟨m, hm, hname⟩ => h m hm hname, fun h m hm hname => h ⟨m, hm, hname⟩⟩

theorem valuesOf_append (first second : List (String × Json)) :
    valuesOf name (first ++ second) = valuesOf name first ++ valuesOf name second := by
  rw [valuesOf, List.filter_append, List.map_append]
  rfl

theorem valuesOf_eq_singleton_iff : valuesOf name members = [value] ↔ OccursOnce name value members := by
  constructor
  · intro h
    obtain ⟨⟨found, value'⟩, hfilter, rfl⟩ := List.map_eq_singleton_iff.mp h
    obtain ⟨before, after, rfl, hbefore, hname, hafter⟩ := List.filter_eq_cons_iff.mp hfilter
    obtain rfl := beq_iff_eq.mp hname
    refine ⟨before, after, rfl, valuesOf_eq_nil_iff.mp ?_, valuesOf_eq_nil_iff.mp ?_⟩
    · rw [valuesOf, List.filter_eq_nil_iff.mpr hbefore, List.map_nil]
    · rw [valuesOf, hafter, List.map_nil]
  · rintro ⟨before, after, rfl, hbefore, hafter⟩
    rw [valuesOf_append, valuesOf_eq_nil_iff.mpr hbefore, List.nil_append, valuesOf,
      List.filter_cons_of_pos (by simp), List.map_cons]
    exact congrArg _ (valuesOf_eq_nil_iff.mpr hafter)

theorem one?_eq_some_iff : one? name members = some value ↔ OccursOnce name value members := by
  rw [← valuesOf_eq_singleton_iff, one?]
  split
  · rename_i h
    rw [h, List.singleton_inj, Option.some_inj]
  · rename_i h
    exact iff_of_false nofun (h value)

theorem atMostOne?_eq_some_iff {value? : Option Json} :
    atMostOne? name members = some value? ↔
      (value? = none ∧ name ∉ members.map Prod.fst) ∨ ∃ value, value? = some value ∧ OccursOnce name value members := by
  rw [← valuesOf_eq_nil_iff]
  simp only [← valuesOf_eq_singleton_iff]
  rw [atMostOne?]
  split
  · rename_i h
    rw [h, Option.some_inj]
    simp [eq_comm]
  · rename_i value h
    rw [h, Option.some_inj]
    simp [eq_comm]
  · rename_i hnone hone
    refine iff_of_false nofun ?_
    rintro (⟨-, h⟩ | ⟨value, -, h⟩)
    · exact hnone h
    · exact hone value h

/-! ## Values -/

theorem text?_eq_some_iff {text : String} : text? value = some text ↔ value = .string (some text) := by
  cases value <;> simp [text?]

theorem time?_eq_some_iff {t : Option Int} : time? value = some t ↔ IsTime value t := by
  constructor
  · intro h
    cases value with
    | null =>
      cases h
      exact .null
    | number n =>
      obtain ⟨time, hinteger, hrange⟩ := Option.bind_eq_some_iff.mp h
      obtain ⟨hfraction, hexponent, hzero, rfl⟩ := Json.Number.integer?_eq_some_iff.mp hinteger
      split at hrange
      · rename_i hbounds
        cases hrange
        exact .integer hfraction hexponent hzero hbounds.1 hbounds.2
      · cases hrange
    | _ => cases h
  · rintro (_ | ⟨hfraction, hexponent, hzero, hlow, hhigh⟩)
    · rfl
    · rw [time?, Json.Number.integer?_eq_some_iff.mpr ⟨hfraction, hexponent, hzero, rfl⟩]
      exact if_pos ⟨hlow, hhigh⟩

theorem mapM_eq_some_iff {α β : Type} {f : α → Option β} {R : α → β → Prop} (hf : ∀ a b, f a = some b ↔ R a b)
    {as : List α} {bs : List β} : as.mapM f = some bs ↔ List.Forall₂ R as bs := by
  induction as generalizing bs with
  | nil =>
    rw [List.mapM_nil, List.forall₂_nil_left_iff]
    exact ⟨fun h => (Option.some.inj h).symm, fun h => congrArg some h.symm⟩
  | cons a as ih =>
    rw [List.mapM_cons, List.forall₂_cons_left_iff]
    simp only [Option.bind_eq_bind, Option.bind_eq_some_iff, hf, ih]
    constructor
    · rintro ⟨b, hb, bs', hbs, h⟩
      exact ⟨b, bs', hb, hbs, (Option.some.inj h).symm⟩
    · rintro ⟨b, bs', hb, hbs, rfl⟩
      exact ⟨b, hb, bs', hbs, rfl⟩

/-- The members with their names as JSON has them. -/
def jsonMembers (members : List (String × Json)) : List (Option String × Json) :=
  members.map fun m => (some m.1, m.2)

theorem named?_eq_some_iff {listed : List (Option String × Json)} :
    named? listed = some members ↔ listed = jsonMembers members := by
  have hname : ∀ (a : Option String × Json) (b : String × Json),
      a.1.map (·, a.2) = some b ↔ a = (some b.1, b.2) := by
    rintro ⟨_ | name, value⟩ ⟨name', value'⟩ <;> simp
  rw [named?, mapM_eq_some_iff hname, jsonMembers, ← List.forall₂_map_right_iff, List.forall₂_eq_eq_eq]

/-- Every rate has a name. -/
theorem exists_named {listed : List (Option String × Json)} {rates : List (String × Binary64)}
    (h : List.Forall₂ IsRate listed rates) : ∃ named, listed = jsonMembers named := by
  induction h with
  | nil => exact ⟨[], rfl⟩
  | cons hrate _ ih =>
    obtain ⟨named, rfl⟩ := ih
    cases hrate
    exact ⟨(_, _) :: named, rfl⟩

theorem rates?_eq_some_iff {rates : List (String × Binary64)} :
    rates? value = some rates ↔ ∃ listed, value = .object listed ∧ List.Forall₂ IsRate listed rates := by
  have hrate : ∀ (a : String × Json) (b : String × Binary64),
      (rate? a.2).map (a.1, ·) = some b ↔ IsRate (some a.1, a.2) b := by
    rintro ⟨code, value⟩ ⟨code', rate⟩
    rw [Option.map_eq_some_iff]
    constructor
    · rintro ⟨rate, hrate, h⟩
      cases h
      cases value with
      | number n => exact .mk hrate
      | _ => cases hrate
    · rintro ⟨hrate⟩
      exact ⟨rate, hrate, rfl⟩
  cases value with
  | object listed =>
    rw [rates?, Option.bind_eq_bind, Option.bind_eq_some_iff]
    constructor
    · rintro ⟨named, hnamed, hrates⟩
      refine ⟨listed, rfl, ?_⟩
      rw [named?_eq_some_iff.mp hnamed, jsonMembers, List.forall₂_map_left_iff]
      exact (mapM_eq_some_iff hrate).mp hrates
    · rintro ⟨listed, ⟨⟩, hrates⟩
      obtain ⟨named, rfl⟩ := exists_named hrates
      refine ⟨named, named?_eq_some_iff.mpr rfl, (mapM_eq_some_iff hrate).mpr ?_⟩
      rwa [jsonMembers, List.forall₂_map_left_iff] at hrates
  | _ => simp [rates?]

/-! ## Answers -/

theorem ofValues?_eq_some_iff {result baseCode rates : Json} {time : Option Json} :
    ofValues? result baseCode time rates = some r ↔
      result = .string (some r.result) ∧ baseCode = .string (some r.baseCode) ∧
        ((time = none ∧ r.updatedAt = none) ∨ ∃ value, time = some value ∧ IsTime value r.updatedAt) ∧
        ∃ listed, rates = .object listed ∧ List.Forall₂ IsRate listed r.rates := by
  rw [← text?_eq_some_iff, ← text?_eq_some_iff, ← rates?_eq_some_iff]
  simp only [ofValues?, Option.bind_eq_bind, Option.bind_eq_some_iff]
  constructor
  · rintro ⟨result, hresult, baseCode, hbase, updatedAt, htime, rates, hrates, h⟩
    obtain rfl := Option.some.inj h
    refine ⟨hresult, hbase, ?_, hrates⟩
    cases time with
    | none => exact Or.inl ⟨rfl, (Option.some.inj htime).symm⟩
    | some value => exact Or.inr ⟨value, rfl, time?_eq_some_iff.mp htime⟩
  · rintro ⟨hresult, hbase, ⟨rfl, hnone⟩ | ⟨value, rfl, hvalue⟩, hrates⟩
    · exact ⟨_, hresult, _, hbase, r.updatedAt, congrArg some hnone.symm, _, hrates, rfl⟩
    · exact ⟨_, hresult, _, hbase, _, time?_eq_some_iff.mpr hvalue, _, hrates, rfl⟩

theorem ofMembers?_eq_some_iff : ofMembers? members = some r ↔ Shape members r := by
  simp only [ofMembers?, Option.bind_eq_bind, Option.bind_eq_some_iff, one?_eq_some_iff, atMostOne?_eq_some_iff,
    ofValues?_eq_some_iff]
  constructor
  · rintro ⟨result, hresult, baseCode, hbase, time, htime, rates, hrates, rfl, rfl, hvalue, listed, rfl, hlisted⟩
    refine ⟨hresult, hbase, ?_, listed, hrates, hlisted⟩
    rcases htime with ⟨rfl, habsent⟩ | ⟨value, rfl, honce⟩
    · rcases hvalue with ⟨-, hnone⟩ | ⟨value, h, -⟩
      · exact Or.inl ⟨hnone, habsent⟩
      · cases h
    · rcases hvalue with ⟨h, -⟩ | ⟨value', h, hvalue⟩
      · cases h
      · cases h
        exact Or.inr ⟨value, honce, hvalue⟩
  · rintro ⟨hresult, hbase, htime, listed, hrates, hlisted⟩
    rcases htime with ⟨hnone, habsent⟩ | ⟨value, honce, hvalue⟩
    · exact ⟨_, hresult, _, hbase, none, Or.inl ⟨rfl, habsent⟩, _, hrates, rfl, rfl, Or.inl ⟨rfl, hnone⟩,
        listed, rfl, hlisted⟩
    · exact ⟨_, hresult, _, hbase, some value, Or.inr ⟨value, rfl, honce⟩, _, hrates, rfl, rfl,
        Or.inr ⟨value, rfl, hvalue⟩, listed, rfl, hlisted⟩

/-! ## The order of the members -/

/-- The names that an answer is made of. -/
def known : List String := ["result", "base_code", "time_last_update_unix", "conversion_rates"]

/-- The members of an answer that count. -/
def knownMembers (members : List (String × Json)) : List (String × Json) := members.filter fun m => m.1 ∈ known

theorem valuesOf_knownMembers (hname : name ∈ known) :
    valuesOf name (knownMembers members) = valuesOf name members := by
  rw [valuesOf, knownMembers, List.filter_filter, valuesOf]
  congr 2
  funext m
  by_cases h : m.1 = name
  · simp [h, hname]
  · simp [h]

theorem valuesOf_perm (h : (knownMembers members).Perm (knownMembers members')) (hname : name ∈ known) :
    (valuesOf name members).Perm (valuesOf name members') := by
  rw [← valuesOf_knownMembers hname, ← @valuesOf_knownMembers _ members' hname]
  exact (h.filter _).map _

theorem OccursOnce.of_perm (hoccurs : OccursOnce name value members)
    (h : (knownMembers members).Perm (knownMembers members')) (hname : name ∈ known) :
    OccursOnce name value members' := by
  have hvalues := valuesOf_perm h hname
  rw [valuesOf_eq_singleton_iff.mpr hoccurs] at hvalues
  exact valuesOf_eq_singleton_iff.mp (List.perm_singleton.mp hvalues.symm)

theorem absent_of_perm (habsent : name ∉ members.map Prod.fst)
    (h : (knownMembers members).Perm (knownMembers members')) (hname : name ∈ known) :
    name ∉ members'.map Prod.fst := by
  have hvalues := valuesOf_perm h hname
  rw [valuesOf_eq_nil_iff.mpr habsent] at hvalues
  exact valuesOf_eq_nil_iff.mp hvalues.nil_eq.symm

theorem Shape.of_perm (hshape : Shape members r) (h : (knownMembers members).Perm (knownMembers members')) :
    Shape members' r := by
  obtain ⟨listed, hrates, hlisted⟩ := hshape.rates
  refine ⟨hshape.result.of_perm h (by decide), hshape.baseCode.of_perm h (by decide), ?_,
    listed, hrates.of_perm h (by decide), hlisted⟩
  rcases hshape.updatedAt with ⟨hnone, habsent⟩ | ⟨value, honce, hvalue⟩
  · exact Or.inl ⟨hnone, absent_of_perm habsent h (by decide)⟩
  · exact Or.inr ⟨value, honce.of_perm h (by decide), hvalue⟩

/-! ## The rate of a code -/

variable {listed : List (Option String × Json)} {rates : List (String × Binary64)} {code : String} {rate : Binary64}

theorem lookup_iff (h : List.Forall₂ IsRate listed rates) :
    rates.lookup code = some rate ↔
      ∃ before n after, listed = before ++ (some code, .number n) :: after ∧ some code ∉ before.map Prod.fst ∧
        n.toBinary64? = some rate := by
  induction h with
  | nil => simp
  | @cons member entry listed rates hentry _ ih =>
    obtain @⟨first, k, value, hvalue⟩ := hentry
    by_cases hcode : code = first
    · subst hcode
      rw [List.lookup_cons_self, ← hvalue]
      constructor
      · exact fun h => ⟨[], k, listed, rfl, List.not_mem_nil, h⟩
      · rintro ⟨_ | ⟨_, before⟩, n, after, hlisted, hbefore, hn⟩
        · cases hlisted
          exact hn
        · cases hlisted
          exact absurd List.mem_cons_self hbefore
    · rw [List.lookup_cons, beq_false_of_ne hcode]
      refine ih.trans ⟨?_, ?_⟩
      · rintro ⟨before, n, after, rfl, hbefore, hn⟩
        refine ⟨_ :: before, n, after, rfl, ?_, hn⟩
        simpa [hcode] using hbefore
      · rintro ⟨_ | ⟨_, before⟩, n, after, hlisted, hbefore, hn⟩
        · cases hlisted
          exact absurd rfl hcode
        · cases hlisted
          exact ⟨before, n, after, rfl, fun hmem => hbefore (List.mem_cons_of_mem _ hmem), hn⟩

/-- The rate of a code is the last one listed for it. -/
theorem lookup_reverse_iff (h : List.Forall₂ IsRate listed rates) :
    rates.reverse.lookup code = some rate ↔
      ∃ before n after, listed = before ++ (some code, .number n) :: after ∧ some code ∉ after.map Prod.fst ∧
        n.toBinary64? = some rate := by
  rw [lookup_iff (List.forall₂_reverse_iff.mpr h)]
  constructor
  · rintro ⟨before, n, after, hlisted, hbefore, hn⟩
    refine ⟨after.reverse, n, before.reverse, ?_, by simpa using hbefore, hn⟩
    rw [← List.reverse_reverse listed, hlisted]
    simp
  · rintro ⟨before, n, after, rfl, hafter, hn⟩
    exact ⟨after.reverse, n, before.reverse, by simp, by simpa using hafter, hn⟩

theorem parse?_eq_some_iff {text : List Char} (h : Json.Document (.object (jsonMembers members)) text) :
    parse? text = some r ↔ Shape members r := by
  rw [parse?, Json.parse?_eq_some_iff.mpr h, ← ofMembers?_eq_some_iff]
  show (named? _).bind _ = _ ↔ _
  rw [named?_eq_some_iff.mpr rfl]
  rfl

end Response

/-! ## Rate tables -/

namespace RateTable

variable {text : List Char} {table : RateTable} {result : String}

theorem ofJson_eq_ok_iff :
    ofJson text = .ok table ↔
      ∃ r, Response.parse? text = some r ∧ r.result = "success" ∧ table = ⟨r.baseCode, r.updatedAt, r.rates⟩ := by
  rw [ofJson]
  cases Response.parse? text with
  | none => simp
  | some r =>
    by_cases hresult : r.result = "success"
    · simp [hresult, eq_comm]
    · simp [hresult]

theorem ofJson_eq_unsuccessful_iff :
    ofJson text = .error (.unsuccessful result) ↔
      ∃ r, Response.parse? text = some r ∧ r.result = result ∧ result ≠ "success" := by
  rw [ofJson]
  cases Response.parse? text with
  | none => simp
  | some r =>
    by_cases hresult : r.result = "success"
    · simp [hresult, eq_comm]
    · dsimp only
      rw [if_neg hresult, Except.error.injEq, RateError.unsuccessful.injEq]
      constructor
      · rintro rfl
        exact ⟨r, rfl, rfl, hresult⟩
      · rintro ⟨r', hr, rfl, -⟩
        rw [Option.some.inj hr]

theorem ofJson_eq_unreadable_iff : ofJson text = .error .unreadable ↔ Response.parse? text = none := by
  rw [ofJson]
  cases Response.parse? text with
  | none => simp
  | some r =>
    by_cases hresult : r.result = "success"
    · simp [hresult]
    · simp [hresult]

variable {members : List (String × Json)}

/-- **Answers that hold a rate table**, for every text that is one object, whatever its blanks and escapes.  There is a
table if and only if the members have the right shape and the result is a success.  Another result is reported by name,
but a wrong shape makes the answer unreadable first.  The table holds the last rate listed for each code, and neither
the order of the members nor other members change it.  A number is a rate unless its conversion overflows: none does
that stays a part in `2 ^ 51` below `2 ^ 1024`, and each does that reaches a part in `2 ^ 51` above. -/
theorem ofJson_of_object (h : Json.Document (.object (Response.jsonMembers members)) text) :
    (∀ table, ofJson text = .ok table ↔
        ∃ r, Response.Shape members r ∧ r.result = "success" ∧ table = ⟨r.baseCode, r.updatedAt, r.rates⟩) ∧
      (∀ result, ofJson text = .error (.unsuccessful result) ↔
        ∃ r, Response.Shape members r ∧ r.result = result ∧ result ≠ "success") ∧
      (ofJson text = .error .unreadable ↔ ¬ ∃ r, Response.Shape members r) ∧
      (∀ table, ofJson text = .ok table → ∃ listed, Response.OccursOnce "conversion_rates" (.object listed) members ∧
        ∀ code rate, table.listed? code = some rate ↔
          ∃ before n after, listed = before ++ (some code, .number n) :: after ∧ some code ∉ after.map Prod.fst ∧
            n.toBinary64? = some rate) ∧
      (∀ members' text', Json.Document (.object (Response.jsonMembers members')) text' →
        (Response.knownMembers members').Perm (Response.knownMembers members) → ofJson text' = ofJson text) ∧
      ∀ (n : Json.Number) (written : List Char), Json.WrittenNumber n written →
        (¬ n.Reaches Json.Number.safeLimit → n.toBinary64?.isSome) ∧
          (n.Reaches Json.Number.excessLimit → n.toBinary64? = none) := by
  have hparse (r : Response) := Response.parse?_eq_some_iff (r := r) h
  have hok (table : RateTable) : ofJson text = .ok table ↔
      ∃ r, Response.Shape members r ∧ r.result = "success" ∧ table = ⟨r.baseCode, r.updatedAt, r.rates⟩ := by
    simp only [ofJson_eq_ok_iff, hparse]
  refine ⟨hok, fun result => ?_, ?_, fun table htable => ?_, fun members' text' h' hperm => ?_,
    fun n written hwritten => ⟨?_, ?_⟩⟩
  · simp only [ofJson_eq_unsuccessful_iff, hparse]
  · rw [ofJson_eq_unreadable_iff, Option.eq_none_iff_forall_ne_some]
    simp only [ne_eq, hparse, not_exists]
  · obtain ⟨r, hshape, -, rfl⟩ := (hok table).mp htable
    obtain ⟨listed, honce, hlisted⟩ := hshape.rates
    exact ⟨listed, honce, fun code rate => Response.lookup_reverse_iff hlisted⟩
  · have hresponse : Response.parse? text' = Response.parse? text := by
      ext r
      rw [Response.parse?_eq_some_iff h', hparse]
      exact ⟨fun hshape => hshape.of_perm hperm, fun hshape => hshape.of_perm hperm.symm⟩
    rw [ofJson, hresponse]
    rfl
  · exact Json.Number.toBinary64?_isSome hwritten.1.digits hwritten.2.1
  · exact Json.Number.toBinary64?_eq_none hwritten.1.digits hwritten.2.1

/-- A table with a member that is ignored and a code that is listed twice. -/
theorem ofJson_of_object_repeated_code :
    let text := "\x7b\"base_code\": \"U\", \"more\": [ ], ".toList ++
      "\"conversion_rates\": \x7b\"A\": 1, \"A\": 4\x7d, \"result\": \"success\"\x7d".toList
    let four : Json.Number := ⟨false, ['4'], [], none⟩
    let listed : List (Option String × Json) := [(some "A", .number ⟨false, ['1'], [], none⟩), (some "A", .number four)]
    let members : List (String × Json) := [("base_code", .string (some "U")), ("more", .array []),
      ("conversion_rates", .object listed), ("result", .string (some "success"))]
    Json.Document (.object (Response.jsonMembers members)) text ∧
      ∃ table, ofJson text = .ok table ∧ table.listed? "A" = some (ofNat 4) := by
  intro text four listed members
  have hone : Json.Written (.number ⟨false, ['1'], [], none⟩) ['1'] :=
    .number ⟨Decimal.isWhole_toDigits 1, Decimal.digits_nil, [], .none, rfl⟩
  have hfour : Json.Written (.number four) ['4'] :=
    .number ⟨Decimal.isWhole_toDigits 4, Decimal.digits_nil, [], .none, rfl⟩
  have hlisted : Json.Written (.object listed) _ :=
    .object .nil (.more (.plain "A" (by decide) .nil .space hone) .nil .space
      (.last (.plain "A" (by decide) .nil .space hfour) .nil))
  have hobject : Json.Written (.object (Response.jsonMembers members)) _ :=
    .object .nil (.more (.plain "base_code" (by decide) .nil .space (.plain "U" (by decide))) .nil .space
      (.more (.plain "more" (by decide) .nil .space (.noItems .space)) .nil .space
        (.more (.plain "conversion_rates" (by decide) .nil .space hlisted) .nil .space
          (.last (.plain "result" (by decide) .nil .space (.plain "success" (by decide))) .nil))))
  have hdocument : Json.Document (.object (Response.jsonMembers members)) text :=
    ⟨[], _, [], .nil, hobject, .nil, by decide +kernel⟩
  have hshape : Response.Shape members ⟨"success", "U", none, [("A", ofNat 1), ("A", ofNat 4)]⟩ :=
    Response.ofMembers?_eq_some_iff.mp (by decide +kernel)
  have hok := ((ofJson_of_object hdocument).1 ⟨"U", none, [("A", ofNat 1), ("A", ofNat 4)]⟩).mpr
    ⟨_, hshape, rfl, rfl⟩
  exact ⟨hdocument, _, hok, by decide +kernel⟩

/-- The greatest finite number, written out in full, is refused: its first twenty digits make a number of 64 bits that
is rounded up, and so the product with the power of ten overflows. -/
theorem ofJson_greatest :
    let greatest := (twoPow 53 - 1) * twoPow 971
    let text := "\x7b\"result\":\"success\",\"base_code\":\"U\",\"conversion_rates\":\x7b\"A\":".toList ++
      (Nat.toDigits 10 greatest ++ "\x7d\x7d".toList)
    let members : List (String × Json) := [("result", .string (some "success")), ("base_code", .string (some "U")),
      ("conversion_rates", .object [(some "A", .number ⟨false, Nat.toDigits 10 greatest, [], none⟩)])]
    Json.Document (.object (Response.jsonMembers members)) text ∧ Representable (greatest * unitsPerOne) ∧
      ofJson text = .error .unreadable := by
  intro greatest text members
  refine ⟨?_, by decide +kernel, by decide +kernel⟩
  have hnumber : Json.Written (.number ⟨false, Nat.toDigits 10 greatest, [], none⟩) (Nat.toDigits 10 greatest) :=
    .number ⟨Decimal.isWhole_toDigits greatest, Decimal.digits_nil, [], .none, by simp [signText]⟩
  have hrates : Json.Written (.object [(some "A", .number ⟨false, Nat.toDigits 10 greatest, [], none⟩)]) _ :=
    .object .nil (.last (.plain "A" (by decide) .nil .nil hnumber) .nil)
  have hobject : Json.Written (.object (Response.jsonMembers members)) _ :=
    .object .nil (.more (.plain "result" (by decide) .nil .nil (.plain "success" (by decide))) .nil .nil
      (.more (.plain "base_code" (by decide) .nil .nil (.plain "U" (by decide))) .nil .nil
        (.last (.plain "conversion_rates" (by decide) .nil .nil hrates) .nil)))
  exact ⟨[], _, [], .nil, hobject, .nil, by decide +kernel⟩

end RateTable

end Keypad
