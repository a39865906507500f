/-
Automation/Proofs/Condition/Equality.lean

Equality of values without floating-point numbers.

Two values are compared as numbers if both are numeric, and else by their trimmed texts.  That is
one relation and not two, because the trimmed text of such a value tells whether the value is
numeric, and as which number (`numeric?_of_integral`).  So equality sees one thing in a text, the
place of the number that it is written as or else the text itself (`reading`), and two values are
equal exactly if it sees the same in both (`equals_of_integral`).  Hence equality is an
equivalence relation (`equals_isEquivalence`).
-/
import Automation.Proofs.Condition.Comparison
import Automation.Proofs.Number.Line

namespace Automation

open Binary64 (overflow)

/-! ### Values without floating-point numbers -/

/-- There is no floating-point number in the value, and each of its integers has a number of the
format near it. -/
inductive Value.Integral : Value → Prop
  | null : Integral .null
  | bool (b : Bool) : Integral (.bool b)
  | int {n : ℤ} (near : n.natAbs < overflow) : Integral (.int n)
  | text (s : String) : Integral (.text s)
  | list {vs : List Value} (items : ∀ v ∈ vs, Integral v) : Integral (.list vs)
  | object {fs : Fields Value} (values : ∀ f ∈ fs, Integral f.2) : Integral (.object fs)
  | table {es : Entries Value} (keys : ∀ e ∈ es, Integral (Value.ofKey e.1))
      (values : ∀ e ∈ es, Integral e.2) : Integral (.table es)

/-! ### Texts that are no numerals -/

/-- What is stripped off leaves a first character that is not of that kind. -/
theorem Text.stripWhile_cons {p : Char → Bool} {c : Char} (hc : p c = false) (cs : List Char) :
    Text.stripWhile p (c :: cs) = c :: Text.dropEndWhile p cs := by
  unfold Text.stripWhile Text.dropEndWhile
  rw [List.dropWhile_cons_of_neg (by simp [hc]), List.reverse_cons, List.dropWhile_append]
  rcases h : cs.reverse.dropWhile p with - | ⟨d, rest⟩
  · simp [hc]
  · simp

namespace Numeral

/-- No numeral begins with the character: it is no white space, low line, sign, digit or point,
and none of the words for numbers begins with it. -/
structure Foreign (c : Char) : Prop where
  margin : isMargin c = false
  line : c ≠ '_'
  minus : c ≠ '-'
  plus : c ≠ '+'
  digit : Text.digit? c = none
  point : c ≠ '.'
  infinite : c.toLower ≠ 'i'
  nan : c.toLower ≠ 'n'

variable {c : Char}

theorem foreign_bracket : Foreign '[' := by
  constructor <;> decide

theorem foreign_brace : Foreign (Char.ofNat 0x7B) := by
  constructor <;> decide

theorem Foreign.decimal? (hc : Foreign c) (cs : List Char) : Numeral.decimal? (c :: cs) = none := by
  have hdigits : takeDigits (c :: cs) = ([], c :: cs) := by
    unfold takeDigits
    rw [hc.digit]
  unfold Numeral.decimal?
  rw [hdigits]
  split
  · next whole rest heq =>
    obtain ⟨rfl, rfl⟩ := Prod.mk.inj heq
    split
    · next fraction rest' hfraction =>
      split at hfraction
      · next more hmore =>
        exact absurd (List.cons.inj hmore).1 hc.point
      · obtain ⟨rfl, -⟩ := Prod.mk.inj hfraction
        rfl

theorem Foreign.word? (hc : Foreign c) (negative : Bool) (cs : List Char) :
    Numeral.word? negative (c :: cs) = none := by
  -- a word with another first character is another word
  have hne : ∀ {w : List Char}, w.head? ≠ some c.toLower →
      String.ofList ((c :: cs).map Char.toLower) ≠ String.ofList w := by
    intro w hw heq
    rw [String.ofList_inj] at heq
    rw [← heq] at hw
    exact hw rfl
  have hinf : String.ofList ((c :: cs).map Char.toLower) ≠ "inf" :=
    hne (w := ['i', 'n', 'f']) (by simp [hc.infinite.symm])
  have hinfinity : String.ofList ((c :: cs).map Char.toLower) ≠ "infinity" :=
    hne (w := ['i', 'n', 'f', 'i', 'n', 'i', 't', 'y']) (by simp [hc.infinite.symm])
  have hnan : String.ofList ((c :: cs).map Char.toLower) ≠ "nan" :=
    hne (w := ['n', 'a', 'n']) (by simp [hc.nan.symm])
  show (if _ then _ else _) = _
  rw [if_neg (not_or.mpr ⟨hinf, hinfinity⟩), if_neg hnan]

theorem Foreign.float? (hc : Foreign c) (cs : List Char) :
    Numeral.float? (String.ofList (c :: cs)) = none := by
  unfold Numeral.float?
  rw [String.toList_ofList, Text.stripWhile_cons hc.margin,
    dropSeparators.eq_3 false c _ (fun _ _ h _ => hc.line h), if_neg hc.line]
  rcases dropSeparators (Text.isDigit c) (Text.dropEndWhile isMargin cs) with - | ds
  · rfl
  · have hsign : takeSign (c :: ds) = (false, c :: ds) := by
      simp [takeSign, hc.minus, hc.plus]
    simp [hsign, hc.decimal? ds, hc.word? false ds]

end Numeral

namespace Condition

/-! ### Trimmed texts -/

/-- The number that a text is written as, if it is one to compare: the written NaN is none. -/
def writtenNumber? (s : String) : Option Binary64 :=
  match Numeral.float? s with
  | some x => if x.isNaN then none else some x
  | none => none

theorem numeric?_text (s : String) :
    Value.numeric? (.text s) = .ok (writtenNumber? (Text.strip s)) := by
  rcases h : Numeral.float? (Text.strip s) with - | x <;> simp [Value.numeric?, writtenNumber?, h]

theorem writtenNumber?_eq_some_iff {s : String} {x : Binary64} :
    writtenNumber? s = some x ↔ Numeral.float? s = some x ∧ x.isNaN = false := by
  unfold writtenNumber?
  rcases h : Numeral.float? s with - | y
  · simp
  · show (if y.isNaN = true then none else some y) = some x ↔ some y = some x ∧ x.isNaN = false
    constructor
    · intro hkept
      split at hkept
      · cases hkept
      · next hnan =>
        obtain rfl := Option.some.inj hkept
        exact ⟨rfl, by simpa using hnan⟩
    · rintro ⟨hread, hnan⟩
      obtain rfl := Option.some.inj hread
      simp [hnan]

/-- A value is no numeral if its text begins with a character that no numeral begins with. -/
theorem writtenNumber?_of_foreign {v : Value} {c : Char} (hblank : Text.isBlank c = false)
    (hc : Numeral.Foreign c) (hplain : ∃ cs, v.plain = String.ofList (c :: cs)) :
    writtenNumber? (trimmedText v) = none := by
  obtain ⟨cs, hplain⟩ := hplain
  unfold writtenNumber? trimmedText Text.strip Text.stripChars
  rw [hplain, String.toList_ofList, Text.stripWhile_cons hblank, hc.float?]

/-- The trimmed text of a value without floating-point numbers tells whether the value is numeric,
and as which number. -/
theorem numeric?_of_integral {v : Value} (h : v.Integral) :
    v.numeric? = .ok (writtenNumber? (trimmedText v)) := by
  cases h with
  | null => rfl
  | bool b => cases b <;> rfl
  | @int n hn =>
    -- it is numeric in the way in which its text is
    have htext := (numeric?_text _).symm.trans (Value.numeric?_plain_int hn)
    show Value.numeric? (.int n) = .ok (writtenNumber? (Text.strip (Value.plain (.int n))))
    rw [Except.ok.inj htext]
    exact congrArg (Except.map some) (Value.floatOfInt_of_lt hn)
  | text s => exact numeric?_text s
  | @list vs _ =>
    have hplain : ∃ cs, (Value.list vs).plain = String.ofList ('[' :: cs) := by
      cases vs <;> exact ⟨_, rfl⟩
    rw [writtenNumber?_of_foreign (by decide) Numeral.foreign_bracket hplain]
    rfl
  | @object fs _ =>
    have hplain : ∃ cs, (Value.object fs).plain = String.ofList (Char.ofNat 0x7B :: cs) := by
      cases fs <;> exact ⟨_, rfl⟩
    rw [writtenNumber?_of_foreign (by decide) Numeral.foreign_brace hplain]
    rfl
  | @table es _ _ =>
    have hplain : ∃ cs, (Value.table es).plain = String.ofList (Char.ofNat 0x7B :: cs) := by
      cases es <;> exact ⟨_, rfl⟩
    rw [writtenNumber?_of_foreign (by decide) Numeral.foreign_brace hplain]
    rfl

/-! ### What equality sees -/

/-- What equality sees in a trimmed text: the place of the number that it is written as, or else
the text itself. -/
def reading (s : String) : WithBot (WithTop ℚ) ⊕ String :=
  match writtenNumber? s with
  | some x => .inl x.point
  | none => .inr s

/-- Values without floating-point numbers are equal exactly if equality sees the same in both. -/
theorem equals_of_integral {left right : Value} (hleft : left.Integral) (hright : right.Integral) :
    compare left "equals" right =
      .ok (decide (reading (trimmedText left) = reading (trimmedText right))) := by
  -- a text that is no numeral and one that is are two texts
  have hne : writtenNumber? (trimmedText left) ≠ writtenNumber? (trimmedText right) →
      trimmedText left ≠ trimmedText right := mt (congrArg writtenNumber?)
  show areEqual left right = _
  unfold areEqual reading
  rw [numeric?_of_integral hleft, numeric?_of_integral hright]
  rcases hl : writtenNumber? (trimmedText left) with - | x <;>
    rcases hr : writtenNumber? (trimmedText right) with - | y
  · simp [bind, Except.bind, beq_eq_decide]
  · simp [bind, Except.bind, hne (by simp [hl, hr])]
  · simp [bind, Except.bind, hne (by simp [hl, hr])]
  · have heqv := Binary64.eqv_iff (writtenNumber?_eq_some_iff.mp hl).2
      (writtenNumber?_eq_some_iff.mp hr).2
    simp [bind, Except.bind, ← heqv]

/-- Equality of values without floating-point numbers comes to an answer, and is reflexive,
symmetric and transitive.  Two values with one trimmed text are both numeric, as one number, or
both are not. -/
theorem equals_isEquivalence :
    (Equivalence fun left right : {v : Value // v.Integral} =>
        compare left "equals" right = .ok true) ∧
      ∀ left right : {v : Value // v.Integral},
        (∃ answer, compare left "equals" right = .ok answer) ∧
          (trimmedText left = trimmedText right →
            ∃ found, left.1.numeric? = .ok found ∧ right.1.numeric? = .ok found) := by
  have hsees : ∀ left right : {v : Value // v.Integral}, compare left "equals" right = .ok true ↔
      reading (trimmedText left) = reading (trimmedText right) := by
    intro left right
    rw [equals_of_integral left.2 right.2]
    simp
  refine ⟨⟨?_, ?_, ?_⟩, ?_⟩
  · intro v
    exact (hsees v v).mpr rfl
  · intro u v h
    exact (hsees v u).mpr ((hsees u v).mp h).symm
  · intro u v w huv hvw
    exact (hsees u w).mpr (((hsees u v).mp huv).trans ((hsees v w).mp hvw))
  · intro left right
    refine ⟨⟨_, equals_of_integral left.2 right.2⟩, ?_⟩
    intro heq
    refine ⟨_, numeric?_of_integral left.2, ?_⟩
    rw [heq]
    exact numeric?_of_integral right.2

/-- A chain of three ways to write a number, and a list with its own text. -/
theorem equals_isEquivalence_in_chain :
    compare (.int 1000) "equals" (.text " 1_000 ") = .ok true ∧
      compare (.text " 1_000 ") "equals" (.text "1e3") = .ok true ∧
      compare (.int 1000) "equals" (.text "1e3") = .ok true ∧
      trimmedText (.list [.int 1]) = trimmedText (.text " [1] ") ∧
      ∃ found, Value.numeric? (.list [.int 1]) = .ok found ∧
        Value.numeric? (.text " [1] ") = .ok found := by
  have hint : Value.Integral (.int 1000) := .int (by decide +kernel)
  have hlist : Value.Integral (.list [.int 1]) := by
    refine .list fun v hv => ?_
    obtain rfl := List.mem_singleton.mp hv
    exact .int (by decide +kernel)
  have hfirst : compare (.int 1000) "equals" (.text " 1_000 ") = .ok true := rfl
  have hsecond : compare (.text " 1_000 ") "equals" (.text "1e3") = .ok true := rfl
  have hthird := equals_isEquivalence.1.trans (x := ⟨.int 1000, hint⟩)
    (y := ⟨.text " 1_000 ", .text _⟩) (z := ⟨.text "1e3", .text _⟩) hfirst hsecond
  have hsame : trimmedText (.list [.int 1]) = trimmedText (.text " [1] ") := rfl
  have hfound := (equals_isEquivalence.2 ⟨.list [.int 1], hlist⟩ ⟨.text " [1] ", .text _⟩).2 hsame
  exact ⟨hfirst, hsecond, hthird, hsame, hfound⟩

end Condition

end Automation
