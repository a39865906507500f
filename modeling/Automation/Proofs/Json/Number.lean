/-
Automation/Proofs/Json/Number.lean

Numbers in structured text, written and read again.

An integer is read back if it has not too many digits (`scalar_intText`), and a number of the format
always (`scalar_structured`): the decimal that it is written by stands before the reader again, up
to zeros at its end, whether its digits are set in places or with an exponent.
-/
import Automation.Json.Reader
import Automation.Proofs.Number.Decimal

namespace Automation.Json

open Numeral (digitLimit signed valueOf)

/-- No number goes on here. -/
def EndsNumber (rest : List Char) : Prop :=
  ∀ c ∈ rest.head?, c.isDigit = false ∧ c ≠ '.' ∧ c ≠ 'e' ∧ c ≠ 'E'

/-! ### Runs of digits -/

theorem digitRun_append {ds rest : List Char} (hds : ∀ c ∈ ds, c.isDigit = true)
    (hrest : ∀ c ∈ rest.head?, c.isDigit = false) : digitRun (ds ++ rest) = (ds, rest) := by
  unfold digitRun
  rw [List.span_eq_takeWhile_dropWhile, List.takeWhile_append_of_pos hds,
    List.dropWhile_append_of_pos hds]
  cases rest with
  | nil => simp
  | cons c rest => simp [hrest c rfl]

theorem runValue_eq (cs : List Char) : runValue cs = Nat.ofDigitChars 10 cs 0 := Numeral.valueOf_map cs

theorem runValue_append (cs ds : List Char) :
    runValue (cs ++ ds) = runValue cs * 10 ^ ds.length + runValue ds := by
  rw [runValue_eq, Nat.ofDigitChars_append, Nat.ofDigitChars_eq_ofDigitChars_zero, mul_comm,
    runValue_eq, runValue_eq]

theorem runValue_zeros (k : ℕ) : runValue (List.replicate k '0') = 0 := by
  rw [runValue_eq, Nat.ofDigitChars_replicate_zero, mul_zero]

theorem runValue_digitChars (n : ℕ) : runValue (Decimal.digitChars n) = n :=
  Numeral.valueOf_digitChars n

/-- The digits of a number that is not zero do not begin with a zero. -/
theorem head_digitChars {n : ℕ} (hn : n ≠ 0) {c : Char} {cs : List Char}
    (h : Decimal.digitChars n = c :: cs) : c ≠ '0' := by
  induction n using Nat.strongRecOn generalizing c cs with
  | ind n ih =>
    unfold Decimal.digitChars at h
    rw [Nat.toDigits_eq_if (by norm_num)] at h
    split at h
    · next hlt =>
      obtain ⟨rfl, -⟩ := List.cons.inj h
      interval_cases n <;> first | exact absurd rfl hn | decide
    · next hge =>
      -- the digits in front are those of a smaller number
      rcases hfront : Decimal.digitChars (n / 10) with - | ⟨d, ds⟩
      · exact absurd hfront (Decimal.digitChars_ne_nil _)
      · have hfront' : Nat.toDigits 10 (n / 10) = d :: ds := hfront
        rw [hfront'] at h
        obtain ⟨rfl, -⟩ := List.cons.inj h
        exact ih (n / 10) (by omega) (by omega) hfront

/-! ### Parts of a number -/

variable {rest : List Char}

theorem EndsNumber.not_digit (h : EndsNumber rest) : ∀ c ∈ rest.head?, c.isDigit = false :=
  fun c hc => (h c hc).1

theorem fractionDigits_of_ends (h : EndsNumber rest) : fractionDigits rest = ([], rest) := by
  unfold fractionDigits
  split
  · next more => exact absurd rfl (h '.' rfl).2.1
  · rfl

theorem exponentPart_of_ends (h : EndsNumber rest) : exponentPart rest = (none, rest) := by
  unfold exponentPart
  split
  · next c more =>
    obtain ⟨-, -, he, hE⟩ := h c rfl
    rw [if_neg (not_or.mpr ⟨he, hE⟩)]
  · rfl

/-- Digits that do not begin with a zero are taken together. -/
theorem wholeDigits?_append {c : Char} {ds : List Char} (hc : c ≠ '0')
    (hds : ∀ d ∈ c :: ds, d.isDigit = true) (hrest : ∀ c ∈ rest.head?, c.isDigit = false) :
    wholeDigits? (c :: ds ++ rest) = some (c :: ds, rest) := by
  have hrun := digitRun_append hds hrest
  unfold wholeDigits?
  split
  · next heq => exact absurd (List.cons.inj heq).1 hc
  · rw [hrun]

theorem wholeDigits?_singleton {c : Char} (hc : c ≠ '0') (hdigit : c.isDigit = true)
    (hrest : ∀ c ∈ rest.head?, c.isDigit = false) :
    wholeDigits? (c :: rest) = some ([c], rest) := by
  show wholeDigits? ([c] ++ rest) = _
  exact wholeDigits?_append hc (by simpa using hdigit) hrest

theorem wholeDigits?_digitChars (n : ℕ) (hrest : ∀ c ∈ rest.head?, c.isDigit = false) :
    wholeDigits? (Decimal.digitChars n ++ rest) = some (Decimal.digitChars n, rest) := by
  rcases eq_or_ne n 0 with rfl | hn
  · rfl
  · rcases hdigits : Decimal.digitChars n with - | ⟨c, ds⟩
    · exact absurd hdigits (Decimal.digitChars_ne_nil n)
    · exact wholeDigits?_append (head_digitChars hn hdigits)
        (fun d hd => Decimal.isDigit_of_mem (hdigits ▸ hd)) hrest

theorem fractionDigits_append {ds : List Char} (hne : ds ≠ []) (hds : ∀ d ∈ ds, d.isDigit = true)
    (hrest : ∀ c ∈ rest.head?, c.isDigit = false) :
    fractionDigits ('.' :: (ds ++ rest)) = (ds, rest) := by
  have hrun := digitRun_append hds hrest
  unfold fractionDigits
  simp only [hrun]

theorem takeSign_exponent {e : ℤ} (cs : List Char) :
    Numeral.takeSign ((if e < 0 then '-' else '+') :: cs) = (decide (e < 0), cs) := by
  split <;> simp [Numeral.takeSign, *]

/-- An exponent is read as it is written. -/
theorem exponentPart_append (e : ℤ) (h : EndsNumber rest) :
    exponentPart ('e' :: (Layout.exponentChars e ++ rest)) = (some e, rest) := by
  have hdigits : ∀ c ∈ List.replicate (2 - (Decimal.digitChars e.natAbs).length) '0' ++
      Decimal.digitChars e.natAbs, c.isDigit = true := by
    intro c hc
    rcases List.mem_append.mp hc with hc | hc
    · rw [List.eq_of_mem_replicate hc]
      rfl
    · exact Decimal.isDigit_of_mem hc
  have hrun := digitRun_append hdigits h.not_digit
  have hvalue : runValue (List.replicate (2 - (Decimal.digitChars e.natAbs).length) '0' ++
      Decimal.digitChars e.natAbs) = e.natAbs := by
    rw [runValue_append, runValue_zeros, runValue_digitChars, zero_mul, zero_add]
  unfold exponentPart Layout.exponentChars
  simp only [List.cons_append, takeSign_exponent, true_or, if_true]
  rw [hrun]
  split
  · next heq =>
    have := congrArg List.length (Prod.mk.inj heq).1
    simp [Decimal.digitChars_ne_nil] at this
  · next heq =>
    obtain ⟨rfl, rfl⟩ := Prod.mk.inj heq
    rw [hvalue, Numeral.signed_natAbs]

/-! ### Magnitudes -/

/-- A number is put together from its parts. -/
theorem magnitude_eq (rules : Rules) (s : Bool) {cs whole fraction behind left : List Char}
    {exponent : Option ℤ} (hwhole : wholeDigits? cs = some (whole, behind))
    (hfraction : fractionDigits behind = (fraction, left))
    (hexponent : exponentPart left = (exponent, rest)) (hlimit : whole.length ≤ digitLimit) :
    magnitude rules s cs = .ok (if fraction.isEmpty && exponent.isNone
      then .int (signed s (runValue whole))
      else .float (Decimal.toBinary64 s
        ⟨runValue (whole ++ fraction), exponent.getD 0 - fraction.length⟩), rest) := by
  have hinteger : Numeral.whole s (runDigits whole) = .ok (signed s (runValue whole)) := by
    unfold Numeral.whole runDigits
    rw [List.length_map, if_pos hlimit]
    rfl
  unfold magnitude
  simp only [hwhole, hfraction, hexponent, hinteger, Except.map]
  split_ifs <;> rfl

theorem magnitude_digitChars (rules : Rules) (s : Bool) {n : ℕ} (hn : n < 10 ^ digitLimit)
    (h : EndsNumber rest) :
    magnitude rules s (Decimal.digitChars n ++ rest) = .ok (.int (signed s n), rest) := by
  rw [magnitude_eq rules s (wholeDigits?_digitChars n h.not_digit) (fractionDigits_of_ends h)
    (exponentPart_of_ends h) ((Decimal.length_le_iff (by decide)).mpr hn), runValue_digitChars]
  rfl

/-- An integer that is too long is told from a malformed text. -/
theorem magnitude_of_long (rules : Rules) (s : Bool) {n : ℕ} (hn : ¬ n < 10 ^ digitLimit)
    (h : EndsNumber rest) : magnitude rules s (Decimal.digitChars n ++ rest) =
      .error (.tooManyDigits (Decimal.length n)) := by
  have hwhole : Numeral.whole s (runDigits (Decimal.digitChars n)) =
      .error (.tooManyDigits (Decimal.length n)) := by
    have hlength : ¬ (Decimal.digitChars n).length ≤ digitLimit :=
      mt (Decimal.length_le_iff (by decide)).mp hn
    unfold Numeral.whole runDigits
    rw [List.length_map, if_neg hlength]
    rfl
  unfold magnitude
  simp only [wholeDigits?_digitChars n h.not_digit, fractionDigits_of_ends h, exponentPart_of_ends h,
    hwhole]
  rfl

/-! ### Digits in places and with an exponent -/

section Layout

variable {c : Char} {ds : List Char} (rules : Rules) (s : Bool)

theorem isDigit_of_mem_zeros {k : ℕ} {x : Char} (hx : x ∈ List.replicate k '0') :
    x.isDigit = true := by
  rw [List.eq_of_mem_replicate hx]
  rfl

/-- Digits behind the point and zeros. -/
theorem magnitude_below_one (k : ℕ) (hne : ds ≠ []) (hds : ∀ x ∈ ds, x.isDigit = true)
    (h : EndsNumber rest) :
    magnitude rules s ('0' :: '.' :: (List.replicate k '0' ++ ds ++ rest)) =
      .ok (.float (Decimal.toBinary64 s ⟨runValue ds, -(k + ds.length : ℕ)⟩), rest) := by
  have hall : ∀ x ∈ List.replicate k '0' ++ ds, x.isDigit = true := fun x hx =>
    (List.mem_append.mp hx).elim isDigit_of_mem_zeros (hds x)
  have hvalue : runValue (['0'] ++ (List.replicate k '0' ++ ds)) = runValue ds := by
    rw [runValue_append, runValue_append, runValue_zeros, show runValue ['0'] = 0 from rfl]
    simp
  rw [magnitude_eq rules s rfl (fractionDigits_append (by simp [hne]) hall h.not_digit)
    (exponentPart_of_ends h) (by decide), hvalue]
  simp [hne]

/-- Digits before the point, and zeros. -/
theorem magnitude_whole (k : ℕ) (hc : c ≠ '0') (hds : ∀ x ∈ c :: ds, x.isDigit = true)
    (hlimit : (c :: ds).length + k ≤ digitLimit) (h : EndsNumber rest) :
    magnitude rules s (c :: ds ++ List.replicate k '0' ++ '.' :: '0' :: rest) =
      .ok (.float (Decimal.toBinary64 s ⟨runValue (c :: ds), k⟩), rest) := by
  have hall : ∀ x ∈ c :: (ds ++ List.replicate k '0'), x.isDigit = true := fun x hx =>
    (List.mem_append.mp (show x ∈ c :: ds ++ List.replicate k '0' from hx)).elim (hds x)
      isDigit_of_mem_zeros
  have hwhole : wholeDigits? (c :: (ds ++ List.replicate k '0') ++ '.' :: '0' :: rest) =
      some (c :: (ds ++ List.replicate k '0'), '.' :: '0' :: rest) :=
    wholeDigits?_append hc hall (by simp)
  have hvalue : runValue (c :: (ds ++ List.replicate k '0') ++ ['0']) =
      runValue (c :: ds) * 10 ^ (k + 1) := by
    rw [runValue_append, ← List.cons_append, runValue_append, runValue_zeros,
      show runValue ['0'] = 0 from rfl, List.length_replicate, List.length_singleton]
    ring
  -- the zeros do not count
  have hsame := Decimal.toBinary64_congr s (Decimal.value_mul_pow (runValue (c :: ds)) k (k + 1))
  rw [List.cons_append, magnitude_eq rules s hwhole
    (show fractionDigits ('.' :: '0' :: rest) = (['0'], rest) from
      fractionDigits_append (List.cons_ne_nil '0' []) (by simp) h.not_digit) (exponentPart_of_ends h)
    (by simpa [Nat.add_assoc, Nat.add_comm, Nat.add_left_comm] using hlimit), hvalue, ← hsame]
  simp

/-- Digits before and behind the point. -/
theorem magnitude_mixed {fs : List Char} (hc : c ≠ '0') (hds : ∀ x ∈ c :: ds, x.isDigit = true)
    (hne : fs ≠ []) (hfs : ∀ x ∈ fs, x.isDigit = true)
    (hlimit : (c :: ds).length ≤ digitLimit) (h : EndsNumber rest) :
    magnitude rules s (c :: ds ++ '.' :: (fs ++ rest)) =
      .ok (.float (Decimal.toBinary64 s ⟨runValue (c :: ds ++ fs), -(fs.length : ℕ)⟩), rest) := by
  rw [magnitude_eq rules s (wholeDigits?_append hc hds (by simp))
    (fractionDigits_append hne hfs h.not_digit) (exponentPart_of_ends h) hlimit]
  simp [hne]

/-- One digit and an exponent. -/
theorem magnitude_exponent (e : ℤ) (hc : c ≠ '0') (hdigit : c.isDigit = true) (h : EndsNumber rest) :
    magnitude rules s (c :: 'e' :: (Layout.exponentChars e ++ rest)) =
      .ok (.float (Decimal.toBinary64 s ⟨runValue [c], e⟩), rest) := by
  have hfraction : fractionDigits ('e' :: (Layout.exponentChars e ++ rest)) =
      ([], 'e' :: (Layout.exponentChars e ++ rest)) := rfl
  rw [magnitude_eq rules s (wholeDigits?_singleton hc hdigit (by simp)) hfraction
    (exponentPart_append e h) (by decide : 1 ≤ digitLimit)]
  simp

/-- One digit before the point, digits behind it, and an exponent. -/
theorem magnitude_scientific (e : ℤ) (hc : c ≠ '0') (hds : ∀ x ∈ c :: ds, x.isDigit = true)
    (hne : ds ≠ []) (h : EndsNumber rest) :
    magnitude rules s (c :: '.' :: (ds ++ 'e' :: (Layout.exponentChars e ++ rest))) =
      .ok (.float (Decimal.toBinary64 s ⟨runValue (c :: ds), e - ds.length⟩), rest) := by
  obtain ⟨hdigit, hmore⟩ := List.forall_mem_cons.mp hds
  rw [magnitude_eq rules s (wholeDigits?_singleton hc hdigit (by simp))
    (fractionDigits_append hne hmore (by simp)) (exponentPart_append e h)
    (by decide : 1 ≤ digitLimit)]
  simp

end Layout

/-- The digits of a decimal are read as a decimal of the same value. -/
theorem magnitude_digitsChars (rules : Rules) (s : Bool) {d : Decimal} (hd : d.digits ≠ 0)
    (h : EndsNumber rest) :
    magnitude rules s (Layout.structured.digitsChars d ++ rest) =
      .ok (.float (d.toBinary64 s), rest) := by
  rcases hdigits : Decimal.digitChars d.digits with - | ⟨c, ds⟩
  · exact absurd hdigits (Decimal.digitChars_ne_nil _)
  have hc : c ≠ '0' := head_digitChars hd hdigits
  have hall : ∀ x ∈ c :: ds, x.isDigit = true := fun x hx => Decimal.isDigit_of_mem (hdigits ▸ hx)
  have hvalue : runValue (c :: ds) = d.digits := by rw [← hdigits, runValue_digitChars]
  have hlimit : 16 ≤ digitLimit := by decide
  obtain ⟨n, e⟩ := d
  simp only at hvalue
  subst hvalue
  unfold Layout.digitsChars
  simp only [hdigits, Layout.structured]
  split_ifs with hplaces hbelow hwhole
  · obtain ⟨k, hk⟩ : ∃ k : ℕ, -(e + ((c :: ds).length : ℤ)) = k :=
      ⟨_, (Int.toNat_of_nonneg (by omega)).symm⟩
    have hexp : e = -((k + (c :: ds).length : ℕ) : ℤ) := by omega
    rw [hk, Int.toNat_natCast]
    have hread := magnitude_below_one rules s k (by simp) hall h
    rw [← hexp] at hread
    simpa using hread
  · obtain ⟨k, hk⟩ : ∃ k : ℕ, e = k := ⟨e.toNat, by omega⟩
    subst hk
    have hpoint : ((k : ℤ) + ((c :: ds).length : ℤ)).toNat - (c :: ds).length = k := by omega
    rw [hpoint]
    have hread := magnitude_whole rules s k hc hall (by omega) h
    simpa using hread
  · -- the point stands between two digits
    obtain ⟨q, hq⟩ : ∃ q : ℕ, e + ((c :: ds).length : ℤ) = (q + 1 : ℕ) :=
      ⟨(e + ((c :: ds).length : ℤ)).toNat - 1, by omega⟩
    rw [hq, Int.toNat_natCast, List.length_cons] at hwhole
    rw [List.length_cons] at hq hplaces
    have hlength : (ds.drop q).length = ds.length - q := List.length_drop
    have hexp : -(((ds.drop q).length : ℕ) : ℤ) = e := by omega
    have hread : magnitude rules s (c :: ds.take q ++ '.' :: (ds.drop q ++ rest)) =
        .ok (.float (Decimal.toBinary64 s
          ⟨runValue (c :: ds.take q ++ ds.drop q), -((ds.drop q).length : ℕ)⟩), rest) := by
      refine magnitude_mixed rules s hc (fun x hx => ?_) ?_ (fun x hx => ?_) ?_ h
      · exact hall x ((List.take_sublist (q + 1) (c :: ds)).subset hx)
      · exact List.ne_nil_of_length_pos (by omega)
      · exact hall x (List.mem_cons_of_mem _ (List.mem_of_mem_drop hx))
      · rw [List.length_cons, List.length_take]
        omega
    have hjoin : c :: ds.take q ++ ds.drop q = c :: ds :=
      congrArg (c :: ·) (List.take_append_drop q ds)
    rw [hexp, hjoin] at hread
    rw [List.length_cons, hq, Int.toNat_natCast]
    simpa using hread
  · rcases ds with - | ⟨d, ds⟩
    · have hread := magnitude_exponent rules s e hc (hall c List.mem_cons_self) h
      simpa using hread
    · have hread := magnitude_scientific rules s (e + (d :: ds).length) hc hall (by simp) h
      have hexp : e + ((c :: d :: ds).length : ℤ) - 1 = e + ((d :: ds).length : ℤ) := by
        rw [List.length_cons]
        omega
      rw [add_sub_cancel_right] at hread
      rw [hexp]
      simpa using hread

/-! ### Numbers -/

/-- A number begins with a digit, or with a minus and a digit. -/
theorem scalar_of_digit (rules : Rules) (s : Bool) {c : Char} (hc : c.isDigit = true)
    (cs : List Char) :
    scalar rules ((if s then ['-'] else []) ++ c :: cs) = magnitude rules s (c :: cs) := by
  have hne : ∀ {d : Char}, d.isDigit = false → c ≠ d := fun hd => ne_of_isDigit hc hd
  cases s with
  | true =>
    show scalar rules ('-' :: c :: cs) = _
    unfold scalar
    split
    all_goals simp_all
  | false =>
    show scalar rules (c :: cs) = _
    unfold scalar
    split
    all_goals simp_all

theorem exists_digit_intText (n : ℤ) :
    ∃ c cs, intText n = (if n < 0 then ['-'] else []) ++ c :: cs ∧ c.isDigit = true := by
  rcases hdigits : Decimal.digitChars n.natAbs with - | ⟨c, cs⟩
  · exact absurd hdigits (Decimal.digitChars_ne_nil _)
  · exact ⟨c, cs, by rw [intText, hdigits], Decimal.isDigit_of_mem (hdigits ▸ List.mem_cons_self)⟩

/-- An integer is read as its digits are after its sign. -/
theorem scalar_intText_eq (rules : Rules) (n : ℤ) (rest : List Char) :
    scalar rules (intText n ++ rest) =
      magnitude rules (decide (n < 0)) (Decimal.digitChars n.natAbs ++ rest) := by
  obtain ⟨c, cs, htext, hc⟩ := exists_digit_intText n
  have hdigits : Decimal.digitChars n.natAbs = c :: cs := List.append_cancel_left htext
  rw [hdigits, List.cons_append, ← scalar_of_digit rules _ hc, htext, List.append_assoc]
  simp

/-- An integer is read as it is written, if it has not too many digits. -/
theorem scalar_intText (rules : Rules) {n : ℤ} (hn : n.natAbs < 10 ^ digitLimit)
    (h : EndsNumber rest) : scalar rules (intText n ++ rest) = .ok (.int n, rest) := by
  rw [scalar_intText_eq, magnitude_digitChars rules _ hn h, Numeral.signed_natAbs]

theorem exists_digit_digitsChars {d : Decimal} :
    ∃ c cs, Layout.structured.digitsChars d = c :: cs ∧ c.isDigit = true := by
  rcases hdigits : Decimal.digitChars d.digits with - | ⟨c, ds⟩
  · exact absurd hdigits (Decimal.digitChars_ne_nil _)
  have hc : c.isDigit = true := Decimal.isDigit_of_mem (hdigits ▸ List.mem_cons_self)
  unfold Layout.digitsChars
  simp only [hdigits]
  split_ifs with hplaces hbelow hwhole
  · exact ⟨'0', _, rfl, rfl⟩
  · exact ⟨c, _, rfl, hc⟩
  · obtain ⟨p, hp⟩ : ∃ p : ℕ, (d.exponent + ((c :: ds).length : ℤ)).toNat = p + 1 :=
      ⟨(d.exponent + ((c :: ds).length : ℤ)).toNat - 1, by omega⟩
    rw [hp]
    exact ⟨c, _, rfl, hc⟩
  · rcases ds with - | ⟨d, ds⟩ <;> exact ⟨c, _, rfl, hc⟩

theorem exists_digit_structured {s : Bool} {m : ℕ} {e : ℤ} (h : Canonical m e) :
    ∃ c cs, Layout.structured.text (.finite s m e h) = (if s then ['-'] else []) ++ c :: cs ∧
      c.isDigit = true := by
  unfold Layout.text Layout.textOf
  rcases eq_or_ne m 0 with rfl | hm
  · exact ⟨'0', Layout.structured.wholeEnding.toList, by simp, rfl⟩
  · obtain ⟨c, cs, htext, hdigit⟩ := exists_digit_digitsChars (d := Decimal.shortest m e)
    exact ⟨c, cs, by simp [hm, htext], hdigit⟩

/-- A finite number of the format is read as it is written. -/
theorem scalar_structured (rules : Rules) {x : Binary64} (hx : x.isFinite = true)
    (h : EndsNumber rest) :
    scalar rules (Layout.structured.text x ++ rest) = .ok (.float x, rest) := by
  cases x with
  | nan => cases hx
  | infinite => cases hx
  | finite s m e hc =>
    unfold Layout.text Layout.textOf
    simp only [List.append_assoc]
    rcases eq_or_ne m 0 with rfl | hm
    · obtain rfl : e = -1074 := hc.2.2.2.resolve_left (by decide)
      rw [if_pos rfl]
      show scalar rules (_ ++ '0' :: '.' :: '0' :: rest) = _
      rw [scalar_of_digit rules s rfl]
      exact magnitude_below_one rules s 0 (List.cons_ne_nil '0' []) (by simp) h
    · obtain ⟨c, cs, htext, hdigit⟩ := exists_digit_digitsChars (d := Decimal.shortest m e)
      have hread := magnitude_digitsChars rules s (Decimal.shortest_digits_ne_zero hc hm) h
      rw [Decimal.toBinary64_shortest hc hm s] at hread
      rw [if_neg hm]
      rw [htext, List.cons_append] at hread ⊢
      rw [scalar_of_digit rules s hdigit, hread]

end Automation.Json
