import ShaderFlatten.Directive.Substitution
import ShaderFlatten.Proofs.Grammar
import ShaderFlatten.Proofs.OutputPlan
import ShaderFlatten.Proofs.Rounding

/-!
# What is written reads back

An integer is written with a sign and digits, a floating-point number as digits with a point or an exponent, so
that it is never read as an integer:

    int? (decimal n) = n            int? (toText x) = none            float? (toText x) = x

Hence a word of the command line and the text that it is rendered as denote the same value, and rendering a second
time changes nothing.
-/

namespace ShaderFlatten

namespace Numeral

/-! ## Characters of numerals -/

/-- A character of which numerals are written. -/
def isMark (c : Char) : Bool := c.isDigit || c ∈ ['.', 'e', '+', '-']

section
variable {c : Char} {t rest digits : Text}

theorem toNat_of_isDigit (h : c.isDigit = true) : 48 ≤ c.toNat ∧ c.toNat ≤ 57 := by
  simp only [Char.isDigit, Bool.and_eq_true, decide_eq_true_eq, ge_iff_le, UInt32.le_iff_toNat_le] at h
  exact h

theorem isMark_of_isDigit (h : c.isDigit = true) : isMark c = true := by simp [isMark, h]

theorem ne_of_isDigit {x : Char} (hx : x.isDigit = false) (h : c.isDigit = true) : c ≠ x := by
  rintro rfl
  rw [hx] at h
  cases h

/-- Nothing happens to the characters of numerals when a numeral is normalized. -/
theorem isMark_cases (h : isMark c = true) :
    fold c = c ∧ Text.isAsciiBlank c = false ∧ c ≠ '_' := by
  have hcases : c.isDigit = true ∨ c ∈ ['.', 'e', '+', '-'] := by simpa [isMark] using h
  rcases hcases with hdigit | hmark
  · have hcode := toNat_of_isDigit hdigit
    have hcontrol : ¬ (0x09 ≤ c.toNat ∧ c.toNat ≤ 0x0D) := by omega
    have hspace : c ≠ ' ' := ne_of_isDigit rfl hdigit
    refine ⟨if_pos (by omega), ?_, ne_of_isDigit rfl hdigit⟩
    simpa [Text.isAsciiBlank, hspace] using hcontrol
  · simp only [List.mem_cons, List.not_mem_nil, or_false] at hmark
    rcases hmark with rfl | rfl | rfl | rfl <;> exact ⟨rfl, rfl, by decide⟩

theorem trimBy_eq {cut : Char → Bool} (h : ∀ c ∈ t, cut c = false) : Text.trimBy cut t = t := by
  have hfront {u : Text} (hu : ∀ c ∈ u, cut c = false) : u.dropWhile cut = u := by
    cases u with
    | nil => rfl
    | cons c u => simp [hu c List.mem_cons_self]
  rw [Text.trimBy, hfront h, hfront fun c hc => h c (List.mem_reverse.mp hc), List.reverse_reverse]

theorem normalize_eq (h : ∀ c ∈ t, isMark c = true) : normalize t = t := by
  have hfold : t.map fold = t := by
    rw [List.map_congr_left fun c hc => (isMark_cases (h c hc)).1, List.map_id']
  rw [normalize, hfold, trimBy_eq fun c hc => (isMark_cases (h c hc)).2.1]

theorem dropUnderscores_eq {previous : Char} (hprevious : previous ≠ '_') (h : ∀ c ∈ t, c ≠ '_') :
    dropUnderscores previous t = some t := by
  induction t generalizing previous with
  | nil => simp [dropUnderscores, hprevious]
  | cons c t ih =>
    obtain ⟨hc, ht⟩ := List.forall_mem_cons.mp h
    simp [dropUnderscores, hprevious, hc, ih hc ht]

/-! ## Digits -/

theorem digitsValue_eq (digits : Text) : digitsValue digits = Nat.ofDigitChars 10 digits 0 := rfl

@[simp] theorem digitsValue_toDigits (n : Nat) : digitsValue (Nat.toDigits 10 n) = n :=
  Nat.ofDigitChars_ten_toDigits

theorem digitsValue_zeros_append (k : Nat) (digits : Text) :
    digitsValue (List.replicate k '0' ++ digits) = digitsValue digits := by
  rw [digitsValue_eq, Nat.ofDigitChars_append, Nat.ofDigitChars_replicate_zero, Nat.mul_zero, digitsValue_eq]

theorem digitsValue_append_zeros (digits : Text) (k : Nat) :
    digitsValue (digits ++ List.replicate k '0') = digitsValue digits * 10 ^ k := by
  rw [digitsValue_eq, Nat.ofDigitChars_append, Nat.ofDigitChars_replicate_zero, Nat.mul_comm, digitsValue_eq]

theorem isDigit_zeros (k : Nat) : List.replicate k '0' ∈ Grammar.many Char.isDigit := fun c hc => by
  rw [List.eq_of_mem_replicate hc]
  rfl

theorem isDigit_toDigits (n : Nat) : ∀ c ∈ Nat.toDigits 10 n, c.isDigit = true :=
  fun _ hc => Nat.isDigit_of_mem_toDigits (by decide) (by decide) hc

theorem hexValue?_of_isDigit (h : c.isDigit = true) : Text.hexValue? c = some (c.toNat - '0'.toNat) := by
  have hrange : '0' ≤ c ∧ c ≤ '9' := by simpa [Char.isDigit, Char.le_def] using h
  simp [Text.hexValue?, hrange]

theorem basedValue_ten (h : ∀ c ∈ digits, c.isDigit = true) : basedValue 10 digits = digitsValue digits := by
  have hfold (n : Nat) :
      digits.foldl (fun n c => 10 * n + (Text.hexValue? c).getD 0) n =
        digits.foldl (fun n c => 10 * n + (c.toNat - '0'.toNat)) n := by
    induction digits generalizing n with
    | nil => rfl
    | cons c digits ih =>
      obtain ⟨hc, hdigits⟩ := List.forall_mem_cons.mp h
      rw [List.foldl_cons, List.foldl_cons, hexValue?_of_isDigit hc, Option.getD_some, ih hdigits]
  exact hfold 0

/-- Digits spell less than the power of their base. -/
theorem basedValue_lt {base : Nat} (h : ∀ c ∈ digits, isDigitOf base c = true) :
    basedValue base digits < base ^ digits.length := by
  induction digits using List.reverseRecOn with
  | nil => simp [basedValue]
  | append_singleton digits c ih =>
    have hc : isDigitOf base c = true := h c (by simp)
    have hdigits := ih fun x hx => h x (by simp [hx])
    rw [isDigitOf, Option.any_eq_true] at hc
    obtain ⟨v, hv, hless⟩ := hc
    have hstep : basedValue base (digits ++ [c]) = base * basedValue base digits + v := by
      simp [basedValue, hv]
    have hlower : v < base := of_decide_eq_true hless
    calc basedValue base (digits ++ [c]) = base * basedValue base digits + v := hstep
      _ < base * (basedValue base digits + 1) := by rw [Nat.mul_add]; omega
      _ ≤ base * base ^ digits.length := Nat.mul_le_mul_left base hdigits
      _ = base ^ (digits ++ [c]).length := by
        rw [List.length_append, List.length_singleton, Nat.pow_succ, Nat.mul_comm]

end

/-! ## Integers -/

/-- A text with a minus in front if it is to be negative. -/
def signed (negative : Bool) (body : Text) : Text := if negative then '-' :: body else body

section
variable {negative : Bool} {digits rest t : Text}

theorem splitSign_signed (hdigits : digits ∈ Grammar.many1 Char.isDigit) :
    splitSign (signed negative (digits ++ rest)) = (negative, digits ++ rest) := by
  obtain ⟨hne, hall⟩ := hdigits
  cases digits with
  | nil => exact absurd rfl hne
  | cons c digits =>
    have hc : c.isDigit = true := hall c List.mem_cons_self
    have hminus : c ≠ '-' := ne_of_isDigit rfl hc
    have hplus : c ≠ '+' := ne_of_isDigit rfl hc
    cases negative with
    | false => simp [signed, splitSign, hminus, hplus]
    | true => simp [signed, splitSign]

theorem isMark_signed (h : ∀ c ∈ t, isMark c = true) : ∀ c ∈ signed negative t, isMark c = true := by
  cases negative with
  | false => exact h
  | true => exact List.forall_mem_cons.mpr ⟨rfl, h⟩

theorem dropAnnouncement_ten (t : Text) : dropAnnouncement 10 t = t := by
  unfold dropAnnouncement
  split
  · simp [baseLetter?]
  · rfl

theorem joinDigits?_of_not_mem (hne : digits ≠ []) (h : '_' ∉ digits) : joinDigits? digits = some digits := by
  have hkept : digits.filter (· != '_') = digits :=
    List.filter_eq_self.mpr fun c hc => bne_iff_ne.mpr (ne_of_mem_of_not_mem hc h)
  simp [joinDigits?, Text.split_of_not_mem h, hne, hkept]

/-- A character that decimal integers are written with. -/
def inRun (c : Char) : Bool := c == '_' || isDigitOf 10 c

theorem inRun_of_isDigit {c : Char} (h : c.isDigit = true) : inRun c = true := by
  have hcode := toNat_of_isDigit h
  have hvalue : c.toNat - '0'.toNat < 10 := by
    have : '0'.toNat = 48 := rfl
    omega
  rw [inRun, isDigitOf, hexValue?_of_isDigit h, Option.any_some, decide_eq_true hvalue, Bool.or_true]

/-- **What is read as an integer**: behind the sign nothing but a run of digits, and not too many of them. -/
theorem int?_eq_some {n : Int} : int? t = some n ↔
    ∃ digits, joinDigits? ((splitSign (normalize t)).2.takeWhile inRun) = some digits ∧
      digits.length ≤ maxDigits ∧ (splitSign (normalize t)).2.dropWhile inRun = [] ∧
      n = if (splitSign (normalize t)).1 then -(basedValue 10 digits : Int) else basedValue 10 digits := by
  rcases hsign : splitSign (normalize t) with ⟨negative, body⟩
  have hclass : (fun c => c == '_' || isDigitOf 10 c) = inRun := rfl
  rw [int?, readInt, readIntIn, hsign]
  simp only [dropAnnouncement_ten, hclass]
  cases joinDigits? (body.takeWhile inRun) with
  | none => simp
  | some digits =>
    by_cases hlong : maxDigits < digits.length
    · simp [hlong]
    · by_cases hend : body.dropWhile inRun = []
      · simp [hlong, hend, Nat.le_of_not_lt hlong, eq_comm]
      · simp [hlong, hend]

theorem normalize_signed (hdigits : digits ∈ Grammar.many1 Char.isDigit) (hrest : ∀ c ∈ rest, isMark c = true) :
    normalize (signed negative (digits ++ rest)) = signed negative (digits ++ rest) :=
  normalize_eq (isMark_signed
    (List.forall_mem_append.mpr ⟨fun c hc => isMark_of_isDigit (hdigits.2 c hc), hrest⟩))

theorem decimal_toList (n : Int) : (decimal n).toList = signed (n < 0) (Nat.toDigits 10 n.natAbs) := by
  cases n with
  | ofNat k => simp [decimal, signed]
  | negSucc k => simp [decimal, signed]

/-- **An integer that is not too long reads back.** -/
theorem int?_decimal {n : Int} (h : Binary64.digitCount n.natAbs ≤ maxDigits) :
    int? (decimal n).toList = some n := by
  have hdigits : Nat.toDigits 10 n.natAbs ∈ Grammar.many1 Char.isDigit :=
    ⟨Nat.toDigits_ne_nil, isDigit_toDigits n.natAbs⟩
  have hrun : Nat.toDigits 10 n.natAbs ∈ Grammar.many inRun := fun c hc => inRun_of_isDigit (hdigits.2 c hc)
  rw [int?_eq_some, decimal_toList, ← List.append_nil (Nat.toDigits 10 n.natAbs),
    normalize_signed hdigits (by simp), splitSign_signed hdigits, takeWhile_append_stops hrun stops_nil,
    dropWhile_append_stops hrun stops_nil]
  refine ⟨_, joinDigits?_of_not_mem hdigits.1 fun hmem => ?_, h, rfl, ?_⟩
  · exact absurd (hdigits.2 _ hmem) (by decide)
  · rw [basedValue_ten hdigits.2, digitsValue_toDigits]
    simp only [decide_eq_true_eq]
    split <;> omega

/-- What follows digits and is no part of a run of digits is not read as part of an integer. -/
theorem int?_signed_eq_none (hdigits : digits ∈ Grammar.many1 Char.isDigit)
    (hmarks : ∀ c ∈ rest, isMark c = true) (hne : rest ≠ []) (hrest : Stops inRun rest) :
    int? (signed negative (digits ++ rest)) = none := by
  have hrun : digits ∈ Grammar.many inRun := fun c hc => inRun_of_isDigit (hdigits.2 c hc)
  rw [Option.eq_none_iff_forall_ne_some]
  intro n hread
  obtain ⟨-, -, -, hend, -⟩ := int?_eq_some.mp hread
  rw [normalize_signed hdigits hmarks, splitSign_signed hdigits, dropWhile_append_stops hrun hrest] at hend
  exact hne hend

/-- An integer that is read is not too long. -/
theorem digitCount_of_int? {n : Int} (h : int? t = some n) : Binary64.digitCount n.natAbs ≤ maxDigits := by
  obtain ⟨digits, hjoin, hlength, -, hn⟩ := int?_eq_some.mp h
  have hrun : ∀ c ∈ digits, isDigitOf 10 c = true := by
    rw [joinDigits?] at hjoin
    split at hjoin
    · cases hjoin
      intro c hc
      obtain ⟨hmem, hmark⟩ := List.mem_filter.mp hc
      have hin : inRun c = true := List.mem_takeWhile_imp hmem
      simpa [inRun, bne_iff_ne.mp hmark] using hin
    · cases hjoin
  have hvalue : n.natAbs = basedValue 10 digits := by
    rw [hn]
    split <;> omega
  have hless : basedValue 10 digits < 10 ^ maxDigits :=
    (basedValue_lt hrun).trans_le (Nat.pow_le_pow_right (by decide) hlength)
  rw [hvalue]
  exact (Nat.length_toDigits_le_iff (by decide) (by decide)).mpr hless

end

/-! ## Decimals with a point or an exponent -/

theorem isDigit_exponent (e : Int) :
    List.replicate (2 - (Nat.toDigits 10 e.natAbs).length) '0' ++ Nat.toDigits 10 e.natAbs ∈
      Grammar.many1 Char.isDigit :=
  ⟨by simp, List.forall_mem_append.mpr ⟨isDigit_zeros _, isDigit_toDigits e.natAbs⟩⟩

theorem exponent?_exponentText (e : Int) : exponent? ('e' :: Binary64.exponentText e) = some e := by
  obtain ⟨hne, hall⟩ := isDigit_exponent e
  have hvalue := digitsValue_zeros_append (2 - (Nat.toDigits 10 e.natAbs).length) (Nat.toDigits 10 e.natAbs)
  rw [digitsValue_toDigits] at hvalue
  rw [Binary64.exponentText]
  generalize List.replicate (2 - (Nat.toDigits 10 e.natAbs).length) '0' ++ Nat.toDigits 10 e.natAbs = digits at *
  have hdigits : (digits.isEmpty || !digits.all (·.isDigit)) = false := by
    simp [hne, List.all_eq_true.mpr hall]
  simp only [exponent?, beq_self_eq_true, Bool.true_or, if_true]
  by_cases hnegative : e < 0
  · simp only [if_pos hnegative, splitSign, hdigits, hvalue, Bool.false_eq_true, if_false, if_true,
      Option.some.injEq]
    omega
  · simp only [if_neg hnegative, splitSign, hdigits, hvalue, Bool.false_eq_true, if_false, Option.some.injEq]
    omega

/-- The parts of a decimal: digits, the digits behind a point and the power of ten behind an `e`. -/
structure Parts where
  whole : Text
  fraction : Option Text
  exponent : Option Int

namespace Parts

/-- What is written behind the first digits. -/
def tail (p : Parts) : Text :=
  p.fraction.elim [] ('.' :: ·) ++ p.exponent.elim [] ('e' :: Binary64.exponentText ·)

/-- The decimal as it is written. -/
def text (p : Parts) : Text := p.whole ++ p.tail

/-- All digits but those of the power of ten. -/
def digits (p : Parts) : Text := p.whole ++ p.fraction.getD []

/-- The power of ten that the digits are to be multiplied by. -/
def scale (p : Parts) : Int := p.exponent.getD 0 - (p.fraction.getD []).length

/-- The parts are digits, and the decimal is written with a point or an exponent. -/
structure Proper (p : Parts) : Prop where
  whole : p.whole ∈ Grammar.many1 Char.isDigit
  fraction : p.fraction.getD [] ∈ Grammar.many Char.isDigit
  marked : p.fraction.isSome ∨ p.exponent.isSome

variable {p : Parts}

theorem Proper.isMark_tail (h : p.Proper) : ∀ c ∈ p.tail, isMark c = true := by
  refine List.forall_mem_append.mpr ⟨?_, ?_⟩
  · cases hfraction : p.fraction with
    | none => simp
    | some fraction =>
      have hdigits := h.fraction
      rw [hfraction] at hdigits
      exact List.forall_mem_cons.mpr ⟨rfl, fun c hc => isMark_of_isDigit (hdigits c hc)⟩
  · cases p.exponent with
    | none => simp
    | some e =>
      have hsign : isMark (if e < 0 then '-' else '+') = true := by split <;> rfl
      exact List.forall_mem_cons.mpr ⟨rfl, List.forall_mem_cons.mpr
        ⟨hsign, fun c hc => isMark_of_isDigit ((isDigit_exponent e).2 c hc)⟩⟩

/-- A point or an `e` stands behind the first digits. -/
theorem Proper.tail_cases (h : p.Proper) : ∃ c rest, p.tail = c :: rest ∧ (c = '.' ∨ c = 'e') := by
  rw [tail]
  cases hfraction : p.fraction with
  | some fraction => exact ⟨'.', _, rfl, .inl rfl⟩
  | none =>
    cases hexponent : p.exponent with
    | some e => exact ⟨'e', _, rfl, .inr rfl⟩
    | none =>
      have hmarked := h.marked
      simp [hfraction, hexponent] at hmarked

theorem Proper.stops_tail (h : p.Proper) {q : Char → Bool} (hpoint : q '.' = false) (hmark : q 'e' = false) :
    Stops q p.tail := by
  obtain ⟨c, rest, htail, rfl | rfl⟩ := h.tail_cases
  · rw [htail, stops_cons]
    exact hpoint
  · rw [htail, stops_cons]
    exact hmark

theorem Proper.unsignedFloat?_text (h : p.Proper) (negative : Bool) :
    unsignedFloat? negative p.text = some (Binary64.ofDecimal negative (digitsValue p.digits) p.scale) := by
  have hexponent : exponent? (p.exponent.elim [] ('e' :: Binary64.exponentText ·)) = some (p.exponent.getD 0) := by
    cases p.exponent with
    | none => rfl
    | some e => exact exponent?_exponentText e
  have hstops : Stops Char.isDigit (p.exponent.elim [] ('e' :: Binary64.exponentText ·)) := by
    cases p.exponent with
    | none => exact stops_nil
    | some e => exact stops_cons.mpr rfl
  have hwhole : p.whole.isEmpty = false := by simpa using h.whole.1
  rw [unsignedFloat?, text, takeWhile_append_stops h.whole.2 (h.stops_tail rfl rfl),
    dropWhile_append_stops h.whole.2 (h.stops_tail rfl rfl), tail, digits, scale]
  cases hfraction : p.fraction with
  | some fraction =>
    have hdigits : fraction ∈ Grammar.many Char.isDigit := by simpa [hfraction] using h.fraction
    simp only [Option.elim_some, List.cons_append, Option.getD_some, takeWhile_append_stops hdigits hstops,
      dropWhile_append_stops hdigits hstops, hexponent, hwhole]
    rfl
  | none =>
    simp only [Option.elim_none, List.nil_append, Option.getD_none]
    cases hp : p.exponent with
    | none =>
      have hmarked := h.marked
      simp [hfraction, hp] at hmarked
    | some e =>
      simp [exponent?_exponentText, h.whole.1]

theorem Proper.isMark_text (h : p.Proper) : ∀ c ∈ p.text, isMark c = true :=
  List.forall_mem_append.mpr ⟨fun c hc => isMark_of_isDigit (h.whole.2 c hc), h.isMark_tail⟩

/-- What begins with a digit is none of the words for infinity and NaN. -/
theorem Proper.word_ne (h : p.Proper) {word : String} (hword : word.toList.head?.any Char.isDigit = false) :
    String.ofList (p.text.map Char.toLower) ≠ word := by
  obtain ⟨hne, hall⟩ := h.whole
  rw [text]
  cases hwhole : p.whole with
  | nil => exact absurd hwhole hne
  | cons c whole =>
    have hc : c.isDigit = true := hall c (hwhole ▸ List.mem_cons_self)
    have hlower : c.toLower = c := dif_neg fun hupper => by
      have hcode := toNat_of_isDigit hc
      have hletter : 65 ≤ c.toNat := UInt32.le_iff_toNat_le.mp hupper.1
      omega
    rintro rfl
    simp [hlower, hc] at hword

/-- **A decimal is read as its digits and its power of ten say.** -/
theorem Proper.float?_text (h : p.Proper) (negative : Bool) :
    float? (signed negative p.text) = some (Binary64.ofDecimal negative (digitsValue p.digits) p.scale) := by
  have hnormal : normalize (signed negative p.text) = signed negative p.text :=
    normalize_signed h.whole h.isMark_tail
  have hjoin : dropUnderscores ' ' (signed negative p.text) = some (signed negative p.text) :=
    dropUnderscores_eq (by decide) fun c hc => (isMark_cases (isMark_signed h.isMark_text c hc)).2.2
  have hsign : splitSign (signed negative p.text) = (negative, p.text) := splitSign_signed h.whole
  have hnan : String.ofList (p.text.map Char.toLower) ≠ "nan" := h.word_ne (by decide)
  have hinf : String.ofList (p.text.map Char.toLower) ≠ "inf" := h.word_ne (by decide)
  have hinfinity : String.ofList (p.text.map Char.toLower) ≠ "infinity" := h.word_ne (by decide)
  rw [float?, hnormal, hjoin]
  simp only [hsign, hnan, hinf, hinfinity, if_false, decide_false, Bool.or_false, Bool.false_eq_true,
    h.unsignedFloat?_text]

/-- A decimal with a point or an exponent is not read as an integer. -/
theorem Proper.int?_text (h : p.Proper) (negative : Bool) : int? (signed negative p.text) = none := by
  obtain ⟨c, rest, htail, -⟩ := h.tail_cases
  exact int?_signed_eq_none h.whole h.isMark_tail (by simp [htail]) (h.stops_tail rfl rfl)

end Parts

end Numeral

namespace Binary64

open Numeral

/-! ## Numbers in decimal -/

theorem eq_significant_append (digits : Text) :
    ∃ k, digits = significant digits ++ List.replicate k '0' := by
  have hzeros : digits.reverse.takeWhile (· == '0') =
      List.replicate (digits.reverse.takeWhile (· == '0')).length '0' :=
    List.eq_replicate_of_mem fun c hc => by simpa using List.mem_takeWhile_imp hc
  refine ⟨(digits.reverse.takeWhile (· == '0')).length, ?_⟩
  calc digits = (digits.reverse.takeWhile (· == '0') ++ digits.reverse.dropWhile (· == '0')).reverse := by
        rw [List.takeWhile_append_dropWhile, List.reverse_reverse]
    _ = significant digits ++ (digits.reverse.takeWhile (· == '0')).reverse := List.reverse_append
    _ = significant digits ++ List.replicate (digits.reverse.takeWhile (· == '0')).length '0' := by
        conv_lhs => rw [hzeros, List.reverse_replicate]

/-- A decimal is written as the layout of some digits, and has the value that their places give them. -/
structure LaysOut (p : Parts) (digits : Text) (lead : Int) : Prop where
  proper : p.Proper
  text : layout digits lead = p.text
  value : (digitsValue p.digits * 10 ^ p.scale : ℚ) = digitsValue digits * 10 ^ (lead - digits.length + 1)

theorem cast_mul_pow (n k : Nat) (e : Int) : ((n * 10 ^ k : Nat) : ℚ) * 10 ^ e = n * 10 ^ (e + k) := by
  rw [zpow_add₀ (by norm_num), zpow_natCast]
  push_cast
  ring

section
variable {digits : Text} {k : Nat}

/-- All digits stand behind the point, and zeros in front of them. -/
theorem laysOut_behind (h : digits ∈ Grammar.many1 Char.isDigit)
    (hlead : -4 ≤ Int.negSucc k ∧ Int.negSucc k < 16) :
    LaysOut ⟨['0'], some (List.replicate k '0' ++ digits), none⟩ digits (.negSucc k) where
  proper := ⟨⟨by simp, isDigit_zeros 1⟩, List.forall_mem_append.mpr ⟨isDigit_zeros k, h.2⟩, .inl rfl⟩
  text := by
    rw [layout.eq_def, if_pos hlead]
    simp [Parts.text, Parts.tail]
  value := by
    have hvalue : digitsValue (['0'] ++ (List.replicate k '0' ++ digits)) = digitsValue digits :=
      digitsValue_zeros_append (k + 1) digits
    have hscale : 0 - ((List.replicate k '0' ++ digits).length : Int) = Int.negSucc k - digits.length + 1 := by
      rw [List.length_append, List.length_replicate]
      omega
    simp only [Parts.digits, Parts.scale, Option.getD_some, Option.getD_none, hvalue, hscale]

/-- Digits stand on both sides of the point. -/
theorem laysOut_around (h : digits ∈ Grammar.many1 Char.isDigit) (hlead : -4 ≤ Int.ofNat k ∧ Int.ofNat k < 16)
    (hlong : k + 1 < digits.length) :
    LaysOut ⟨digits.take (k + 1), some (digits.drop (k + 1)), none⟩ digits (.ofNat k) where
  proper := ⟨⟨by simpa using h.1, fun c hc => h.2 c (List.mem_of_mem_take hc)⟩,
    fun c hc => h.2 c (List.mem_of_mem_drop hc), .inl rfl⟩
  text := by
    have hfraction : (digits.drop (k + 1)).isEmpty = false := by simpa using hlong
    have hwhole : k + 1 - (digits.take (k + 1)).length = 0 := by
      rw [List.length_take]
      omega
    rw [layout.eq_def, if_pos hlead]
    simp only [hwhole, hfraction, List.replicate_zero, List.append_nil, Bool.false_eq_true, if_false, Parts.text,
      Parts.tail, Option.elim_some, Option.elim_none]
  value := by
    have hscale : 0 - ((digits.drop (k + 1)).length : Int) = Int.ofNat k - digits.length + 1 := by
      rw [List.length_drop, Int.ofNat_eq_natCast]
      omega
    simp only [Parts.digits, Parts.scale, Option.getD_some, Option.getD_none, List.take_append_drop, hscale]

/-- All digits stand in front of the point, and zeros behind them. -/
theorem laysOut_before (h : digits ∈ Grammar.many1 Char.isDigit) (hlead : -4 ≤ Int.ofNat k ∧ Int.ofNat k < 16)
    (hshort : digits.length ≤ k + 1) :
    LaysOut ⟨digits ++ List.replicate (k + 1 - digits.length) '0', some ['0'], none⟩ digits (.ofNat k) where
  proper := ⟨⟨by simp [h.1], List.forall_mem_append.mpr ⟨h.2, isDigit_zeros _⟩⟩, isDigit_zeros 1,
    .inl rfl⟩
  text := by
    have htake : digits.take (k + 1) = digits := List.take_of_length_le hshort
    have hdrop : (digits.drop (k + 1)).isEmpty = true := by
      rw [List.drop_eq_nil_of_le hshort, List.isEmpty_nil]
    rw [layout.eq_def, if_pos hlead]
    simp only [htake, hdrop, if_true, Parts.text, Parts.tail, Option.elim_some, Option.elim_none, List.append_nil]
  value := by
    have hvalue : digitsValue (digits ++ List.replicate (k + 1 - digits.length) '0' ++ ['0']) =
        digitsValue digits * 10 ^ (k + 1 - digits.length + 1) := by
      rw [← digitsValue_append_zeros, List.append_assoc, List.replicate_succ']
    have hscale : 0 - (['0'].length : Int) + (k + 1 - digits.length + 1 : Nat) =
        Int.ofNat k - digits.length + 1 := by
      rw [List.length_singleton, Int.ofNat_eq_natCast]
      omega
    simp only [Parts.digits, Parts.scale, Option.getD_some, Option.getD_none, hvalue, cast_mul_pow, hscale]

/-- The first digit stands in front of the point, which is left out if nothing follows, and of a power of ten. -/
theorem laysOut_power {first : Char} {rest : Text} (h : first :: rest ∈ Grammar.many1 Char.isDigit) {lead : Int}
    (hlead : ¬ (-4 ≤ lead ∧ lead < 16)) :
    LaysOut ⟨[first], if rest.isEmpty then none else some rest, some lead⟩ (first :: rest) lead := by
  obtain ⟨hfirst, hrest⟩ := List.forall_mem_cons.mp h.2
  have hwhole : [first] ∈ Grammar.many1 Char.isDigit := ⟨by simp, List.forall_mem_singleton.mpr hfirst⟩
  have hscale : lead - (rest.length : Int) = lead - (first :: rest).length + 1 := by
    rw [List.length_cons]
    omega
  cases rest with
  | nil =>
    refine ⟨⟨hwhole, hrest, .inr rfl⟩, ?_, ?_⟩
    · rw [layout.eq_def, if_neg hlead]
      rfl
    · simp only [Parts.digits, Parts.scale, ← hscale]
      rfl
  | cons second rest =>
    refine ⟨⟨hwhole, hrest, .inl rfl⟩, ?_, ?_⟩
    · rw [layout.eq_def, if_neg hlead]
      rfl
    · simp only [Parts.digits, Parts.scale, ← hscale]
      rfl

/-- **A layout is a decimal of the same value.** -/
theorem exists_laysOut (h : digits ∈ Grammar.many1 Char.isDigit) (lead : Int) :
    ∃ p : Parts, LaysOut p digits lead := by
  by_cases hplain : -4 ≤ lead ∧ lead < 16
  · cases lead with
    | negSucc k => exact ⟨_, laysOut_behind h hplain⟩
    | ofNat k =>
      rcases Nat.lt_or_ge (k + 1) digits.length with hlong | hshort
      · exact ⟨_, laysOut_around h hplain hlong⟩
      · exact ⟨_, laysOut_before h hplain hshort⟩
  · cases digits with
    | nil => exact absurd rfl h.1
    | cons first rest => exact ⟨_, laysOut_power h hplain⟩

end

/-- **A number of the format is written as a decimal that reads back as the number.** -/
theorem exists_magnitudeText_eq {m : Nat} {e : Int} (h : Fits m e) :
    ∃ p : Parts, p.Proper ∧ magnitudeText m e = p.text ∧
      ofDecimal false (digitsValue p.digits) p.scale = finite false m e := by
  rcases eq_or_ne m 0 with rfl | hm
  · have hmin : e = minExponent := h.normal.resolve_left (by decide)
    exact ⟨⟨['0'], some ['0'], none⟩, ⟨⟨by simp, isDigit_zeros 1⟩, isDigit_zeros 1, .inl rfl⟩, rfl,
      hmin ▸ ofDecimal_zero false _⟩
  · obtain ⟨k, hk⟩ := eq_significant_append (Nat.toDigits 10 (shortest m e).digits)
    have hlength : (Nat.toDigits 10 (shortest m e).digits).length =
        (significant (Nat.toDigits 10 (shortest m e).digits)).length + k := by
      conv_lhs => rw [hk, List.length_append, List.length_replicate]
    have hvalue : (shortest m e).digits =
        digitsValue (significant (Nat.toDigits 10 (shortest m e).digits)) * 10 ^ k := by
      rw [← digitsValue_append_zeros, ← hk, digitsValue_toDigits]
    have hdigits : significant (Nat.toDigits 10 (shortest m e).digits) ∈ Grammar.many1 Char.isDigit := by
      refine ⟨fun hnil => shortest_ne_zero h hm ?_, fun c hc => isDigit_toDigits (shortest m e).digits c ?_⟩
      · rw [hvalue, hnil]
        exact Nat.zero_mul _
      · rw [hk]
        exact List.mem_append_left _ hc
    obtain ⟨p, hproper, htext, hsame⟩ := exists_laysOut hdigits
      ((shortest m e).exponent + (Nat.toDigits 10 (shortest m e).digits).length - 1)
    refine ⟨p, hproper, ?_, ?_⟩
    · rw [magnitudeText, if_neg hm, htext]
    · -- The zeros that are not written come back with the exponent.
      have hscale : (shortest m e).exponent + (Nat.toDigits 10 (shortest m e).digits).length - 1 -
          (significant (Nat.toDigits 10 (shortest m e).digits)).length + 1 = (shortest m e).exponent + k := by
        rw [hlength]
        push_cast
        ring
      rw [hscale, ← cast_mul_pow, ← hvalue] at hsame
      rw [ofDecimal_congr hsame, shortest_readsBack h hm]

theorem toText_finite (negative : Bool) (m : Nat) (e : Int) :
    (finite negative m e).toText = signed negative (magnitudeText m e) := by
  cases negative <;> rfl

/-- What is written for a number of the format is not read as an integer, but as the number. -/
theorem readsBack_toText {x : Binary64} (h : x.WellFormed) : int? x.toText = none ∧ float? x.toText = some x := by
  cases x with
  | nan => exact ⟨by decide, by decide⟩
  | infinite negative => cases negative <;> exact ⟨by decide, by decide⟩
  | finite negative m e =>
    obtain ⟨p, hproper, htext, hread⟩ := exists_magnitudeText_eq h
    rw [toText_finite, htext]
    refine ⟨hproper.int?_text negative, ?_⟩
    rw [hproper.float?_text]
    cases negative with
    | false => rw [hread]
    | true => rw [← Bool.not_false, ofDecimal_neg, hread, neg]

end Binary64

namespace Numeral

/-- What is read is a number of the format. -/
theorem wellFormed_of_float? {t : Text} {x : Binary64} (h : float? t = some x) : x.WellFormed := by
  have hunsigned {negative : Bool} {u : Text} (hu : unsignedFloat? negative u = some x) : x.WellFormed := by
    simp only [unsignedFloat?] at hu
    split at hu
    all_goals
      split at hu
      · cases hu
      · obtain ⟨e, -, rfl⟩ := Option.map_eq_some_iff.mp hu
        exact Binary64.wellFormed_ofDecimal _ _ _
  rw [float?] at h
  split at h
  · cases h
  · simp only at h
    split at h
    · cases h
      trivial
    · split at h
      · cases h
        trivial
      · exact hunsigned h

end Numeral

/-! ## Words of the command line -/

namespace Value

/-- What a word denotes is in the range of what is written for numbers, or it is the word itself. -/
theorem ofArgument_cases (s : String) :
    (∃ n, ofArgument s = .int n ∧ Binary64.digitCount n.natAbs ≤ Numeral.maxDigits) ∨
    (∃ x, ofArgument s = .float x ∧ x.WellFormed) ∨ (∃ b, ofArgument s = .bool b) ∨
    ofArgument s = .text s := by
  rw [ofArgument]
  cases hint : Numeral.int? s.toList with
  | some n => exact .inl ⟨n, rfl, Numeral.digitCount_of_int? hint⟩
  | none =>
    cases hfloat : Numeral.float? s.toList with
    | some x => exact .inr (.inl ⟨x, rfl, Numeral.wellFormed_of_float? hfloat⟩)
    | none =>
      cases truthWord? s.toList with
      | some b => exact .inr (.inr (.inl ⟨b, rfl⟩))
      | none => exact .inr (.inr (.inr rfl))

theorem ofArgument_decimal {n : Int} (h : Binary64.digitCount n.natAbs ≤ Numeral.maxDigits) :
    ofArgument (decimal n) = .int n := by
  rw [ofArgument, Numeral.int?_decimal h]

theorem ofArgument_toText {x : Binary64} (h : x.WellFormed) : ofArgument (String.ofList x.toText) = .float x := by
  obtain ⟨hint, hfloat⟩ := Binary64.readsBack_toText h
  rw [ofArgument, String.toList_ofList, hint, hfloat]

theorem ofArgument_truth (b : Bool) : ofArgument (if b then "true" else "false") = .bool b := by
  cases b <;> rfl

theorem intText_eq {n : Int} (h : Binary64.digitCount n.natAbs ≤ Numeral.maxDigits) : intText n = .ok (decimal n) :=
  if_neg (Nat.not_lt.mpr h)

/-- **What a word denotes can be rendered, and the text denotes the same.** -/
theorem exists_render_ofArgument (s : String) :
    ∃ t, (ofArgument s).render = .ok t ∧ ofArgument t = ofArgument s ∧ (ofArgument s = .text s → t = s) := by
  rcases ofArgument_cases s with ⟨n, hn, hlength⟩ | ⟨x, hx, hformed⟩ | ⟨b, hb⟩ | hs
  · rw [hn]
    exact ⟨decimal n, by rw [render, intText_eq hlength], ofArgument_decimal hlength, by simp⟩
  · rw [hx]
    exact ⟨String.ofList x.toText, rfl, ofArgument_toText hformed, by simp⟩
  · rw [hb]
    exact ⟨_, rfl, ofArgument_truth b, by simp⟩
  · exact ⟨s, by rw [hs, render], rfl, fun _ => rfl⟩

end Value

/-- **Words of the command line have a normal form.**  An integer that is not too long is written as a word that
denotes it, and so is a truth value.  What any word denotes can be rendered as a text that denotes the same, so that
rendering what this text denotes gives it again; a word that is neither a number nor a truth value is left as it
is. -/
theorem arguments_have_normal_form :
    (∀ n : Int, Binary64.digitCount n.natAbs ≤ Numeral.maxDigits →
      Value.intText n = .ok (decimal n) ∧ Value.ofArgument (decimal n) = .int n) ∧
    (∀ b : Bool, ∃ t, (Value.bool b).render = .ok t ∧ Value.ofArgument t = .bool b) ∧
    ∀ s : String, ∃ t, (Value.ofArgument s).render = .ok t ∧ (Value.ofArgument t).render = .ok t ∧
      Value.ofArgument t = Value.ofArgument s ∧ ∀ u, Value.ofArgument s = .text u → u = s ∧ t = s := by
  refine ⟨fun n h => ⟨Value.intText_eq h, Value.ofArgument_decimal h⟩,
    fun b => ⟨_, rfl, Value.ofArgument_truth b⟩, fun s => ?_⟩
  obtain ⟨t, hrender, hsame, htext⟩ := Value.exists_render_ofArgument s
  refine ⟨t, hrender, by rw [hsame, hrender], hsame, fun u hu => ?_⟩
  rcases Value.ofArgument_cases s with ⟨n, hn, -⟩ | ⟨x, hx, -⟩ | ⟨b, hb⟩ | hs
  · cases hu.symm.trans hn
  · cases hu.symm.trans hx
  · cases hu.symm.trans hb
  · cases hu.symm.trans hs
    exact ⟨rfl, htext hs⟩

/-- Signs, underscores and blanks do not stand in the normal form of an integer. -/
theorem arguments_have_normal_form_ten :
    Value.ofArgument " +1_0 " = .int 10 ∧ Value.ofArgument "10" = .int 10 ∧
    ∃ t, (Value.ofArgument " +1_0 ").render = .ok t ∧ (Value.ofArgument t).render = .ok t ∧ t = "10" := by
  have hword : Value.ofArgument " +1_0 " = .int 10 := rfl
  have hten : Binary64.digitCount (10 : Int).natAbs ≤ Numeral.maxDigits := by decide
  obtain ⟨hintegers, -, hwords⟩ := arguments_have_normal_form
  obtain ⟨htext, hdenotes⟩ := hintegers 10 hten
  obtain ⟨t, hrender, hagain, -⟩ := hwords " +1_0 "
  refine ⟨hword, hdenotes, t, hrender, hagain, ?_⟩
  rw [hword, Value.render, htext] at hrender
  injection hrender with h
  exact h.symm

end ShaderFlatten
