import Mathlib.Computability.Language
import ShaderFlatten.Proofs.Nameable

/-!
# The grammar of directives

The texts that the directive grammar admits, as languages, beside the rules that look for them:

    Grammar.unit         underscores* word
    Grammar.name         unit, one to sixteen times
    Grammar.segment      (dots "/")? underscores* word "/"?
    Grammar.importPath   "/"? segment, up to sixteen times, word? ".wgsl"

A rule takes as much as it can and never goes back on it, while a text may be cut into units in several
ways: `ab` is one unit or two.  Taking all of a word at once needs the fewest units, so nothing is lost by
it:

    t ∈ unit ^ k → k ≤ n → t <+: s → t <+: Rule.nameUnits n s                       (prefix_nameUnits)

Every rule is then described by where it cuts the text ahead of it, and a line parser by how it cuts a line.
-/

namespace ShaderFlatten

/-! ## Languages -/

namespace Grammar

/-- Any number of characters that pass a test. -/
def many (p : Char → Bool) : Language Char := {t | ∀ c ∈ t, p c = true}

/-- At least one character, and all of them pass a test. -/
def many1 (p : Char → Bool) : Language Char := {t | t ≠ [] ∧ ∀ c ∈ t, p c = true}

/-- A text that may be missing. -/
def optional (l : Language Char) : Language Char := 1 + l

/-- So many texts in a row, at least `low` and at most `high`. -/
def repeated (low high : Nat) (l : Language Char) : Language Char :=
  {t | ∃ n, low ≤ n ∧ n ≤ high ∧ t ∈ l ^ n}

/-- Underscores and a word. -/
def unit : Language Char := many (· == '_') * many1 Text.isWord

/-- The names of conditions and constants. -/
def name : Language Char := repeated 1 16 unit

/-- One step of a path. -/
def segment : Language Char :=
  optional (many1 (· == '.') * {['/']}) * many (· == '_') * many1 Text.isWord * optional {['/']}

/-- The paths that an import may name. -/
def importPath : Language Char :=
  optional {['/']} * repeated 0 16 segment * many Text.isWord * {['.', 'w', 'g', 's', 'l']}

theorem nil_mem_many {p : Char → Bool} : [] ∈ many p := fun _ hc => absurd hc List.not_mem_nil

theorem mem_many_of_not_mem {x : Char} {t : Text} (h : x ∉ t) : t ∈ many (· != x) := by
  intro c hc
  rw [bne_iff_ne]
  rintro rfl
  exact h hc

theorem mem_pow_succ {l : Language Char} {n : Nat} {t : Text} :
    t ∈ l ^ (n + 1) ↔ ∃ a ∈ l, ∃ b ∈ l ^ n, a ++ b = t := by
  rw [pow_succ', Language.mem_mul]

theorem mem_unit_pow_succ {k : Nat} {t : Text} :
    t ∈ unit ^ (k + 1) ↔ ∃ u ∈ many (· == '_'), ∃ w ∈ many1 Text.isWord, ∃ rest ∈ unit ^ k,
      t = u ++ (w ++ rest) := by
  rw [mem_pow_succ]
  constructor
  · rintro ⟨a, ha, rest, hrest, rfl⟩
    obtain ⟨u, hu, w, hw, rfl⟩ := Language.mem_mul.mp ha
    exact ⟨u, hu, w, hw, rest, hrest, List.append_assoc u w rest⟩
  · rintro ⟨u, hu, w, hw, rest, hrest, rfl⟩
    exact ⟨u ++ w, Language.append_mem_mul hu hw, rest, hrest, List.append_assoc u w rest⟩

/-- A name holds letters, digits and underscores. -/
theorem isNameChar_of_mem_name {t : Text} (h : t ∈ name) : ∀ c ∈ t, Line.isNameChar c = true := by
  obtain ⟨k, -, -, ht⟩ := h
  induction k generalizing t with
  | zero =>
    rw [pow_zero, Language.mem_one] at ht
    simp [ht]
  | succ k ih =>
    obtain ⟨u, hu, w, hw, rest, hrest, rfl⟩ := mem_unit_pow_succ.mp ht
    intro c hc
    simp only [List.mem_append] at hc
    rcases hc with hc | hc | hc
    · simp [Line.isNameChar, hu c hc]
    · simp [Line.isNameChar, hw.2 c hc]
    · exact ih hrest c hc

theorem ne_nil_of_mem_name {t : Text} (h : t ∈ name) : t ≠ [] := by
  obtain ⟨k, hlow, -, ht⟩ := h
  obtain ⟨k, rfl⟩ := Nat.exists_eq_add_of_le' hlow
  obtain ⟨u, -, w, hw, rest, -, rfl⟩ := mem_unit_pow_succ.mp ht
  simp [hw.1]

end Grammar

/-! ## Runs of characters -/

/-- No character of a class comes first in a text. -/
def Stops (p : Char → Bool) (s : Text) : Prop := ∀ c ∈ s.head?, p c = false

section
variable {p q : Char → Bool} {a b t : Text} {c x : Char}

@[simp] theorem stops_nil : Stops p [] := by simp [Stops]

@[simp] theorem stops_cons : Stops p (c :: b) ↔ p c = false := by simp [Stops]

/-- A run of another class comes first. -/
theorem stops_many1 (hpq : ∀ c, p c = true → q c = false) (ha : a ∈ Grammar.many1 p) (b : Text) :
    Stops q (a ++ b) := by
  obtain ⟨hne, hall⟩ := ha
  cases a with
  | nil => exact absurd rfl hne
  | cons c a => exact stops_cons.mpr (hpq c (hall c List.mem_cons_self))

theorem stops_append (hpq : ∀ c, p c = true → q c = false) (ha : a ∈ Grammar.many p) (hb : Stops q b) :
    Stops q (a ++ b) := by
  by_cases hne : a = []
  · rwa [hne]
  · exact stops_many1 hpq ⟨hne, ha⟩ b

theorem isWord_ne (hx : Text.isWord x = false) (c : Char) (hc : Text.isWord c = true) :
    (c == x) = false := by
  rw [beq_eq_false_iff_ne]
  rintro rfl
  rw [hc] at hx
  cases hx

/-- The run of a class of characters in front of a text. -/
theorem exists_run (p : Char → Bool) (s : Text) : ∃ a ∈ Grammar.many p, ∃ b, Stops p b ∧ s = a ++ b := by
  refine ⟨s.takeWhile p, fun _ => List.mem_takeWhile_imp, s.dropWhile p, fun c hc => ?_,
    List.takeWhile_append_dropWhile.symm⟩
  have hfirst := List.head?_dropWhile_not p s
  rwa [Option.mem_def.mp hc] at hfirst

theorem takeWhile_append_stops (ha : a ∈ Grammar.many p) (hb : Stops p b) : (a ++ b).takeWhile p = a := by
  rw [List.takeWhile_append_of_pos ha]
  cases b with
  | nil => simp
  | cons c b => simp [stops_cons.mp hb]

theorem dropWhile_append_stops (ha : a ∈ Grammar.many p) (hb : Stops p b) : (a ++ b).dropWhile p = b := by
  rw [List.dropWhile_append_of_pos ha]
  cases b with
  | nil => rfl
  | cons c b => simp [stops_cons.mp hb]

theorem takeWhile_stops (hb : Stops p b) : b.takeWhile p = [] :=
  takeWhile_append_stops Grammar.nil_mem_many hb

/-- A run of characters in front of a text that does not go on with them ends before that text. -/
theorem prefix_of_stops (ht : t ∈ Grammar.many p) (hb : Stops p b) (h : t <+: a ++ b) : t <+: a := by
  obtain ⟨z, hz⟩ := h
  rcases List.append_eq_append_iff.mp hz with ⟨rest, rfl, -⟩ | ⟨excess, rfl, rfl⟩
  · exact ⟨rest, rfl⟩
  · cases excess with
    | nil => simp
    | cons c excess =>
      have hc : p c = true := ht c (by simp)
      rw [stops_cons.mp hb] at hc
      cases hc

end

/-! ## Names -/

namespace Rule

open Grammar

section
variable {n k : Nat} {s t u w r : Text}

/-- A unit in front of a text that does not go on with its word. -/
theorem nameUnits_unit (hu : u ∈ many (· == '_')) (hw : w ∈ many1 Text.isWord) (hr : Stops Text.isWord r) :
    nameUnits (n + 1) (u ++ (w ++ r)) = u ++ (w ++ nameUnits n r) := by
  have hstop := stops_many1 (isWord_ne (x := '_') rfl) hw r
  simp only [nameUnits, takeWhile_append_stops hu hstop, dropWhile_append_stops hu hstop,
    takeWhile_append_stops hw.2 hr, dropWhile_append_stops hw.2 hr, List.isEmpty_iff, hw.1, if_false,
    List.append_assoc]

/-- Underscores without a word are no unit. -/
theorem nameUnits_none (hu : u ∈ many (· == '_')) (hr : Stops (· == '_') r) (hword : Stops Text.isWord r) :
    nameUnits n (u ++ r) = [] := by
  cases n with
  | zero => rfl
  | succ n =>
    simp only [nameUnits, dropWhile_append_stops hu hr, takeWhile_stops hword, List.isEmpty_nil, if_true]

/-- What the rule for names takes is made of units. -/
theorem nameUnits_units (n : Nat) (s : Text) :
    nameUnits n s <+: s ∧ ∃ k ≤ n, nameUnits n s ∈ unit ^ k := by
  induction n generalizing s with
  | zero => exact ⟨List.nil_prefix, 0, le_rfl, rfl⟩
  | succ n ih =>
    obtain ⟨u, hu, r, hr, rfl⟩ := exists_run (· == '_') s
    obtain ⟨w, hw, r, hstop, rfl⟩ := exists_run Text.isWord r
    by_cases hempty : w = []
    · subst hempty
      rw [List.nil_append] at hr ⊢
      rw [nameUnits_none hu hr hstop]
      exact ⟨List.nil_prefix, 0, Nat.zero_le _, rfl⟩
    · obtain ⟨hfront, k, hk, hunits⟩ := ih r
      rw [nameUnits_unit hu ⟨hempty, hw⟩ hstop, List.prefix_append_right_inj,
        List.prefix_append_right_inj]
      exact ⟨hfront, k + 1, Nat.succ_le_succ hk,
        mem_unit_pow_succ.mpr ⟨u, hu, w, ⟨hempty, hw⟩, _, hunits, rfl⟩⟩

/-- **Nothing longer than what the rule takes** is made of so many units.  The induction is on the number of
units.  Where the word of the first unit goes on, the rule takes all of it at once, as it would take the rest of
that word from the second unit on. -/
theorem prefix_nameUnits (ht : t ∈ unit ^ k) (hk : k ≤ n) (h : t <+: s) : t <+: nameUnits n s := by
  induction k generalizing n t s with
  | zero =>
    rw [pow_zero, Language.mem_one] at ht
    simp [ht]
  | succ k ih =>
    obtain ⟨u, hu, w, hw, t, ht, rfl⟩ := mem_unit_pow_succ.mp ht
    obtain ⟨z, rfl⟩ := h
    obtain ⟨n, rfl⟩ := Nat.exists_eq_add_of_le' (Nat.zero_lt_of_lt hk)
    obtain ⟨w₂, hw₂, r, hr, hsplit⟩ := exists_run Text.isWord (t ++ z)
    have hword : w ++ w₂ ∈ many1 Text.isWord := by
      refine ⟨by simp [hw.1], fun c hc => ?_⟩
      exact (List.mem_append.mp hc).elim (hw.2 c) (hw₂ c)
    have hahead : u ++ (w ++ t) ++ z = u ++ ((w ++ w₂) ++ r) := by
      rw [List.append_assoc, List.append_assoc, hsplit, List.append_assoc]
    rw [hahead, nameUnits_unit hu hword hr, List.append_assoc, List.prefix_append_right_inj,
      List.prefix_append_right_inj]
    have hfront : t <+: w₂ ++ r := hsplit ▸ List.prefix_append t z
    by_cases hempty : w₂ = []
    · subst hempty
      exact ih ‹_› (Nat.le_of_succ_le_succ hk) hfront
    · have hrest := ih (n := n + 1) ‹_› (Nat.le_of_succ_le hk) hfront
      rwa [show w₂ ++ r = [] ++ (w₂ ++ r) from rfl,
        nameUnits_unit nil_mem_many ⟨hempty, hw₂⟩ hr] at hrest

end

end Rule

/-- A name in front of a text such that no longer one stands there. -/
structure LongestName (found s : Text) : Prop where
  name : found ∈ Grammar.name
  front : found <+: s
  longest : ∀ t ∈ Grammar.name, t <+: s → t.length ≤ found.length

namespace Rule

open Grammar

theorem nameUnits_ne_nil {t s : Text} (ht : t ∈ name) (hfront : t <+: s) : nameUnits maxRepeat s ≠ [] := by
  obtain ⟨k, -, hk, hunits⟩ := id ht
  have htaken : t <+: nameUnits maxRepeat s := prefix_nameUnits hunits hk hfront
  intro hnone
  rw [hnone, List.prefix_nil] at htaken
  exact ne_nil_of_mem_name ht htaken

theorem longestName_nameUnits {s : Text} (h : nameUnits maxRepeat s ≠ []) :
    LongestName (nameUnits maxRepeat s) s where
  name := by
    obtain ⟨-, k, hk, hunits⟩ := nameUnits_units maxRepeat s
    refine ⟨k, Nat.pos_of_ne_zero ?_, hk, hunits⟩
    rintro rfl
    rw [pow_zero, Language.mem_one] at hunits
    exact h hunits
  front := (nameUnits_units maxRepeat s).1
  longest := by
    rintro t ⟨k, -, hk, hunits⟩ hfront
    exact (prefix_nameUnits hunits hk hfront).length_le

/-- The longest name in front of a text is what the rule takes. -/
theorem nameUnits_of_longest {t s : Text} (h : LongestName t s) : nameUnits maxRepeat s = t := by
  obtain ⟨k, -, hk, hunits⟩ := id h.name
  have htaken := longestName_nameUnits (nameUnits_ne_nil h.name h.front)
  have hfront : t <+: nameUnits maxRepeat s := prefix_nameUnits hunits hk h.front
  exact (hfront.eq_of_length_le (h.longest _ htaken.name htaken.front)).symm

/-- **The rule for names finds the longest one.** -/
theorem identifier_eq_ok {line found : Text} {offset stop : Nat} :
    identifier line offset = .ok (found, stop) ↔
      LongestName found (line.drop offset) ∧ stop = offset + found.length := by
  simp only [identifier, List.isEmpty_iff]
  constructor
  · intro h
    split at h
    · cases h
    · next hne =>
      cases h
      exact ⟨longestName_nameUnits hne, rfl⟩
  · rintro ⟨hlongest, rfl⟩
    rw [if_neg (nameUnits_ne_nil hlongest.name hlongest.front), nameUnits_of_longest hlongest]

theorem identifier_eq_ok_of_mem {line t : Text} {offset : Nat} (ht : t ∈ name)
    (hfront : t <+: line.drop offset) : ∃ result, identifier line offset = .ok result :=
  ⟨_, identifier_eq_ok.mpr ⟨longestName_nameUnits (nameUnits_ne_nil ht hfront), rfl⟩⟩

/-! ## Rules in the middle of a line -/

section
variable {a b t : Text} {r : Text × Nat}

theorem literal_at : literal t (a ++ b) a.length = .ok r ↔ ∃ c, b = t ++ c ∧ r = (t, (a ++ t).length) := by
  rw [literal, List.drop_left, ← List.length_append]
  constructor
  · intro h
    split at h
    · next hfound =>
      obtain ⟨c, rfl⟩ := List.isPrefixOf_iff_prefix.mp hfound.2
      cases h
      exact ⟨c, rfl, rfl⟩
    · cases h
  · rintro ⟨c, rfl, rfl⟩
    have hwithin : a.length ≤ (a ++ (t ++ c)).length := by simp
    exact if_pos ⟨hwithin, List.isPrefixOf_iff_prefix.mpr (List.prefix_append t c)⟩

theorem literal_append (a t c : Text) : literal t (a ++ (t ++ c)) a.length = .ok (t, (a ++ t).length) :=
  literal_at.mpr ⟨c, rfl, rfl⟩

theorem gap_at : gap (a ++ b) a.length = .ok r ↔
    ∃ h ∈ many1 Text.isHorizontal, ∃ c, Stops Text.isHorizontal c ∧ b = h ++ c ∧
      r = (h, (a ++ h).length) := by
  obtain ⟨h, hh, c, hc, rfl⟩ := exists_run Text.isHorizontal b
  simp only [gap, List.drop_left, takeWhile_append_stops hh hc, List.isEmpty_iff]
  constructor
  · intro hgap
    split at hgap
    · cases hgap
    · next hne =>
      cases hgap
      exact ⟨h, ⟨hne, hh⟩, c, hc, rfl, by simp⟩
  · rintro ⟨h', hh', c', hc', hsame, rfl⟩
    have heq : h = h' := by
      rw [← takeWhile_append_stops hh hc, hsame, takeWhile_append_stops hh'.2 hc']
    rw [heq, if_neg hh'.1, List.length_append]

theorem identifier_at : identifier (a ++ b) a.length = .ok r ↔
    ∃ n c, LongestName n b ∧ b = n ++ c ∧ r = (n, (a ++ n).length) := by
  obtain ⟨n, stop⟩ := r
  rw [identifier_eq_ok, List.drop_left]
  constructor
  · rintro ⟨hlongest, rfl⟩
    obtain ⟨c, hc⟩ := hlongest.front
    exact ⟨n, c, hlongest, hc.symm, by simp⟩
  · rintro ⟨n', c, hlongest, -, heq⟩
    cases heq
    exact ⟨hlongest, List.length_append⟩

theorem endOfLine_at : endOfLine (a ++ b) a.length = .ok r ↔
    b ∈ many Text.isBlank ∧ r = (b, (a ++ b).length) := by
  rw [endOfLine, List.drop_left]
  constructor
  · intro h
    split at h
    · next hblank =>
      cases h
      exact ⟨List.all_eq_true.mp hblank, rfl⟩
    · cases h
  · rintro ⟨hblank, rfl⟩
    exact if_pos (List.all_eq_true.mpr hblank)

end

end Rule

/-! ## Lines -/

namespace Line

open Grammar Rule

section
variable {h h₁ h₂ b n w line : Text}

theorem indent_append (hh : h ∈ many Text.isHorizontal) (hb : Stops Text.isHorizontal b) :
    indent (h ++ b) = h.length := by
  rw [indent, takeWhile_append_stops hh hb]

theorem isNameChar_of_isHorizontal {c : Char} (h : Text.isHorizontal c = true) : isNameChar c = false := by
  simp only [Text.isHorizontal, Bool.or_eq_true, beq_iff_eq] at h
  rcases h with rfl | rfl <;> decide

/-- The characters of a word by their numbers. -/
theorem isWord_iff {c : Char} : Text.isWord c = true ↔
    (65 ≤ c.toNat ∧ c.toNat ≤ 90 ∨ 97 ≤ c.toNat ∧ c.toNat ≤ 122) ∨ 48 ≤ c.toNat ∧ c.toNat ≤ 57 := by
  have hword : Text.isWord c = ((decide (c.val ≥ 65 ∧ c.val ≤ 90) ||
      (decide (c.val ≥ 97) && decide (c.val ≤ 122))) || (decide (c.val ≥ 48) && decide (c.val ≤ 57))) := rfl
  simp only [hword, Bool.or_eq_true, Bool.and_eq_true, decide_eq_true_eq]
  rfl

theorem isNameChar_of_isBlank {c : Char} (h : Text.isBlank c = true) : isNameChar c = false := by
  rw [Bool.eq_false_iff]
  intro hname
  simp only [Text.isBlank, Bool.or_eq_true, Bool.and_eq_true, decide_eq_true_eq, beq_iff_eq] at h
  simp only [isNameChar, Bool.or_eq_true, beq_iff_eq] at hname
  rcases hname with hword | rfl
  · have hrange := isWord_iff.mp hword
    omega
  · exact absurd h (by decide)

/-- A name that a text ends behind, but for blanks, is the longest one. -/
theorem longestName_append (hn : n ∈ name) (hb : Stops isNameChar b) : LongestName n (n ++ b) where
  name := hn
  front := List.prefix_append n b
  longest := fun _ ht hfront => (prefix_of_stops (isNameChar_of_mem_name ht) hb hfront).length_le

theorem stops_of_blank (hw : w ∈ many Text.isBlank) : Stops isNameChar w :=
  fun c hc => isNameChar_of_isBlank (hw c (List.mem_of_mem_head? hc))

/-- A name does not start with a space or a tab. -/
theorem stops_of_name (hn : n ∈ name) (b : Text) : Stops Text.isHorizontal (n ++ b) := by
  refine stops_many1 (p := isNameChar) (fun c hc => ?_) ⟨ne_nil_of_mem_name hn, isNameChar_of_mem_name hn⟩ b
  rw [Bool.eq_false_iff]
  intro hblank
  rw [isNameChar_of_isHorizontal hblank] at hc
  cases hc

/-- **The lines that open a block.** -/
theorem condition?_eq_ok : condition? line = .ok n ↔
    ∃ h₁ ∈ many Text.isHorizontal, ∃ h₂ ∈ many1 Text.isHorizontal, ∃ w ∈ many Text.isBlank,
      n ∈ name ∧ line = h₁ ++ "#if".toList ++ h₂ ++ n ++ w := by
  have hmark : "#if".toList = ifMark := rfl
  have hstop (b : Text) : Stops Text.isHorizontal (ifMark ++ b) := stops_cons.mpr rfl
  simp only [condition?, bind_eq_ok, pure_eq_ok, Prod.exists, hmark]
  constructor
  · rintro ⟨_, o₁, hliteral, h₂, o₂, hgap, found, o₃, hname, _, o₄, hend, rfl⟩
    obtain ⟨h₁, hh₁, b, hb, rfl⟩ := exists_run Text.isHorizontal line
    rw [indent_append hh₁ hb] at hliteral
    obtain ⟨b, rfl, hr⟩ := literal_at.mp hliteral
    cases hr
    rw [← List.append_assoc] at hgap hname hend ⊢
    obtain ⟨_, hh₂, b, -, rfl, hr⟩ := gap_at.mp hgap
    cases hr
    rw [← List.append_assoc] at hname hend ⊢
    obtain ⟨_, w, hlongest, rfl, hr⟩ := identifier_at.mp hname
    cases hr
    rw [← List.append_assoc] at hend ⊢
    exact ⟨h₁, hh₁, h₂, hh₂, w, (endOfLine_at.mp hend).1, hlongest.name, rfl⟩
  · rintro ⟨h₁, hh₁, h₂, hh₂, w, hw, hn, rfl⟩
    have hindent := indent_append hh₁ (hstop (h₂ ++ (n ++ w)))
    have hliteral := literal_append h₁ ifMark (h₂ ++ (n ++ w))
    have hgap := (gap_at (a := h₁ ++ ifMark)).mpr ⟨h₂, hh₂, n ++ w, stops_of_name hn w, rfl, rfl⟩
    have hname := (identifier_at (a := h₁ ++ ifMark ++ h₂)).mpr
      ⟨n, w, longestName_append hn (stops_of_blank hw), rfl, rfl⟩
    have hend := (endOfLine_at (a := h₁ ++ ifMark ++ h₂ ++ n)).mpr ⟨hw, rfl⟩
    simp only [List.append_assoc] at hgap hname hend ⊢
    rw [hindent]
    exact ⟨_, _, hliteral, _, _, hgap, _, _, hname, _, _, hend, rfl⟩

theorem placeholder?_none (h : '#' ∉ line) : placeholder? line = .ok none := by
  have hstart : line.takeWhile (· != '#') = line :=
    List.takeWhile_eq_self_iff.mpr (mem_many_of_not_mem h)
  rw [placeholder?, hstart]
  exact if_pos rfl

theorem placeholder?_hash {a : Text} (ha : '#' ∉ a) (b : Text) :
    placeholder? (a ++ '#' :: b) = do
      let (_, offset) ← literal ['#', '('] (a ++ '#' :: b) a.length
      let (name, offset) ← identifier (a ++ '#' :: b) offset
      let (_, stop) ← literal [')'] (a ++ '#' :: b) offset
      return some ⟨name, a.length, stop⟩ := by
  have hstart : (a ++ '#' :: b).takeWhile (· != '#') = a :=
    takeWhile_append_stops (mem_many_of_not_mem ha) (stops_cons.mpr rfl)
  have hmore : a.length ≠ (a ++ '#' :: b).length := by simp
  rw [placeholder?, hstart]
  exact if_neg hmore

/-- **The references in content lines.** -/
theorem placeholder?_eq_ok {found : Placeholder} : placeholder? line = .ok (some found) ↔
    ∃ a b, '#' ∉ a ∧ found.name ∈ name ∧ line = a ++ "#(".toList ++ found.name ++ ")".toList ++ b ∧
      found.start = a.length ∧ found.stop = (a ++ "#(".toList ++ found.name ++ ")".toList).length := by
  have hopen : "#(".toList = ['#', '('] := rfl
  have hclose : ")".toList = [')'] := rfl
  rw [hopen, hclose]
  constructor
  · intro h
    by_cases hmem : '#' ∈ line
    · obtain ⟨a, rest, rfl, ha⟩ := List.eq_append_cons_of_mem hmem
      rw [placeholder?_hash ha] at h
      simp only [bind_eq_ok, pure_eq_ok, Prod.exists] at h
      obtain ⟨_, o₁, hliteral, n, o₂, hname, _, stop, hend, hfound⟩ := h
      obtain ⟨rest, hrest, hr⟩ := literal_at.mp hliteral
      cases hr
      rw [hrest, ← List.append_assoc] at hname hend ⊢
      obtain ⟨_, rest, hlongest, rfl, hr⟩ := identifier_at.mp hname
      cases hr
      rw [← List.append_assoc] at hend ⊢
      obtain ⟨b, rfl, hr⟩ := literal_at.mp hend
      cases hr
      cases hfound
      exact ⟨a, b, ha, hlongest.name, (List.append_assoc _ _ _).symm, rfl, rfl⟩
    · rw [placeholder?_none hmem] at h
      cases h
  · rintro ⟨a, b, ha, hn, rfl, hstart, hstop⟩
    have hstopped : Stops isNameChar ([')'] ++ b) := stops_cons.mpr (by decide)
    have hliteral := literal_append a ['#', '('] (found.name ++ ([')'] ++ b))
    have hname := (identifier_at (a := a ++ ['#', '('])).mpr
      ⟨found.name, [')'] ++ b, longestName_append hn hstopped, rfl, rfl⟩
    have hend := literal_append (a ++ ['#', '('] ++ found.name) [')'] b
    simp only [List.append_assoc] at hname hend hstop ⊢
    rw [show a ++ (['#', '('] ++ (found.name ++ ([')'] ++ b))) =
      a ++ '#' :: ('(' :: (found.name ++ ([')'] ++ b))) from rfl, placeholder?_hash ha]
    simp only [bind_eq_ok, pure_eq_ok, Prod.exists]
    refine ⟨_, _, hliteral, _, _, hname, _, _, hend, ?_⟩
    rw [← hstart, ← hstop]

theorem placeholder?_eq_none : placeholder? line = .ok none ↔ '#' ∉ line := by
  constructor
  · intro h hmem
    obtain ⟨a, b, rfl, ha⟩ := List.eq_append_cons_of_mem hmem
    rw [placeholder?_hash ha] at h
    simp only [bind_eq_ok, pure_eq_ok, Prod.exists] at h
    obtain ⟨_, _, _, _, _, _, _, _, _, hfound⟩ := h
    cases hfound
  · exact placeholder?_none

end

end Line

/-- A reference stands at its offsets in a line, and no `#` stands before it. -/
structure Placeholder.StandsIn (found : Placeholder) (line : Text) : Prop where
  name : found.name ∈ Grammar.name
  inside : found.stop ≤ line.length
  first : '#' ∉ line.take found.start
  spelled : (line.take found.stop).drop found.start = "#(".toList ++ found.name ++ ")".toList

theorem Placeholder.standsIn_iff {found : Placeholder} {line : Text} : found.StandsIn line ↔
    Line.placeholder? line = .ok (some found) := by
  rw [Line.placeholder?_eq_ok]
  constructor
  · rintro ⟨hname, hinside, hfirst, hspelled⟩
    have hlength := congrArg List.length hspelled
    simp only [List.length_drop, List.length_take, Nat.min_eq_left hinside, List.length_append] at hlength
    have hopen : "#(".toList.length = 2 := rfl
    have hcut : line.take found.start ++ (line.take found.stop).drop found.start = line.take found.stop := by
      have hstart : line.take found.start = (line.take found.stop).take found.start := by
        rw [List.take_take, Nat.min_eq_left (by omega)]
      rw [hstart, List.take_append_drop]
    rw [hspelled, ← List.append_assoc, ← List.append_assoc] at hcut
    refine ⟨line.take found.start, line.drop found.stop, hfirst, hname, ?_, ?_, ?_⟩
    · rw [hcut, List.take_append_drop]
    · rw [List.length_take, Nat.min_eq_left (by omega)]
    · rw [hcut, List.length_take, Nat.min_eq_left hinside]
  · rintro ⟨a, b, ha, hname, hline, hstart, hstop⟩
    have htake : line.take found.stop = a ++ ("#(".toList ++ found.name ++ ")".toList) := by
      rw [hline, hstop, List.take_left, List.append_assoc, List.append_assoc, List.append_assoc]
    refine ⟨hname, ?_, ?_, ?_⟩
    · rw [hline, hstop]
      exact (List.prefix_append _ b).length_le
    · rw [hline, hstart, List.append_assoc, List.append_assoc, List.append_assoc, List.take_left]
      exact ha
    · rw [htake, hstart, List.drop_left]

/-- **Names, lines that open a block and references are recognised exactly.**  The rule for names finds the
longest one, wherever there is one.  A line opens a block if it is a name behind the mark, with blanks around
it.  A line without `#` has no reference, a first `#` that starts one gives it, and any other is a mismatch. -/
theorem names_recognised (line : Text) (offset : Nat) :
    ((∃ result, Rule.identifier line offset = .ok result) ↔
      ∃ t ∈ Grammar.name, t <+: line.drop offset) ∧
    (∀ n stop, Rule.identifier line offset = .ok (n, stop) ↔
      LongestName n (line.drop offset) ∧ stop = offset + n.length) ∧
    (∀ n, Line.condition? line = .ok n ↔
      ∃ h₁ ∈ Grammar.many Text.isHorizontal, ∃ h₂ ∈ Grammar.many1 Text.isHorizontal,
        ∃ w ∈ Grammar.many Text.isBlank,
          n ∈ Grammar.name ∧ line = h₁ ++ "#if".toList ++ h₂ ++ n ++ w) ∧
    (∀ found, Line.placeholder? line = .ok (some found) ↔ found.StandsIn line) ∧
    (Line.placeholder? line = .ok none ↔ '#' ∉ line) ∧
    ((∃ mismatch, Line.placeholder? line = .error mismatch) ↔
      '#' ∈ line ∧ ∀ found : Placeholder, ¬ found.StandsIn line) := by
  refine ⟨⟨?_, ?_⟩, fun _ _ => Rule.identifier_eq_ok, fun _ => Line.condition?_eq_ok,
    fun _ => Placeholder.standsIn_iff.symm, Line.placeholder?_eq_none, ?_⟩
  · rintro ⟨⟨n, stop⟩, hfound⟩
    obtain ⟨hlongest, -⟩ := Rule.identifier_eq_ok.mp hfound
    exact ⟨n, hlongest.name, hlongest.front⟩
  · rintro ⟨t, ht, hfront⟩
    exact Rule.identifier_eq_ok_of_mem ht hfront
  · -- there are three cases, and the first two have been told apart
    simp only [Placeholder.standsIn_iff]
    rw [← not_not (a := '#' ∈ line), ← Line.placeholder?_eq_none]
    rcases Line.placeholder? line with mismatch | ⟨- | found⟩ <;> simp

end ShaderFlatten
