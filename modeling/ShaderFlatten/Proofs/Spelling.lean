import ShaderFlatten.Proofs.Ledger

/-!
# What bytes spell

The texts that UTF-8 bytes spell, as a relation beside `Utf8.decode`, which stops at the first sequence
that is not well formed and counts the bytes before it:

    Utf8.decode bytes = .ok text  ↔  Spells bytes text                                (decode_eq_ok_iff)

With it, what a change of the bytes does to the text can be read off sequence by sequence: a byte order
mark in front spells one character in front, and a carriage return in front of a line feed spells itself.
-/

namespace ShaderFlatten.Utf8

/-- Bytes spell a text, one well formed sequence for each character. -/
inductive Spells : List UInt8 → Text → Prop
  | nil : Spells [] []
  | cons {first rest c rest' text} : next? 0 first rest = .ok (c, rest') → Spells rest' text →
      Spells (first :: rest) (c :: text)

theorem next?_start {start start' : Nat} {first : UInt8} {rest rest' : List UInt8} {c : Char}
    (h : next? start first rest = .ok (c, rest')) : next? start' first rest = .ok (c, rest') := by
  unfold next? at h ⊢
  split at h
  · cases h
  · split at h
    · exact h
    · cases h

theorem Spells.decodeFrom {bytes : List UInt8} {text : Text} (h : Spells bytes text) (start : Nat)
    (done : Text) : decodeFrom start done bytes = .ok (done.reverse ++ text) := by
  induction h generalizing start done with
  | nil => rw [Utf8.decodeFrom, List.append_nil]
  | cons hnext _ ih =>
    rw [Utf8.decodeFrom]
    split
    · next refusal hrefused =>
      rw [next?_start hnext] at hrefused
      cases hrefused
    · next c rest' hread =>
      rw [next?_start hnext] at hread
      cases hread
      rw [ih, List.reverse_cons, List.append_assoc, List.singleton_append]

theorem spells_of_decodeFrom {start : Nat} {done : Text} {bytes : List UInt8} {text : Text}
    (h : decodeFrom start done bytes = .ok text) : ∃ t, text = done.reverse ++ t ∧ Spells bytes t := by
  fun_induction decodeFrom start done bytes with
  | case1 start done =>
    cases h
    exact ⟨[], by rw [List.append_nil], .nil⟩
  | case2 start done first rest refusal hrefused => cases h
  | case3 start done first rest c rest' hread ih =>
    obtain ⟨t, rfl, hspells⟩ := ih h
    exact ⟨c :: t, by simp, .cons (next?_start hread) hspells⟩

/-- **Bytes decode to the text that they spell.** -/
theorem decode_eq_ok_iff {bytes : List UInt8} {text : Text} :
    decode bytes = .ok text ↔ Spells bytes text := by
  constructor
  · intro h
    obtain ⟨t, rfl, hspells⟩ := spells_of_decodeFrom h
    exact hspells
  · intro h
    exact h.decodeFrom 0 []

theorem spells_asciiBytes {t : Text} (h : (t.all fun c => c.toNat < 128) = true) :
    Spells (t.map asciiByte) t := by
  have hchars : ∀ c ∈ t, c.toNat < 128 := by simpa using h
  exact decode_eq_ok_iff.mp (decodeFrom_ascii hchars 0 [])

theorem spells_ascii {t : Text} (h : (t.all fun c => c.toNat < 128) = true) :
    Spells (ascii t).toList t := by
  rw [ascii, toList_toByteArray]
  exact spells_asciiBytes h

/-! ## Marks -/

/-- The bytes of a byte order mark. -/
def mark : List UInt8 := [0xEF, 0xBB, 0xBF]

/-- The character that a byte order mark spells. -/
def markChar : Char := '\uFEFF'

theorem next?_mark (rest : List UInt8) : next? 0 0xEF (0xBB :: 0xBF :: rest) = .ok (markChar, rest) := by
  rfl

theorem spells_mark {bytes : List UInt8} {text : Text} :
    Spells (mark ++ bytes) text ↔ ∃ t, text = markChar :: t ∧ Spells bytes t := by
  constructor
  · intro h
    cases h with
    | cons hnext hspells =>
      cases (next?_mark bytes).symm.trans hnext
      exact ⟨_, rfl, hspells⟩
  · rintro ⟨t, rfl, hspells⟩
    exact .cons (next?_mark bytes) hspells

theorem dropMark_mark (bytes : List UInt8) : dropMark (mark ++ bytes) = bytes := rfl

/-- A byte list has a mark in front, or there is none to drop. -/
theorem mark_or_dropMark (bytes : List UInt8) :
    (∃ rest, bytes = mark ++ rest) ∨ dropMark bytes = bytes := by
  unfold dropMark
  split
  · exact .inl ⟨_, rfl⟩
  · exact .inr rfl

/-- Bytes that spell a text with another character in front have no mark. -/
theorem Spells.dropMark {bytes : List UInt8} {text : Text} (h : Spells bytes text)
    (hhead : text.head? ≠ some markChar) : dropMark bytes = bytes := by
  rcases mark_or_dropMark bytes with ⟨rest, rfl⟩ | hnone
  · obtain ⟨t, rfl, -⟩ := spells_mark.mp h
    exact absurd rfl hhead
  · exact hnone

/-- Bytes that spell a text without their mark spell one with it. -/
theorem Spells.of_dropMark {bytes : List UInt8} {text : Text} (h : Spells (Utf8.dropMark bytes) text) :
    ∃ text', Spells bytes text' := by
  rcases mark_or_dropMark bytes with ⟨rest, rfl⟩ | hnone
  · exact ⟨markChar :: text, spells_mark.mpr ⟨text, rfl, h⟩⟩
  · exact ⟨text, hnone ▸ h⟩

/-! ## Carriage returns -/

/-- Bytes with a carriage return in front of every line feed. -/
def withReturns (bytes : List UInt8) : List UInt8 :=
  bytes.flatMap fun b => if b = 0x0A then [0x0D, 0x0A] else [b]

theorem withReturns_lineFeed (rest : List UInt8) :
    withReturns (0x0A :: rest) = 0x0D :: 0x0A :: withReturns rest := rfl

theorem withReturns_cons {b : UInt8} (h : b ≠ 0x0A) (rest : List UInt8) :
    withReturns (b :: rest) = b :: withReturns rest := by
  simp [withReturns, h]

/-- A lead byte asks for bytes that are no ASCII characters. -/
theorem lead?_ranges {b : UInt8} {bits : Nat} {ranges : List ByteRange} (h : lead? b = some (bits, ranges)) :
    ∀ range ∈ ranges, 0x80 ≤ range.1 := by
  unfold lead? at h
  repeat' split at h
  all_goals simp only [Option.some.injEq, Prod.mk.injEq, reduceCtorEq] at h
  all_goals
    obtain ⟨-, rfl⟩ := h
    simp [anyContinuation]

theorem continue?_withReturns {ranges : List ByteRange} (hranges : ∀ range ∈ ranges, 0x80 ≤ range.1)
    {bytes rest : List UInt8} {code taken code' : Nat}
    (h : continue? ranges bytes code taken = .ok (code', rest)) :
    continue? ranges (withReturns bytes) code taken = .ok (code', withReturns rest) := by
  induction ranges generalizing bytes code taken with
  | nil =>
    cases h
    rfl
  | cons range ranges ih =>
    cases bytes with
    | nil => cases h
    | cons b bytes =>
      obtain ⟨low, high⟩ := range
      rw [continue?] at h
      split at h
      · next hwithin =>
        have hlow : 0x80 ≤ low := hranges (low, high) List.mem_cons_self
        have hb : b ≠ 0x0A := by
          rintro rfl
          rw [Bool.and_eq_true, decide_eq_true_iff] at hwithin
          exact absurd (UInt8.le_trans hlow hwithin.1) (by decide)
        rw [withReturns_cons hb, continue?, if_pos hwithin]
        exact ih (fun range hrange => hranges range (List.mem_cons_of_mem _ hrange)) h
      · cases h

theorem next?_withReturns {first : UInt8} {rest rest' : List UInt8} {c : Char}
    (h : next? 0 first rest = .ok (c, rest')) :
    next? 0 first (withReturns rest) = .ok (c, withReturns rest') := by
  unfold next? at h ⊢
  split at h
  · cases h
  · next bits ranges hlead =>
    split at h
    · next code rest hcontinue =>
      cases h
      rw [continue?_withReturns (lead?_ranges hlead) hcontinue]
    · cases h

end ShaderFlatten.Utf8

namespace ShaderFlatten

/-- A text with a carriage return put in front of some of its line feeds. -/
inductive Returns : Text → Text → Prop
  | nil : Returns [] []
  | keep (c : Char) {t t' : Text} : Returns t t' → Returns (c :: t) (c :: t')
  | put {t t' : Text} : Returns t t' → Returns ('\n' :: t) ('\r' :: '\n' :: t')

theorem Returns.refl (t : Text) : Returns t t := by
  induction t with
  | nil => exact .nil
  | cons c t ih => exact .keep c ih

/-- **Carriage returns in the bytes are carriage returns in the text.** -/
theorem Utf8.Spells.withReturns {bytes : List UInt8} {text : Text} (h : Spells bytes text) :
    ∃ text', Spells (withReturns bytes) text' ∧ Returns text text' := by
  induction h with
  | nil => exact ⟨[], .nil, .nil⟩
  | @cons first rest c rest' text hnext _ ih =>
    obtain ⟨text', hspells, hreturns⟩ := ih
    by_cases hfirst : first = 0x0A
    · subst hfirst
      cases hnext
      rw [withReturns_lineFeed]
      exact ⟨'\r' :: '\n' :: text', .cons rfl (.cons rfl hspells), .put hreturns⟩
    · rw [withReturns_cons hfirst]
      exact ⟨c :: text', .cons (next?_withReturns hnext) hspells, .keep c hreturns⟩

end ShaderFlatten
