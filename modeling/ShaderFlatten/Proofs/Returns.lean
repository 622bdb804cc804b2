import ShaderFlatten.Directive.Substitution
import ShaderFlatten.Proofs.Nameable

/-!
# Lines that end in a carriage return

A source that ends its lines with a carriage return and a line feed has the carriage return at the end of
every line.  No rule of the grammar takes it, and what follows a directive may be blank, so a line with a
carriage return at its end is parsed as the line without it:

    Line.kind (line ++ ['\r']) = Line.kind line
    (Line.importPath? (line ++ ['\r'])).toOption = (Line.importPath? line).toOption

and likewise for the other parsers.  Only the mismatches are not the same, since they hold the line.
-/

namespace ShaderFlatten

/-! ## Scanners -/

theorem takeWhile_return {p : Char → Bool} (hp : p '\r' = false) (s : Text) :
    (s ++ ['\r']).takeWhile p = s.takeWhile p := by
  induction s with
  | nil => simp [hp]
  | cons c s ih => by_cases hc : p c = true <;> simp [hc, ih]

theorem dropWhile_return {p : Char → Bool} (hp : p '\r' = false) (s : Text) :
    (s ++ ['\r']).dropWhile p = s.dropWhile p ++ ['\r'] := by
  induction s with
  | nil => simp [hp]
  | cons c s ih => by_cases hc : p c = true <;> simp [hc, ih]

theorem isPrefixOf_return {t : Text} (ht : '\r' ∉ t) (s : Text) :
    t.isPrefixOf (s ++ ['\r']) = t.isPrefixOf s := by
  induction t generalizing s with
  | nil => simp
  | cons c t ih =>
    have hc : c ≠ '\r' := fun h => ht (h ▸ List.mem_cons_self)
    cases s with
    | nil => simp [List.isPrefixOf, hc]
    | cons d s => simp [List.isPrefixOf, ih fun h => ht (List.mem_cons_of_mem _ h)]

/-- What a scanner sees from an offset on, if it does not see a carriage return at the end. -/
theorem scan_return {α : Type} {f : Text → α} (h : ∀ s, f (s ++ ['\r']) = f s) (line : Text)
    (offset : Nat) : f ((line ++ ['\r']).drop offset) = f (line.drop offset) := by
  rcases Nat.lt_or_ge line.length offset with hpast | hwithin
  · have hpast' : (line ++ ['\r']).length ≤ offset := by
      rw [List.length_append]
      exact hpast
    rw [List.drop_eq_nil_of_le hpast', List.drop_eq_nil_of_le hpast.le]
  · rw [List.drop_append_of_le_length hwithin, h]

namespace Rule

theorem nameUnits_return (n : Nat) (s : Text) : nameUnits n (s ++ ['\r']) = nameUnits n s := by
  induction n generalizing s with
  | zero => rfl
  | succ n ih =>
    simp only [nameUnits, takeWhile_return (p := (· == '_')) rfl, dropWhile_return (p := (· == '_')) rfl,
      takeWhile_return (p := Text.isWord) rfl, dropWhile_return (p := Text.isWord) rfl, ih]

theorem slash_return (s : Text) : slash (s ++ ['\r']) = slash s := by
  cases s with
  | nil => rfl
  | cons c s =>
    by_cases hc : c = '/' <;> simp [slash, hc]

theorem dotsSlash_return (s : Text) : dotsSlash (s ++ ['\r']) = dotsSlash s := by
  unfold dotsSlash
  rw [takeWhile_return (p := (· == '.')) rfl, dropWhile_return (p := (· == '.')) rfl]
  cases s.dropWhile (· == '.') with
  | nil => cases s.takeWhile (· == '.') <;> rfl
  | cons c rest =>
    by_cases hc : c = '/'
    · subst hc
      cases s.takeWhile (· == '.') <;> rfl
    · cases s.takeWhile (· == '.') <;> simp [hc]

theorem segmentLead_return (s : Text) : segmentLead (s ++ ['\r']) = segmentLead s := by
  simp only [segmentLead, dotsSlash_return, scan_return (takeWhile_return (p := (· == '_')) rfl)]

theorem segment_return (s : Text) : segment (s ++ ['\r']) = segment s := by
  have hslash : ∀ s : Text,
      slash ((s ++ ['\r']).dropWhile Text.isWord) = slash (s.dropWhile Text.isWord) := by
    intro s
    rw [dropWhile_return rfl, slash_return]
  simp only [segment, segmentLead_return, scan_return (takeWhile_return (p := Text.isWord) rfl),
    scan_return (f := fun s => slash (s.dropWhile Text.isWord)) hslash]

theorem segments_return (n : Nat) (s : Text) : segments n (s ++ ['\r']) = segments n s := by
  induction n generalizing s with
  | zero => rfl
  | succ n ih => simp only [segments, segment_return, scan_return ih]

theorem pathStem_return (s : Text) : pathStem (s ++ ['\r']) = pathStem s := by
  simp only [pathStem, slash_return, scan_return (segments_return maxRepeat),
    scan_return (takeWhile_return (p := Text.isWord) rfl)]

/-! ## Rules -/

theorem toOption_bind {ε α β : Type} (x : Except ε α) (f : α → Except ε β) :
    (x >>= f).toOption = x.toOption.bind fun a => (f a).toOption := by
  cases x <;> rfl

section
variable {line t t' : Text} {offset stop : Nat}

theorem literal_toOption_eq_some (h : (literal t line offset).toOption = some (t', stop)) :
    stop = offset + t.length ∧ stop ≤ line.length := by
  unfold literal at h
  split at h
  · next hfound =>
    have hlength := (List.isPrefixOf_iff_prefix.mp hfound.2).length_le
    rw [List.length_drop] at hlength
    cases h
    omega
  · cases h

/-- Nothing but the empty text is found past the end of a line. -/
theorem literal_past (hne : t ≠ []) (h : line.length ≤ offset) :
    (literal t line offset).toOption = none := by
  cases hfound : (literal t line offset).toOption with
  | none => rfl
  | some found =>
    obtain ⟨hstop, hle⟩ := literal_toOption_eq_some hfound
    have hlength := List.length_pos_iff.mpr hne
    omega

end

section
variable (line : Text) (offset : Nat)

theorem literal_return {t : Text} (ht : '\r' ∉ t) (hne : t ≠ []) :
    (literal t (line ++ ['\r']) offset).toOption = (literal t line offset).toOption := by
  have hfound : offset ≤ (line ++ ['\r']).length ∧ t.isPrefixOf ((line ++ ['\r']).drop offset) ↔
      offset ≤ line.length ∧ t.isPrefixOf (line.drop offset) := by
    rw [scan_return (isPrefixOf_return ht)]
    refine and_congr_left fun hfront => ?_
    have hwithin : offset ≤ line.length := by
      by_contra hpast
      rw [List.drop_eq_nil_of_le (by omega)] at hfront
      exact hne (List.prefix_nil.mp (List.isPrefixOf_iff_prefix.mp hfront))
    simp [hwithin, Nat.le_succ_of_le]
  unfold literal
  simp only [hfound]
  split <;> rfl

theorem gap_return : (gap (line ++ ['\r']) offset).toOption = (gap line offset).toOption := by
  simp only [gap, scan_return (takeWhile_return (p := Text.isHorizontal) rfl)]
  split <;> rfl

theorem identifier_return :
    (identifier (line ++ ['\r']) offset).toOption = (identifier line offset).toOption := by
  simp only [identifier, scan_return (nameUnits_return maxRepeat)]
  split <;> rfl

/-- The end of a line may be blank, so it may be a carriage return.  What is taken there is never used. -/
theorem endOfLine_return {α : Type} (result : Option α) :
    ((endOfLine (line ++ ['\r']) offset).toOption.bind fun _ => result) =
      (endOfLine line offset).toOption.bind fun _ => result := by
  have hblank : ∀ s : Text, (s ++ ['\r']).all Text.isBlank = s.all Text.isBlank := by
    intro s
    have hreturn : Text.isBlank '\r' = true := by decide
    simp [hreturn]
  simp only [endOfLine, scan_return (f := (List.all · Text.isBlank)) hblank]
  split <;> rfl

theorem importPath_return :
    (importPath (line ++ ['\r']) offset).toOption = (importPath line offset).toOption := by
  have hreturn : '\r' ∉ extension := by decide
  have hne : extension ≠ [] := by decide
  have hlength : (line ++ ['\r']).length = line.length + 1 := List.length_append
  simp only [importPath, scan_return pathStem_return, toOption_bind, hlength,
    literal_return line _ hreturn hne]
  have hle : offset ≤ offset + (pathStem (line.drop offset)).length := Nat.le_add_right _ _
  generalize offset + (pathStem (line.drop offset)).length = stop at hle
  rcases Nat.lt_or_ge line.length stop with hpast | hwithin
  · -- the stem ends past the line, where no extension can follow
    rw [literal_past hne (by omega), literal_past hne (by omega)]
    rfl
  · rw [Nat.min_eq_left hwithin, Nat.min_eq_left (by omega)]
    refine Option.bind_congr ?_
    rintro ⟨found, stop'⟩ hfound
    obtain ⟨hstop, hend⟩ := literal_toOption_eq_some hfound
    have htake : ((line ++ ['\r']).drop offset).take (stop' - offset) =
        (line.drop offset).take (stop' - offset) := by
      rw [List.drop_append_of_le_length (by omega), List.take_append_of_le_length]
      rw [List.length_drop]
      omega
    rw [htake]

end

end Rule

/-! ## Lines -/

namespace Line

open Rule

variable (line : Text)

theorem indent_return : indent (line ++ ['\r']) = indent line := by
  rw [indent, indent, takeWhile_return rfl]

theorem startsWithMark_return {mark : Text} (hmark : '\r' ∉ mark) :
    startsWithMark mark (line ++ ['\r']) = startsWithMark mark line := by
  have hreturn : isNameChar '\r' = false := by decide
  unfold startsWithMark
  rw [isPrefixOf_return hmark]
  rcases Nat.lt_or_ge line.length mark.length with hshort | hwithin
  · have hfront : mark.isPrefixOf line = false := by
      rw [Bool.eq_false_iff, ne_eq, List.isPrefixOf_iff_prefix]
      exact fun h => absurd h.length_le (by omega)
    rw [hfront, Bool.false_and, Bool.false_and]
  · -- the mark ends the line, or the same character follows it
    rw [List.drop_append_of_le_length hwithin]
    cases line.drop mark.length with
    | nil => simp [hreturn]
    | cons c rest => rfl

/-- **A carriage return at its end does not change the kind of a line.** -/
theorem kind_return : kind (line ++ ['\r']) = kind line := by
  have himport : '\r' ∉ importMark := by decide
  have hif : '\r' ∉ ifMark := by decide
  have helse : '\r' ∉ elseMark := by decide
  have hendif : '\r' ∉ endifMark := by decide
  simp only [kind, dropWhile_return (p := Text.isHorizontal) rfl, isPrefixOf_return himport,
    startsWithMark_return _ hif, startsWithMark_return _ helse, startsWithMark_return _ hendif]

theorem bare?_return {mark : Text} (hmark : '\r' ∉ mark) (hne : mark ≠ []) :
    (bare? mark (line ++ ['\r'])).toOption = (bare? mark line).toOption := by
  simp only [bare?, toOption_bind, indent_return, literal_return line _ hmark hne, endOfLine_return]

theorem condition?_return : (condition? (line ++ ['\r'])).toOption = (condition? line).toOption := by
  have hmark : '\r' ∉ ifMark := by decide
  have hne : ifMark ≠ [] := by decide
  simp only [condition?, toOption_bind, indent_return, literal_return line _ hmark hne, gap_return,
    identifier_return, endOfLine_return]

theorem importPath?_return : (importPath? (line ++ ['\r'])).toOption = (importPath? line).toOption := by
  have hmark : '\r' ∉ importMark := by decide
  have hne : importMark ≠ [] := by decide
  have hquote : '\r' ∉ ['\"'] := by decide
  simp only [importPath?, toOption_bind, indent_return, literal_return line _ hmark hne,
    literal_return line _ hquote (List.cons_ne_nil _ _), importPath_return, endOfLine_return,
    scan_return (takeWhile_return (p := Text.isHorizontal) rfl)]

theorem placeholder?_return :
    (placeholder? (line ++ ['\r'])).toOption = (placeholder? line).toOption := by
  have hopen : '\r' ∉ ['#', '('] := by decide
  have hclose : '\r' ∉ [')'] := by decide
  have hlength : (line ++ ['\r']).length = line.length + 1 := List.length_append
  have hle := (List.takeWhile_prefix (l := line) (· != '#')).length_le
  by_cases hnone : (line.takeWhile (· != '#')).length = line.length
  · -- there is no placeholder in the line, and a carriage return is none
    have hnone' : ((line ++ ['\r']).takeWhile (· != '#')).length = (line ++ ['\r']).length := by
      rw [List.takeWhile_append, if_pos hnone]
      rfl
    simp only [placeholder?, if_pos hnone, if_pos hnone']
  · have hstart : (line ++ ['\r']).takeWhile (· != '#') = line.takeWhile (· != '#') := by
      rw [List.takeWhile_append, if_neg hnone]
    have hnone' : (line.takeWhile (· != '#')).length ≠ (line ++ ['\r']).length := by omega
    simp only [placeholder?, hstart, if_neg hnone, if_neg hnone', toOption_bind,
      literal_return line _ hopen (List.cons_ne_nil _ _), identifier_return,
      literal_return line _ hclose (List.cons_ne_nil _ _)]

variable {line}

/-- A placeholder lies inside its line. -/
theorem placeholder?_le {found : Placeholder} (h : placeholder? line = .ok (some found)) :
    found.start ≤ line.length ∧ found.stop ≤ line.length := by
  have htaken := (List.takeWhile_prefix (l := line) (· != '#')).length_le
  have hparse : (placeholder? line).toOption = some (some found) := by rw [h]; rfl
  unfold placeholder? at hparse
  simp only at hparse
  split at hparse
  · cases hparse
  · simp only [toOption_bind, Option.bind_eq_some_iff] at hparse
    obtain ⟨⟨_, offset⟩, -, ⟨name, offset'⟩, -, ⟨_, stop⟩, hclose, hfound⟩ := hparse
    cases hfound
    exact ⟨htaken, (literal_toOption_eq_some hclose).2⟩

end Line

end ShaderFlatten
