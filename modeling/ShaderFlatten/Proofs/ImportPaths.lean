import ShaderFlatten.Proofs.Grammar

/-!
# Import paths

The rule for import paths takes up to sixteen segments, as greedily as it can, and then a word and the
extension.  The grammar allows a word to be cut into several segments, or its end to be left to the last
word, but a slash or an underscore behind a word can only be taken with that word or with the next segment.
So all ways to cut a path come to the same end, and the greedy one needs the fewest segments:

    segs ∈ Grammar.segment ^ k → k ≤ n →
      stemFrom n (segs ++ (v ++ (extension ++ z))) = segs ++ v                    (stemFrom_ahead)

Hence a text has at most one path in front of it, and the rule finds it.
-/

namespace ShaderFlatten

/-! ## Segments -/

namespace Grammar

/-- What a segment may start with: dots and their slash. -/
def lead : Language Char := optional (many1 (· == '.') * {['/']})

theorem mem_lead {d : Text} : d ∈ lead ↔ d = [] ∨ ∃ dots ∈ many1 (· == '.'), d = dots ++ ['/'] := by
  constructor
  · rintro (h | h)
    · exact .inl h
    · obtain ⟨dots, hdots, e, rfl, rfl⟩ := Language.mem_mul.mp h
      exact .inr ⟨dots, hdots, rfl⟩
  · rintro (rfl | ⟨dots, hdots, rfl⟩)
    · exact .inl rfl
    · exact .inr (Language.append_mem_mul hdots rfl)

theorem mem_optional_slash {e : Text} : e ∈ optional {['/']} ↔ e = [] ∨ e = ['/'] := Iff.rfl

theorem mem_segment_pow_succ {k : Nat} {t : Text} :
    t ∈ segment ^ (k + 1) ↔ ∃ d ∈ lead, ∃ u ∈ many (· == '_'), ∃ w ∈ many1 Text.isWord,
      ∃ e ∈ optional {['/']}, ∃ rest ∈ segment ^ k, t = d ++ (u ++ (w ++ (e ++ rest))) := by
  rw [mem_pow_succ]
  constructor
  · rintro ⟨step, hstep, rest, hrest, rfl⟩
    obtain ⟨front₁, hfront₁, e, he, rfl⟩ := Language.mem_mul.mp hstep
    obtain ⟨front₂, hfront₂, w, hw, rfl⟩ := Language.mem_mul.mp hfront₁
    obtain ⟨d, hd, u, hu, rfl⟩ := Language.mem_mul.mp hfront₂
    exact ⟨d, hd, u, hu, w, hw, e, he, rest, hrest, by simp⟩
  · rintro ⟨d, hd, u, hu, w, hw, e, he, rest, hrest, rfl⟩
    have hfront := Language.append_mem_mul (Language.append_mem_mul hd hu) hw
    exact ⟨d ++ u ++ w ++ e, Language.append_mem_mul hfront he, rest, hrest, by simp⟩

end Grammar

namespace Rule

open Grammar

section
variable {d u w r s : Text}

theorem slash_of_stops (h : Stops (· == '/') s) : slash s = [] := by
  cases s with
  | nil => rfl
  | cons c s =>
    have hc : c ≠ '/' := by simpa using h
    unfold slash
    split
    · next heq => exact absurd (List.cons.inj heq).1 hc
    · rfl

theorem slash_mem (s : Text) : slash s ∈ optional {['/']} := by
  unfold slash
  split
  · exact .inr rfl
  · exact .inl rfl

theorem dotsSlash_of_stops (h : Stops (· == '.') s) : dotsSlash s = [] := by
  rw [dotsSlash, takeWhile_stops h]

theorem dotsSlash_lead (hd : d ∈ lead) (h : Stops (· == '.') s) : dotsSlash (d ++ s) = d := by
  rcases mem_lead.mp hd with rfl | ⟨dots, ⟨hne, hdots⟩, rfl⟩
  · exact dotsSlash_of_stops h
  · have hstop : Stops (· == '.') ('/' :: s) := stops_cons.mpr rfl
    rw [dotsSlash, List.append_assoc, List.singleton_append, takeWhile_append_stops hdots hstop,
      dropWhile_append_stops hdots hstop]
    cases dots with
    | nil => exact absurd rfl hne
    | cons c dots => rfl

/-- Underscores and a word start with no other character. -/
theorem stops_unit {x : Char} (hx : Text.isWord x = false) (hne : x ≠ '_') (hu : u ∈ many (· == '_'))
    (hw : w ∈ many1 Text.isWord) (r : Text) : Stops (· == x) (u ++ (w ++ r)) := by
  refine stops_append (fun c hc => ?_) hu (stops_many1 (isWord_ne hx) hw r)
  rw [beq_eq_false_iff_ne, eq_of_beq hc]
  exact hne.symm

/-- A segment in front of a text that does not go on with its word. -/
theorem segment_eq (hd : d ∈ lead) (hu : u ∈ many (· == '_')) (hw : w ∈ many1 Text.isWord)
    (hr : Stops Text.isWord r) : Rule.segment (d ++ (u ++ (w ++ r))) = d ++ (u ++ (w ++ slash r)) := by
  have hdots := dotsSlash_lead hd (stops_unit (x := '.') rfl (by decide) hu hw r)
  have hlead : segmentLead (d ++ (u ++ (w ++ r))) = d ++ u := by
    simp only [segmentLead, hdots, List.drop_left,
      takeWhile_append_stops hu (stops_many1 (isWord_ne (x := '_') rfl) hw r)]
  have hrest : (d ++ (u ++ (w ++ r))).drop (d ++ u).length = w ++ r := by
    rw [← List.append_assoc, List.drop_left]
  simp only [Rule.segment, hlead, hrest, takeWhile_append_stops hw.2 hr, dropWhile_append_stops hw.2 hr,
    List.isEmpty_iff, hw.1, if_false, List.append_assoc]

theorem dotsSlash_mem (s : Text) : dotsSlash s ∈ lead := by
  have hdots : s.takeWhile (· == '.') ∈ many (· == '.') := fun _ => List.mem_takeWhile_imp
  unfold dotsSlash
  split
  · exact .inl rfl
  · next hne => exact mem_lead.mpr (.inr ⟨_, ⟨fun h => hne h, hdots⟩, rfl⟩)
  · exact .inl rfl

/-- A text has a segment in front of it, or the rule finds none. -/
theorem segment_cases (s : Text) : Rule.segment s = [] ∨ ∃ d ∈ lead, ∃ u ∈ many (· == '_'),
    ∃ w ∈ many1 Text.isWord, ∃ r, Stops Text.isWord r ∧ s = d ++ (u ++ (w ++ r)) := by
  obtain ⟨rest, hrest⟩ := (takes_dotsSlash s).front
  obtain ⟨u, hu, r, hr, rfl⟩ := exists_run (· == '_') rest
  obtain ⟨w, hw, r, hstop, rfl⟩ := exists_run Text.isWord r
  by_cases hempty : w = []
  · left
    have hdots : (dotsSlash s ++ (u ++ (w ++ r))).drop (dotsSlash s).length = u ++ (w ++ r) :=
      List.drop_left
    rw [hrest] at hdots
    have hlead : segmentLead s = dotsSlash s ++ u := by
      rw [segmentLead, hdots, takeWhile_append_stops hu hr]
    have hword : s.drop (segmentLead s).length = r := by
      rw [hlead, List.length_append, ← List.drop_drop, hdots, List.drop_left, hempty, List.nil_append]
    simp only [Rule.segment, hword, takeWhile_stops hstop, List.isEmpty_nil, if_true]
  · exact .inr ⟨dotsSlash s, dotsSlash_mem s, u, hu, w, ⟨hempty, hw⟩, r, hstop, hrest.symm⟩

end

/-! ## Stems -/

/-- What the rule takes from a text before the extension, if so many segments are left: segments and a
word. -/
def stemFrom (n : Nat) (s : Text) : Text :=
  segments n s ++ (s.drop (segments n s).length).takeWhile Text.isWord

section
variable {d u w r s v z segs : Text} {k n : Nat}

theorem slash_append_drop (r : Text) : slash r ++ r.drop (slash r).length = r :=
  (List.prefix_iff_eq_append.mp (takes_slash r).front)

theorem pathStem_eq (s : Text) : pathStem s = slash s ++ stemFrom maxRepeat (s.drop (slash s).length) := by
  simp only [pathStem, stemFrom, List.length_append, ← List.drop_drop, List.append_assoc]

theorem stemFrom_none (h : Rule.segment s = []) : stemFrom n s = s.takeWhile Text.isWord := by
  have hnone : segments n s = [] := by
    cases n with
    | zero => rfl
    | succ n => simp [segments, h]
  simp [stemFrom, hnone]

/-- A segment in front of a text is taken whole, with the slash behind it. -/
theorem stemFrom_segment (hd : d ∈ lead) (hu : u ∈ many (· == '_')) (hw : w ∈ many1 Text.isWord)
    (hr : Stops Text.isWord r) : stemFrom (n + 1) (d ++ (u ++ (w ++ r))) =
      d ++ (u ++ (w ++ (slash r ++ stemFrom n (r.drop (slash r).length)))) := by
  have hfirst := segment_eq hd hu hw hr
  have hsplit : d ++ (u ++ (w ++ r)) = d ++ (u ++ (w ++ slash r)) ++ r.drop (slash r).length := by
    simp only [List.append_assoc, slash_append_drop]
  rw [hsplit] at hfirst ⊢
  generalize r.drop (slash r).length = rest at hfirst ⊢
  have hne : d ++ (u ++ (w ++ slash r)) ≠ [] := by simp [hw.1]
  have hsegments : segments (n + 1) (d ++ (u ++ (w ++ slash r)) ++ rest) =
      d ++ (u ++ (w ++ slash r)) ++ segments n rest := by
    simp only [segments, hfirst, List.isEmpty_iff, hne, if_false, List.drop_left]
  rw [stemFrom, hsegments, List.length_append, ← List.drop_drop, List.drop_left]
  simp only [stemFrom, List.append_assoc]

/-- Segments and a word start with no slash. -/
theorem stops_slash (hsegs : segs ∈ Grammar.segment ^ k) (hv : v ∈ many Text.isWord) (z : Text) :
    Stops (· == '/') (segs ++ (v ++ (extension ++ z))) := by
  cases k with
  | zero =>
    rw [pow_zero, Language.mem_one] at hsegs
    rw [hsegs, List.nil_append]
    exact stops_append (isWord_ne rfl) hv (stops_cons.mpr rfl)
  | succ k =>
    obtain ⟨d, hd, u, hu, w, hw, e, -, rest, -, rfl⟩ := mem_segment_pow_succ.mp hsegs
    simp only [List.append_assoc]
    rcases mem_lead.mp hd with rfl | ⟨dots, hdots, rfl⟩
    · exact stops_unit rfl (by decide) hu hw _
    · rw [List.append_assoc]
      refine stops_many1 (fun c hc => ?_) hdots _
      rw [eq_of_beq hc]
      rfl

/-- The extension is taken for no segment and no word. -/
theorem stemFrom_extension (n : Nat) (z : Text) : stemFrom n (extension ++ z) = [] := by
  have hnone : Rule.segment (extension ++ z) = [] := rfl
  rw [stemFrom_none hnone]
  exact takeWhile_stops (stops_cons.mpr rfl)

/-- **All ways to cut a path come to the same end.**  The induction is on the number of segments.  Where the
word of the first one goes on, nothing but a word can follow in the path, and the rule takes all of it at once,
as it would take the rest of it from the second segment on. -/
theorem stemFrom_ahead (hsegs : segs ∈ Grammar.segment ^ k) (hk : k ≤ n) (hv : v ∈ many Text.isWord)
    (z : Text) :
    stemFrom n (segs ++ (v ++ (extension ++ z))) = segs ++ v := by
  induction k generalizing n segs with
  | zero =>
    rw [pow_zero, Language.mem_one] at hsegs
    subst hsegs
    have hstop : Stops Text.isWord (extension ++ z) := stops_cons.mpr rfl
    by_cases hempty : v = []
    · rw [hempty]
      exact stemFrom_extension n z
    · cases n with
      | zero => exact takeWhile_append_stops hv hstop
      | succ n =>
        have htaken := stemFrom_segment (n := n) (d := []) (u := []) (.inl rfl) nil_mem_many
          ⟨hempty, hv⟩ hstop
        have hslash : slash (extension ++ z) = [] := rfl
        simpa [hslash, stemFrom_extension] using htaken
  | succ k ih =>
    obtain ⟨d, hd, u, hu, w, hw, e, he, rest, hrest, rfl⟩ := mem_segment_pow_succ.mp hsegs
    obtain ⟨n, rfl⟩ := Nat.exists_eq_add_of_le' (Nat.zero_lt_of_lt hk)
    obtain ⟨w₂, hw₂, r, hr, hsplit⟩ :=
      exists_run Text.isWord (e ++ (rest ++ (v ++ (extension ++ z))))
    have hword : w ++ w₂ ∈ many1 Text.isWord := by
      refine ⟨by simp [hw.1], fun c hc => ?_⟩
      exact (List.mem_append.mp hc).elim (hw.2 c) (hw₂ c)
    have htaken := stemFrom_segment (n := n) hd hu hword hr
    simp only [List.append_assoc, ← hsplit] at htaken ⊢
    rw [htaken]
    congr 3
    by_cases hempty : w₂ = []
    · subst hempty
      rw [List.nil_append] at hsplit
      subst hsplit
      have hslash : slash (e ++ (rest ++ (v ++ (extension ++ z)))) = e := by
        rcases mem_optional_slash.mp he with rfl | rfl
        · exact slash_of_stops (stops_slash hrest hv z)
        · rfl
      rw [hslash, List.drop_left, List.nil_append, ih hrest (Nat.le_of_succ_le_succ hk)]
    · have hstart : Stops (· == '/') (w₂ ++ r) := stops_many1 (isWord_ne rfl) ⟨hempty, hw₂⟩ r
      have hslash : e = [] := by
        rcases mem_optional_slash.mp he with rfl | rfl
        · rfl
        · rw [← hsplit] at hstart
          cases stops_cons.mp hstart
      subst hslash
      have htail := stemFrom_segment (n := n) (d := []) (u := []) (.inl rfl) nil_mem_many ⟨hempty, hw₂⟩ hr
      rw [List.nil_append, List.nil_append, List.nil_append, List.nil_append] at htail
      rw [← htail, ← hsplit]
      exact ih hrest (Nat.le_of_succ_le hk)

/-- What the rule takes is made of segments and a word. -/
theorem stemFrom_segments (n : Nat) (s : Text) :
    ∃ k ≤ n, ∃ segs ∈ Grammar.segment ^ k, ∃ v ∈ many Text.isWord, stemFrom n s = segs ++ v := by
  have hword (s : Text) : s.takeWhile Text.isWord ∈ many Text.isWord := fun _ => List.mem_takeWhile_imp
  induction n generalizing s with
  | zero => exact ⟨0, le_rfl, [], rfl, _, hword s, rfl⟩
  | succ n ih =>
    rcases segment_cases s with hnone | ⟨d, hd, u, hu, w, hw, r, hr, rfl⟩
    · exact ⟨0, Nat.zero_le _, [], rfl, _, hword s, stemFrom_none hnone⟩
    · obtain ⟨k, hk, segs, hsegs, v, hv, hstem⟩ := ih (r.drop (slash r).length)
      refine ⟨k + 1, Nat.succ_le_succ hk, d ++ (u ++ (w ++ (slash r ++ segs))), ?_, v, hv, ?_⟩
      · exact mem_segment_pow_succ.mpr ⟨d, hd, u, hu, w, hw, slash r, slash_mem r, segs, hsegs, rfl⟩
      · rw [stemFrom_segment hd hu hw hr, hstem]
        simp only [List.append_assoc]

end

end Rule

/-! ## Paths -/

namespace Grammar

theorem mem_importPath {p : Text} : p ∈ importPath ↔ ∃ e ∈ optional {['/']}, ∃ k ≤ 16,
    ∃ segs ∈ segment ^ k, ∃ v ∈ many Text.isWord, p = e ++ (segs ++ (v ++ Rule.extension)) := by
  constructor
  · intro hp
    obtain ⟨stem, hstem, ending, hending, rfl⟩ := Language.mem_mul.mp hp
    obtain ⟨steps, hsteps, v, hv, rfl⟩ := Language.mem_mul.mp hstem
    obtain ⟨e, he, segs, ⟨k, -, hk, hsegs⟩, rfl⟩ := Language.mem_mul.mp hsteps
    rw [Set.mem_singleton_iff.mp hending]
    exact ⟨e, he, k, hk, segs, hsegs, v, hv, by simp only [List.append_assoc, Rule.extension]⟩
  · rintro ⟨e, he, k, hk, segs, hsegs, v, hv, rfl⟩
    have hrepeated : segs ∈ repeated 0 16 segment := ⟨k, k.zero_le, hk, hsegs⟩
    have hsteps := Language.append_mem_mul he hrepeated
    rw [← List.append_assoc, ← List.append_assoc]
    exact Language.append_mem_mul (Language.append_mem_mul hsteps hv) rfl

end Grammar

namespace Rule

open Grammar

section
variable {p s : Text}

/-- What the rule takes becomes a path with the extension. -/
theorem pathStem_extension_mem (s : Text) : pathStem s ++ extension ∈ Grammar.importPath := by
  obtain ⟨k, hk, segs, hsegs, v, hv, hstem⟩ := stemFrom_segments maxRepeat (s.drop (slash s).length)
  refine mem_importPath.mpr ⟨slash s, slash_mem s, k, hk, segs, hsegs, v, hv, ?_⟩
  rw [pathStem_eq, hstem]
  simp only [List.append_assoc]

/-- From a path in front of a text the rule takes all but the extension. -/
theorem pathStem_of_importPath (hp : p ∈ Grammar.importPath) (hfront : p <+: s) :
    pathStem s ++ extension = p := by
  obtain ⟨z, rfl⟩ := hfront
  obtain ⟨e, he, k, hk, segs, hsegs, v, hv, rfl⟩ := mem_importPath.mp hp
  simp only [List.append_assoc]
  have hslash : slash (e ++ (segs ++ (v ++ (extension ++ z)))) = e := by
    rcases mem_optional_slash.mp he with rfl | rfl
    · exact slash_of_stops (stops_slash hsegs hv z)
    · rfl
  have hsteps : stemFrom maxRepeat (segs ++ (v ++ (extension ++ z))) = segs ++ v :=
    stemFrom_ahead hsegs hk hv z
  rw [pathStem_eq, hslash, List.drop_left, hsteps]
  simp only [List.append_assoc]

/-- A text has at most one path in front of it. -/
theorem importPath_unique {p' : Text} (hp : p ∈ Grammar.importPath) (hfront : p <+: s)
    (hp' : p' ∈ Grammar.importPath) (hfront' : p' <+: s) : p = p' :=
  (pathStem_of_importPath hp hfront).symm.trans (pathStem_of_importPath hp' hfront')

end

section
variable {a b text path : Text} {r : Text × Nat} {offset stop : Nat}

theorem importPath_at : importPath (a ++ b) a.length = .ok r ↔
    ∃ p ∈ Grammar.importPath, ∃ c, b = p ++ c ∧ r = (p, (a ++ p).length) := by
  obtain ⟨c, hstem⟩ := (takes_pathStem b).front
  have hmem := pathStem_extension_mem b
  have htaken (p : Text) (hp : p ∈ Grammar.importPath) (hfront : p <+: b) := pathStem_of_importPath hp hfront
  simp only [importPath, List.drop_left]
  generalize pathStem b = stem at *
  subst hstem
  have hstop : min (a.length + stem.length) (a ++ (stem ++ c)).length = (a ++ stem).length := by simp
  have htake (z : Text) : (stem ++ (extension ++ z)).take ((a ++ stem ++ extension).length - a.length) =
      stem ++ extension := by
    rw [List.append_assoc, List.length_append, Nat.add_sub_cancel_left, ← List.append_assoc, List.take_left]
  rw [hstop, ← List.append_assoc a]
  simp only [bind_eq_ok, pure_eq_ok, Prod.exists, literal_at]
  constructor
  · rintro ⟨_, _, ⟨z, rfl, hr⟩, rfl⟩
    cases hr
    refine ⟨stem ++ extension, hmem, z, (List.append_assoc _ _ _).symm, ?_⟩
    rw [htake, List.append_assoc]
  · rintro ⟨p, hp, z, hsplit, rfl⟩
    obtain rfl := htaken p hp (hsplit ▸ List.prefix_append p z)
    rw [List.append_assoc] at hsplit
    obtain rfl := List.append_cancel_left hsplit
    refine ⟨_, _, ⟨z, rfl, rfl⟩, ?_⟩
    rw [htake, List.append_assoc]

/-- **The rule for paths finds the one in front of a text.** -/
theorem importPath_eq_ok : importPath text offset = .ok (path, stop) ↔
    path ∈ Grammar.importPath ∧ path <+: text.drop offset ∧ stop = offset + path.length := by
  by_cases hwithin : offset ≤ text.length
  · have hoffset : (text.take offset).length = offset := List.length_take_of_le hwithin
    have hfound := importPath_at (a := text.take offset) (b := text.drop offset) (r := (path, stop))
    rw [List.take_append_drop, hoffset] at hfound
    rw [hfound]
    constructor
    · rintro ⟨p, hp, c, hsplit, heq⟩
      cases heq
      exact ⟨hp, ⟨c, hsplit.symm⟩, by rw [List.length_append, hoffset]⟩
    · rintro ⟨hp, ⟨c, hsplit⟩, rfl⟩
      exact ⟨path, hp, c, hsplit.symm, by rw [List.length_append, hoffset]⟩
  · -- past the end of the text there is nothing, and no path is empty
    have hpast := Nat.le_of_not_le hwithin
    have hstem : pathStem [] = [] := rfl
    have hmissing : extension.isPrefixOf [] = false := rfl
    rw [List.drop_eq_nil_of_le hpast, List.prefix_nil]
    simp only [importPath, literal, List.drop_eq_nil_of_le hpast, hstem, List.length_nil, Nat.add_zero,
      Nat.min_eq_right hpast, List.drop_length, hmissing, Bool.false_eq_true, and_false, if_false,
      bind_eq_ok, reduceCtorEq, false_and, exists_false, false_iff]
    rintro ⟨hp, rfl, -⟩
    obtain ⟨e, -, k, -, segs, -, v, -, hempty⟩ := mem_importPath.mp hp
    simp [extension] at hempty

end

end Rule

/-! ## Import lines -/

namespace Line

open Grammar Rule

/-- **The lines that import a file.** -/
theorem importPath?_eq_ok {line p : Text} : importPath? line = .ok p ↔
    ∃ h₁ ∈ many Text.isHorizontal, ∃ h₂ ∈ many Text.isHorizontal, ∃ w ∈ many Text.isBlank,
      p ∈ Grammar.importPath ∧
        line = h₁ ++ "#import".toList ++ h₂ ++ ['\"'] ++ p ++ ['\"'] ++ w := by
  have hmark : "#import".toList = importMark := rfl
  simp only [importPath?, bind_eq_ok, pure_eq_ok, Prod.exists, hmark]
  constructor
  · rintro ⟨_, _, hliteral, _, _, hopen, path, _, hpath, _, _, hclose, _, _, hend, rfl⟩
    obtain ⟨h₁, hh₁, after, hafter, rfl⟩ := exists_run Text.isHorizontal line
    rw [indent_append hh₁ hafter] at hliteral
    obtain ⟨after, rfl, hr⟩ := literal_at.mp hliteral
    cases hr
    obtain ⟨h₂, hh₂, after, hstop, rfl⟩ := exists_run Text.isHorizontal after
    rw [← List.append_assoc] at hopen hpath hclose hend ⊢
    rw [List.drop_left, takeWhile_append_stops hh₂ hstop, ← List.length_append] at hopen
    rw [← List.append_assoc] at hopen hpath hclose hend ⊢
    obtain ⟨after, rfl, hr⟩ := literal_at.mp hopen
    cases hr
    rw [← List.append_assoc] at hpath hclose hend ⊢
    obtain ⟨_, hp, after, rfl, hr⟩ := importPath_at.mp hpath
    cases hr
    rw [← List.append_assoc] at hclose hend ⊢
    obtain ⟨w, rfl, hr⟩ := literal_at.mp hclose
    cases hr
    rw [← List.append_assoc] at hend ⊢
    exact ⟨h₁, hh₁, h₂, hh₂, w, (endOfLine_at.mp hend).1, hp, rfl⟩
  · rintro ⟨h₁, hh₁, h₂, hh₂, w, hw, hp, rfl⟩
    have hmarked (b : Text) : Stops Text.isHorizontal (importMark ++ b) := stops_cons.mpr rfl
    have hquoted (b : Text) : Stops Text.isHorizontal (['\"'] ++ b) := stops_cons.mpr rfl
    have hindent := indent_append hh₁ (hmarked (h₂ ++ (['\"'] ++ (p ++ (['\"'] ++ w)))))
    have hliteral := literal_append h₁ importMark (h₂ ++ (['\"'] ++ (p ++ (['\"'] ++ w))))
    have hblanks : ((h₁ ++ (importMark ++ (h₂ ++ (['\"'] ++ (p ++ (['\"'] ++ w)))))).drop
        (h₁ ++ importMark).length).takeWhile Text.isHorizontal = h₂ := by
      rw [← List.append_assoc, List.drop_left, takeWhile_append_stops hh₂ (hquoted _)]
    have hopen := literal_append (h₁ ++ importMark ++ h₂) ['\"'] (p ++ (['\"'] ++ w))
    have hpath := (importPath_at (a := h₁ ++ importMark ++ h₂ ++ ['\"'])).mpr ⟨p, hp, ['\"'] ++ w, rfl, rfl⟩
    have hclose := literal_append (h₁ ++ importMark ++ h₂ ++ ['\"'] ++ p) ['\"'] w
    have hend := (endOfLine_at (a := h₁ ++ importMark ++ h₂ ++ ['\"'] ++ p ++ ['\"'])).mpr ⟨hw, rfl⟩
    simp only [List.append_assoc] at hblanks hopen hpath hclose hend ⊢
    rw [hindent]
    refine ⟨_, _, hliteral, ?_⟩
    have hoffset : (h₁ ++ importMark).length + h₂.length = (h₁ ++ (importMark ++ h₂)).length := by
      simp only [List.length_append, Nat.add_assoc]
    rw [hblanks, hoffset]
    exact ⟨_, _, hopen, _, _, hpath, _, _, hclose, _, _, hend, rfl⟩

end Line

/-- **Import paths and import lines are recognised exactly.**  The rule for paths finds one wherever one
stands in front of the rest of a text, and no other path stands there.  A line is an import of a path if the
path stands in quotes behind the mark, with blanks around them. -/
theorem paths_recognised (text : Text) (offset : Nat) :
    ((∃ result, Rule.importPath text offset = .ok result) ↔
      ∃ p ∈ Grammar.importPath, p <+: text.drop offset) ∧
    (∀ p ∈ Grammar.importPath, ∀ p' ∈ Grammar.importPath, p <+: text.drop offset →
      p' <+: text.drop offset → p = p') ∧
    (∀ p stop, Rule.importPath text offset = .ok (p, stop) ↔
      p ∈ Grammar.importPath ∧ p <+: text.drop offset ∧ stop = offset + p.length) ∧
    (∀ p, Line.importPath? text = .ok p ↔
      ∃ h₁ ∈ Grammar.many Text.isHorizontal, ∃ h₂ ∈ Grammar.many Text.isHorizontal,
        ∃ w ∈ Grammar.many Text.isBlank, p ∈ Grammar.importPath ∧
          text = h₁ ++ "#import".toList ++ h₂ ++ ['\"'] ++ p ++ ['\"'] ++ w) := by
  refine ⟨⟨?_, ?_⟩, ?_, fun _ _ => Rule.importPath_eq_ok, fun _ => Line.importPath?_eq_ok⟩
  · rintro ⟨⟨p, stop⟩, hfound⟩
    obtain ⟨hp, hfront, -⟩ := Rule.importPath_eq_ok.mp hfound
    exact ⟨p, hp, hfront⟩
  · rintro ⟨p, hp, hfront⟩
    exact ⟨(p, offset + p.length), Rule.importPath_eq_ok.mpr ⟨hp, hfront, rfl⟩⟩
  · intro p hp p' hp' hfront hfront'
    exact Rule.importPath_unique hp hfront hp' hfront'

end ShaderFlatten
