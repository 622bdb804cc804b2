import ShaderFlatten.CommandLine.Standard
import ShaderFlatten.Proofs.LineEnds
import ShaderFlatten.Proofs.Preflight

/-!
# Outlines on the command line

The command line outlines a shader for those who want to process it, but it reads the file in its own way:
it keeps a byte order mark, and every carriage return ends a line.  A call drops the mark and cuts lines
at line feeds only.  So the outline speaks for the call only as far as the two see the same lines:

* a file that comes to a text can always be outlined;
* if carriage returns stand in front of line feeds only, a file whose outline is valid and without imports
  comes to a text under bindings that supply what the outline lists, with or without a mark;
* if there is no mark either, and the file comes to a text, every line that the outline lists as invalid
  is a hidden import or hidden content.

Neither condition can be left out: see the end of the module.
-/

namespace ShaderFlatten

/-! ## Outlines of lines that are alike -/

/-- Outlines that list the same names, and invalid lines that are alike. -/
structure Outline.Alike (o o' : Outline) : Prop where
  imports : o.imports = o'.imports
  conditions : o.conditions = o'.conditions
  constants : o.constants = o'.constants
  invalidLines : List.Forall₂ (NumberedLine.Alike .returns) o.invalidLines o'.invalidLines
  maxNesting : o.maxNesting = o'.maxNesting

namespace Outline

theorem Alike.addInvalid {o o' : Outline} (h : Alike o o') {line line' : NumberedLine}
    (hline : NumberedLine.Alike .returns line line') :
    Alike (o.addInvalid line) (o'.addInvalid line') :=
  ⟨h.imports, h.conditions, h.constants, List.rel_append h.invalidLines (.cons hline .nil), h.maxNesting⟩

/-- **A line that is alike adds the same** to an outline. -/
theorem Alike.addLine {o o' : Outline} (h : Alike o o') (depth number : Nat) {line line' : Text}
    (hline : Likeness.returns.line line line') :
    Alike (o.addLine depth (number, line)).1 (o'.addLine depth (number, line')).1 ∧
      (o.addLine depth (number, line)).2 = (o'.addLine depth (number, line')).2 := by
  have hinvalid : Alike (o.addInvalid (number, line)) (o'.addInvalid (number, line')) :=
    h.addInvalid ⟨rfl, hline⟩
  unfold Outline.addLine
  simp only [← kind_alike hline]
  cases Line.kind line with
  | importLine =>
    have hparse := importPath?_alike hline
    generalize Line.importPath? line = parsed, Line.importPath? line' = parsed' at hparse
    cases hparse with
    | error _ => exact ⟨hinvalid, rfl⟩
    | ok path =>
      exact ⟨⟨by simp only [h.imports], h.conditions, h.constants, h.invalidLines, h.maxNesting⟩, rfl⟩
  | ifLine =>
    have hparse := condition?_alike hline
    generalize Line.condition? line = parsed, Line.condition? line' = parsed' at hparse
    cases hparse with
    | error _ => exact ⟨hinvalid, rfl⟩
    | ok name =>
      exact ⟨⟨h.imports, by simp only [h.conditions], h.constants, h.invalidLines,
        by simp only [h.maxNesting]⟩, rfl⟩
  | elseLine =>
    have hparse : ParsesAlike .returns (.malformedDirective .elseLine) (Line.bare? Line.elseMark line)
        (Line.bare? Line.elseMark line') := bare?_alike hline _ (by decide) (by decide)
    generalize Line.bare? Line.elseMark line = parsed, Line.bare? Line.elseMark line' = parsed' at hparse
    cases hparse with
    | error _ => exact ⟨hinvalid, rfl⟩
    | ok _ =>
      refine ⟨?_, rfl⟩
      simp only
      split
      · exact hinvalid
      · exact h
  | endifLine =>
    have hparse : ParsesAlike .returns (.malformedDirective .endifLine) (Line.bare? Line.endifMark line)
        (Line.bare? Line.endifMark line') := bare?_alike hline _ (by decide) (by decide)
    generalize Line.bare? Line.endifMark line = parsed, Line.bare? Line.endifMark line' = parsed' at hparse
    cases hparse with
    | error _ => exact ⟨hinvalid, rfl⟩
    | ok _ =>
      refine ⟨?_, rfl⟩
      simp only
      split
      · exact hinvalid
      · exact h
  | content =>
    have hparse := placeholder?_alike hline
    generalize Line.placeholder? line = parsed, Line.placeholder? line' = parsed' at hparse
    cases hparse with
    | error _ => exact ⟨hinvalid, rfl⟩
    | ok found =>
      cases found with
      | none => exact ⟨h, rfl⟩
      | some found =>
        exact ⟨⟨h.imports, h.conditions, by simp only [h.constants], h.invalidLines, h.maxNesting⟩, rfl⟩

theorem Alike.addLines {lines lines' : List Text} (hlines : LinesAlike .returns lines lines')
    {o o' : Outline} (h : Alike o o') (depth number : Nat) :
    Alike (o.addLines depth number lines).1 (o'.addLines depth number lines').1 ∧
      (o.addLines depth number lines).2 = (o'.addLines depth number lines').2 := by
  induction hlines generalizing o o' depth number with
  | nil => exact ⟨h, rfl⟩
  | cons hline _ _ ih =>
    obtain ⟨hfirst, hdepth⟩ := h.addLine depth number hline
    rw [Outline.addLines, Outline.addLines]
    simp only [hdepth]
    exact ih hfirst _ _

end Outline

/-- **Sources that are alike have outlines that are alike.** -/
theorem Returns.outline {t t' : Text} (h : Returns t t') :
    Outline.Alike (.ofSource t) (.ofSource t') := by
  have hempty : Outline.Alike .empty .empty := ⟨rfl, rfl, rfl, .nil, rfl⟩
  obtain ⟨houtline, hdepth⟩ := hempty.addLines h.lines.1 0 1
  unfold Outline.ofSource
  simp only [hdepth]
  split
  · exact houtline
  · exact houtline.addInvalid (lastLine_alike h.lines.1.forall₂)

/-- A line that one of them lists as invalid is listed by the other one. -/
theorem Outline.Alike.mem_invalidLines {o o' : Outline} (h : Outline.Alike o o') {number : Nat} {line : Text}
    (hmem : (number, line) ∈ o.invalidLines) :
    ∃ line', Likeness.returns.line line line' ∧ (number, line') ∈ o'.invalidLines := by
  have hlines := h.invalidLines
  generalize o.invalidLines = lines, o'.invalidLines = lines' at hmem hlines
  induction hlines with
  | nil => cases hmem
  | @cons first first' rest rest' hfirst _ ih =>
    rcases List.mem_cons.mp hmem with rfl | hmem
    · obtain ⟨number', line'⟩ := first'
      obtain ⟨rfl, hline⟩ := hfirst
      exact ⟨line', hline, List.mem_cons_self⟩
    · obtain ⟨line', hline, hmem'⟩ := ih hmem
      exact ⟨line', hline, List.mem_cons_of_mem _ hmem'⟩

theorem Outline.Alike.isValid {o o' : Outline} (h : Outline.Alike o o') : o.isValid = o'.isValid := by
  rw [Outline.isValid, Outline.isValid, Bool.eq_iff_iff, List.isEmpty_iff_length_eq_zero,
    List.isEmpty_iff_length_eq_zero, h.invalidLines.length_eq]

theorem Outline.Alike.supplies {o o' : Outline} (h : Outline.Alike o o') {bindings : Bindings}
    (hsupplies : bindings.Supplies o) : bindings.Supplies o' where
  conditions := h.conditions ▸ hsupplies.conditions
  constants := h.constants ▸ hsupplies.constants

/-! ## Universal line ends -/

/-- Every carriage return of a text stands in front of a line feed. -/
def Text.ReturnsPaired (t : Text) : Prop :=
  ∀ i < t.length, t[i]? = some '\r' → t[i + 1]? = some '\n'

instance (t : Text) : Decidable t.ReturnsPaired :=
  inferInstanceAs (Decidable (∀ i < t.length, t[i]? = some '\r' → t[i + 1]? = some '\n'))

theorem Text.ReturnsPaired.tail {c : Char} {t : Text} (h : ReturnsPaired (c :: t)) : ReturnsPaired t := by
  intro i hi hreturn
  have hnext := h (i + 1) (by rw [List.length_cons]; omega)
  rw [List.getElem?_cons_succ, List.getElem?_cons_succ] at hnext
  exact hnext hreturn

/-- Such a text is one without carriage returns, and with some put in front of its line feeds. -/
theorem Text.ReturnsPaired.plain {t : Text} (h : t.ReturnsPaired) :
    ∃ plain, Returns plain t ∧ '\r' ∉ plain := by
  induction t with
  | nil => exact ⟨[], .nil, by simp⟩
  | cons c t ih =>
    obtain ⟨plain, hreturns, hplain⟩ := ih h.tail
    by_cases hc : c = '\r'
    · -- the line feed behind it is there already
      subst hc
      have hfeed : t[0]? = some '\n' := h 0 (by simp) rfl
      cases hreturns with
      | nil => cases hfeed
      | keep d hreturns =>
        cases hfeed
        exact ⟨_, .put hreturns, hplain⟩
      | put _ => cases hfeed
    · exact ⟨c :: plain, .keep c hreturns, by simpa [Ne.symm hc] using hplain⟩

theorem universalLines_returns {t t' : Text} (h : Returns t t') (hplain : '\r' ∉ t) :
    Text.universalLines t' = t := by
  have hfold : ∀ done, t'.foldl Text.universalStep (done, false) = (t.reverse ++ done, false) := by
    induction h with
    | nil => exact fun _ => rfl
    | @keep c t t' _ ih =>
      intro done
      rw [List.mem_cons, not_or] at hplain
      have hstep : Text.universalStep (done, false) c = (c :: done, false) := by
        simp [Text.universalStep, Ne.symm hplain.1]
      rw [List.foldl_cons, hstep, ih hplain.2, List.reverse_cons, List.append_assoc, List.singleton_append]
    | @put t t' _ ih =>
      intro done
      rw [List.mem_cons, not_or] at hplain
      have hreturn : Text.universalStep (done, false) '\r' = ('\n' :: done, true) := rfl
      have hfeed : Text.universalStep ('\n' :: done, true) '\n' = ('\n' :: done, false) := rfl
      rw [List.foldl_cons, List.foldl_cons, hreturn, hfeed, ih hplain.2, List.reverse_cons,
        List.append_assoc, List.singleton_append]
  rw [Text.universalLines, hfold]
  simp

/-! ## A mark in front -/

namespace Rule

theorem literal_cons (t line : Text) (offset : Nat) (c : Char) :
    (literal t (c :: line) (offset + 1)).toOption =
      (literal t line offset).toOption.map fun found => (found.1, found.2 + 1) := by
  unfold literal
  simp only [List.drop_succ_cons, List.length_cons, Nat.add_le_add_iff_right]
  split
  · simp [Except.toOption, Nat.add_right_comm]
  · rfl

theorem identifier_cons (line : Text) (offset : Nat) (c : Char) :
    (identifier (c :: line) (offset + 1)).toOption =
      (identifier line offset).toOption.map fun found => (found.1, found.2 + 1) := by
  unfold identifier
  simp only [List.drop_succ_cons]
  split
  · rfl
  · simp [Except.toOption, Nat.add_right_comm]

end Rule

namespace Line

variable {line : Text}

/-- A character in front of a content line, but for `#`, moves its placeholder. -/
theorem placeholder?_cons {c : Char} (hc : c ≠ '#') :
    (placeholder? (c :: line)).toOption = (placeholder? line).toOption.map
      (Option.map fun found => ⟨found.name, found.start + 1, found.stop + 1⟩) := by
  have hstart : ((c :: line).takeWhile (· != '#')).length = (line.takeWhile (· != '#')).length + 1 := by
    simp [hc]
  unfold placeholder?
  simp only [hstart, List.length_cons, Nat.add_right_cancel_iff]
  split
  · rfl
  · simp only [Rule.toOption_bind, Rule.literal_cons, Option.bind_map, Option.map_bind, Function.comp_def,
      Rule.identifier_cons]
    rfl

/-- A directive starts with a mark, which starts no placeholder. -/
theorem mark_of_kind (h : kind line ≠ .content) :
    ∃ x rest, line.dropWhile Text.isHorizontal = '#' :: x :: rest ∧ x ≠ '(' := by
  have hmark : importMark <+: line.dropWhile Text.isHorizontal ∨
      ifMark <+: line.dropWhile Text.isHorizontal ∨ elseMark <+: line.dropWhile Text.isHorizontal ∨
      endifMark <+: line.dropWhile Text.isHorizontal := by
    by_contra hnone
    simp only [not_or, ← List.isPrefixOf_iff_prefix] at hnone
    obtain ⟨himport, hif, helse, hendif⟩ := hnone
    simp [kind, startsWithMark, himport, hif, helse, hendif] at h
  rcases hmark with ⟨rest, hrest⟩ | ⟨rest, hrest⟩ | ⟨rest, hrest⟩ | ⟨rest, hrest⟩
  all_goals exact ⟨_, _, hrest.symm, by decide⟩

theorem placeholder?_of_kind (h : kind line ≠ .content) : (placeholder? line).toOption = none := by
  obtain ⟨x, rest, hrest, hx⟩ := mark_of_kind h
  have hblanks : ∀ c ∈ line.takeWhile Text.isHorizontal, (c != '#') = true := by
    intro c hc
    have hhorizontal : Text.isHorizontal c = true := List.mem_takeWhile_imp hc
    simp only [bne_iff_ne, ne_eq]
    rintro rfl
    exact absurd hhorizontal (by decide)
  have hline : line = line.takeWhile Text.isHorizontal ++ '#' :: x :: rest := by
    rw [← hrest, List.takeWhile_append_dropWhile]
  generalize line.takeWhile Text.isHorizontal = blanks at hblanks hline
  subst hline
  -- the first `#` of the line is the one of the mark
  have hstart : (blanks ++ '#' :: x :: rest).takeWhile (· != '#') = blanks := by
    rw [List.takeWhile_append_of_pos hblanks]
    simp
  have hopen : (Rule.literal ['#', '('] (blanks ++ '#' :: x :: rest) blanks.length).toOption = none := by
    simp [Rule.literal, List.isPrefixOf, Ne.symm hx, Except.toOption]
  have hmore : blanks.length ≠ (blanks ++ '#' :: x :: rest).length := by simp
  simp only [placeholder?, hstart, if_neg hmore, Rule.toOption_bind, hopen, Option.bind_none]

end Line

theorem Line.kind_mark (line : Text) : kind (Utf8.markChar :: line) = .content := by
  have hmark : Text.isHorizontal Utf8.markChar = false := by decide
  have hhash : ('#' == Utf8.markChar) = false := by decide
  simp [kind, startsWithMark, hmark, List.isPrefixOf, hhash, importMark, ifMark, elseMark, endifMark]

/-- A first line that is not malformed with a mark in front adds the same without it. -/
theorem Outline.addLine_mark {line : Text} (h : ¬ Malformed (Utf8.markChar :: line)) (o : Outline)
    (depth number : Nat) :
    o.addLine depth (number, Utf8.markChar :: line) = o.addLine depth (number, line) := by
  have hparse : (Line.placeholder? (Utf8.markChar :: line)).toOption = _ :=
    Line.placeholder?_cons (by decide)
  have hkind' := Line.kind_mark line
  simp only [Malformed, hkind', not_exists] at h
  cases hfound' : Line.placeholder? (Utf8.markChar :: line) with
  | error mismatch => exact absurd hfound' (h mismatch)
  | ok found' =>
    rw [hfound'] at hparse
    have hkind : Line.kind line = .content := by
      by_contra hkind
      rw [Line.placeholder?_of_kind hkind] at hparse
      cases hparse
    cases hfound : Line.placeholder? line with
    | error mismatch =>
      rw [hfound] at hparse
      cases hparse
    | ok found =>
      rw [hfound] at hparse
      cases hparse
      cases found with
      | none => simp only [addLine, hkind, hkind', hfound, hfound', Option.map_none]
      | some found => simp only [addLine, hkind, hkind', hfound, hfound', Option.map_some]

/-- **A valid outline of a source with a mark in front** is the outline of the source without it. -/
theorem Outline.ofSource_mark {t : Text} (h : (ofSource (Utf8.markChar :: t)).isValid = true) :
    ofSource (Utf8.markChar :: t) = ofSource t := by
  obtain ⟨heach, hclosed⟩ := isValid_ofSource h
  cases hlines : Text.lines t with
  | nil => exact absurd hlines (Text.split_ne_nil _ t)
  | cons first rest =>
    have hlines' : Text.lines (Utf8.markChar :: t) = (Utf8.markChar :: first) :: rest :=
      lines_cons (by decide) hlines
    have hfirst := (heach [] _ _ hlines').1
    have hadd : empty.addLines 0 1 (Text.lines (Utf8.markChar :: t)) = empty.addLines 0 1 (Text.lines t) := by
      rw [hlines, hlines', addLines, addLines, addLine_mark hfirst]
    have hclosed' : depthAfter (Text.lines t) = 0 := by
      rw [← hclosed, depthAfter, depthAfter, ← addLines_depth empty 0 1, ← addLines_depth empty 0 1, hadd]
    rw [ofSource_eq, ofSource_eq, if_pos hclosed, if_pos hclosed', hadd]

/-! ## Files -/

/-- The command line can read the file at a path and outlines it so. -/
def Command.Scans (console : Console) (t : Transcript) (path : Path) (o : Outline) : Prop :=
  survey console t ⟨[], true⟩ [path] = (.ok ⟨[(path, o)], o.isValid⟩, t)

/-- **The command line outlines what a file spells**, a mark included, with universal line ends. -/
theorem Command.scans_iff {console : Console} {t : Transcript} {path : Path} {content : ByteArray}
    {o : Outline} (hread : t.disk.readBytes path = .ok content) :
    Scans console t path o ↔ ∃ source, Utf8.Spells content.toList source ∧
      Outline.ofSource (Text.universalLines source) = o := by
  have huniversal : t.disk.readUniversal path =
      ((Utf8.decode content.toList).map Text.universalLines).mapError .encoding := by
    simp only [Disk.readUniversal, hread, bind, Except.bind, Except.mapError]
    cases Utf8.decode content.toList <;> rfl
  simp only [← Utf8.decode_eq_ok_iff]
  unfold Scans survey
  rw [huniversal]
  cases Utf8.decode content.toList with
  | error refusal =>
    refine iff_of_false (fun h => ?_) (by simp)
    -- what cannot be decoded is told, if it can be told, and leaves nothing found
    simp only [Except.map, Except.mapError] at h
    split at h
    · cases h
    · simp [survey] at h
  | ok source =>
    constructor
    · intro h
      simp only [Except.map, Except.mapError, survey, Prod.mk.injEq, Except.ok.injEq, Survey.mk.injEq] at h
      obtain ⟨⟨hfound, -⟩, -⟩ := h
      cases hfound
      exact ⟨source, rfl, rfl⟩
    · rintro ⟨source', hsource, rfl⟩
      cases hsource
      rfl

section
variable {engine : Engine} {disk : Disk} {bindings : Bindings} {request : String} {place : Place}
  {text : Text}

/-- A file that comes to a text has been read. -/
theorem Engine.sourceAt_of_process (hplace : disk.canonical? request = .ok place)
    (hcache : engine.cache.get? place.text = none)
    (h : (engine.process disk bindings request).1.1 = .ok text) :
    ∃ source, Flatten.sourceAt (engine.setting disk bindings) place = .ok source := by
  have hprocess : (engine.process disk bindings request).1 =
      Flatten.request (engine.setting disk bindings) request (.ofCache engine.cache) := rfl
  have hdisk : (engine.setting disk bindings).disk = disk := rfl
  have hread := Flatten.readText_eq (engine.setting disk bindings) place (.ofCache engine.cache)
  cases hsource : Flatten.sourceAt (engine.setting disk bindings) place with
  | ok source => exact ⟨source, rfl⟩
  | error cause =>
    rw [hsource] at hread
    rw [hprocess, Flatten.request, hdisk, hplace] at h
    simp only [Ledger.cache_ofCache, hcache, Flatten.file_eq, Flatten.fileWith, hread,
      Flatten.failFile] at h
    cases h

/-- Only hidden lines of a file that comes to a text may be invalid. -/
theorem Engine.hidden_of_invalid {source : Text} (hplace : disk.canonical? request = .ok place)
    (hcache : engine.cache.get? place.text = none)
    (hsource : Flatten.sourceAt (engine.setting disk bindings) place = .ok source)
    (h : (engine.process disk bindings request).1.1 = .ok text) {number : Nat} {line : Text}
    (hlisted : (number, line) ∈ (Outline.ofSource source).invalidLines) :
    ∃ hidden, LineAt bindings.conditions source number line hidden ∧ hidden.visible = false ∧
      (Line.kind line = .importLine ∨ Line.kind line = .content) := by
  have hprocess := process_source hplace hcache hsource
  rw [Prod.ext_iff, h] at hprocess
  obtain ⟨done, blocks, l₁, hlines, hfinish⟩ := Flatten.source_ok (Prod.ext hprocess.1.symm rfl)
  exact Flatten.hidden_of_invalid hlines hfinish hlisted

end

/-- A valid outline of the command line is the outline of what a call reads, but for carriage returns. -/
theorem Utf8.Spells.outline {bytes : List UInt8} {source : Text} (h : Spells bytes source)
    (hpaired : source.ReturnsPaired)
    (hvalid : (Outline.ofSource (Text.universalLines source)).isValid = true) :
    ∃ read, Spells (Utf8.dropMark bytes) read ∧
      Outline.Alike (.ofSource (Text.universalLines source)) (.ofSource read) := by
  obtain ⟨plain, hreturns, hplain⟩ := hpaired.plain
  rw [universalLines_returns hreturns hplain] at hvalid ⊢
  rcases mark_or_dropMark bytes with ⟨rest, rfl⟩ | hnone
  · obtain ⟨read, rfl, hspells⟩ := spells_mark.mp h
    cases hreturns with
    | keep _ hreturns =>
      rw [Outline.ofSource_mark hvalid]
      exact ⟨read, hspells, hreturns.outline⟩
  · exact ⟨source, by rwa [hnone], hreturns.outline⟩

/-! ## The theorem -/

/-- **Where the command line speaks for a call**, on a file that it reads by its path and that a new engine
finds at its canonical place, without a limit on its bytes or on its lines.  A file that comes to a text can
be outlined.  If every carriage return in it stands in front of a line feed, a valid outline without imports
means that the file comes to a text under bindings that supply what is listed.  If there is no byte order
mark in front either, and the file comes to a text, every line that is listed as invalid is an import or
content that is hidden where it stands. -/
theorem process_agrees_scan {console : Console} {t : Transcript} {path : Path} {place : Place}
    {content : ByteArray} {limits : Limits} (hplace : t.disk.canonical? path.toString = .ok place)
    (hpath : t.disk.readBytes path = .ok content) (hread : t.disk.readBytes place.path = .ok content)
    (hlength : limits.lineLength = none) (hbytes : limits.fileBytes = none) (bindings : Bindings) :
    (∀ text, ((Engine.create limits).process t.disk bindings path.toString).1.1 = .ok text →
      ∃ o, Command.Scans console t path o) ∧
    ∀ source o, Utf8.decode content.toList = .ok source → source.ReturnsPaired →
      Command.Scans console t path o →
      (o.imports = [] → o.isValid = true → bindings.Supplies o →
        ∃ text, ((Engine.create limits).process t.disk bindings path.toString).1.1 = .ok text) ∧
      (source.head? ≠ some Utf8.markChar →
        ∀ text, ((Engine.create limits).process t.disk bindings path.toString).1.1 = .ok text →
          ∀ number line, (number, line) ∈ o.invalidLines → ∃ line' hidden,
            LineAt bindings.conditions source number line' hidden ∧ (line' = line ∨ line' = line ++ ['\r']) ∧
            hidden.visible = false ∧ (Line.kind line' = .importLine ∨ Line.kind line' = .content)) := by
  have hcache : (Engine.create limits).cache.get? place.text = none := rfl
  have hsourceAt : ∀ {source}, Utf8.Spells (Utf8.dropMark content.toList) source →
      Flatten.sourceAt ((Engine.create limits).setting t.disk bindings) place = .ok source :=
    fun hspells => sourceAt_readable hbytes hread hspells
  refine ⟨fun text htext => ?_, fun source o hdecode hpaired hscans => ⟨fun himports hvalid hsupplies => ?_,
    fun hhead text htext number line hlisted => ?_⟩⟩
  · obtain ⟨read, hsource⟩ := Engine.sourceAt_of_process hplace hcache htext
    obtain ⟨-, content', hread', hdecode⟩ := Flatten.sourceAt_eq_ok_iff.mp hsource
    cases hread.symm.trans hread'
    obtain ⟨source, hspells⟩ := (Utf8.decode_eq_ok_iff.mp hdecode).of_dropMark
    exact ⟨_, (Command.scans_iff hpath).mpr ⟨source, hspells, rfl⟩⟩
  · obtain ⟨source', hspells, rfl⟩ := (Command.scans_iff hpath).mp hscans
    cases (Utf8.decode_eq_ok_iff.mpr hspells).symm.trans hdecode
    obtain ⟨read, hspells', halike⟩ := hspells.outline hpaired hvalid
    exact Engine.process_ok_of_valid hplace hcache (hsourceAt hspells') (halike.isValid ▸ hvalid)
      (halike.supplies hsupplies) hlength (halike.imports ▸ himports)
  · obtain ⟨source', hspells, rfl⟩ := (Command.scans_iff hpath).mp hscans
    cases (Utf8.decode_eq_ok_iff.mpr hspells).symm.trans hdecode
    obtain ⟨plain, hreturns, hplain⟩ := hpaired.plain
    rw [universalLines_returns hreturns hplain] at hlisted
    obtain ⟨line', hline, hlisted'⟩ := hreturns.outline.mem_invalidLines hlisted
    have hsource := hsourceAt (hspells.dropMark hhead ▸ hspells)
    obtain ⟨hidden, hat, hhidden, hkind⟩ := Engine.hidden_of_invalid hplace hcache hsource htext hlisted'
    exact ⟨line', hidden, hat, hline, hhidden, hkind⟩

/-- A condition that holds. -/
def oneCondition : Bindings := ⟨[("x", .bool true)], []⟩

/-- The command line on a disk with one shader. -/
def scanOf (shader : ByteArray) : Transcript := ⟨.pair shader .empty, [], [], []⟩

theorem oneCondition_supplies {o : Outline} (hconditions : o.conditions = [['x']])
    (hconstants : o.constants = []) : oneCondition.Supplies o where
  conditions := by
    have hx : String.ofList ['x'] = "x" := rfl
    simp [hconditions, oneCondition, Table.get?, hx]
  constants := by simp [hconstants]

section
variable {shader : ByteArray} {source : Text}

theorem sourceAt_scanOf (h : Utf8.Spells (Utf8.dropMark shader.toList) source) :
    Flatten.sourceAt ((Engine.create .oneLevel).setting (scanOf shader).disk oneCondition) ["a"] =
      .ok source :=
  sourceAt_readable rfl (Disk.readBytes_pair_shader shader .empty) h

theorem scans_scanOf (h : Utf8.Spells shader.toList source) :
    Command.Scans .plain (scanOf shader) (Place.path ["a"]) (.ofSource (Text.universalLines source)) :=
  (Command.scans_iff (Disk.readBytes_pair_shader shader .empty)).mpr ⟨source, h, rfl⟩

end

/-! A block whose lines end with a carriage return and a line feed. -/

/-- The source of that shader. -/
def pairedBlock : Text := "#if x\r\n#endif".toList

theorem process_agrees_scan_paired :
    pairedBlock.ReturnsPaired ∧
    ∃ text, ((Engine.create .oneLevel).process (scanOf (Utf8.ascii pairedBlock)).disk oneCondition
      (Place.path ["a"]).toString).1.1 = .ok text := by
  have hspells : Utf8.Spells (Utf8.ascii pairedBlock).toList pairedBlock :=
    Utf8.spells_ascii (by decide)
  have hpath : (Place.path ["a"]).toString = "/a" := by decide
  have hplace : (scanOf (Utf8.ascii pairedBlock)).disk.canonical? (Place.path ["a"]).toString =
      .ok ["a"] := by
    rw [hpath]
    exact Disk.canonical?_pair_shader _ _
  have hread := Disk.readBytes_pair_shader (Utf8.ascii pairedBlock) .empty
  have hpaired : pairedBlock.ReturnsPaired := by decide
  have hlength : Limits.oneLevel.lineLength = none := rfl
  obtain ⟨-, hscan⟩ := process_agrees_scan hplace hread hread hlength rfl oneCondition
  exact ⟨hpaired, (hscan _ _ (Utf8.decode_eq_ok_iff.mpr hspells) hpaired (scans_scanOf hspells)).1
    (by decide) (by decide) (oneCondition_supplies (by decide) (by decide))⟩

/-! ## Where the command line does not speak for a call -/

/-- A block with a byte order mark in front. -/
def markedBlock : ByteArray := (Utf8.mark ++ "#if x\n#endif".toList.map Utf8.asciiByte).toByteArray

/-- Content and a block with carriage returns between them, and no line feed. -/
def returnedBlock : ByteArray := Utf8.ascii "a\r#if x\r#endif".toList

theorem spells_markedBlock :
    Utf8.Spells markedBlock.toList (Utf8.markChar :: "#if x\n#endif".toList) := by
  rw [markedBlock, Utf8.toList_toByteArray]
  exact Utf8.spells_mark.mpr ⟨_, rfl, Utf8.spells_asciiBytes (by decide)⟩

theorem spells_returnedBlock : Utf8.Spells returnedBlock.toList "a\r#if x\r#endif".toList :=
  Utf8.spells_ascii (by decide)

/-- **The command line and a call disagree.**  A block with a byte order mark in front comes to a text, but
its first line, which is visible and no import or content, is listed as invalid.  A file in which single
carriage returns part the lines has a valid outline without imports, but it does not come to a text although
all that is listed is supplied. -/
theorem scan_disagrees :
    (∃ text o, ((Engine.create .oneLevel).process (scanOf markedBlock).disk oneCondition
        "/a").1.1 = .ok text ∧
      Command.Scans .plain (scanOf markedBlock) (Place.path ["a"]) o ∧
      (1, Utf8.markChar :: "#if x".toList) ∈ o.invalidLines ∧
      LineAt oneCondition.conditions "#if x\n#endif".toList 1 "#if x".toList .none ∧
      Line.kind "#if x".toList = .ifLine) ∧
    ∃ o, Command.Scans .plain (scanOf returnedBlock) (Place.path ["a"]) o ∧ o.imports = [] ∧
      o.isValid = true ∧
      oneCondition.Supplies o ∧
      ∀ text, ((Engine.create .oneLevel).process (scanOf returnedBlock).disk oneCondition "/a").1.1 ≠
        .ok text := by
  constructor
  · -- the call does not see the mark
    have hsource : Flatten.sourceAt ((Engine.create .oneLevel).setting (scanOf markedBlock).disk
        oneCondition) ["a"] = .ok "#if x\n#endif".toList := by
      refine sourceAt_scanOf ?_
      rw [markedBlock, Utf8.toList_toByteArray, Utf8.dropMark_mark]
      exact Utf8.spells_asciiBytes (by decide)
    obtain ⟨text, htext⟩ := Engine.process_ok_of_valid (Disk.canonical?_pair_shader _ _) rfl hsource
      (by decide) (oneCondition_supplies (by decide) (by decide)) rfl (by decide)
    exact ⟨text, _, htext, scans_scanOf spells_markedBlock, by decide,
      ⟨[], ["#endif".toList], by decide, rfl, rfl⟩, by decide⟩
  · refine ⟨_, scans_scanOf spells_returnedBlock, by decide, by decide,
      oneCondition_supplies (by decide) (by decide), fun text htext => ?_⟩
    -- to the call the file is one line, with a `#` that starts no placeholder
    have hsource : Flatten.sourceAt ((Engine.create .oneLevel).setting (scanOf returnedBlock).disk
        oneCondition) ["a"] = .ok "a\r#if x\r#endif".toList := by
      refine sourceAt_scanOf ?_
      rw [spells_returnedBlock.dropMark (by decide)]
      exact spells_returnedBlock
    have hlisted : (1, "a\r#if x\r#endif".toList) ∈
        (Outline.ofSource "a\r#if x\r#endif".toList).invalidLines := by decide
    obtain ⟨hidden, ⟨passed, rest, -, hnumber, hblocks⟩, hhidden, -⟩ :=
      Engine.hidden_of_invalid (Disk.canonical?_pair_shader _ _) rfl hsource htext hlisted
    cases passed with
    | nil =>
      cases hblocks
      cases hhidden
    | cons first passed =>
      rw [List.length_cons] at hnumber
      omega

end ShaderFlatten
