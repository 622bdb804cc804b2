import ShaderFlatten.Proofs.Contents
import ShaderFlatten.Proofs.Parallel
import ShaderFlatten.Proofs.Returns
import ShaderFlatten.Proofs.Spelling

/-!
# Line ends and byte order marks

Files may end their lines with a line feed or with a carriage return and a line feed, and they may have a
byte order mark in front.  Where some files of a tree are given other line ends or a mark, every request
comes to a text if it did before, and then the texts are the same but for carriage returns; or it fails in
the same way at the same lines:

    (Engine.create limits).process disk bindings request
    (Engine.create limits).process (disk.restyle style) bindings request

Lines are cut at line feeds only, so the carriage return stays at the end of its line.  The grammar does
not see it there, content carries it through, and whether some text follows a line is the same for both.
-/

namespace ShaderFlatten

/-- A text without its carriage returns. -/
def Text.dropReturns (t : Text) : Text := t.filter (· != '\r')

/-- A line may have one more carriage return at its end, texts are the same but for carriage returns, and
messages are arbitrary. -/
def Likeness.returns : Likeness where
  line a a' := a' = a ∨ a' = a ++ ['\r']
  text t t' := t.dropReturns = t'.dropReturns
  message _ _ := True
  line_refl _ := .inl rfl
  text_refl _ := rfl
  message_refl _ := trivial
  text_append h₁ h₂ := by
    rw [Text.dropReturns, Text.dropReturns, List.filter_append, List.filter_append]
    exact congrArg₂ (· ++ ·) h₁ h₂

/-! ## Lines -/

theorem ParsesAlike.of_toOption {α : Type} {cause : Mismatch → Cause} {x y : Except Mismatch α}
    (hkind : ∀ a b, (cause a).kind = (cause b).kind) (h : y.toOption = x.toOption) :
    ParsesAlike .returns cause x y := by
  cases x with
  | error mismatch =>
    cases y with
    | error mismatch' => exact .error (.ofCause (hkind _ _) trivial)
    | ok a => cases h
  | ok a =>
    cases y with
    | error mismatch => cases h
    | ok b =>
      cases h
      exact .ok a

section
variable {line line' : Text}

theorem kind_alike (h : Likeness.returns.line line line') : Line.kind line = Line.kind line' := by
  rcases h with rfl | rfl
  · rfl
  · exact (Line.kind_return line).symm

theorem importPath?_alike (h : Likeness.returns.line line line') :
    ParsesAlike .returns .malformedImport (Line.importPath? line) (Line.importPath? line') := by
  rcases h with rfl | rfl
  · exact .refl _ _
  · exact .of_toOption (fun _ _ => rfl) (Line.importPath?_return line)

theorem condition?_alike (h : Likeness.returns.line line line') :
    ParsesAlike .returns (.malformedDirective .ifLine) (Line.condition? line) (Line.condition? line') := by
  rcases h with rfl | rfl
  · exact .refl _ _
  · exact .of_toOption (fun _ _ => rfl) (Line.condition?_return line)

theorem bare?_alike (h : Likeness.returns.line line line') (kind : LineKind) {mark : Text}
    (hmark : '\r' ∉ mark) (hne : mark ≠ []) :
    ParsesAlike .returns (.malformedDirective kind) (Line.bare? mark line) (Line.bare? mark line') := by
  rcases h with rfl | rfl
  · exact .refl _ _
  · exact .of_toOption (fun _ _ => rfl) (Line.bare?_return line hmark hne)

/-- Directives that are alike do the same to the open blocks. -/
theorem turnBlocks_alike (h : Likeness.returns.line line line') (conditions : Table Value)
    (blocks : OpenBlocks) :
    TurnsAlike .returns (Flatten.turnBlocks conditions blocks line)
      (Flatten.turnBlocks conditions blocks line') := by
  unfold Flatten.turnBlocks
  rw [← kind_alike h]
  have hif := condition?_alike h
  have helse : ParsesAlike .returns (.malformedDirective .elseLine) (Line.bare? Line.elseMark line)
      (Line.bare? Line.elseMark line') := bare?_alike h _ (by decide) (by decide)
  have hendif : ParsesAlike .returns (.malformedDirective .endifLine) (Line.bare? Line.endifMark line)
      (Line.bare? Line.endifMark line') := bare?_alike h _ (by decide) (by decide)
  cases Line.kind line with
  | ifLine =>
    generalize Line.condition? line = parsed, Line.condition? line' = parsed' at hif
    cases hif with
    | ok name => exact .refl _
    | error hfailure => exact .error hfailure
  | elseLine =>
    generalize Line.bare? Line.elseMark line = parsed, Line.bare? Line.elseMark line' = parsed' at helse
    cases helse with
    | ok _ => exact .refl _
    | error hfailure => exact .error hfailure
  | endifLine =>
    generalize Line.bare? Line.endifMark line = parsed, Line.bare? Line.endifMark line' = parsed' at hendif
    cases hendif with
    | ok _ => exact .refl _
    | error hfailure => exact .error hfailure
  | importLine => exact .none
  | content => exact .none

theorem placeholder?_alike (h : Likeness.returns.line line line') :
    ParsesAlike .returns .malformedPlaceholder (Line.placeholder? line) (Line.placeholder? line') := by
  rcases h with rfl | rfl
  · exact .refl _ _
  · exact .of_toOption (fun _ _ => rfl) (Line.placeholder?_return line)

theorem dropReturns_return (t : Text) : (t ++ ['\r']).dropReturns = t.dropReturns := by
  simp [Text.dropReturns]

theorem dropReturns_alike (h : Likeness.returns.line line line') :
    line.dropReturns = line'.dropReturns := by
  rcases h with rfl | rfl
  · rfl
  · exact (dropReturns_return line).symm

/-- A text put in the place of a part of the line leaves the lines alike. -/
theorem splice_alike (h : Likeness.returns.line line line') {start stop : Nat} (hstart : start ≤ line.length)
    (hstop : stop ≤ line.length) (t : Text) :
    Likeness.returns.line (line.take start ++ t ++ line.drop stop)
      (line'.take start ++ t ++ line'.drop stop) := by
  rcases h with rfl | rfl
  · exact .inl rfl
  · right
    rw [List.take_append_of_le_length hstart, List.drop_append_of_le_length hstop]
    simp only [List.append_assoc]

/-- Content that is alike stands for texts that are alike. -/
theorem substitute_alike (h : Likeness.returns.line line line') (constants : Table Value) :
    ResultsAlike .returns (Line.substitute line constants none) (Line.substitute line' constants none) := by
  have hparse := placeholder?_alike h
  unfold Line.substitute
  generalize hfound : Line.placeholder? line = parsed, Line.placeholder? line' = parsed' at hparse
  cases hparse with
  | error hfailure => exact .failed hfailure
  | ok found =>
    cases found with
    | none => exact .text (dropReturns_alike h)
    | some found =>
      obtain ⟨hstart, hstop⟩ := Line.placeholder?_le hfound
      simp only [exceeds, Option.filter_none]
      split
      · exact .failed (.same _)
      · split
        · next halt hrender => exact .halt (render_ofLine hrender).1
        · exact .text (dropReturns_alike (splice_alike h hstart hstop _))

end

/-! ## Sources -/

theorem lines_lineFeed (t : Text) : Text.lines ('\n' :: t) = [] :: Text.lines t := by
  cases hlines : Text.lines t with
  | nil => exact absurd hlines (Text.split_ne_nil _ t)
  | cons first rest =>
    have hcons : Text.lines ('\n' :: t) = Text.consPart '\n' '\n' (Text.lines t) := rfl
    rw [hcons, hlines]
    rfl

theorem lines_cons {c : Char} (hc : c ≠ '\n') {t first : Text} {rest : List Text}
    (hlines : Text.lines t = first :: rest) : Text.lines (c :: t) = (c :: first) :: rest := by
  have hcons : Text.lines (c :: t) = Text.consPart '\n' c (Text.lines t) := rfl
  rw [hcons, hlines, Text.consPart, if_neg hc]

theorem hasText_cons (line t : Text) : Flatten.hasText (line :: Text.lines t) = true := by
  cases hlines : Text.lines t with
  | nil => exact absurd hlines (Text.split_ne_nil _ t)
  | cons first rest => rfl

/-- **Lines are alike** if the texts are the same but for carriage returns in front of line feeds. -/
theorem Returns.lines {t t' : Text} (h : Returns t t') :
    LinesAlike .returns (Text.lines t) (Text.lines t') ∧
      Flatten.hasText (Text.lines t) = Flatten.hasText (Text.lines t') := by
  induction h with
  | nil => exact ⟨.refl _, rfl⟩
  | @put t t' _ ih =>
    have hreturn : Text.lines ('\r' :: '\n' :: t') = ['\r'] :: Text.lines t' :=
      lines_cons (by decide) (lines_lineFeed t')
    rw [lines_lineFeed, hreturn, hasText_cons, hasText_cons]
    exact ⟨.cons (.inr rfl) ih.2 ih.1, rfl⟩
  | @keep c t t' _ ih =>
    by_cases hc : c = '\n'
    · subst hc
      rw [lines_lineFeed, lines_lineFeed, hasText_cons, hasText_cons]
      exact ⟨.cons (.inl rfl) ih.2 ih.1, rfl⟩
    · obtain ⟨hlines, -⟩ := ih
      generalize ht : Text.lines t = lines, ht' : Text.lines t' = lines' at hlines
      cases hlines with
      | nil => exact absurd ht (Text.split_ne_nil _ t)
      | @cons first first' rest rest' hfirst hmore hrest =>
        rw [lines_cons hc ht, lines_cons hc ht']
        refine ⟨.cons ?_ hmore hrest, ?_⟩
        · rcases hfirst with rfl | rfl
          · exact .inl rfl
          · exact .inr rfl
        · cases hrest <;> rfl

/-! ## Files -/

/-- How a file is written: with a carriage return in front of every line feed or not, and with a byte order
mark in front or not. -/
structure FileStyle where
  returns : Bool
  mark : Bool

/-- The bytes of a file, written in a style. -/
def FileStyle.write (style : FileStyle) (bytes : List UInt8) : List UInt8 :=
  (if style.mark then Utf8.mark else []) ++ if style.returns then Utf8.withReturns bytes else bytes

/-- A disk with its files written in other styles. -/
def Disk.restyle (disk : Disk) (style : Place → FileStyle) : Disk :=
  disk.mapFiles fun place content => ((style place).write content.toList).toByteArray

/-- The files of a tree are UTF-8, and none of them has a byte order mark in front. -/
def FileTree.Unmarked (tree : FileTree) : Prop :=
  ∀ place content, tree.entry? place = some (.file content) →
    ∃ text, Utf8.decode content.toList = .ok text ∧ text.head? ≠ some Utf8.markChar

theorem Returns.head?_ne {t t' : Text} (h : Returns t t') (hhead : t.head? ≠ some Utf8.markChar) :
    t'.head? ≠ some Utf8.markChar := by
  cases h with
  | nil => exact hhead
  | keep c _ => exact hhead
  | put _ => simp [Utf8.markChar]

/-- A file written in a style is read as a text with carriage returns in front of line feeds. -/
theorem FileStyle.spells (style : FileStyle) {bytes : List UInt8} {text : Text}
    (h : Utf8.Spells bytes text) (hhead : text.head? ≠ some Utf8.markChar) :
    ∃ text', Utf8.Spells (Utf8.dropMark (style.write bytes)) text' ∧ Returns text text' := by
  -- the bytes behind the mark, if there is one
  have hbody : ∃ text', Utf8.Spells (if style.returns then Utf8.withReturns bytes else bytes) text' ∧
      Returns text text' := by
    split
    · exact h.withReturns
    · exact ⟨text, h, .refl text⟩
  obtain ⟨text', hspells, hreturns⟩ := hbody
  refine ⟨text', ?_, hreturns⟩
  unfold FileStyle.write
  split
  · rwa [Utf8.dropMark_mark]
  · rwa [List.nil_append, hspells.dropMark (hreturns.head?_ne hhead)]

section
variable {s s' : Setting} {style : Place → FileStyle} {place : Place}

theorem sourceAt_unreadable (hlimit : s.readLimit = none) {fault : Fault}
    (hread : s.disk.readBytes place.path = .error fault) :
    Flatten.sourceAt s place = .error (.unreadable fault) := by
  simp only [Flatten.sourceAt, Flatten.sizeObstacle, hlimit, Flatten.textAt, hread]

theorem sourceAt_readable (hlimit : s.readLimit = none) {content : ByteArray} {text : Text}
    (hread : s.disk.readBytes place.path = .ok content)
    (hspells : Utf8.Spells (Utf8.dropMark content.toList) text) : Flatten.sourceAt s place = .ok text := by
  have hsize : Flatten.sizeObstacle s place = none := by simp only [Flatten.sizeObstacle, hlimit]
  exact Flatten.sourceAt_eq_ok_iff.mpr ⟨hsize, content, hread, Utf8.decode_eq_ok_iff.mpr hspells⟩

/-- The source of a file is alike in every style. -/
theorem sourceAt_restyle (hlimit : s.readLimit = none) (hlimit' : s'.readLimit = none)
    (hdisk : s'.disk = s.disk.restyle style) (hfiles : s.disk.tree.Unmarked) (place : Place) :
    SourcesAlike .returns (Flatten.sourceAt s place) (Flatten.sourceAt s' place) := by
  cases hread : s.disk.readBytes place.path with
  | error fault =>
    have hread' : s'.disk.readBytes place.path = .error fault := by
      rw [hdisk]
      exact Disk.readBytes_mapFiles_error hread
    rw [sourceAt_unreadable hlimit hread, sourceAt_unreadable hlimit' hread']
    exact .cause _
  | ok content =>
    obtain ⟨reached, hstat, -, hread'⟩ := Disk.readBytes_mapFiles_ok
      (fun place content => ((style place).write content.toList).toByteArray) hread
    rw [← Disk.restyle, ← hdisk] at hread'
    obtain ⟨text, hdecode, hhead⟩ := hfiles reached content (Disk.entry?_of_stat hstat)
    have hspells := Utf8.decode_eq_ok_iff.mp hdecode
    obtain ⟨text', hspells', hreturns⟩ := (style reached).spells hspells hhead
    rw [← hspells.dropMark hhead] at hspells
    rw [← Utf8.toList_toByteArray ((style reached).write content.toList)] at hspells'
    rw [sourceAt_readable hlimit hread hspells, sourceAt_readable hlimit' hread' hspells']
    exact .text hreturns.lines.1

/-- **Settings with files in other styles** are parallel. -/
theorem Parallel.of_restyle (hlength : s.limits.lineLength = none) (hlimit : s.readLimit = none)
    (hfiles : s.disk.tree.Unmarked) (style : Place → FileStyle) :
    Parallel .returns s { s with disk := s.disk.restyle style } where
  limits := rfl
  source := sourceAt_restyle hlimit hlimit rfl hfiles
  move chain place blocks line line' hline := by
    refine .ofLine (fun request => ?_) (kind_alike hline) (turnBlocks_alike hline _ _)
      (importPath?_alike hline) ?_
    · exact (s.disk.canonical?_mapFiles _ request).symm
    · rw [hlength]
      exact substitute_alike hline _

end

/-! ## The theorem -/

theorem positions_alike {trace trace' : List Diagnostic}
    (h : List.Forall₂ (Diagnostic.Alike .returns) trace trace') :
    trace.map (fun d => (d.path, d.lineNumber)) = trace'.map fun d => (d.path, d.lineNumber) := by
  induction h with
  | nil => rfl
  | cons hfirst _ ih => rw [List.map_cons, List.map_cons, hfirst.path, hfirst.lineNumber, ih]

/-- **Line ends and byte order marks make no difference.**  Take a tree of UTF-8 files without a byte order
mark and limits that bound neither the bytes of a file nor the length of a line, and give any files other
line ends or a mark.  A request to a new engine comes to a text on the changed disk exactly if it does on the
first one, and the two texts are equal without their carriage returns.  A failure has the same kind, path
and line number on both and crosses the same lines of the same files, and a refusal is the same. -/
theorem process_ignores_line_ends {disk : Disk} {limits : Limits} (hlength : limits.lineLength = none)
    (hbytes : limits.fileBytes = none) (hfiles : disk.tree.Unmarked) (style : Place → FileStyle)
    (bindings : Bindings) (request : String) :
    ((∃ text, ((Engine.create limits).process disk bindings request).1.1 = .ok text) ↔
      ∃ text, ((Engine.create limits).process (disk.restyle style) bindings request).1.1 = .ok text) ∧
    (∀ text, ((Engine.create limits).process disk bindings request).1.1 = .ok text →
      ∃ text', ((Engine.create limits).process (disk.restyle style) bindings request).1.1 = .ok text' ∧
        text'.dropReturns = text.dropReturns) ∧
    (∀ failure, ((Engine.create limits).process disk bindings request).1.1 = .error (.failed failure) →
      ∃ failure', ((Engine.create limits).process (disk.restyle style) bindings request).1.1 =
          .error (.failed failure') ∧
        failure'.kind = failure.kind ∧ failure'.path = failure.path ∧
        failure'.lineNumber = failure.lineNumber ∧
        failure'.trace.map (fun d => (d.path, d.lineNumber)) =
          failure.trace.map fun d => (d.path, d.lineNumber)) ∧
    ∀ refusal, ((Engine.create limits).process disk bindings request).1.1 = .error (.refused refusal) →
      ((Engine.create limits).process (disk.restyle style) bindings request).1.1 =
        .error (.refused refusal) := by
  have hparallel : Parallel .returns ((Engine.create limits).setting disk bindings)
      ((Engine.create limits).setting (disk.restyle style) bindings) :=
    .of_restyle hlength hbytes hfiles style
  have hcache : CachesAlike .returns (Engine.create limits).cache (Engine.create limits).cache :=
    fun _ => .none
  have hrequest : disk.canonical? request = (disk.restyle style).canonical? request :=
    (disk.canonical?_mapFiles _ request).symm
  have hresults := (Engine.process_parallel hparallel hcache hrequest).result
  generalize ((Engine.create limits).process disk bindings request).1.1 = result,
    ((Engine.create limits).process (disk.restyle style) bindings request).1.1 = result' at hresults
  cases hresults with
  | text htext => simp [htext.symm]
  | failed hfailure =>
    have htrace := positions_alike hfailure.trace
    simp [hfailure.kind, hfailure.path, hfailure.lineNumber, htrace]
  | refused refusal => simp

/-! A shader that imports the other file and ends its lines in another way than before. -/

theorem unmarked_pair {shader part : Text} (hshader : (shader.all fun c => c.toNat < 128) = true)
    (hpart : (part.all fun c => c.toNat < 128) = true) :
    (Disk.pair (Utf8.ascii shader) (Utf8.ascii part)).tree.Unmarked := by
  have hunmarked : ∀ {t : Text}, (t.all fun c => c.toNat < 128) = true →
      ∃ text, Utf8.decode (Utf8.ascii t).toList = .ok text ∧ text.head? ≠ some Utf8.markChar := by
    intro t hascii
    refine ⟨t, Utf8.decode_eq_ok_iff.mpr (Utf8.spells_ascii hascii), fun hhead => ?_⟩
    have hmark := List.all_eq_true.mp hascii _ (List.mem_of_mem_head? hhead)
    revert hmark
    decide
  intro place content hentry
  rcases Disk.content_pair hentry with rfl | rfl
  · exact hunmarked hshader
  · exact hunmarked hpart

/-- A disk with a shader of two lines that imports a part. -/
def importingDisk : Disk :=
  .pair (Utf8.ascii "#import \"b.wgsl\"\nx".toList) (Utf8.ascii "y\n".toList)

theorem importingDisk_unmarked : importingDisk.tree.Unmarked := unmarked_pair (by decide) (by decide)

theorem process_ignores_line_ends_import :
    importingDisk.tree.Unmarked ∧
    ((∃ text, ((Engine.create .oneLevel).process importingDisk .empty "/a").1.1 = .ok text) ↔
      ∃ text, ((Engine.create .oneLevel).process (importingDisk.restyle fun _ => ⟨true, true⟩) .empty
        "/a").1.1 = .ok text) :=
  ⟨importingDisk_unmarked, (process_ignores_line_ends rfl rfl importingDisk_unmarked _ _ _).1⟩

end ShaderFlatten
