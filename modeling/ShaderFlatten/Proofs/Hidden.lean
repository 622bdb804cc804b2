import ShaderFlatten.Proofs.Contents
import ShaderFlatten.Proofs.Preflight

/-!
# Hidden lines are dead

A line that is an import or content and stands in a hidden block is passed over.  It may be deleted, or
replaced by another import or content line, in any files of a tree, and a call that has come to a text
comes to it again in the same way:

    engine.process (disk.mapFiles edit) bindings request = engine.process disk bindings request

with the same ledger and the same cache behind it.

A line feed is emitted behind a line only if some text of its source follows, so that a deletion could be
seen at the end of a source.  But a hidden line is never among the last lines of a source that closes its
blocks: behind it there is at least the directive that makes the end visible (`HiddenEdit.hasText`).
-/

namespace ShaderFlatten

namespace Flatten

/-! ## Edits -/

/-- A line that is an import or content, and no conditional directive. -/
def IsPlain (line : Text) : Prop := Line.kind line = .importLine ∨ Line.kind line = .content

/-- Edits of hidden lines, from where these blocks are open: a hidden import or content line is deleted or
replaced by another one.  What stands behind a directive that fails has no blocks and is not restricted. -/
inductive HiddenEdit (conditions : Table Value) : OpenBlocks → List Text → List Text → Prop
  | nil {blocks} : HiddenEdit conditions blocks [] []
  | keep {blocks blocks' line rest rest'} : passBlocks conditions blocks line = some blocks' →
      HiddenEdit conditions blocks' rest rest' → HiddenEdit conditions blocks (line :: rest) (line :: rest')
  | stop {blocks line rest rest'} : passBlocks conditions blocks line = none →
      HiddenEdit conditions blocks (line :: rest) (line :: rest')
  | delete {blocks line rest rest'} : blocks.visible = false → IsPlain line →
      HiddenEdit conditions blocks rest rest' → HiddenEdit conditions blocks (line :: rest) rest'
  | replace {blocks line line' rest rest'} : blocks.visible = false → IsPlain line → IsPlain line' →
      HiddenEdit conditions blocks rest rest' → HiddenEdit conditions blocks (line :: rest) (line' :: rest')

theorem IsPlain.turnBlocks {line : Text} (h : IsPlain line) (conditions : Table Value) (blocks : OpenBlocks) :
    turnBlocks conditions blocks line = none :=
  turnBlocks_eq_none_iff.mpr h

theorem IsPlain.passBlocks {line : Text} (h : IsPlain line) (conditions : Table Value)
    (blocks : OpenBlocks) : passBlocks conditions blocks line = some blocks := by
  rw [Flatten.passBlocks, h.turnBlocks]

section
variable {conditions : Table Value} {blocks blocks' : OpenBlocks} {rest rest' : List Text}

theorem HiddenEdit.refl (conditions : Table Value) (blocks : OpenBlocks) (rest : List Text) :
    HiddenEdit conditions blocks rest rest := by
  induction rest generalizing blocks with
  | nil => exact .nil
  | cons line rest ih =>
    cases hpass : passBlocks conditions blocks line with
    | none => exact .stop hpass
    | some blocks' => exact .keep hpass (ih blocks')

theorem visible_of_finish (h : blocks.finish = .ok ()) : blocks.visible = true := by
  unfold OpenBlocks.finish at h
  split at h
  · next hnone => rw [OpenBlocks.visible, List.isEmpty_iff.mp hnone, List.all_nil]
  · cases h

/-- Lines that can all be deleted leave the end hidden. -/
theorem HiddenEdit.eq_nil (h : HiddenEdit conditions blocks rest [])
    (hpass : rest.foldlM (passBlocks conditions) blocks = some blocks')
    (hvisible : blocks'.visible = true) : rest = [] := by
  have hhidden : rest ≠ [] → blocks.visible = false := by
    cases h with
    | nil => simp
    | delete hhidden _ _ => exact fun _ => hhidden
  have hsame : blocks' = blocks := by
    generalize hend : ([] : List Text) = rest' at h
    clear hhidden
    induction h with
    | nil =>
      cases hpass
      rfl
    | keep => cases hend
    | stop => cases hend
    | replace => cases hend
    | delete _ hplain _ ih =>
      rw [List.foldlM_cons, hplain.passBlocks] at hpass
      exact ih hpass hend
  by_contra hne
  rw [hsame, hhidden hne] at hvisible
  cases hvisible

/-- **An edit does not change whether some text follows** a visible line of a source whose end is visible. -/
theorem HiddenEdit.hasText (h : HiddenEdit conditions blocks rest rest') (hvisible : blocks.visible = true)
    (hpass : rest.foldlM (passBlocks conditions) blocks = some blocks')
    (hfinish : blocks'.visible = true) : hasText rest' = hasText rest := by
  cases h with
  | nil => rfl
  | stop hstop => simp [hstop] at hpass
  | delete hhidden => simp [hvisible] at hhidden
  | replace hhidden => simp [hvisible] at hhidden
  | @keep _ blocks₁ line rest₁ rest₁' hpass₁ hedit =>
    rw [List.foldlM_cons, hpass₁] at hpass
    cases rest₁' with
    | nil => rw [hedit.eq_nil hpass hfinish]
    | cons first' behind' =>
      cases hedit <;> rfl

end

/-! ## Runs -/

/-- A setting with another disk, where hidden lines of the sources have been edited. -/
structure Edited (s s' : Setting) : Prop where
  bindings : s'.bindings = s.bindings
  limits : s'.limits = s.limits
  canonical : ∀ request, s'.disk.canonical? request = s.disk.canonical? request
  source : ∀ place text, sourceAt s place = .ok text → ∃ text', sourceAt s' place = .ok text' ∧
    HiddenEdit s.bindings.conditions .none (Text.lines text) (Text.lines text')

/-- Where one way to flatten imports comes to a text, the other one does so too, in the same way. -/
def Repeats (visit visit' : Visit) : Prop :=
  ∀ {chain place l text l'}, visit chain place l = (.ok text, l') → visit' chain place l = (.ok text, l')

section
variable {s s' : Setting} {visit visit' : Option Visit} {chain : List String} {place : Place}
  {blocks blocks' : OpenBlocks} {l l' : Ledger}

theorem Edited.importText (h : Edited s s') (hvisit : Option.Rel Repeats visit visit') {line text : Text}
    (htext : importText s visit chain place line l = (.ok text, l')) :
    Flatten.importText s' visit' chain place line l = (.ok text, l') := by
  unfold Flatten.importText at htext ⊢
  split at htext
  · cases htext
  · rw [h.canonical]
    split at htext
    · cases htext
    · cases htext
    · next target _ =>
      by_cases hopen : target.text ∈ chain
      · simp [hopen] at htext
      · simp only [if_neg hopen] at htext ⊢
        cases hcache : l.cache.get? target.text with
        | some cached => simpa [hcache] using htext
        | none =>
          cases hvisit with
          | none => simp [hcache] at htext
          | some hrepeats =>
            simp only [hcache] at htext ⊢
            exact hrepeats htext

/-- A line that goes on does so again. -/
theorem Edited.line (h : Edited s s') (hvisit : Option.Rel Repeats visit visit') {line : Text}
    {went : Option Text × OpenBlocks}
    (hline : Flatten.line s visit chain place blocks line l = (.ok went, l')) :
    Flatten.line s' visit' chain place blocks line l = (.ok went, l') := by
  unfold Flatten.line at hline ⊢
  rw [h.bindings]
  split at hline
  · cases hline
  · exact hline
  · split at hline
    · next hvisible =>
      rw [if_pos hvisible]
      unfold lineText at hline ⊢
      rw [h.bindings, h.limits]
      split at hline
      · cases hline
      · next text l₁ htext =>
        split at htext
        · next hkind =>
          rw [if_pos hkind, h.importText hvisit htext]
          exact hline
        · next hkind =>
          rw [if_neg hkind, htext]
          exact hline
    · next hhidden =>
      rw [if_neg hhidden]
      exact hline

/-- A plain line that is hidden is passed over. -/
theorem line_hidden {line : Text} (hplain : IsPlain line) (hhidden : blocks.visible = false) :
    Flatten.line s visit chain place blocks line l = (.ok (none, blocks), l) := by
  simp [Flatten.line, hplain.turnBlocks, hhidden]

/-- A line that emits a text is visible, and so is what stands behind it. -/
theorem visible_of_line {line text : Text}
    (h : Flatten.line s visit chain place blocks line l = (.ok (some text, blocks'), l')) :
    blocks'.visible = true := by
  unfold Flatten.line at h
  split at h
  · cases h
  · cases h
  · split at h
    · next hvisible =>
      split at h
      · cases h
      · cases h
        exact hvisible
    · cases h

/-- **Edited lines go on as before**, by induction on the edit.  The numbers of the lines are not the
same, but only failures show them. -/
theorem Edited.lines (h : Edited s s') (hvisit : Option.Rel Repeats visit visit') {rest rest' : List Text}
    (hedit : HiddenEdit s.bindings.conditions blocks rest rest') {number : Nat} (number' : Nat)
    {done done' : List Text}
    (hlines : lines s visit chain place number blocks done rest l = (.ok (done', blocks'), l'))
    (hfinish : blocks'.finish = .ok ()) :
    Flatten.lines s' visit' chain place number' blocks done rest' l = (.ok (done', blocks'), l') := by
  induction hedit generalizing number number' done l with
  | nil => exact hlines
  | @stop blocks line rest rest' hstop =>
    have hpass := (lines_ok hlines).1
    simp [hstop] at hpass
  | @delete blocks line rest rest' hhidden hplain _ ih =>
    rw [Flatten.lines, line_hidden hplain hhidden] at hlines
    exact ih number' hlines
  | @replace blocks line line' rest rest' hhidden hplain hplain' _ ih =>
    rw [Flatten.lines, line_hidden hplain hhidden] at hlines
    rw [Flatten.lines, line_hidden hplain' hhidden]
    exact ih (number' + 1) hlines
  | @keep blocks blocks₁ line rest rest' hpass hedit ih =>
    rw [Flatten.lines] at hlines ⊢
    cases hline : Flatten.line s visit chain place blocks line l with
    | mk result l₁ =>
      rcases result with (failure | refusal) | ⟨emitted, blocks₂⟩
      · simp [hline] at hlines
      · simp [hline] at hlines
      · obtain rfl : blocks₁ = blocks₂ := Option.some.inj (hpass.symm.trans (line_ok hline).1)
        rw [h.line hvisit hline]
        cases emitted with
        | none =>
          simp only [hline] at hlines ⊢
          exact ih (number' + 1) hlines
        | some text =>
          simp only [hline] at hlines ⊢
          have hmore :=
            hedit.hasText (visible_of_line hline) (lines_ok hlines).1 (visible_of_finish hfinish)
          rw [Flatten.emitted, hmore]
          exact ih (number' + 1) hlines

/-- A source comes to its text again. -/
theorem Edited.sourceText (h : Edited s s') (hvisit : Option.Rel Repeats visit visit')
    {text text' content : Text}
    (hedit : HiddenEdit s.bindings.conditions .none (Text.lines text) (Text.lines text'))
    (hsource : Flatten.source s visit chain place text l = (.ok content, l')) :
    Flatten.source s' visit' chain place text' l = (.ok content, l') := by
  obtain ⟨done, blocks, l₁, hlines, hfinish⟩ := source_ok hsource
  unfold Flatten.source at hsource ⊢
  simp only [hlines, hfinish] at hsource
  simp only [h.lines hvisit hedit 1 hlines hfinish, hfinish]
  exact hsource

theorem askedFor_of_source {text : Text} (h : sourceAt s place = .ok text) (l : Ledger) :
    askedFor s place l =
      (l.addRead place.text).note ⟨.debug, logSource.files, "Reading " ++ place.text⟩ := by
  obtain ⟨hsize, -⟩ := sourceAt_eq_ok_iff.mp h
  simp [askedFor, hsize]

/-- A file that comes to a text is read alike. -/
theorem Edited.readText (h : Edited s s') {text : Text} (hread : readText s place l = (.ok text, l')) :
    ∃ text', Flatten.readText s' place l = (.ok text', l') ∧
      HiddenEdit s.bindings.conditions .none (Text.lines text) (Text.lines text') := by
  obtain ⟨hsource, rfl⟩ := readText_ok hread
  obtain ⟨text', hsource', hedit⟩ := h.source place text hsource
  refine ⟨text', ?_, hedit⟩
  rw [readText_eq, hsource', askedFor_of_source hsource, askedFor_of_source hsource']

theorem Edited.fileWith (h : Edited s s') (hvisit : Option.Rel Repeats visit visit') :
    Repeats (fileWith s visit) (fileWith s' visit') := by
  intro chain place l text l' hfile
  unfold Flatten.fileWith at hfile ⊢
  cases hread : Flatten.readText s place l with
  | mk result l₁ =>
    cases result with
    | error halt => simp [hread] at hfile
    | ok source =>
      obtain ⟨source', hread', hedit⟩ := h.readText hread
      simp only [hread] at hfile
      simp only [hread']
      exact h.sourceText hvisit hedit hfile

end

/-- **Files come to their texts again**, by induction on the levels of imports. -/
theorem Edited.file {s s' : Setting} (h : Edited s s') (levels : Nat) :
    Repeats (file s levels) (file s' levels) := by
  induction levels with
  | zero => exact h.fileWith .none
  | succ levels ih => exact h.fileWith (.some ih)

/-- A request comes to its text again. -/
theorem Edited.request {s s' : Setting} (h : Edited s s') {request : String} {l l' : Ledger} {text : Text}
    (hrequest : Flatten.request s request l = (.ok text, l')) :
    Flatten.request s' request l = (.ok text, l') := by
  unfold Flatten.request at hrequest ⊢
  rw [h.canonical]
  split at hrequest
  · cases hrequest
  · cases hrequest
  · split at hrequest
    · exact hrequest
    · rw [h.limits]
      exact h.file _ hrequest

end Flatten

/-! ## Disks -/

/-- The bytes of a file in which hidden lines have been edited, and which are not too many. -/
def HiddenLinesEdited (conditions : Table Value) (readLimit : Option Int) (content content' : ByteArray) :
    Prop :=
  content' = content ∨ (∀ limit ∈ readLimit, (content'.size : Int) ≤ limit) ∧
    ∃ text text', Utf8.decode (Utf8.dropMark content.toList) = .ok text ∧
      Utf8.decode (Utf8.dropMark content'.toList) = .ok text' ∧
      Flatten.HiddenEdit conditions .none (Text.lines text) (Text.lines text')

/-- The size of a file is allowed if no limit is below it. -/
theorem Flatten.sizeObstacle_file {s : Setting} {place reached : Place} {content : ByteArray}
    (hstat : s.disk.stat place.path = .ok (reached, .file content)) :
    sizeObstacle s place = none ↔ ∀ limit ∈ s.readLimit, (content.size : Int) ≤ limit := by
  unfold sizeObstacle sizeAt
  rw [hstat]
  cases s.readLimit with
  | none => simp
  | some limit => simp

theorem Flatten.Edited.mapFiles {s : Setting} {edit : Place → ByteArray → ByteArray}
    (h : ∀ place content, s.disk.tree.entry? place = some (.file content) →
      HiddenLinesEdited s.bindings.conditions s.readLimit content (edit place content)) :
    Edited s { s with disk := s.disk.mapFiles edit } where
  bindings := rfl
  limits := rfl
  canonical := s.disk.canonical?_mapFiles edit
  source place text hsource := by
    obtain ⟨hsize, content, hread, hdecode⟩ := sourceAt_eq_ok_iff.mp hsource
    obtain ⟨reached, hstat, hstat', hread'⟩ := Disk.readBytes_mapFiles_ok edit hread
    have hbound := (sizeObstacle_file hstat).mp hsize
    have hentry := Disk.entry?_of_stat hstat
    rcases h reached content hentry with hsame | ⟨hbound', text₀, text', hdecode₀, hdecode', hedit⟩
    · rw [hsame] at hstat' hread'
      exact ⟨text, sourceAt_eq_ok_iff.mpr ⟨(sizeObstacle_file hstat').mpr hbound, _, hread', hdecode⟩,
        .refl _ _ _⟩
    · obtain rfl : text₀ = text := Except.ok.inj (hdecode₀.symm.trans hdecode)
      exact ⟨text', sourceAt_eq_ok_iff.mpr ⟨(sizeObstacle_file hstat').mpr hbound', _, hread', hdecode'⟩,
        hedit⟩

/-! ## The theorem -/

/-- **Hidden lines are dead.**  If a call comes to a text, and in any files of the tree hidden lines that
are imports or content are deleted or replaced by other such lines, the call does the same again: it comes
to the same text with the same ledger, so that it asks for the same files, and leaves the same cache. -/
theorem process_ignores_hidden {engine : Engine} {disk : Disk} {bindings : Bindings} {request : String}
    {edit : Place → ByteArray → ByteArray}
    (hedit : ∀ place content, disk.tree.entry? place = some (.file content) →
      HiddenLinesEdited bindings.conditions engine.readLimit content (edit place content))
    {text : Text} (h : (engine.process disk bindings request).1.1 = .ok text) :
    engine.process (disk.mapFiles edit) bindings request = engine.process disk bindings request := by
  have hedited : Flatten.Edited (engine.setting disk bindings)
      (engine.setting (disk.mapFiles edit) bindings) := .mapFiles hedit
  have hrequest : Flatten.request (engine.setting (disk.mapFiles edit) bindings) request
      (.ofCache engine.cache) =
      Flatten.request (engine.setting disk bindings) request (.ofCache engine.cache) := by
    have hbefore : Flatten.request (engine.setting disk bindings) request (.ofCache engine.cache) =
        (.ok text, (engine.process disk bindings request).1.2) := Prod.ext h rfl
    rw [hedited.request hbefore, hbefore]
  rw [Engine.process, Engine.process, hrequest]

/-! A constant in a hidden block, replaced by an import that does not even parse. -/

/-- The source of that shader, edited. -/
def nestedSourceEdited : Text := "#if x\n#if y\n#import \"c\n#endif\n#endif".toList

/-- The edit of its file. -/
def editNested (place : Place) (content : ByteArray) : ByteArray :=
  if place = ["a"] then Utf8.ascii nestedSourceEdited else content

theorem hiddenEdit_nested : Flatten.HiddenEdit nestedBindings.conditions .none (Text.lines nestedSource)
    (Text.lines nestedSourceEdited) := by
  have hlines : Text.lines nestedSource =
      ["#if x".toList, "#if y".toList, "#(z)".toList, "#endif".toList, "#endif".toList] := by decide
  have hlines' : Text.lines nestedSourceEdited =
      ["#if x".toList, "#if y".toList, "#import \"c".toList, "#endif".toList, "#endif".toList] := by decide
  have hx : Flatten.passBlocks nestedBindings.conditions .none "#if x".toList = some ⟨[false]⟩ := by decide
  have hy : Flatten.passBlocks nestedBindings.conditions ⟨[false]⟩ "#if y".toList =
      some ⟨[true, false]⟩ := by decide
  have hclose : Flatten.passBlocks nestedBindings.conditions ⟨[true, false]⟩ "#endif".toList =
      some ⟨[false]⟩ := by decide
  have hclose' : Flatten.passBlocks nestedBindings.conditions ⟨[false]⟩ "#endif".toList = some .none := by
    decide
  rw [hlines, hlines']
  exact .keep hx (.keep hy (.replace (by decide) (.inr (by decide)) (.inl (by decide))
    (.keep hclose (.keep hclose' .nil))))

theorem editNested_hidden (place : Place) (content : ByteArray)
    (hentry : (Disk.pair (Utf8.ascii nestedSource) .empty).tree.entry? place = some (.file content)) :
    HiddenLinesEdited nestedBindings.conditions none content (editNested place content) := by
  by_cases hplace : place = ["a"]
  · subst hplace
    rw [Disk.entry?_pair_shader] at hentry
    cases hentry
    have hdecode : Utf8.decode (Utf8.dropMark (Utf8.ascii nestedSource).toList) = .ok nestedSource :=
      Utf8.decode_ascii (by decide)
    have hdecode' : Utf8.decode (Utf8.dropMark (Utf8.ascii nestedSourceEdited).toList) =
        .ok nestedSourceEdited := Utf8.decode_ascii (by decide)
    exact .inr ⟨by simp, _, _, hdecode, hdecode', hiddenEdit_nested⟩
  · exact .inl (if_neg hplace)

theorem process_ignores_hidden_nested :
    (∃ text, ((Engine.create .oneLevel).process (.pair (Utf8.ascii nestedSource) .empty) nestedBindings
      "/a").1.1 = .ok text) ∧
    (Engine.create .oneLevel).process ((Disk.pair (Utf8.ascii nestedSource) .empty).mapFiles editNested)
      nestedBindings "/a" =
    (Engine.create .oneLevel).process (.pair (Utf8.ascii nestedSource) .empty) nestedBindings "/a" := by
  have hread := Disk.readBytes_pair_shader (Utf8.ascii nestedSource) .empty
  have hsource : Flatten.sourceAt ((Engine.create .oneLevel).setting
      (.pair (Utf8.ascii nestedSource) .empty) nestedBindings) ["a"] = .ok nestedSource :=
    Flatten.sourceAt_ascii rfl hread (by decide)
  obtain ⟨text, htext⟩ := Engine.process_ok_of_valid (Disk.canonical?_pair_shader _ _) rfl hsource
    (by decide) nestedBindings_supplies rfl (by decide)
  exact ⟨⟨text, htext⟩, process_ignores_hidden editNested_hidden htext⟩

end ShaderFlatten
