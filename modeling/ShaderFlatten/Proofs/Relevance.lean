import ShaderFlatten.Engine.Session
import ShaderFlatten.Proofs.Canonical
import ShaderFlatten.Proofs.Ledger
import ShaderFlatten.Proofs.Outline

/-!
# Names that matter

A run looks up the conditions and constants that the lines of the files it reads ask for, and the outline
of a source lists them all.  So bindings that agree on the names listed for the files of a tree cannot be
told apart by any run on it:

    Engine.process engine disk b₁ request = Engine.process engine disk b₂ request

with the same text or the same failure, the same ledger and the same cache behind it.
-/

namespace ShaderFlatten

/-! ## The sources of a tree -/

namespace FileTree

/-- Some file of the tree holds a text, apart from a byte order mark. -/
def Holds (tree : FileTree) (text : Text) : Prop :=
  ∃ place content, tree.entry? place = some (.file content) ∧
    Utf8.decode (Utf8.dropMark content.toList) = .ok text

/-- The conditions that the files of a tree ask for. -/
def conditions (tree : FileTree) : Set Text :=
  {name | ∃ text, tree.Holds text ∧ name ∈ (Outline.ofSource text).conditions}

/-- The constants that the files of a tree ask for. -/
def constants (tree : FileTree) : Set Text :=
  {name | ∃ text, tree.Holds text ∧ name ∈ (Outline.ofSource text).constants}

end FileTree

/-- A path leads to what stands at the place that it reaches. -/
theorem Disk.entry?_of_stat {disk : Disk} {path : Path} {place : Place} {entry : Entry}
    (h : disk.stat path = .ok (place, entry)) : disk.tree.entry? place = some entry := by
  have hlocate : disk.locate .target path = .ok (place, some entry) := by
    unfold Disk.stat at h
    split at h <;> cases h
    assumption
  unfold Disk.locate at hlocate
  split at hlocate
  · cases hlocate
  · split at hlocate
    · cases hlocate
    · cases hfollow : disk.tree.locate .target maxLinks (disk.base path) path.parts with
      | error errno => simp [hfollow, Except.mapError] at hlocate
      | ok found =>
        simp only [hfollow, Except.mapError, Except.ok.injEq] at hlocate
        exact FileTree.entry?_of_located (hlocate ▸ hfollow)

/-- A file is read where its path leads to. -/
theorem Disk.stat_of_readBytes {disk : Disk} {path : Path} {content : ByteArray}
    (h : disk.readBytes path = .ok content) : ∃ place, disk.stat path = .ok (place, .file content) := by
  unfold Disk.readBytes at h
  split at h <;> cases h
  next place hstat => exact ⟨place, hstat⟩

/-- A file that can be read is one of the sources of the tree. -/
theorem Flatten.holds_of_sourceAt {s : Setting} {place : Place} {text : Text}
    (h : sourceAt s place = .ok text) : s.disk.tree.Holds text := by
  obtain ⟨-, content, hread, hdecode⟩ := sourceAt_eq_ok_iff.mp h
  obtain ⟨reached, hstat⟩ := Disk.stat_of_readBytes hread
  exact ⟨reached, content, Disk.entry?_of_stat hstat, hdecode⟩

/-! ## Bindings that agree -/

/-- Two bindings define the same of some conditions and constants, with the same values. -/
structure Bindings.Agree (b₁ b₂ : Bindings) (conditions constants : Set Text) : Prop where
  conditions : ∀ name ∈ conditions,
    b₁.conditions.get? (String.ofList name) = b₂.conditions.get? (String.ofList name)
  constants : ∀ name ∈ constants,
    b₁.constants.get? (String.ofList name) = b₂.constants.get? (String.ofList name)

/-- Other bindings in the same setting. -/
def Setting.rebind (s : Setting) (b : Bindings) : Setting := { s with bindings := b }

namespace Setting

variable (s : Setting) (b : Bindings)

@[simp] theorem disk_rebind : (s.rebind b).disk = s.disk := rfl
@[simp] theorem bindings_rebind : (s.rebind b).bindings = b := rfl
@[simp] theorem limits_rebind : (s.rebind b).limits = s.limits := rfl
@[simp] theorem readLimit_rebind : (s.rebind b).readLimit = s.readLimit := rfl

end Setting

namespace Flatten

/-- A directive looks up the condition that its line asks for, and no other. -/
theorem turnBlocks_congr {c₁ c₂ : Table Value} {line : Text}
    (h : ∀ name, Outline.AsksCondition line name →
      c₁.get? (String.ofList name) = c₂.get? (String.ofList name)) (blocks : OpenBlocks) :
    turnBlocks c₁ blocks line = turnBlocks c₂ blocks line := by
  unfold turnBlocks
  cases hkind : Line.kind line with
  | ifLine =>
    cases hname : Line.condition? line with
    | error mismatch => rfl
    | ok name => simp only [OpenBlocks.openIf, h name ⟨hkind, hname⟩]
  | elseLine => rfl
  | endifLine => rfl
  | importLine => rfl
  | content => rfl

/-- A content line looks up the constant that it asks for, and no other. -/
theorem substitute_congr {c₁ c₂ : Table Value} {line : Text} (hkind : Line.kind line = .content)
    (h : ∀ name, Outline.AsksConstant line name →
      c₁.get? (String.ofList name) = c₂.get? (String.ofList name)) (limit : Option Int) :
    Line.substitute line c₁ limit = Line.substitute line c₂ limit := by
  unfold Line.substitute
  cases hfound : Line.placeholder? line with
  | error mismatch => rfl
  | ok found =>
    cases found with
    | none => rfl
    | some found => simp only [h found.name ⟨hkind, found, hfound, rfl⟩]

section
variable {s : Setting} {b : Bindings}

theorem importText_rebind (s : Setting) (b : Bindings) :
    importText (s.rebind b) = importText s := by
  funext visit chain place line l
  simp only [importText, Setting.disk_rebind, Setting.limits_rebind]

theorem readText_rebind (s : Setting) (b : Bindings) : readText (s.rebind b) = readText s := by
  funext place l
  simp only [readText, sizeObstacle, Setting.disk_rebind, Setting.readLimit_rebind]

/-- A line of one of the sources is handled alike. -/
theorem line_rebind (hagree : s.bindings.Agree b s.disk.tree.conditions s.disk.tree.constants)
    {text first : Text} (hholds : s.disk.tree.Holds text) (hmem : first ∈ Text.lines text)
    (visit : Option Visit) (chain : List String) (place : Place) (blocks : OpenBlocks) (l : Ledger) :
    line s visit chain place blocks first l = line (s.rebind b) visit chain place blocks first l := by
  have hturn : turnBlocks s.bindings.conditions blocks first = turnBlocks b.conditions blocks first := by
    apply turnBlocks_congr
    intro name hasks
    exact hagree.conditions name ⟨text, hholds, Outline.mem_conditions_ofSource.mpr ⟨first, hmem, hasks⟩⟩
  have htext : turnBlocks b.conditions blocks first = none →
      lineText s visit chain place first l = lineText (s.rebind b) visit chain place first l := by
    intro hnone
    by_cases himport : Line.kind first = .importLine
    · rw [lineText, lineText, if_pos himport, if_pos himport, importText_rebind]
    · have hkind : Line.kind first = .content := by
        cases hkind : Line.kind first <;> simp_all [turnBlocks]
      rw [lineText, lineText, if_neg himport, if_neg himport]
      rw [substitute_congr hkind, Setting.bindings_rebind, Setting.limits_rebind]
      intro name hasks
      exact hagree.constants name ⟨text, hholds, Outline.mem_constants_ofSource.mpr ⟨first, hmem, hasks⟩⟩
  rw [line, line, hturn, Setting.bindings_rebind]
  cases hdirective : turnBlocks b.conditions blocks first with
  | none => rw [htext hdirective]
  | some turned => cases turned <;> rfl

/-- The lines of one of the sources are handled alike. -/
theorem lines_rebind (hagree : s.bindings.Agree b s.disk.tree.conditions s.disk.tree.constants)
    {text : Text} (hholds : s.disk.tree.Holds text) (visit : Option Visit) (chain : List String)
    (place : Place) {rest : List Text} (hrest : ∀ first ∈ rest, first ∈ Text.lines text) (number : Nat)
    (blocks : OpenBlocks) (done : List Text) (l : Ledger) :
    lines s visit chain place number blocks done rest l =
      lines (s.rebind b) visit chain place number blocks done rest l := by
  induction rest generalizing number blocks done l with
  | nil => rfl
  | cons first rest ih =>
    have hline := line_rebind hagree hholds (hrest first List.mem_cons_self) visit chain place blocks l
    have hbehind := ih fun next hnext => hrest next (List.mem_cons_of_mem _ hnext)
    rw [lines, lines, hline]
    split <;> simp_all

/-- A file is flattened alike if the files that it imports are. -/
theorem fileWith_rebind (hagree : s.bindings.Agree b s.disk.tree.conditions s.disk.tree.constants)
    (visit : Option Visit) : fileWith s visit = fileWith (s.rebind b) visit := by
  funext ancestors place l
  rw [fileWith, fileWith, readText_rebind]
  cases hread : readText s place l with
  | mk result l₁ =>
    cases result with
    | error halt => rfl
    | ok text =>
      have hholds := holds_of_sourceAt (readText_ok hread).1
      have hlines := lines_rebind hagree hholds visit (ancestors ++ [place.text]) place
        (fun _ hmem => hmem) 1 .none [] l₁
      simp only [source, hlines]

/-- **Files are flattened alike**, by induction on the levels of imports. -/
theorem file_rebind (hagree : s.bindings.Agree b s.disk.tree.conditions s.disk.tree.constants)
    (levels : Nat) : file s levels = file (s.rebind b) levels := by
  induction levels with
  | zero => exact fileWith_rebind hagree none
  | succ levels ih => rw [file, file, ← ih, fileWith_rebind hagree]

end

end Flatten

/-! ## Top theorem -/

/-- **Only names that an outline lists can matter.**  Bindings that agree on the conditions and constants
listed for the files of a tree give the same text or the same failure for every request to every engine,
the same files asked for, the same log and reports, and the same cache behind it. -/
theorem process_eq_of_agree (engine : Engine) (disk : Disk) (b₁ b₂ : Bindings)
    (hagree : b₁.Agree b₂ disk.tree.conditions disk.tree.constants) (request : String) :
    engine.process disk b₁ request = engine.process disk b₂ request := by
  have hfile := Flatten.file_rebind (s := engine.setting disk b₁) hagree engine.limits.levels
  have hrequest : Flatten.request (engine.setting disk b₁) request (.ofCache engine.cache) =
      Flatten.request (engine.setting disk b₂) request (.ofCache engine.cache) := by
    unfold Flatten.request
    have hdisk : ∀ b, (engine.setting disk b).disk = disk := fun _ => rfl
    have hlimits : ∀ b, (engine.setting disk b).limits = engine.limits := fun _ => rfl
    have hrebind : (engine.setting disk b₁).rebind b₂ = engine.setting disk b₂ := rfl
    simp only [hdisk, hlimits, hfile, hrebind]
  rw [Engine.process, Engine.process, hrequest]

/-! A shader with one condition and one constant, under bindings that also bind other names. -/

/-- The source of that shader. -/
def guardedSource : Text := "#if x\n#(z)\n#endif".toList

/-- What that shader asks for. -/
def guardedBindings : Bindings := ⟨[("x", .bool true)], [("z", .int 3)]⟩

/-- The same and more. -/
def guardedBindingsAndMore : Bindings :=
  ⟨[("w", .bool false), ("x", .bool true)], [("y", .bool true), ("z", .int 3), ("x", .int 1)]⟩

theorem holds_pair_ascii {shader part text : Text}
    (hshader : (shader.all fun c => c.toNat < 128) = true)
    (hpart : (part.all fun c => c.toNat < 128) = true)
    (h : (Disk.pair (Utf8.ascii shader) (Utf8.ascii part)).tree.Holds text) :
    text = shader ∨ text = part := by
  obtain ⟨place, content, hentry, hdecode⟩ := h
  rcases Disk.content_pair hentry with rfl | rfl
  · rw [Utf8.decode_ascii hshader] at hdecode
    exact .inl (Except.ok.inj hdecode).symm
  · rw [Utf8.decode_ascii hpart] at hdecode
    exact .inr (Except.ok.inj hdecode).symm

theorem guardedBindings_agree :
    guardedBindings.Agree guardedBindingsAndMore
      (Disk.pair (Utf8.ascii guardedSource) (Utf8.ascii [])).tree.conditions
      (Disk.pair (Utf8.ascii guardedSource) (Utf8.ascii [])).tree.constants := by
  have hx : String.ofList ['x'] = "x" := rfl
  have hz : String.ofList ['z'] = "z" := rfl
  have hguarded : Outline.ofSource guardedSource = ⟨[], [['x']], [['z']], [], 1⟩ := by decide
  have hempty : Outline.ofSource [] = .empty := by decide
  constructor
  · rintro name ⟨text, hholds, hname⟩
    rcases holds_pair_ascii (by decide) (by decide) hholds with rfl | rfl
    · simp only [hguarded, List.mem_singleton] at hname
      simp [hname, hx, guardedBindings, guardedBindingsAndMore, Table.get?]
    · simp [hempty, Outline.empty] at hname
  · rintro name ⟨text, hholds, hname⟩
    rcases holds_pair_ascii (by decide) (by decide) hholds with rfl | rfl
    · simp only [hguarded, List.mem_singleton] at hname
      simp [hname, hz, guardedBindings, guardedBindingsAndMore, Table.get?]
    · simp [hempty, Outline.empty] at hname

theorem process_eq_of_agree_guarded :
    guardedBindings.Agree guardedBindingsAndMore
      (Disk.pair (Utf8.ascii guardedSource) (Utf8.ascii [])).tree.conditions
      (Disk.pair (Utf8.ascii guardedSource) (Utf8.ascii [])).tree.constants ∧
    (Engine.create .standard).process (.pair (Utf8.ascii guardedSource) (Utf8.ascii []))
      guardedBindings "/a" =
    (Engine.create .standard).process (.pair (Utf8.ascii guardedSource) (Utf8.ascii []))
      guardedBindingsAndMore "/a" :=
  ⟨guardedBindings_agree, process_eq_of_agree _ _ _ _ guardedBindings_agree _⟩

end ShaderFlatten
