import Mathlib.Order.Bounds.Basic
import ShaderFlatten.Outline

/-!
# What an outline lists

An outline is built line by line from a number of open blocks that it counts itself.  Behind any lines
that number is `Outline.depthAfter`, and the outline of a source lists

    a path, a condition or a constant    exactly if some line of the source parses to it
    an invalid line                      exactly if it is malformed, or stray where it stands, or the
                                         last one of a source that leaves a block open
    as greatest nesting                  the greatest `depthAfter` of the first lines of the source
-/

namespace ShaderFlatten.Outline

/-! ## Lines -/

/-- The number of open blocks behind a line.  A malformed directive does not count. -/
def depthBehind (depth : Nat) (line : Text) : Nat :=
  match Line.kind line with
  | .ifLine =>
    match Line.condition? line with
    | .ok _ => depth + 1
    | .error _ => depth
  | .endifLine =>
    match Line.bare? Line.endifMark line with
    | .ok () => depth - 1
    | .error _ => depth
  | .importLine | .elseLine | .content => depth

/-- The number of open blocks behind the first lines of a source. -/
def depthAfter (lines : List Text) : Nat := lines.foldl depthBehind 0

/-- A line does not parse as what its first token says. -/
def Malformed (line : Text) : Prop :=
  match Line.kind line with
  | .importLine => ∃ mismatch, Line.importPath? line = .error mismatch
  | .ifLine => ∃ mismatch, Line.condition? line = .error mismatch
  | .elseLine => ∃ mismatch, Line.bare? Line.elseMark line = .error mismatch
  | .endifLine => ∃ mismatch, Line.bare? Line.endifMark line = .error mismatch
  | .content => ∃ mismatch, Line.placeholder? line = .error mismatch

/-- A line turns or closes a block where none is open. -/
def Stray (depth : Nat) (line : Text) : Prop :=
  depth = 0 ∧ (Line.kind line = .elseLine ∨ Line.kind line = .endifLine)

/-- A line imports a path. -/
def ImportsPath (line path : Text) : Prop :=
  Line.kind line = .importLine ∧ Line.importPath? line = .ok path

/-- A line opens a block under a condition. -/
def AsksCondition (line name : Text) : Prop :=
  Line.kind line = .ifLine ∧ Line.condition? line = .ok name

/-- A line holds the place of a constant. -/
def AsksConstant (line name : Text) : Prop :=
  Line.kind line = .content ∧ ∃ found, Line.placeholder? line = .ok (some found) ∧ found.name = name

theorem mem_addName {names : List Text} {name other : Text} :
    other ∈ addName names name ↔ other ∈ names ∨ other = name := by
  unfold addName
  split
  · next hmem =>
    constructor
    · exact .inl
    · rintro (h | rfl)
      · exact h
      · exact hmem
  · simp

section
variable (o : Outline) (depth : Nat) (line : NumberedLine)

theorem addLine_depth : (o.addLine depth line).2 = depthBehind depth line.2 := by
  unfold addLine depthBehind
  cases Line.kind line.2 with
  | importLine => cases Line.importPath? line.2 <;> rfl
  | ifLine => cases Line.condition? line.2 <;> rfl
  | elseLine => cases Line.bare? Line.elseMark line.2 <;> rfl
  | endifLine => cases Line.bare? Line.endifMark line.2 <;> rfl
  | content =>
    rcases Line.placeholder? line.2 with mismatch | ⟨- | found⟩ <;> rfl

theorem mem_imports_addLine {path : Text} :
    path ∈ (o.addLine depth line).1.imports ↔ path ∈ o.imports ∨ ImportsPath line.2 path := by
  unfold addLine ImportsPath
  cases hkind : Line.kind line.2 with
  | importLine =>
    cases Line.importPath? line.2 with
    | error mismatch => simp [addInvalid]
    | ok found => simp [mem_addName, eq_comm]
  | ifLine => cases Line.condition? line.2 <;> simp [addInvalid]
  | elseLine => cases Line.bare? Line.elseMark line.2 <;> simp [addInvalid, apply_ite]
  | endifLine => cases Line.bare? Line.endifMark line.2 <;> simp [addInvalid, apply_ite]
  | content =>
    rcases Line.placeholder? line.2 with mismatch | ⟨- | found⟩ <;> simp [addInvalid]

theorem mem_conditions_addLine {name : Text} :
    name ∈ (o.addLine depth line).1.conditions ↔ name ∈ o.conditions ∨ AsksCondition line.2 name := by
  unfold addLine AsksCondition
  cases hkind : Line.kind line.2 with
  | importLine => cases Line.importPath? line.2 <;> simp [addInvalid]
  | ifLine =>
    cases Line.condition? line.2 with
    | error mismatch => simp [addInvalid]
    | ok found => simp [mem_addName, eq_comm]
  | elseLine => cases Line.bare? Line.elseMark line.2 <;> simp [addInvalid, apply_ite]
  | endifLine => cases Line.bare? Line.endifMark line.2 <;> simp [addInvalid, apply_ite]
  | content =>
    rcases Line.placeholder? line.2 with mismatch | ⟨- | found⟩ <;> simp [addInvalid]

theorem mem_constants_addLine {name : Text} :
    name ∈ (o.addLine depth line).1.constants ↔ name ∈ o.constants ∨ AsksConstant line.2 name := by
  unfold addLine AsksConstant
  cases hkind : Line.kind line.2 with
  | importLine => cases Line.importPath? line.2 <;> simp [addInvalid]
  | ifLine => cases Line.condition? line.2 <;> simp [addInvalid]
  | elseLine => cases Line.bare? Line.elseMark line.2 <;> simp [addInvalid, apply_ite]
  | endifLine => cases Line.bare? Line.endifMark line.2 <;> simp [addInvalid, apply_ite]
  | content =>
    rcases Line.placeholder? line.2 with mismatch | ⟨- | found⟩
    · simp [addInvalid]
    · simp
    · simp [mem_addName, eq_comm]

theorem mem_invalidLines_addLine {entry : NumberedLine} :
    entry ∈ (o.addLine depth line).1.invalidLines ↔
      entry ∈ o.invalidLines ∨ entry = line ∧ (Malformed line.2 ∨ Stray depth line.2) := by
  unfold addLine Malformed Stray
  cases hkind : Line.kind line.2 with
  | importLine => cases Line.importPath? line.2 <;> simp [addInvalid]
  | ifLine => cases Line.condition? line.2 <;> simp [addInvalid]
  | elseLine =>
    cases Line.bare? Line.elseMark line.2 with
    | error mismatch => simp [addInvalid]
    | ok _ => by_cases hdepth : depth = 0 <;> simp [addInvalid, hdepth]
  | endifLine =>
    cases Line.bare? Line.endifMark line.2 with
    | error mismatch => simp [addInvalid]
    | ok _ => by_cases hdepth : depth = 0 <;> simp [addInvalid, hdepth]
  | content =>
    rcases Line.placeholder? line.2 with mismatch | ⟨- | found⟩ <;> simp [addInvalid]

/-- Only a line that opens a block can raise the greatest nesting. -/
theorem maxNesting_addLine (hdepth : depth ≤ o.maxNesting) :
    (o.addLine depth line).1.maxNesting = max o.maxNesting (depthBehind depth line.2) := by
  unfold addLine depthBehind
  cases Line.kind line.2 with
  | importLine => cases Line.importPath? line.2 <;> simp [addInvalid, hdepth]
  | ifLine => cases Line.condition? line.2 <;> simp [addInvalid, hdepth]
  | elseLine => cases Line.bare? Line.elseMark line.2 <;> simp [addInvalid, apply_ite, hdepth]
  | endifLine =>
    have hless : depth - 1 ≤ o.maxNesting := by omega
    cases Line.bare? Line.endifMark line.2 <;> simp [addInvalid, apply_ite, hdepth, hless]
  | content =>
    rcases Line.placeholder? line.2 with mismatch | ⟨- | found⟩ <;> simp [addInvalid, hdepth]

end

/-! ## Sources -/

theorem addLines_depth (o : Outline) (depth number : Nat) (lines : List Text) :
    (o.addLines depth number lines).2 = lines.foldl depthBehind depth := by
  induction lines generalizing o depth number with
  | nil => rfl
  | cons line rest ih => rw [addLines, ih, addLine_depth, List.foldl_cons]

/-- A list of names to which each line adds what it names holds what the lines name. -/
theorem mem_addLines {names : Outline → List Text} {Names : Text → Text → Prop}
    (hline : ∀ (o : Outline) (depth : Nat) (line : NumberedLine) (name : Text),
      name ∈ names (o.addLine depth line).1 ↔ name ∈ names o ∨ Names line.2 name)
    (o : Outline) (depth number : Nat) (lines : List Text) (name : Text) :
    name ∈ names (o.addLines depth number lines).1 ↔
      name ∈ names o ∨ ∃ line ∈ lines, Names line name := by
  induction lines generalizing o depth number with
  | nil => simp [addLines]
  | cons line rest ih => simp [addLines, ih, hline, or_assoc]

theorem mem_invalidLines_addLines (o : Outline) (depth number : Nat) (lines : List Text)
    (entry : NumberedLine) :
    entry ∈ (o.addLines depth number lines).1.invalidLines ↔ entry ∈ o.invalidLines ∨
      ∃ passed rest, lines = passed ++ entry.2 :: rest ∧ entry.1 = number + passed.length ∧
        (Malformed entry.2 ∨ Stray (passed.foldl depthBehind depth) entry.2) := by
  induction lines generalizing o depth number with
  | nil => simp [addLines]
  | cons line rest ih =>
    rw [addLines, ih, mem_invalidLines_addLine, addLine_depth, or_assoc]
    refine or_congr_right ?_
    constructor
    · rintro (⟨rfl, hinvalid⟩ | ⟨passed, rest', rfl, hnumber, hinvalid⟩)
      · exact ⟨[], rest, rfl, rfl, hinvalid⟩
      · exact ⟨line :: passed, rest', rfl, by simp only [hnumber, List.length_cons]; omega, hinvalid⟩
    · rintro ⟨passed, rest', hlines, hnumber, hinvalid⟩
      cases passed with
      | nil =>
        cases hlines
        exact .inl ⟨Prod.ext hnumber rfl, hinvalid⟩
      | cons first passed =>
        cases hlines
        refine .inr ⟨passed, rest', rfl, ?_, hinvalid⟩
        simp only [hnumber, List.length_cons]
        omega

/-- The greatest number of open blocks behind any of the first lines. -/
def peak : (depth : Nat) → (lines : List Text) → Nat
  | depth, [] => depth
  | depth, line :: rest => max depth (peak (depthBehind depth line) rest)

theorem le_peak (depth : Nat) (lines : List Text) : depth ≤ peak depth lines := by
  cases lines with
  | nil => exact Nat.le_refl _
  | cons line rest => exact Nat.le_max_left _ _

theorem isGreatest_peak (depth : Nat) (lines : List Text) :
    IsGreatest {d | ∃ passed, passed <+: lines ∧ passed.foldl depthBehind depth = d}
      (peak depth lines) := by
  induction lines generalizing depth with
  | nil =>
    refine ⟨⟨[], List.nil_prefix, rfl⟩, ?_⟩
    rintro d ⟨passed, hpassed, rfl⟩
    rw [List.prefix_nil.mp hpassed]
    exact Nat.le_refl _
  | cons line rest ih =>
    obtain ⟨⟨passed, hpassed, hpeak⟩, hbound⟩ := ih (depthBehind depth line)
    constructor
    · rcases Nat.le_total depth (peak (depthBehind depth line) rest) with hle | hle
      · rw [peak, Nat.max_eq_right hle]
        exact ⟨line :: passed, List.cons_prefix_cons.mpr ⟨rfl, hpassed⟩, hpeak⟩
      · rw [peak, Nat.max_eq_left hle]
        exact ⟨[], List.nil_prefix, rfl⟩
    · rintro d ⟨passed', hpassed', rfl⟩
      rw [peak]
      cases passed' with
      | nil => exact Nat.le_max_left _ _
      | cons first passed' =>
        obtain ⟨rfl, hrest⟩ := List.cons_prefix_cons.mp hpassed'
        exact Nat.le_trans (hbound ⟨passed', hrest, rfl⟩) (Nat.le_max_right _ _)

theorem maxNesting_addLines (o : Outline) (depth number : Nat) (lines : List Text)
    (hdepth : depth ≤ o.maxNesting) :
    (o.addLines depth number lines).1.maxNesting = max o.maxNesting (peak depth lines) := by
  induction lines generalizing o depth number with
  | nil => simp [addLines, peak, hdepth]
  | cons line rest ih =>
    have hbehind := maxNesting_addLine o depth (number, line) hdepth
    have hle := le_peak (depthBehind depth line) rest
    simp only at hbehind
    rw [addLines, peak]
    simp only [addLine_depth]
    rw [ih _ _ _ (by rw [hbehind]; exact Nat.le_max_right _ _), hbehind]
    omega

section
variable {source : Text}

/-- An outline, apart from the line that ends an open block. -/
theorem ofSource_eq (source : Text) :
    ofSource source =
      if depthAfter (Text.lines source) = 0 then (addLines empty 0 1 (Text.lines source)).1
      else (addLines empty 0 1 (Text.lines source)).1.addInvalid
        ((Text.lines source).length, (Text.lines source).getLast?.getD []) := by
  rw [depthAfter, ← addLines_depth empty 0 1]
  rfl

/-- **An outline lists the paths that some line imports.** -/
theorem mem_imports_ofSource {path : Text} :
    path ∈ (ofSource source).imports ↔ ∃ line ∈ Text.lines source, ImportsPath line path := by
  have h := mem_addLines (fun o depth line _ => mem_imports_addLine o depth line) empty 0 1
    (Text.lines source) path
  rw [ofSource_eq]
  split <;> simpa [addInvalid, empty] using h

/-- **An outline lists the conditions that some line asks for.** -/
theorem mem_conditions_ofSource {name : Text} :
    name ∈ (ofSource source).conditions ↔ ∃ line ∈ Text.lines source, AsksCondition line name := by
  have h := mem_addLines (fun o depth line _ => mem_conditions_addLine o depth line) empty 0 1
    (Text.lines source) name
  rw [ofSource_eq]
  split <;> simpa [addInvalid, empty] using h

/-- **An outline lists the constants that some line asks for.** -/
theorem mem_constants_ofSource {name : Text} :
    name ∈ (ofSource source).constants ↔ ∃ line ∈ Text.lines source, AsksConstant line name := by
  have h := mem_addLines (fun o depth line _ => mem_constants_addLine o depth line) empty 0 1
    (Text.lines source) name
  rw [ofSource_eq]
  split <;> simpa [addInvalid, empty] using h

/-- **An outline lists the lines that are malformed or stray**, and the last line if a block is left
open. -/
theorem mem_invalidLines_ofSource {number : Nat} {line : Text} :
    (number, line) ∈ (ofSource source).invalidLines ↔
      (∃ passed rest, Text.lines source = passed ++ line :: rest ∧ number = passed.length + 1 ∧
        (Malformed line ∨ Stray (depthAfter passed) line)) ∨
      depthAfter (Text.lines source) ≠ 0 ∧ number = (Text.lines source).length ∧
        line = (Text.lines source).getLast?.getD [] := by
  have h : (number, line) ∈ (addLines empty 0 1 (Text.lines source)).1.invalidLines ↔
      ∃ passed rest, Text.lines source = passed ++ line :: rest ∧ number = passed.length + 1 ∧
        (Malformed line ∨ Stray (depthAfter passed) line) := by
    rw [mem_invalidLines_addLines]
    simp only [empty, List.not_mem_nil, false_or, Nat.add_comm 1, depthAfter]
  rw [ofSource_eq, ← h]
  split
  · next hclosed => simp [hclosed]
  · next hopen => simp [hopen, addInvalid]

/-- **The greatest nesting of an outline** is the greatest number of open blocks behind first lines. -/
theorem isGreatest_maxNesting_ofSource (source : Text) :
    IsGreatest {d | ∃ passed, passed <+: Text.lines source ∧ depthAfter passed = d}
      (ofSource source).maxNesting := by
  have h := maxNesting_addLines empty 0 1 (Text.lines source) (Nat.le_refl 0)
  have hnesting : (ofSource source).maxNesting = peak 0 (Text.lines source) := by
    rw [ofSource_eq]
    split <;> simpa [addInvalid, empty] using h
  rw [hnesting]
  exact isGreatest_peak 0 (Text.lines source)

/-- **A source is valid** if no line of it is malformed or stray and no block is left open. -/
theorem isValid_ofSource (h : (ofSource source).isValid = true) :
    (∀ passed line rest, Text.lines source = passed ++ line :: rest →
      ¬ Malformed line ∧ ¬ Stray (depthAfter passed) line) ∧
    depthAfter (Text.lines source) = 0 := by
  have hnone : ∀ entry, entry ∉ (ofSource source).invalidLines := by
    rw [isValid, List.isEmpty_iff] at h
    simp [h]
  constructor
  · intro passed line rest hlines
    rw [← not_or]
    intro hinvalid
    exact hnone (passed.length + 1, line)
      (mem_invalidLines_ofSource.mpr (.inl ⟨passed, rest, hlines, rfl, hinvalid⟩))
  · by_contra hopen
    exact hnone _ (mem_invalidLines_ofSource.mpr (.inr ⟨hopen, rfl, rfl⟩))

end

end ShaderFlatten.Outline
