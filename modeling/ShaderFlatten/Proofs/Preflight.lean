import ShaderFlatten.Proofs.Lines
import ShaderFlatten.Proofs.Outline
import ShaderFlatten.Proofs.Recursion

/-!
# Outlines and calls agree

An outline counts blocks, reads every line and lists all that is wrong; a call keeps the truths of its
blocks, reads the visible lines and stops at the first failure.  As long as a call goes on, the outline
has counted as many blocks as the call keeps truths:

    blocksAfter conditions lines = some blocks → blocks.depth = Outline.depthAfter lines

So a directive fails exactly if the outline lists it as invalid or its condition is not defined.  A valid
source whose names are supplied can only halt at an import, and a source that comes to a text has nothing
invalid in it but hidden lines.
-/

namespace ShaderFlatten

/-- A source may end where no block is open. -/
theorem OpenBlocks.finish_eq_ok_iff {blocks : OpenBlocks} : blocks.finish = .ok () ↔ blocks.depth = 0 := by
  rw [finish, depth, List.length_eq_zero_iff, ← List.isEmpty_iff]
  split <;> simp_all

namespace Flatten

/-! ## Blocks -/

section
variable {conditions : Table Value} {blocks blocks' : OpenBlocks} {line : Text}

theorem depth_of_passBlocks (h : passBlocks conditions blocks line = some blocks') :
    blocks'.depth = Outline.depthBehind blocks.depth line := by
  unfold passBlocks turnBlocks at h
  unfold Outline.depthBehind
  cases hkind : Line.kind line with
  | importLine =>
    simp only [hkind, Option.some.injEq] at h
    rw [h]
  | content =>
    simp only [hkind, Option.some.injEq] at h
    rw [h]
  | ifLine =>
    simp only [hkind] at h
    cases hname : Line.condition? line with
    | error mismatch => simp [hname] at h
    | ok name =>
      simp only [hname, OpenBlocks.openIf] at h
      cases hvalue : conditions.get? (String.ofList name) with
      | none => simp [hvalue] at h
      | some value =>
        simp only [hvalue, Option.some.injEq] at h
        rw [← h]
        rfl
  | elseLine =>
    simp only [hkind] at h
    cases hbare : Line.bare? Line.elseMark line with
    | error mismatch => simp [hbare] at h
    | ok _ =>
      simp only [hbare, OpenBlocks.flip] at h
      cases htruths : blocks.truths with
      | nil => simp [htruths] at h
      | cons truth outer =>
        simp only [htruths, Option.some.injEq] at h
        rw [← h, OpenBlocks.depth, OpenBlocks.depth, htruths]
        rfl
  | endifLine =>
    simp only [hkind] at h
    cases hbare : Line.bare? Line.endifMark line with
    | error mismatch => simp [hbare] at h
    | ok _ =>
      simp only [hbare, OpenBlocks.close] at h
      cases htruths : blocks.truths with
      | nil => simp [htruths] at h
      | cons truth outer =>
        simp only [htruths, Option.some.injEq] at h
        rw [← h, OpenBlocks.depth, OpenBlocks.depth, htruths]
        rfl

/-- **The blocks of a call are as many as its outline counts.** -/
theorem depth_of_blocksAfter {lines : List Text} (h : blocksAfter conditions lines = some blocks) :
    blocks.depth = Outline.depthAfter lines := by
  induction lines using List.reverseRecOn generalizing blocks with
  | nil =>
    cases h
    rfl
  | append_singleton lines line ih =>
    have hsplit : blocksAfter conditions (lines ++ [line]) =
        (blocksAfter conditions lines).bind fun b => passBlocks conditions b line := by
      simp [blocksAfter]
    rw [hsplit, Option.bind_eq_some_iff] at h
    obtain ⟨behind, hbehind, hpass⟩ := h
    rw [depth_of_passBlocks hpass, ih hbehind, Outline.depthAfter, Outline.depthAfter, List.foldl_append]
    rfl

/-- **A directive fails** exactly if it is malformed or stray or asks for a condition that is not
defined. -/
theorem turnBlocks_error_iff :
    (∃ cause, turnBlocks conditions blocks line = some (.error cause)) ↔
      turnBlocks conditions blocks line ≠ none ∧ (Outline.Malformed line ∨ Outline.Stray blocks.depth line) ∨
      ∃ name, Outline.AsksCondition line name ∧ conditions.get? (String.ofList name) = none := by
  unfold turnBlocks Outline.Malformed Outline.Stray Outline.AsksCondition
  have hdepth : blocks.depth = 0 ↔ blocks.truths = [] := List.length_eq_zero_iff
  cases hkind : Line.kind line with
  | importLine => simp
  | content => simp
  | ifLine =>
    cases hname : Line.condition? line with
    | error mismatch => simp
    | ok name =>
      cases hvalue : conditions.get? (String.ofList name) <;> simp [OpenBlocks.openIf, hvalue]
  | elseLine =>
    cases hbare : Line.bare? Line.elseMark line with
    | error mismatch => simp
    | ok _ => cases htruths : blocks.truths <;> simp [OpenBlocks.flip, htruths, hdepth]
  | endifLine =>
    cases hbare : Line.bare? Line.endifMark line with
    | error mismatch => simp
    | ok _ => cases htruths : blocks.truths <;> simp [OpenBlocks.close, htruths, hdepth]

end

/-! ## Visible lines -/

section
variable {s : Setting} {visit : Option Visit} {chain : List String} {place : Place} {line : Text}
  {l l' : Ledger}

theorem turnBlocks_eq_none_iff {conditions : Table Value} {blocks : OpenBlocks} :
    turnBlocks conditions blocks line = none ↔
      Line.kind line = .importLine ∨ Line.kind line = .content := by
  unfold turnBlocks
  cases Line.kind line <;> simp

/-- A content line stands for itself with its constant. -/
theorem lineText_of_content (hkind : Line.kind line = .content) (l : Ledger) :
    lineText s visit chain place line l =
      (Line.substitute line s.bindings.constants s.limits.lineLength, l) :=
  if_neg (by simp [hkind])

theorem lineText_of_import (hkind : Line.kind line = .importLine) (l : Ledger) :
    lineText s visit chain place line l = importText s visit chain place line l :=
  if_pos hkind

/-- A line that stands for a text is not malformed. -/
theorem not_malformed_of_lineText {text : Text}
    (hkind : Line.kind line = .importLine ∨ Line.kind line = .content)
    (h : lineText s visit chain place line l = (.ok text, l')) : ¬ Outline.Malformed line := by
  unfold lineText at h
  unfold Outline.Malformed
  rcases hkind with hkind | hkind
  · rw [if_pos hkind] at h
    simp only [hkind]
    rintro ⟨mismatch, hmismatch⟩
    simp [importText, hmismatch] at h
  · rw [if_neg (by simp [hkind])] at h
    simp only [hkind]
    rintro ⟨mismatch, hmismatch⟩
    simp [Line.substitute, hmismatch] at h

/-- A content line that is well formed stands for a text if its constant is supplied. -/
theorem substitute_ok {constants : Table Value} (hkind : Line.kind line = .content)
    (hwell : ¬ Outline.Malformed line)
    (hsupplied : ∀ name, Outline.AsksConstant line name → ∃ value rendered,
      constants.get? (String.ofList name) = some value ∧ value.render = .ok rendered) :
    ∃ text, Line.substitute line constants none = .ok text := by
  unfold Line.substitute
  cases hfound : Line.placeholder? line with
  | error mismatch =>
    refine absurd ?_ hwell
    simp [Outline.Malformed, hkind, hfound]
  | ok found =>
    cases found with
    | none => exact ⟨line, rfl⟩
    | some found =>
      obtain ⟨value, rendered, hvalue, hrender⟩ := hsupplied found.name ⟨hkind, found, hfound, rfl⟩
      simp [hvalue, hrender, exceeds]

/-- Why an import that is well formed comes to no text: its path cannot be named or leads nowhere, its
file is open already, no further level may be opened, or its file comes to no text. -/
inductive ImportHalts (s : Setting) (levels : Nat) (chain : List String) (place : Place) (path : Text) :
    Halt → Prop
  | unnameable : s.disk.canonical? (importRequest place path) = .error .unnameable →
      ImportHalts s levels chain place path (.refused .unnameable)
  | unresolved {fault} : s.disk.canonical? (importRequest place path) = .error fault →
      ImportHalts s levels chain place path (.ofCause (.unresolvedImport path fault))
  | cyclic {target} : s.disk.canonical? (importRequest place path) = .ok target →
      target.text ∈ chain → ImportHalts s levels chain place path (.ofCause (.cyclicImport path))
  | tooDeep {target} : s.disk.canonical? (importRequest place path) = .ok target →
      target.text ∉ chain → levels = 0 →
      ImportHalts s levels chain place path (depthHalt s.limits path)
  | inside {target below halt l l'} : s.disk.canonical? (importRequest place path) = .ok target →
      target.text ∉ chain → levels = below + 1 → file s below chain target l = (.error halt, l') →
      ImportHalts s levels chain place path halt

theorem importText_error {levels : Nat} {path : Text} {halt : Halt}
    (hpath : Line.importPath? line = .ok path)
    (h : importText s (below s levels) chain place line l = (.error halt, l')) :
    ImportHalts s levels chain place path halt := by
  unfold importText at h
  simp only [hpath] at h
  cases htarget : s.disk.canonical? (importRequest place path) with
  | error fault =>
    cases fault with
    | unnameable =>
      simp only [htarget] at h
      cases h
      exact .unnameable htarget
    | _ =>
      simp only [htarget] at h
      cases h
      exact .unresolved htarget
  | ok target =>
    simp only [htarget] at h
    split at h
    · next hmem =>
      cases h
      exact .cyclic htarget hmem
    · next hclosed =>
      split at h
      · cases h
      · cases levels with
        | zero =>
          cases h
          exact .tooDeep htarget hclosed rfl
        | succ levels => exact .inside htarget hclosed rfl h

end

end Flatten

/-! ## Sources -/

/-- Bindings define what an outline lists, and its constants can be written. -/
structure Bindings.Supplies (bindings : Bindings) (o : Outline) : Prop where
  conditions : ∀ name ∈ o.conditions, bindings.conditions.get? (String.ofList name) ≠ none
  constants : ∀ name ∈ o.constants, ∃ value rendered,
    bindings.constants.get? (String.ofList name) = some value ∧ value.render = .ok rendered

/-- A line of a source has a number, and these blocks are open before it. -/
def LineAt (conditions : Table Value) (source : Text) (number : Nat) (line : Text)
    (blocks : OpenBlocks) : Prop :=
  ∃ passed rest, Text.lines source = passed ++ line :: rest ∧ number = passed.length + 1 ∧
    Flatten.blocksAfter conditions passed = some blocks

/-- A halt of the file at a place comes from one of its visible imports, where it leaves the file. -/
def HaltsAtImport (s : Setting) (place : Place) (source : Text) (halt : Halt) : Prop :=
  ∃ number line blocks path halt', LineAt s.bindings.conditions source number line blocks ∧
    blocks.visible = true ∧ Outline.ImportsPath line path ∧
    Flatten.ImportHalts s s.limits.levels [place.text] place path halt' ∧
    halt = Uncached.leave ⟨place, some (number, line)⟩ halt'

section
variable {s : Setting} {place : Place} {source : Text} {l l' : Ledger}

/-- **A valid source halts at an import.**  If the bindings supply what a valid source asks for, its lines
can come to no halt but that of a visible import. -/
theorem Flatten.lines_halt (hvalid : (Outline.ofSource source).isValid = true)
    (hsupplies : s.bindings.Supplies (.ofSource source)) (hlength : s.limits.lineLength = none)
    {halt : Halt}
    (h : lines s (below s s.limits.levels) [place.text] place 1 .none [] (Text.lines source) l =
      (.error halt, l')) : HaltsAtImport s place source halt := by
  obtain ⟨passed, line, rest, blocks, l₁, halt', l₂, hlines, hblocks, hline, rfl⟩ := lines_error h
  have hmem : line ∈ Text.lines source := by simp [hlines]
  obtain ⟨hwell, hstray⟩ := (Outline.isValid_ofSource hvalid).1 passed line rest hlines
  have hat : LineAt s.bindings.conditions source (1 + passed.length) line blocks :=
    ⟨passed, rest, hlines, Nat.add_comm _ _, hblocks⟩
  rcases line_error hline with hfails | ⟨hturn, hvisible, htext⟩
  · -- no directive of a valid source fails
    rw [turnBlocks_error_iff, depth_of_blocksAfter hblocks] at hfails
    rcases hfails with ⟨-, hinvalid | hinvalid⟩ | ⟨name, hasks, hundefined⟩
    · exact absurd hinvalid hwell
    · exact absurd hinvalid hstray
    · exact absurd hundefined
        (hsupplies.conditions name (Outline.mem_conditions_ofSource.mpr ⟨line, hmem, hasks⟩))
  · unfold lineText at htext
    rcases turnBlocks_eq_none_iff.mp hturn with hkind | hkind
    · rw [if_pos hkind] at htext
      cases hpath : Line.importPath? line with
      | error mismatch =>
        refine absurd ?_ hwell
        simp [Outline.Malformed, hkind, hpath]
      | ok path =>
        exact ⟨_, line, blocks, path, halt', hat, hvisible, ⟨hkind, hpath⟩,
          importText_error hpath htext, rfl⟩
    · -- nor does a content line
      obtain ⟨text, hok⟩ := substitute_ok hkind hwell fun name hasks =>
        hsupplies.constants name (Outline.mem_constants_ofSource.mpr ⟨line, hmem, hasks⟩)
      rw [if_neg (by simp [hkind]), hlength, hok] at htext
      cases htext

section
variable {visit : Option Flatten.Visit} {chain : List String} {done : List Text} {blocks : OpenBlocks}

/-- **Only hidden lines may be invalid** in a source that goes on to its end and leaves no block open. -/
theorem Flatten.hidden_of_invalid
    (h : lines s visit chain place 1 .none [] (Text.lines source) l = (.ok (done, blocks), l'))
    (hfinish : blocks.finish = .ok ()) {number : Nat} {line : Text}
    (hlisted : (number, line) ∈ (Outline.ofSource source).invalidLines) :
    ∃ hidden, LineAt s.bindings.conditions source number line hidden ∧ hidden.visible = false ∧
      (Line.kind line = .importLine ∨ Line.kind line = .content) := by
  obtain ⟨hblocks, heach⟩ := lines_ok h
  rcases Outline.mem_invalidLines_ofSource.mp hlisted with
    ⟨passed, rest, hlines, rfl, hinvalid⟩ | ⟨hopen, -, -⟩
  · obtain ⟨behind, l₁, ⟨emitted, blocks₁⟩, l₂, hbehind, hwent⟩ := heach passed line rest hlines
    obtain ⟨hpass, htext⟩ := line_ok hwent
    rw [← depth_of_blocksAfter hbehind] at hinvalid
    have hturn : turnBlocks s.bindings.conditions behind line = none := by
      by_contra hturn
      obtain ⟨cause, hfails⟩ := turnBlocks_error_iff.mpr (.inl ⟨hturn, hinvalid⟩)
      simp [passBlocks, hfails] at hpass
    have hkind := turnBlocks_eq_none_iff.mp hturn
    have hmalformed : Outline.Malformed line := by
      rcases hinvalid with hmalformed | ⟨-, hstray⟩
      · exact hmalformed
      · rcases hkind with hkind | hkind <;> simp [hkind] at hstray
    refine ⟨behind, ⟨passed, rest, hlines, rfl, hbehind⟩, ?_, hkind⟩
    by_contra hvisible
    obtain ⟨text, htext⟩ := htext hturn (by simpa using hvisible)
    exact not_malformed_of_lineText hkind htext hmalformed
  · -- the outline has counted no open block at the end
    refine absurd ?_ hopen
    rw [← depth_of_blocksAfter hblocks]
    exact OpenBlocks.finish_eq_ok_iff.mp hfinish

/-- Every condition of a source that goes on to its end is defined, also where it is hidden. -/
theorem Flatten.defined_of_went
    (h : lines s visit chain place 1 .none [] (Text.lines source) l = (.ok (done, blocks), l'))
    {name : Text} (hname : name ∈ (Outline.ofSource source).conditions) :
    s.bindings.conditions.get? (String.ofList name) ≠ none := by
  obtain ⟨line, hmem, hasks⟩ := Outline.mem_conditions_ofSource.mp hname
  obtain ⟨passed, rest, hlines⟩ := List.append_of_mem hmem
  obtain ⟨behind, l₁, ⟨emitted, blocks₁⟩, l₂, -, hwent⟩ := (lines_ok h).2 passed line rest hlines
  intro hundefined
  have hfails : ∃ cause, turnBlocks s.bindings.conditions behind line = some (.error cause) :=
    turnBlocks_error_iff.mpr (.inr ⟨name, hasks, hundefined⟩)
  obtain ⟨cause, hfails⟩ := hfails
  have hpass := (line_ok hwent).1
  simp [passBlocks, hfails] at hpass

/-- **The greatest nesting** of a source that goes on to its end is the greatest number of blocks that are
ever open in it. -/
theorem Flatten.isGreatest_depth_of_went
    (h : lines s visit chain place 1 .none [] (Text.lines source) l = (.ok (done, blocks), l')) :
    IsGreatest {d | ∃ passed behind, passed <+: Text.lines source ∧
        blocksAfter s.bindings.conditions passed = some behind ∧ behind.depth = d}
      (Outline.ofSource source).maxNesting := by
  obtain ⟨⟨passed, hpassed, hdepth⟩, hbound⟩ := Outline.isGreatest_maxNesting_ofSource source
  constructor
  · obtain ⟨rest, hlines⟩ := hpassed
    have hblocks : blocksAfter s.bindings.conditions (passed ++ rest) = some blocks := by
      rw [hlines]
      exact (lines_ok h).1
    rw [blocksAfter, List.foldlM_append, Option.bind_eq_bind, Option.bind_eq_some_iff] at hblocks
    obtain ⟨behind, hbehind, -⟩ := hblocks
    exact ⟨passed, behind, ⟨rest, hlines⟩, hbehind, by rw [depth_of_blocksAfter hbehind, hdepth]⟩
  · rintro d ⟨passed', behind, hpassed', hbehind, rfl⟩
    exact hbound ⟨passed', hpassed', (depth_of_blocksAfter hbehind).symm⟩

end

end

/-! ## The theorem -/

/-- A call on a source that closes all its blocks halts at a line. -/
theorem Engine.lines_of_halt {engine : Engine} {disk : Disk} {bindings : Bindings} {request : String}
    {place : Place} {source : Text} (hplace : disk.canonical? request = .ok place)
    (hcache : engine.cache.get? place.text = none)
    (hsource : Flatten.sourceAt (engine.setting disk bindings) place = .ok source)
    (hclosed : Outline.depthAfter (Text.lines source) = 0) {halt : Halt}
    (h : (engine.process disk bindings request).1.1 = .error halt) :
    ∃ l', Flatten.lines (engine.setting disk bindings)
      (Flatten.below (engine.setting disk bindings) engine.limits.levels) [place.text] place 1 .none []
      (Text.lines source) (Flatten.askedFor (engine.setting disk bindings) place (.ofCache engine.cache)) =
        (.error halt, l') := by
  have hprocess := process_source hplace hcache hsource
  rw [Prod.ext_iff, h] at hprocess
  rcases Flatten.source_error (Prod.ext hprocess.1.symm rfl) with
    hlines | ⟨done, blocks, l₁, hlines, ⟨cause, hfinish⟩ | hstore⟩
  · exact ⟨_, hlines⟩
  · have hdepth := Flatten.depth_of_blocksAfter (Flatten.lines_ok hlines).1
    rw [hclosed] at hdepth
    rw [OpenBlocks.finish_eq_ok_iff.mpr hdepth] at hfinish
    cases hfinish
  · -- the file is open, so it has not been cached
    obtain ⟨failure, rfl, hkind⟩ := Flatten.store_error hstore
    have hrun := process_run bindings hplace hcache
    rw [h] at hrun
    exact absurd hkind (Run.localFailure hrun hcache failure rfl).2

/-- **A call on a valid source halts at an import**, if the bindings supply what it asks for. -/
theorem Engine.process_halt_of_valid {engine : Engine} {disk : Disk} {bindings : Bindings}
    {request : String} {place : Place} {source : Text} (hplace : disk.canonical? request = .ok place)
    (hcache : engine.cache.get? place.text = none)
    (hsource : Flatten.sourceAt (engine.setting disk bindings) place = .ok source)
    (hvalid : (Outline.ofSource source).isValid = true) (hsupplies : bindings.Supplies (.ofSource source))
    (hlength : engine.limits.lineLength = none) {halt : Halt}
    (h : (engine.process disk bindings request).1.1 = .error halt) :
    HaltsAtImport (engine.setting disk bindings) place source halt := by
  obtain ⟨l', hlines⟩ := lines_of_halt hplace hcache hsource (Outline.isValid_ofSource hvalid).2 h
  exact Flatten.lines_halt (s := engine.setting disk bindings) hvalid hsupplies hlength hlines

/-- A call on a valid source without imports comes to a text, if the bindings supply what it asks for. -/
theorem Engine.process_ok_of_valid {engine : Engine} {disk : Disk} {bindings : Bindings}
    {request : String} {place : Place} {source : Text} (hplace : disk.canonical? request = .ok place)
    (hcache : engine.cache.get? place.text = none)
    (hsource : Flatten.sourceAt (engine.setting disk bindings) place = .ok source)
    (hvalid : (Outline.ofSource source).isValid = true) (hsupplies : bindings.Supplies (.ofSource source))
    (hlength : engine.limits.lineLength = none) (himports : (Outline.ofSource source).imports = []) :
    ∃ text, (engine.process disk bindings request).1.1 = .ok text := by
  cases hresult : (engine.process disk bindings request).1.1 with
  | ok text => exact ⟨text, rfl⟩
  | error halt =>
    obtain ⟨number, line, blocks, path, halt', ⟨passed, rest, hlines, -⟩, -, hpath, -⟩ :=
      process_halt_of_valid hplace hcache hsource hvalid hsupplies hlength hresult
    have hmem : path ∈ (Outline.ofSource source).imports :=
      Outline.mem_imports_ofSource.mpr ⟨line, by simp [hlines], hpath⟩
    simp [himports] at hmem

/-- **Outlines and calls agree** on a readable file, for a new engine.  If its source is valid and the
bindings supply what it asks for, a call can come to no halt but at a visible import, so that without
imports it comes to a text.  If a call comes to a text, only hidden imports and hidden content are listed
as invalid, the conditions that are listed are defined, and the greatest nesting is the greatest number of
blocks that are open at once. -/
theorem process_agrees_outline {disk : Disk} {limits : Limits} {bindings : Bindings} {request : String}
    {place : Place} {source : Text} (hplace : disk.canonical? request = .ok place)
    (hsource : Flatten.sourceAt ((Engine.create limits).setting disk bindings) place = .ok source) :
    ((Outline.ofSource source).isValid = true → bindings.Supplies (.ofSource source) →
      limits.lineLength = none →
      (∀ halt, ((Engine.create limits).process disk bindings request).1.1 = .error halt →
        HaltsAtImport ((Engine.create limits).setting disk bindings) place source halt) ∧
      ((Outline.ofSource source).imports = [] →
        ∃ text, ((Engine.create limits).process disk bindings request).1.1 = .ok text)) ∧
    ∀ text, ((Engine.create limits).process disk bindings request).1.1 = .ok text →
      (∀ number line, (number, line) ∈ (Outline.ofSource source).invalidLines →
        ∃ hidden, LineAt bindings.conditions source number line hidden ∧ hidden.visible = false ∧
          (Line.kind line = .importLine ∨ Line.kind line = .content)) ∧
      (∀ name ∈ (Outline.ofSource source).conditions,
        bindings.conditions.get? (String.ofList name) ≠ none) ∧
      IsGreatest {d | ∃ passed behind, passed <+: Text.lines source ∧
          Flatten.blocksAfter bindings.conditions passed = some behind ∧ behind.depth = d}
        (Outline.ofSource source).maxNesting := by
  have hcache : (Engine.create limits).cache.get? place.text = none := rfl
  constructor
  · intro hvalid hsupplies hlength
    have hhalts : ∀ halt, ((Engine.create limits).process disk bindings request).1.1 = .error halt →
        HaltsAtImport ((Engine.create limits).setting disk bindings) place source halt :=
      fun _ => Engine.process_halt_of_valid hplace hcache hsource hvalid hsupplies hlength
    refine ⟨hhalts, fun hnone => ?_⟩
    cases hresult : ((Engine.create limits).process disk bindings request).1.1 with
    | ok text => exact ⟨text, rfl⟩
    | error halt =>
      obtain ⟨number, line, blocks, path, halt', ⟨passed, rest, hlines, -⟩, -, himports, -⟩ :=
        hhalts halt hresult
      have hmem : path ∈ (Outline.ofSource source).imports :=
        Outline.mem_imports_ofSource.mpr ⟨line, by simp [hlines], himports⟩
      simp [hnone] at hmem
  · intro text htext
    have hprocess := Engine.process_source hplace hcache hsource
    rw [Prod.ext_iff, htext] at hprocess
    obtain ⟨done, blocks, l₁, hlines, hfinish⟩ := Flatten.source_ok (Prod.ext hprocess.1.symm rfl)
    exact ⟨fun number line => Flatten.hidden_of_invalid hlines hfinish,
      fun name => Flatten.defined_of_went hlines, Flatten.isGreatest_depth_of_went hlines⟩

/-! A constant in two blocks, the outer one of which is hidden. -/

/-- The source of that shader. -/
def nestedSource : Text := "#if x\n#if y\n#(z)\n#endif\n#endif".toList

/-- What that shader asks for. -/
def nestedBindings : Bindings := ⟨[("x", .bool false), ("y", .bool true)], [("z", .int 3)]⟩

theorem nestedSource_outline :
    Outline.ofSource nestedSource = ⟨[], [['x'], ['y']], [['z']], [], 2⟩ := by decide

theorem nestedBindings_supplies : nestedBindings.Supplies (.ofSource nestedSource) := by
  have hx : String.ofList ['x'] = "x" := rfl
  have hy : String.ofList ['y'] = "y" := rfl
  have hz : String.ofList ['z'] = "z" := rfl
  have hthree : (Value.int 3).render = .ok "3" := by decide
  rw [nestedSource_outline]
  constructor
  · simp [nestedBindings, Table.get?, hx, hy]
  · simp [nestedBindings, Table.get?, hz, hthree]

theorem process_agrees_outline_nested :
    nestedBindings.Supplies (.ofSource nestedSource) ∧
    (∃ text, ((Engine.create .oneLevel).process (.pair (Utf8.ascii nestedSource) .empty) nestedBindings
      "/a").1.1 = .ok text) ∧
    IsGreatest {d | ∃ passed behind, passed <+: Text.lines nestedSource ∧
      Flatten.blocksAfter nestedBindings.conditions passed = some behind ∧ behind.depth = d} 2 := by
  have hread := Disk.readBytes_pair_shader (Utf8.ascii nestedSource) .empty
  have hsource : Flatten.sourceAt ((Engine.create .oneLevel).setting
      (.pair (Utf8.ascii nestedSource) .empty) nestedBindings) ["a"] = .ok nestedSource :=
    Flatten.sourceAt_ascii rfl hread (by decide)
  obtain ⟨hvalid, hwent⟩ := process_agrees_outline (Disk.canonical?_pair_shader _ _) hsource
  rw [nestedSource_outline] at hvalid hwent
  have hsupplies := nestedBindings_supplies
  rw [nestedSource_outline] at hsupplies
  obtain ⟨text, htext⟩ := (hvalid rfl hsupplies rfl).2 rfl
  exact ⟨nestedBindings_supplies, ⟨text, htext⟩, (hwent text htext).2.2⟩

end ShaderFlatten
