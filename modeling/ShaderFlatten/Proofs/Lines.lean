import ShaderFlatten.Proofs.Transparency

/-!
# Where the lines of a file stop

The lines of a file are handled from the first to the last one, or up to a line that halts.  The blocks
that are open at a line are those behind the lines before it, whatever the lines have emitted:

    Flatten.lines s visit chain place n blocks done rest l = (.ok (done', blocks'), l')
      every line of `rest` goes on, with the blocks behind the lines before it             (lines_ok)

    Flatten.lines s visit chain place n blocks done rest l = (.error halt, l')
      the lines before one of them go on, and that one halts                               (lines_error)
-/

namespace ShaderFlatten

namespace Flatten

/-! ## Lines -/

section
variable {s : Setting} {visit : Option Visit} {chain : List String} {place : Place} {blocks : OpenBlocks}
  {line : Text} {l l' : Ledger}

/-- A line that goes on leaves the blocks as its directive does.  If it is visible and no directive, it
stands for a text. -/
theorem line_ok {emitted : Option Text} {blocks' : OpenBlocks}
    (h : Flatten.line s visit chain place blocks line l = (.ok (emitted, blocks'), l')) :
    passBlocks s.bindings.conditions blocks line = some blocks' ∧
      (turnBlocks s.bindings.conditions blocks line = none → blocks.visible = true →
        ∃ text, lineText s visit chain place line l = (.ok text, l')) := by
  unfold Flatten.line at h
  unfold passBlocks
  cases hturn : turnBlocks s.bindings.conditions blocks line with
  | some turned =>
    cases turned with
    | error cause => simp [hturn] at h
    | ok turned =>
      simp only [hturn, Prod.mk.injEq, Except.ok.injEq] at h
      simp [h.1.2]
  | none =>
    simp only [hturn] at h
    split at h
    · cases htext : lineText s visit chain place line l with
      | mk result l₁ =>
        cases result with
        | error halt => simp [htext] at h
        | ok text =>
          simp only [htext, Prod.mk.injEq, Except.ok.injEq] at h
          obtain ⟨⟨-, rfl⟩, rfl⟩ := h
          exact ⟨rfl, fun _ _ => ⟨text, rfl⟩⟩
    · next hhidden =>
      simp only [Prod.mk.injEq, Except.ok.injEq] at h
      obtain ⟨⟨-, rfl⟩, -⟩ := h
      exact ⟨rfl, fun _ hvisible => absurd hvisible hhidden⟩

/-- A line that halts is a directive that fails, or it is visible and stands for no text. -/
theorem line_error {halt : Halt} (h : Flatten.line s visit chain place blocks line l = (.error halt, l')) :
    (∃ cause, turnBlocks s.bindings.conditions blocks line = some (.error cause)) ∨
      turnBlocks s.bindings.conditions blocks line = none ∧ blocks.visible = true ∧
        lineText s visit chain place line l = (.error halt, l') := by
  unfold Flatten.line at h
  cases hturn : turnBlocks s.bindings.conditions blocks line with
  | some turned =>
    cases turned with
    | error cause => exact .inl ⟨cause, rfl⟩
    | ok turned => simp [hturn] at h
  | none =>
    simp only [hturn] at h
    split at h
    · next hvisible =>
      cases htext : lineText s visit chain place line l with
      | mk result l₁ =>
        cases result with
        | ok text => simp [htext] at h
        | error halt' =>
          simp only [htext, Prod.mk.injEq, Except.error.injEq] at h
          obtain ⟨rfl, rfl⟩ := h
          exact .inr ⟨rfl, hvisible, rfl⟩
    · cases h

/-- The lines behind one that goes on are handled whether it has emitted a text or not. -/
theorem lines_behind {emitted : Option Text} {blocks' : OpenBlocks}
    (h : Flatten.line s visit chain place blocks line l = (.ok (emitted, blocks'), l')) (number : Nat)
    (done rest : List Text) :
    ∃ done', lines s visit chain place number blocks done (line :: rest) l =
      lines s visit chain place (number + 1) blocks' done' rest l' := by
  rw [lines]
  simp only [h]
  cases emitted with
  | none => exact ⟨_, rfl⟩
  | some text => exact ⟨_, rfl⟩

/-- **Lines that go on**, each with the blocks behind the lines before it. -/
theorem lines_ok {number : Nat} {done done' rest : List Text} {blocks' : OpenBlocks}
    (h : lines s visit chain place number blocks done rest l = (.ok (done', blocks'), l')) :
    rest.foldlM (passBlocks s.bindings.conditions) blocks = some blocks' ∧
      ∀ passed line rest', rest = passed ++ line :: rest' →
        ∃ behind l₁ went l₂, passed.foldlM (passBlocks s.bindings.conditions) blocks = some behind ∧
          Flatten.line s visit chain place behind line l₁ = (.ok went, l₂) := by
  induction rest generalizing number blocks done l with
  | nil =>
    cases h
    exact ⟨rfl, by simp⟩
  | cons first rest ih =>
    cases hline : Flatten.line s visit chain place blocks first l with
    | mk result l₁ =>
      rcases result with (failure | refusal) | ⟨emitted, blocks₁⟩
      · simp [lines, hline] at h
      · simp [lines, hline] at h
      · obtain ⟨done₁, hrest⟩ := lines_behind hline number done rest
        obtain ⟨hblocks, heach⟩ := ih (hrest.symm.trans h)
        have hpass := (line_ok hline).1
        refine ⟨by simpa [hpass] using hblocks, fun passed line rest' heq => ?_⟩
        cases passed with
        | nil =>
          cases heq
          exact ⟨blocks, l, _, l₁, rfl, hline⟩
        | cons first' passed =>
          cases heq
          obtain ⟨behind, l₂, went, l₃, hbehind, hwent⟩ := heach passed line rest' rfl
          exact ⟨behind, l₂, went, l₃, by simpa [hpass] using hbehind, hwent⟩

/-- **Lines that halt** do so at one of them, and the lines before it go on. -/
theorem lines_error {number : Nat} {done rest : List Text} {halt : Halt}
    (h : lines s visit chain place number blocks done rest l = (.error halt, l')) :
    ∃ passed line rest' behind l₁ halt' l₂, rest = passed ++ line :: rest' ∧
      passed.foldlM (passBlocks s.bindings.conditions) blocks = some behind ∧
      Flatten.line s visit chain place behind line l₁ = (.error halt', l₂) ∧
      halt = Uncached.leave ⟨place, some (number + passed.length, line)⟩ halt' := by
  induction rest generalizing number blocks done l with
  | nil => cases h
  | cons first rest ih =>
    cases hline : Flatten.line s visit chain place blocks first l with
    | mk result l₁ =>
      rcases result with (failure | refusal) | ⟨emitted, blocks₁⟩
      · simp only [lines, hline, Ledger.report_fst, Prod.mk.injEq, Except.error.injEq] at h
        exact ⟨[], first, rest, blocks, l, _, l₁, rfl, rfl, hline, h.1.symm⟩
      · simp only [lines, hline, Prod.mk.injEq, Except.error.injEq] at h
        exact ⟨[], first, rest, blocks, l, _, l₁, rfl, rfl, hline, h.1.symm⟩
      · obtain ⟨done₁, hrest⟩ := lines_behind hline number done rest
        obtain ⟨passed, line, rest', behind, l₂, halt', l₃, rfl, hbehind, hhalt, rfl⟩ := ih (hrest.symm.trans h)
        have hpass := (line_ok hline).1
        refine ⟨first :: passed, line, rest', behind, l₂, halt', l₃, rfl, ?_, hhalt, ?_⟩
        · simpa [hpass] using hbehind
        · rw [List.length_cons, Nat.add_assoc, Nat.add_comm 1]

end

/-! ## Files -/

section
variable {s : Setting} {visit : Option Visit} {chain : List String} {place : Place} {text : Text}
  {l l' : Ledger}

/-- A file that comes to a text has gone on to its end, where no block is open.  The text is what its lines
have emitted, and it has been stored. -/
theorem source_content {content : Text} (h : source s visit chain place text l = (.ok content, l')) :
    ∃ done blocks l₁, lines s visit chain place 1 .none [] (Text.lines text) l = (.ok (done, blocks), l₁) ∧
      blocks.finish = .ok () ∧ content = done.reverse.flatten ∧ store place.text content l₁ = (.ok (), l') := by
  unfold source at h
  simp only at h
  split at h
  · cases h
  · next done blocks l₁ hlines =>
    refine ⟨done, blocks, l₁, hlines, ?_⟩
    cases hfinish : blocks.finish with
    | error cause => simp [hfinish] at h
    | ok _ =>
      simp only [hfinish] at h
      split at h
      · cases h
      · next hstore =>
        cases h
        exact ⟨rfl, rfl, hstore⟩

theorem source_ok {content : Text} (h : source s visit chain place text l = (.ok content, l')) :
    ∃ done blocks l₁, lines s visit chain place 1 .none [] (Text.lines text) l = (.ok (done, blocks), l₁) ∧
      blocks.finish = .ok () := by
  obtain ⟨done, blocks, l₁, hlines, hfinish, -⟩ := source_content h
  exact ⟨done, blocks, l₁, hlines, hfinish⟩

/-- A file that comes to a halt does so at a line, or at its end with a block open, or it cannot be kept. -/
theorem source_error {halt : Halt} (h : source s visit chain place text l = (.error halt, l')) :
    lines s visit chain place 1 .none [] (Text.lines text) l = (.error halt, l') ∨
    ∃ done blocks l₁, lines s visit chain place 1 .none [] (Text.lines text) l = (.ok (done, blocks), l₁) ∧
      ((∃ cause, blocks.finish = .error cause) ∨
        store place.text done.reverse.flatten l₁ = (.error halt, l')) := by
  unfold source at h
  simp only at h
  split at h
  · next halt' l₁ hlines =>
    cases h
    exact .inl hlines
  · next done blocks l₁ hlines =>
    refine .inr ⟨done, blocks, l₁, hlines, ?_⟩
    cases hfinish : blocks.finish with
    | error cause => exact .inl ⟨cause, rfl⟩
    | ok _ =>
      simp only [hfinish] at h
      split at h
      · next hstore =>
        cases h
        exact .inr hstore
      · cases h

theorem store_error {key : String} {halt : Halt} (h : store key text l = (.error halt, l')) :
    ∃ failure, halt = .failed failure ∧ failure.kind = .cacheConflict := by
  unfold store at h
  split at h
  · split at h
    · cases h
    · cases h
      exact ⟨_, rfl, by simp [Cause.kind]⟩
  · cases h

end

/-- How the imports of a file are flattened when so many levels may be opened below it. -/
def below (s : Setting) : (levels : Nat) → Option Visit
  | 0 => none
  | levels + 1 => some (file s levels)

theorem file_eq (s : Setting) (levels : Nat) : file s levels = fileWith s (below s levels) := by
  cases levels <;> rfl

end Flatten

/-- **A call that enters a file** is the flattening of its lines. -/
theorem Engine.process_source {engine : Engine} {disk : Disk} {bindings : Bindings} {request : String}
    {place : Place} {text : Text} (hplace : disk.canonical? request = .ok place)
    (hcache : engine.cache.get? place.text = none)
    (hsource : Flatten.sourceAt (engine.setting disk bindings) place = .ok text) :
    (engine.process disk bindings request).1 =
      Flatten.source (engine.setting disk bindings)
        (Flatten.below (engine.setting disk bindings) engine.limits.levels) [place.text] place text
        (Flatten.askedFor (engine.setting disk bindings) place (.ofCache engine.cache)) := by
  rw [process_file hplace hcache, Flatten.file_eq, Flatten.fileWith, Flatten.readText_eq, hsource]
  simp only [List.nil_append]

end ShaderFlatten
