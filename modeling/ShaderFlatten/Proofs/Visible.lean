import ShaderFlatten.Proofs.Hidden

/-!
# The lines that a file shows

A line is shown if it is no conditional directive and every block that is open at it holds.  A file that
goes on to its end has emitted a text for every line that it shows, in order, and nothing else:

    Flatten.lines s visit chain place 1 .none [] all l = (.ok (done, blocks), l')
      done.reverse = the texts of `Flatten.shown conditions .none (Flatten.numbered 1 all)`,
        each with its line end                                                       (lines_emits)

Whether a text gets a line end depends on what stands behind its line in the source, shown or not.
-/

namespace ShaderFlatten

namespace Flatten

/-! ## Numbers -/

/-- Lines with their numbers. -/
def numbered : (number : Nat) → List Text → List NumberedLine
  | _, [] => []
  | number, line :: rest => (number, line) :: numbered (number + 1) rest

section
variable {number : Nat} {lines : List Text}

@[simp] theorem map_snd_numbered : (numbered number lines).map Prod.snd = lines := by
  induction lines generalizing number with
  | nil => rfl
  | cons line rest ih => rw [numbered, List.map_cons, ih]

theorem numbered_append (number : Nat) (passed rest : List Text) :
    numbered number (passed ++ rest) = numbered number passed ++ numbered (number + passed.length) rest := by
  induction passed generalizing number with
  | nil => rfl
  | cons line passed ih =>
    rw [List.cons_append, numbered, numbered, ih, List.length_cons, Nat.add_assoc, Nat.add_comm 1]
    rfl

/-- Where a line with a number stands. -/
theorem numbered_split {passed rest : List NumberedLine} {line : NumberedLine}
    (h : numbered number lines = passed ++ line :: rest) :
    lines = passed.map Prod.snd ++ line.2 :: rest.map Prod.snd ∧ line.1 = number + passed.length := by
  have hlines : lines = passed.map Prod.snd ++ line.2 :: rest.map Prod.snd := by
    rw [← List.map_cons, ← List.map_append, ← h, map_snd_numbered]
  refine ⟨hlines, ?_⟩
  rw [hlines, numbered_append, List.length_map] at h
  have hlength : (numbered number (passed.map Prod.snd)).length = passed.length := by
    rw [← List.length_map, map_snd_numbered, List.length_map]
  have hline := (List.append_inj h hlength).2
  rw [numbered] at hline
  exact congrArg Prod.fst (List.cons.inj hline).1.symm

end

/-! ## What is shown -/

/-- A line is shown: it is no conditional directive, and these blocks are open at it and hold. -/
def shows (conditions : Table Value) (blocks : OpenBlocks) (line : Text) : Bool :=
  (turnBlocks conditions blocks line).isNone && blocks.visible

/-- The lines that are shown from where these blocks are open, up to a directive that fails. -/
def shown (conditions : Table Value) : (blocks : OpenBlocks) → List NumberedLine → List NumberedLine
  | _, [] => []
  | blocks, line :: rest =>
    match passBlocks conditions blocks line.2 with
    | none => []
    | some blocks' =>
      if shows conditions blocks line.2 then line :: shown conditions blocks' rest
      else shown conditions blocks' rest

section
variable {conditions : Table Value} {blocks blocks' : OpenBlocks} {line : NumberedLine}

theorem shows_iff {line : Text} :
    shows conditions blocks line = true ↔ IsPlain line ∧ blocks.visible = true := by
  rw [shows, Bool.and_eq_true, Option.isNone_iff_eq_none, turnBlocks_eq_none_iff]
  rfl

theorem shown_cons (hpass : passBlocks conditions blocks line.2 = some blocks') (rest : List NumberedLine) :
    shown conditions blocks (line :: rest) =
      if shows conditions blocks line.2 then line :: shown conditions blocks' rest
      else shown conditions blocks' rest := by
  simp only [shown, hpass]

/-- **A line is shown** where the blocks that the lines before it leave open hold. -/
theorem mem_shown {lines : List NumberedLine} : line ∈ shown conditions blocks lines ↔
    ∃ passed rest behind, lines = passed ++ line :: rest ∧
      (passed.map Prod.snd).foldlM (passBlocks conditions) blocks = some behind ∧
      shows conditions behind line.2 = true := by
  induction lines generalizing blocks with
  | nil => simp [shown]
  | cons first rest ih =>
    constructor
    · intro h
      cases hpass : passBlocks conditions blocks first.2 with
      | none => simp [shown, hpass] at h
      | some blocks₁ =>
        rw [shown_cons hpass] at h
        have hlater (hmem : line ∈ shown conditions blocks₁ rest) : ∃ passed rest' behind,
            first :: rest = passed ++ line :: rest' ∧
            (passed.map Prod.snd).foldlM (passBlocks conditions) blocks = some behind ∧
            shows conditions behind line.2 = true := by
          obtain ⟨passed, rest', behind, rfl, hbehind, hshows⟩ := ih.mp hmem
          exact ⟨first :: passed, rest', behind, rfl, by simpa [hpass] using hbehind, hshows⟩
        split at h
        · next hshows =>
          rcases List.mem_cons.mp h with rfl | hmem
          · exact ⟨[], rest, blocks, rfl, rfl, hshows⟩
          · exact hlater hmem
        · exact hlater h
    · rintro ⟨passed, rest', behind, hsplit, hbehind, hshows⟩
      cases passed with
      | nil =>
        cases hsplit
        cases hbehind
        rw [shown_cons ((shows_iff.mp hshows).1.passBlocks conditions blocks), if_pos hshows]
        exact List.mem_cons_self
      | cons first' passed =>
        cases hsplit
        rw [List.map_cons, List.foldlM_cons, Option.bind_eq_bind, Option.bind_eq_some_iff] at hbehind
        obtain ⟨blocks₁, hpass, hbehind⟩ := hbehind
        have hmem := ih.mpr ⟨passed, rest', behind, rfl, hbehind, hshows⟩
        rw [shown_cons hpass]
        split
        · exact List.mem_cons_of_mem _ hmem
        · exact hmem

/-- The lines that a source shows. -/
theorem mem_shown_lines {source : Text} :
    line ∈ shown conditions .none (numbered 1 (Text.lines source)) ↔
      IsPlain line.2 ∧ ∃ blocks, LineAt conditions source line.1 line.2 blocks ∧ blocks.visible = true := by
  rw [mem_shown]
  constructor
  · rintro ⟨passed, rest, behind, hsplit, hpass, hshows⟩
    obtain ⟨hlines, hnumber⟩ := numbered_split hsplit
    obtain ⟨hplain, hvisible⟩ := shows_iff.mp hshows
    refine ⟨hplain, behind, ⟨_, _, hlines, ?_, hpass⟩, hvisible⟩
    rw [hnumber, List.length_map, Nat.add_comm]
  · rintro ⟨hplain, blocks, ⟨passed, rest, hlines, hnumber, hblocks⟩, hvisible⟩
    refine ⟨numbered 1 passed, numbered (line.1 + 1) rest, blocks, ?_, ?_, shows_iff.mpr ⟨hplain, hvisible⟩⟩
    · rw [hlines, numbered_append, numbered, Nat.add_comm 1, ← hnumber]
    · rw [map_snd_numbered]
      exact hblocks

end

/-! ## What is emitted -/

section
variable {s : Setting} {visit : Option Visit} {chain : List String} {place : Place} {blocks blocks' : OpenBlocks}
  {l l' : Ledger}

/-- A line that goes on emits its text if it is shown, and else nothing. -/
theorem line_emits {line : Text} {went : Option Text}
    (h : Flatten.line s visit chain place blocks line l = (.ok (went, blocks'), l')) :
    (shows s.bindings.conditions blocks line = true ∧ ∃ text, went = some text ∧
      lineText s visit chain place line l = (.ok text, l')) ∨
    shows s.bindings.conditions blocks line = false ∧ went = none := by
  unfold Flatten.line at h
  unfold shows
  split at h
  · cases h
  · next hturn =>
    cases h
    exact .inr ⟨by simp [hturn], rfl⟩
  · next hturn =>
    split at h
    · next hvisible =>
      split at h
      · cases h
      · next text l₁ htext =>
        cases h
        exact .inl ⟨by simp [hturn, hvisible], text, rfl, htext⟩
    · next hhidden =>
      cases h
      exact .inr ⟨by simpa [hturn] using hhidden, rfl⟩

/-- **Lines that go on emit a text for each line that they show**, in order, and the lines behind it go on
from there.  The induction is on the lines that are left, and `passed` are those before them. -/
theorem lines_emits (passed : List Text) {done done' rest : List Text}
    (h : lines s visit chain place (passed.length + 1) blocks done rest l = (.ok (done', blocks'), l')) :
    ∃ emits : List (NumberedLine × Text),
      emits.map Prod.fst = shown s.bindings.conditions blocks (numbered (passed.length + 1) rest) ∧
      (∀ e ∈ emits, ∃ l₁ l₂, lineText s visit chain place e.1.2 l₁ = (.ok e.2, l₂) ∧
        ∃ number behind before ahead,
          lines s visit chain place number behind before ahead l₂ = (.ok (done', blocks'), l')) ∧
      done' = (emits.map fun e => emitted e.2 ((passed ++ rest).drop e.1.1)).reverse ++ done := by
  induction rest generalizing passed blocks done l with
  | nil =>
    cases h
    exact ⟨[], rfl, by simp, rfl⟩
  | cons first rest ih =>
    rw [lines] at h
    cases hline : Flatten.line s visit chain place blocks first l with
    | mk result l₁ =>
      rcases result with (failure | refusal) | ⟨went, blocks₁⟩
      · simp [hline] at h
      · simp [hline] at h
      · have hpass := (line_ok hline).1
        have hlength : passed.length + 1 + 1 = (passed ++ [first]).length + 1 := by simp
        have hall : passed ++ first :: rest = passed ++ [first] ++ rest := by simp
        rw [numbered, shown_cons hpass, hall, hlength]
        rcases line_emits hline with ⟨hshows, text, rfl, htext⟩ | ⟨hhidden, rfl⟩
        · simp only [hline, hlength] at h
          obtain ⟨emits, hshown, htexts, hdone⟩ := ih _ h
          refine ⟨((passed.length + 1, first), text) :: emits, ?_, ?_, ?_⟩
          · rw [List.map_cons, hshown, if_pos hshows]
          · intro e he
            rcases List.mem_cons.mp he with rfl | he
            · exact ⟨l, l₁, htext, _, _, _, _, h⟩
            · exact htexts e he
          · simp [hdone]
        · simp only [hline, hlength] at h
          obtain ⟨emits, hshown, htexts, rfl⟩ := ih _ h
          exact ⟨emits, by simp [hshown, hhidden], htexts, rfl⟩

/-- **A file that comes to a text** is made of the texts of the lines that it shows. -/
theorem source_emits {text content : Text} (h : source s visit chain place text l = (.ok content, l')) :
    ∃ emits : List (NumberedLine × Text),
      emits.map Prod.fst = shown s.bindings.conditions .none (numbered 1 (Text.lines text)) ∧
      (∀ e ∈ emits, ∃ l₁ l₂, lineText s visit chain place e.1.2 l₁ = (.ok e.2, l₂)) ∧
      content = (emits.map fun e => emitted e.2 ((Text.lines text).drop e.1.1)).flatten := by
  obtain ⟨done, blocks, l₁, hlines, -, rfl, -⟩ := source_content h
  obtain ⟨emits, hshown, htexts, rfl⟩ := lines_emits [] hlines
  refine ⟨emits, hshown, fun e he => ?_, by simp⟩
  obtain ⟨l₂, l₃, htext, -⟩ := htexts e he
  exact ⟨l₂, l₃, htext⟩

end

end Flatten

end ShaderFlatten
