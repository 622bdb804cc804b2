import ShaderFlatten.Proofs.Parallel
import ShaderFlatten.Proofs.Relevance

/-!
# The values of constants steer nothing

What a constant is replaced by and what an imported file has come to are emitted and never read again: no
directive is looked for in them.  So calls with other values for the same constants, on engines that keep
other texts under the same names, do the same.  They ask for the same files in the same order, keep texts
under the same names, and come to a text both or to the same halt both:

    engine.process disk b request    and    engine'.process disk b' request

where the two engines have the same limits, none of them on the length of a line, which is the one thing
that looks at what a constant is replaced by.
-/

namespace ShaderFlatten

/-- Two tables bind the same names. -/
def Table.SameNames {α : Type} (t t' : Table α) : Prop :=
  ∀ name, (t.get? name).isSome = (t'.get? name).isSome

/-- Every thing of a table can be written in shader source. -/
def Table.Renders (t : Table Value) : Prop :=
  ∀ name value, t.get? name = some value → ∃ rendered, value.render = .ok rendered

/-- Bindings that differ in the values of their constants only, all of which can be written. -/
structure Bindings.DifferInValues (b b' : Bindings) : Prop where
  conditions : ∀ name, b.conditions.get? name = b'.conditions.get? name
  constants : b.constants.SameNames b'.constants
  renders : b.constants.Renders
  renders' : b'.constants.Renders

/-- Lines and messages are the same, and texts are arbitrary. -/
def Likeness.anyText : Likeness where
  line := Eq
  text := fun _ _ => True
  message := Eq
  line_refl := fun _ => rfl
  text_refl := fun _ => trivial
  message_refl := fun _ => rfl
  text_append := fun _ _ => trivial

section
variable {c c' : Table Value}

/-- A content line stands for a text under both bindings, or it fails alike. -/
theorem substitute_anyText (hnames : c.SameNames c') (hrenders : c.Renders) (hrenders' : c'.Renders)
    (line : Text) :
    ResultsAlike .anyText (Line.substitute line c none) (Line.substitute line c' none) := by
  unfold Line.substitute
  rcases Line.placeholder? line with mismatch | ⟨- | found⟩
  · exact .failed (.same _)
  · exact .text trivial
  · have hname := hnames (String.ofList found.name)
    cases hget : c.get? (String.ofList found.name) with
    | none =>
      rw [hget, Option.isSome_none, eq_comm, Option.isSome_eq_false_iff, Option.isNone_iff_eq_none] at hname
      simp only [hget, hname]
      exact .failed (.same _)
    | some value =>
      rw [hget, Option.isSome_some, eq_comm, Option.isSome_iff_exists] at hname
      obtain ⟨value', hget'⟩ := hname
      obtain ⟨rendered, hvalue⟩ := hrenders _ value hget
      obtain ⟨rendered', hvalue'⟩ := hrenders' _ value' hget'
      simp only [hget, hget', hvalue, hvalue', exceeds, Option.filter_none]
      exact .text trivial

end

/-- **Settings that differ in the values of constants** are parallel. -/
theorem Parallel.of_values {s : Setting} {b : Bindings} (hlength : s.limits.lineLength = none)
    (h : s.bindings.DifferInValues b) : Parallel .anyText s (s.rebind b) where
  limits := rfl
  source place := by
    have hsource : Flatten.sourceAt (s.rebind b) place = Flatten.sourceAt s place := by
      simp only [Flatten.sourceAt, Flatten.sizeObstacle, Setting.disk_rebind, Setting.readLimit_rebind]
    rw [hsource]
    exact .refl _
  move chain place blocks line line' hline := by
    obtain rfl : line = line' := hline
    have hturn : Flatten.turnBlocks (s.rebind b).bindings.conditions blocks line =
        Flatten.turnBlocks s.bindings.conditions blocks line :=
      Flatten.turnBlocks_congr (fun name _ => (h.conditions _).symm) blocks
    refine .ofLine (fun _ => rfl) rfl ?_ (.refl _ _) ?_
    · rw [hturn]
      exact .refl _
    · rw [Setting.limits_rebind, hlength]
      exact substitute_anyText h.constants h.renders h.renders' line

/-! ## Halts are the same -/

theorem lineText_eq {t t' : Option Text} (h : Option.Rel Likeness.anyText.line t t') : t = t' := by
  cases h with
  | none => rfl
  | some h => exact congrArg some h

theorem Diagnostic.Alike.eq {d d' : Diagnostic} (h : Diagnostic.Alike .anyText d d') : d = d' := by
  obtain ⟨severity, kind, message, path, lineNumber, lineText⟩ := d
  obtain ⟨severity', kind', message', path', lineNumber', lineText'⟩ := d'
  obtain ⟨rfl, rfl, rfl, rfl, rfl, htext⟩ := h
  obtain rfl : lineText = lineText' := lineText_eq htext
  rfl

/-- Failures that are alike when only texts may differ are the same. -/
theorem Failure.Alike.eq {f f' : Failure} (h : Failure.Alike .anyText f f') : f = f' := by
  obtain ⟨kind, message, path, lineNumber, lineText, trace⟩ := f
  obtain ⟨kind', message', path', lineNumber', lineText', trace'⟩ := f'
  obtain ⟨rfl, rfl, rfl, rfl, htext, htrace⟩ := h
  obtain rfl : lineText = lineText' := lineText_eq htext
  obtain rfl : trace = trace' := List.forall₂_eq_eq_eq ▸ htrace.imp fun _ _ => Diagnostic.Alike.eq
  rfl

theorem ResultsAlike.text_or_halt {r r' : Except Halt Text} (h : ResultsAlike .anyText r r') :
    (∃ text text', r = .ok text ∧ r' = .ok text') ∨ ∃ halt, r = .error halt ∧ r' = .error halt := by
  cases h with
  | text _ => exact .inl ⟨_, _, rfl, rfl⟩
  | failed hfailure => exact .inr ⟨_, rfl, by rw [hfailure.eq]⟩
  | refused refusal => exact .inr ⟨_, rfl, rfl⟩

/-- Texts may be kept under the same names. -/
theorem cachesAlike_anyText {cache cache' : Table Text} :
    CachesAlike .anyText cache cache' ↔ cache.SameNames cache' := by
  refine forall_congr' fun name => ?_
  cases cache.get? name <;> cases cache'.get? name <;> simp [Likeness.anyText]

/-! ## The theorem -/

/-- **The values of constants steer nothing.**  Take engines with the same limits, without one on the
length of a line, that keep texts under the same names, and bindings that differ in the values of their
constants only.  Every request makes both ask for the same files in the same order and leaves texts under
the same names, and both come to a text or both to the same halt: the same refusal, or the same failure
with its kind, message, position and trace. -/
theorem process_ignores_values {engine engine' : Engine} {b b' : Bindings}
    (hlimits : engine.limits = engine'.limits) (hread : engine.readLimit = engine'.readLimit)
    (hlength : engine.limits.lineLength = none) (hcache : engine.cache.SameNames engine'.cache)
    (hvalues : b.DifferInValues b') (disk : Disk) (request : String) :
    (engine.process disk b request).1.2.reads = (engine'.process disk b' request).1.2.reads ∧
    (engine.process disk b request).2.cache.SameNames (engine'.process disk b' request).2.cache ∧
    ((∃ text text', (engine.process disk b request).1.1 = .ok text ∧
        (engine'.process disk b' request).1.1 = .ok text') ∨
      ∃ halt, (engine.process disk b request).1.1 = .error halt ∧
        (engine'.process disk b' request).1.1 = .error halt) := by
  have hsetting : engine'.setting disk b' = (engine.setting disk b).rebind b' := by
    rw [Engine.setting, ← hlimits, ← hread]
    rfl
  have hparallel : Parallel .anyText (engine.setting disk b) (engine'.setting disk b') := by
    rw [hsetting]
    exact .of_values hlength hvalues
  have hrequest : disk.canonical? request = disk.canonical? request := rfl
  obtain ⟨hresults, hcaches, hreads⟩ :=
    Engine.process_parallel hparallel (cachesAlike_anyText.mpr hcache) hrequest
  exact ⟨hreads, cachesAlike_anyText.mp hcaches, hresults.text_or_halt⟩

/-! A constant whose value looks like an import, and a kept text that looks like a directive. -/

/-- A constant with a value. -/
def oneConstant (value : Value) : Bindings := ⟨[], [("z", value)]⟩

/-- An engine that keeps a text for the file that the shader imports. -/
def keepsPart (text : Text) : Engine := ⟨.oneLevel, none, [("/b.wgsl", text)]⟩

/-- A text that spells an import and a condition on lines of their own. -/
def directiveText : String := "\n#import \"c.wgsl\"\n#if q"

theorem oneConstant_differ :
    (oneConstant (.int 3)).DifferInValues (oneConstant (.text directiveText)) where
  conditions _ := rfl
  constants name := by
    by_cases hname : "z" = name <;> simp [oneConstant, Table.get?, hname]
  renders name value hget := by
    have hvalue : value = .int 3 := by
      simp only [oneConstant, Table.get?] at hget
      split at hget <;> simp_all
    exact ⟨"3", by rw [hvalue]; decide⟩
  renders' name value hget := by
    have hvalue : value = .text directiveText := by
      simp only [oneConstant, Table.get?] at hget
      split at hget <;> simp_all
    exact ⟨directiveText, by rw [hvalue]; rfl⟩

theorem keepsPart_sameNames (text text' : Text) :
    (keepsPart text).cache.SameNames (keepsPart text').cache := by
  intro name
  by_cases hname : "/b.wgsl" = name <;> simp [keepsPart, Table.get?, hname]

/-- A shader that emits the kept text and the value. -/
def emitsBoth : ByteArray := Utf8.ascii "#import \"b.wgsl\"\n#(z)".toList

theorem process_ignores_values_import :
    (oneConstant (.int 3)).DifferInValues (oneConstant (.text directiveText)) ∧
    (keepsPart ['x']).cache.SameNames (keepsPart "#endif".toList).cache ∧
    ((keepsPart ['x']).process (.pair emitsBoth .empty) (oneConstant (.int 3)) "/a").1.2.reads =
      ((keepsPart "#endif".toList).process (.pair emitsBoth .empty)
        (oneConstant (.text directiveText)) "/a").1.2.reads ∧
    ((keepsPart ['x']).process (.pair emitsBoth .empty) (oneConstant (.int 3)) "/a").2.cache.SameNames
      ((keepsPart "#endif".toList).process (.pair emitsBoth .empty)
        (oneConstant (.text directiveText)) "/a").2.cache := by
  have hvalues := oneConstant_differ
  have hcache := keepsPart_sameNames ['x'] "#endif".toList
  have hlimits : (keepsPart ['x']).limits = (keepsPart "#endif".toList).limits := rfl
  obtain ⟨hreads, hkept, -⟩ := process_ignores_values hlimits rfl rfl hcache hvalues
    (.pair emitsBoth .empty) "/a"
  exact ⟨hvalues, hcache, hreads, hkept⟩

end ShaderFlatten
