import Mathlib.Data.List.Forall2
import ShaderFlatten.Proofs.Stack

/-!
# Two runs side by side

Two settings in which the sources and the moves of lines are alike have runs that are alike from step to
step.  What it means for lines, for emitted texts and for messages to be alike is a parameter, a
`Likeness`; everything else agrees: the open files and their blocks, the position of each of them, the
names in the cache and the files that have been asked for.

    Parallel m s s' → σ.Alike m τ → Step s limit σ σ₁ →
      ∃ τ₁, Step s' limit τ τ₁ ∧ σ₁.Alike m τ₁                                     (Step.parallel)

So calls that start alike end alike (`Engine.process_parallel`).  No file is stored twice in a call, so
that texts which differ cannot make one of the two runs fail at the cache.
-/

namespace ShaderFlatten

/-- What two runs need not agree on: lines, emitted texts and messages, which are only alike. -/
structure Likeness where
  line : Text → Text → Prop
  text : Text → Text → Prop
  message : String → String → Prop
  line_refl : ∀ t, line t t
  text_refl : ∀ t, text t t
  message_refl : ∀ t, message t t
  text_append : ∀ {a a' b b'}, text a a' → text b b' → text (a ++ b) (a' ++ b')

variable {m : Likeness}

/-! ## Failures -/

/-- Diagnostics that are alike. -/
structure Diagnostic.Alike (m : Likeness) (d d' : Diagnostic) : Prop where
  severity : d.severity = d'.severity
  kind : d.kind = d'.kind
  message : m.message d.message d'.message
  path : d.path = d'.path
  lineNumber : d.lineNumber = d'.lineNumber
  lineText : Option.Rel m.line d.lineText d'.lineText

/-- Failures that are alike. -/
structure Failure.Alike (m : Likeness) (f f' : Failure) : Prop where
  kind : f.kind = f'.kind
  message : m.message f.message f'.message
  path : f.path = f'.path
  lineNumber : f.lineNumber = f'.lineNumber
  lineText : Option.Rel m.line f.lineText f'.lineText
  trace : List.Forall₂ (Diagnostic.Alike m) f.trace f'.trace

/-- Lines with the same number that are alike. -/
def NumberedLine.Alike (m : Likeness) (a a' : NumberedLine) : Prop := a.1 = a'.1 ∧ m.line a.2 a'.2

theorem Failure.Alike.ofCause {cause cause' : Cause} (hkind : cause.kind = cause'.kind)
    (hmessage : m.message (Failure.ofCause cause).message (Failure.ofCause cause').message) :
    Failure.Alike m (.ofCause cause) (.ofCause cause') :=
  ⟨hkind, hmessage, rfl, rfl, .none, .nil⟩

theorem Failure.Alike.same (cause : Cause) : Failure.Alike m (.ofCause cause) (.ofCause cause) :=
  .ofCause rfl (m.message_refl _)

theorem Failure.Alike.diagnostic {f f' : Failure} (h : Failure.Alike m f f') (path : String)
    {line line' : Option NumberedLine} (hline : Option.Rel (NumberedLine.Alike m) line line') :
    Diagnostic.Alike m (f.diagnostic path line) (f'.diagnostic path line') where
  severity := rfl
  kind := congrArg Kind.name h.kind
  message := h.message
  path := rfl
  lineNumber := by
    cases hline with
    | none => rfl
    | some hline => exact congrArg some hline.1
  lineText := by
    cases hline with
    | none => exact .none
    | some hline => exact .some hline.2

/-- Failures stay alike when they leave a file at the same place. -/
theorem Failure.Alike.report {f f' : Failure} (h : Failure.Alike m f f') (path : String)
    {line line' : Option NumberedLine} (hline : Option.Rel (NumberedLine.Alike m) line line') :
    Failure.Alike m (f.report path line) (f'.report path line') := by
  have hdiagnostic := h.diagnostic path hline
  have htrace := List.rel_append h.trace (.cons hdiagnostic .nil)
  have hpath' := h.path
  unfold Failure.report Failure.locate
  cases hpath : f.path with
  | none =>
    rw [hpath] at hpath'
    rw [← hpath']
    exact ⟨h.kind, h.message, rfl, hdiagnostic.lineNumber, hdiagnostic.lineText, htrace⟩
  | some _ =>
    rw [hpath] at hpath'
    rw [← hpath']
    exact ⟨h.kind, h.message, h.path, h.lineNumber, h.lineText, htrace⟩

/-- Results that are alike: two texts, two failures, or the same refusal. -/
inductive ResultsAlike (m : Likeness) : Except Halt Text → Except Halt Text → Prop
  | text {t t'} : m.text t t' → ResultsAlike m (.ok t) (.ok t')
  | failed {f f'} : Failure.Alike m f f' → ResultsAlike m (.error (.failed f)) (.error (.failed f'))
  | refused refusal : ResultsAlike m (.error (.refused refusal)) (.error (.refused refusal))

theorem ResultsAlike.halt {halt : Halt} (h : halt.OfLine) : ResultsAlike m (.error halt) (.error halt) := by
  cases halt with
  | failed failure =>
    obtain ⟨cause, rfl, -⟩ := h
    exact .failed (.same cause)
  | refused refusal => exact .refused refusal

theorem ResultsAlike.depthHalt (limits : Limits) (path : Text) :
    ResultsAlike m (.error (Flatten.depthHalt limits path)) (.error (Flatten.depthHalt limits path)) := by
  unfold Flatten.depthHalt
  split
  · exact .failed (.same _)
  · exact .refused _
  · exact .refused _

/-! ## States -/

/-- Lines that are alike one by one, so that a line is followed by some text in both lists or in none. -/
inductive LinesAlike (m : Likeness) : List Text → List Text → Prop
  | nil : LinesAlike m [] []
  | cons {line line' rest rest'} : m.line line line' → Flatten.hasText rest = Flatten.hasText rest' →
      LinesAlike m rest rest' → LinesAlike m (line :: rest) (line' :: rest')

theorem LinesAlike.refl (lines : List Text) : LinesAlike m lines lines := by
  induction lines with
  | nil => exact .nil
  | cons line rest ih => exact .cons (m.line_refl line) rfl ih

theorem LinesAlike.forall₂ {lines lines' : List Text} (h : LinesAlike m lines lines') :
    List.Forall₂ m.line lines lines' := by
  induction h with
  | nil => exact .nil
  | cons hline _ _ ih => exact .cons hline ih

/-- Open files that are alike, at the same line. -/
structure Frame.Alike (m : Likeness) (f f' : Frame) : Prop where
  place : f.place = f'.place
  passed : List.Forall₂ m.line f.passed f'.passed
  rest : LinesAlike m f.rest f'.rest
  blocks : f.blocks = f'.blocks
  done : List.Forall₂ m.text f.done f'.done

theorem chainOf_alike {frames frames' : List Frame}
    (h : List.Forall₂ (Frame.Alike m) frames frames') : chainOf frames = chainOf frames' := by
  induction h with
  | nil => rfl
  | cons hframe _ ih => rw [chainOf_cons, chainOf_cons, ih, Frame.key, Frame.key, hframe.place]

/-- An open file that is at a line is like one that is at a line. -/
theorem framesAlike_atLine {place : Place} {passed rest done : List Text} {line : Text}
    {blocks : OpenBlocks} {outer frames' : List Frame}
    (h : List.Forall₂ (Frame.Alike m) (⟨place, passed, line :: rest, blocks, done⟩ :: outer) frames') :
    ∃ passed' line' rest' done' outer', frames' = ⟨place, passed', line' :: rest', blocks, done'⟩ :: outer' ∧
      List.Forall₂ m.line passed passed' ∧ m.line line line' ∧
      Flatten.hasText rest = Flatten.hasText rest' ∧ LinesAlike m rest rest' ∧
      List.Forall₂ m.text done done' ∧ List.Forall₂ (Frame.Alike m) outer outer' := by
  cases h with
  | @cons _ f' _ outer' hframe houter =>
    obtain ⟨place', passed', rest', blocks', done'⟩ := f'
    obtain ⟨rfl, hpassed, hrest, rfl, hdone⟩ := hframe
    cases hrest with
    | cons hline hmore hrest =>
      exact ⟨passed', _, _, done', outer', rfl, hpassed, hline, hmore, hrest, hdone, houter⟩

/-- An open file that is at its end is like one that is at its end. -/
theorem framesAlike_atEnd {place : Place} {passed done : List Text} {blocks : OpenBlocks}
    {outer frames' : List Frame}
    (h : List.Forall₂ (Frame.Alike m) (⟨place, passed, [], blocks, done⟩ :: outer) frames') :
    ∃ passed' done' outer', frames' = ⟨place, passed', [], blocks, done'⟩ :: outer' ∧
      List.Forall₂ m.line passed passed' ∧ List.Forall₂ m.text done done' ∧
      List.Forall₂ (Frame.Alike m) outer outer' := by
  cases h with
  | @cons _ f' _ outer' hframe houter =>
    obtain ⟨place', passed', rest', blocks', done'⟩ := f'
    obtain ⟨rfl, hpassed, hrest, rfl, hdone⟩ := hframe
    cases hrest
    exact ⟨passed', done', outer', rfl, hpassed, hdone, houter⟩

theorem flatten_alike {texts texts' : List Text} (h : List.Forall₂ m.text texts texts') :
    m.text texts.flatten texts'.flatten := by
  induction h with
  | nil => exact m.text_refl _
  | cons htext _ ih => exact m.text_append htext ih

theorem emitted_alike {text text' : Text} (htext : m.text text text') {rest rest' : List Text}
    (hrest : Flatten.hasText rest = Flatten.hasText rest') :
    m.text (Flatten.emitted text rest) (Flatten.emitted text' rest') := by
  unfold Flatten.emitted
  rw [hrest]
  split
  · exact m.text_append htext (m.text_refl _)
  · exact htext

/-- The line that an unclosed block is reported at. -/
theorem lastLine_alike {passed passed' : List Text} (h : List.Forall₂ m.line passed passed') :
    NumberedLine.Alike m (passed.length, passed.getLast?.getD [])
      (passed'.length, passed'.getLast?.getD []) := by
  refine ⟨h.length_eq, ?_⟩
  have hreverse := List.rel_reverse h
  rw [List.getLast?_eq_head?_reverse, List.getLast?_eq_head?_reverse]
  generalize passed.reverse = back, passed'.reverse = back' at hreverse
  cases hreverse with
  | nil => exact m.line_refl _
  | cons hlast _ => exact hlast

/-- Caches with the same names, under which the texts are alike. -/
def CachesAlike (m : Likeness) (cache cache' : Table Text) : Prop :=
  ∀ key, Option.Rel m.text (cache.get? key) (cache'.get? key)

theorem CachesAlike.insert {cache cache' : Table Text} (h : CachesAlike m cache cache') (key : String)
    {text text' : Text} (htext : m.text text text') :
    CachesAlike m (cache.insert key text) (cache'.insert key text') := by
  intro other
  rw [Table.get?_insert, Table.get?_insert]
  split
  · exact .some htext
  · exact h other

theorem CachesAlike.get?_none {cache cache' : Table Text} (h : CachesAlike m cache cache') {key : String}
    (hget : cache.get? key = none) : cache'.get? key = none := by
  have hkey := h key
  rw [hget] at hkey
  generalize cache'.get? key = found at hkey
  cases hkey
  rfl

theorem CachesAlike.get?_some {cache cache' : Table Text} (h : CachesAlike m cache cache') {key : String}
    {text : Text} (hget : cache.get? key = some text) :
    ∃ text', cache'.get? key = some text' ∧ m.text text text' := by
  have hkey := h key
  rw [hget] at hkey
  generalize cache'.get? key = found at hkey
  cases hkey with
  | some htext => exact ⟨_, rfl, htext⟩

/-- Ledgers of calls that have asked for the same files. -/
structure Ledger.Alike (m : Likeness) (l l' : Ledger) : Prop where
  cache : CachesAlike m l.cache l'.cache
  reads : l.reads = l'.reads

theorem Ledger.Alike.report {l l' : Ledger} (h : Ledger.Alike m l l') (f f' : Failure) (path : String)
    (line line' : Option NumberedLine) :
    Ledger.Alike m (l.report f path line).2 (l'.report f' path line').2 :=
  ⟨h.cache, h.reads⟩

/-- Phases that are alike. -/
inductive Phase.Alike (m : Likeness) : Phase → Phase → Prop
  | enter place : Phase.Alike m (.enter place) (.enter place)
  | scan : Phase.Alike m .scan .scan
  | deliver {result result'} : ResultsAlike m result result' →
      Phase.Alike m (.deliver result) (.deliver result')

/-- Moments of two runs that are alike. -/
structure State.Alike (m : Likeness) (σ τ : State) : Prop where
  phase : Phase.Alike m σ.phase τ.phase
  frames : List.Forall₂ (Frame.Alike m) σ.frames τ.frames
  ledger : Ledger.Alike m σ.ledger τ.ledger

/-! ## Settings -/

/-- Moves that are alike. -/
inductive Move.Alike (m : Likeness) : Move → Move → Prop
  | turn blocks : Move.Alike m (.turn blocks) (.turn blocks)
  | settle {result result'} : ResultsAlike m result result' →
      Move.Alike m (.settle result) (.settle result')
  | fetch path target : Move.Alike m (.fetch path target) (.fetch path target)

/-- Sources that are alike, or the same obstacle to reading them. -/
inductive SourcesAlike (m : Likeness) : Except Cause Text → Except Cause Text → Prop
  | text {t t'} : LinesAlike m (Text.lines t) (Text.lines t') → SourcesAlike m (.ok t) (.ok t')
  | cause cause : SourcesAlike m (.error cause) (.error cause)

theorem SourcesAlike.refl (source : Except Cause Text) : SourcesAlike m source source := by
  cases source with
  | error cause => exact .cause cause
  | ok text => exact .text (.refl _)

/-- What two parsers make of a line each: the same thing, or failures that are alike. -/
inductive ParsesAlike (m : Likeness) {α : Type} (cause : Mismatch → Cause) :
    Except Mismatch α → Except Mismatch α → Prop
  | ok a : ParsesAlike m cause (.ok a) (.ok a)
  | error {mismatch mismatch'} :
      Failure.Alike m (.ofCause (cause mismatch)) (.ofCause (cause mismatch')) →
      ParsesAlike m cause (.error mismatch) (.error mismatch')

/-- What two directives do to the same blocks: the same, or they fail alike. -/
inductive TurnsAlike (m : Likeness) :
    Option (Except Cause OpenBlocks) → Option (Except Cause OpenBlocks) → Prop
  | none : TurnsAlike m none none
  | ok blocks : TurnsAlike m (some (.ok blocks)) (some (.ok blocks))
  | error {cause cause'} : Failure.Alike m (.ofCause cause) (.ofCause cause') →
      TurnsAlike m (some (.error cause)) (some (.error cause'))

theorem ParsesAlike.refl {α : Type} (cause : Mismatch → Cause) (parsed : Except Mismatch α) :
    ParsesAlike m cause parsed parsed := by
  cases parsed with
  | error mismatch => exact .error (.same _)
  | ok a => exact .ok a

theorem TurnsAlike.refl (turned : Option (Except Cause OpenBlocks)) : TurnsAlike m turned turned := by
  rcases turned with - | cause | blocks
  · exact .none
  · exact .error (.same cause)
  · exact .ok blocks

section
variable {s s' : Setting} {chain : List String} {place : Place} {line line' : Text}

theorem Move.Alike.ofImport
    (hcanonical : ∀ request, s.disk.canonical? request = s'.disk.canonical? request)
    (hpath : ParsesAlike m .malformedImport (Line.importPath? line) (Line.importPath? line')) :
    Move.Alike m (.ofImport s chain place line) (.ofImport s' chain place line') := by
  unfold Move.ofImport
  generalize Line.importPath? line = parsed, Line.importPath? line' = parsed' at hpath
  cases hpath with
  | error hfailure => exact .settle (.failed hfailure)
  | ok path =>
    simp only [← hcanonical]
    split
    · exact .settle (.refused _)
    · exact .settle (.failed (.same _))
    · split
      · exact .settle (.failed (.same _))
      · exact .fetch _ _

/-- **The moves of two lines are alike** if the lines are of the same kind and what they parse to and stand
for is alike. -/
theorem Move.Alike.ofLine {blocks : OpenBlocks}
    (hcanonical : ∀ request, s.disk.canonical? request = s'.disk.canonical? request)
    (hkind : Line.kind line = Line.kind line')
    (hturn : TurnsAlike m (Flatten.turnBlocks s.bindings.conditions blocks line)
      (Flatten.turnBlocks s'.bindings.conditions blocks line'))
    (hpath : ParsesAlike m .malformedImport (Line.importPath? line) (Line.importPath? line'))
    (htext : ResultsAlike m (Line.substitute line s.bindings.constants s.limits.lineLength)
      (Line.substitute line' s'.bindings.constants s'.limits.lineLength)) :
    Move.Alike m (.ofLine s chain place blocks line) (.ofLine s' chain place blocks line') := by
  unfold Move.ofLine
  generalize Flatten.turnBlocks s.bindings.conditions blocks line = turned,
    Flatten.turnBlocks s'.bindings.conditions blocks line' = turned' at hturn
  cases hturn with
  | error hfailure => exact .settle (.failed hfailure)
  | ok blocks' => exact .turn blocks'
  | none =>
    simp only [← hkind]
    split
    · split
      · exact .ofImport hcanonical hpath
      · exact .settle htext
    · exact .turn blocks

end

/-- Settings whose sources and moves are alike. -/
structure Parallel (m : Likeness) (s s' : Setting) : Prop where
  limits : s.limits = s'.limits
  source : ∀ place, SourcesAlike m (Flatten.sourceAt s place) (Flatten.sourceAt s' place)
  move : ∀ chain place blocks {line line'}, m.line line line' →
    Move.Alike m (.ofLine s chain place blocks line) (.ofLine s' chain place blocks line')

section
variable {s s' : Setting} {place : Place} {l l' : Ledger}

theorem Parallel.readText_error (h : Parallel m s s') (hl : Ledger.Alike m l l') {halt : Halt} {l₁ : Ledger}
    (hread : Flatten.readText s place l = (.error halt, l₁)) :
    ∃ halt' l₁', Flatten.readText s' place l' = (.error halt', l₁') ∧
      ResultsAlike m (.error halt) (.error halt') ∧ Ledger.Alike m l₁ l₁' := by
  obtain ⟨cause, hsource, rfl, rfl⟩ := Flatten.readText_error hread
  have hsources := h.source place
  rw [hsource] at hsources
  rw [Flatten.readText_eq]
  generalize Flatten.sourceAt s' place = source' at hsources
  cases hsources
  have hfailure := (Failure.Alike.same cause).report (m := m) place.text .none
  exact ⟨_, _, rfl, .failed hfailure, by simp [hl.cache], by simp [hl.reads]⟩

theorem Parallel.readText_ok (h : Parallel m s s') (hl : Ledger.Alike m l l') {text : Text} {l₁ : Ledger}
    (hread : Flatten.readText s place l = (.ok text, l₁)) :
    ∃ text' l₁', Flatten.readText s' place l' = (.ok text', l₁') ∧
      LinesAlike m (Text.lines text) (Text.lines text') ∧ Ledger.Alike m l₁ l₁' := by
  obtain ⟨hsource, rfl⟩ := Flatten.readText_ok hread
  have hsources := h.source place
  rw [hsource] at hsources
  rw [Flatten.readText_eq]
  generalize Flatten.sourceAt s' place = source' at hsources
  cases hsources with
  | text hlines => exact ⟨_, _, rfl, hlines, by simp [hl.cache], by simp [hl.reads]⟩

/-- The moves of the lines that the innermost files are at. -/
theorem Parallel.ofLine (h : Parallel m s s') {blocks : OpenBlocks} {line line' : Text} {move : Move}
    {outer outer' : List Frame} (hline : m.line line line')
    (houter : List.Forall₂ (Frame.Alike m) outer outer')
    (hm : Move.ofLine s (chainOf outer ++ [place.text]) place blocks line = move) :
    ∃ move', Move.ofLine s' (chainOf outer' ++ [place.text]) place blocks line' = move' ∧
      Move.Alike m move move' := by
  refine ⟨_, rfl, ?_⟩
  rw [← hm, ← chainOf_alike houter]
  exact h.move _ place blocks hline

/-- A line that asks for a file corresponds to one that asks for the same file. -/
theorem Parallel.fetch (h : Parallel m s s') {passed rest done : List Text} {line path : Text}
    {blocks : OpenBlocks} {outer frames' : List Frame} {target : Place}
    (hframes : List.Forall₂ (Frame.Alike m) (⟨place, passed, line :: rest, blocks, done⟩ :: outer) frames')
    (hm : Move.ofLine s (chainOf outer ++ [place.text]) place blocks line = .fetch path target) :
    ∃ passed' line' rest' done' outer', frames' = ⟨place, passed', line' :: rest', blocks, done'⟩ :: outer' ∧
      Move.ofLine s' (chainOf outer' ++ [place.text]) place blocks line' = .fetch path target ∧
      outer.length = outer'.length := by
  obtain ⟨passed', line', rest', done', outer', rfl, -, hline, -, -, -, houter⟩ := framesAlike_atLine hframes
  obtain ⟨move', hm', hmove⟩ := h.ofLine hline houter hm
  cases hmove
  exact ⟨passed', line', rest', done', outer', rfl, hm', houter.length_eq⟩

/-! ## Steps and runs -/

variable {limit : Option Nat} {root root' : Place} {σ τ σ₁ : State}

/-- **A step of one run is a step of the other**, and they lead to moments that are alike. -/
theorem Step.parallel (h : Parallel m s s') (halike : σ.Alike m τ) (hσ : RunInv s limit root σ)
    (hτ : RunInv s' limit root' τ) (hstep : Step s limit σ σ₁) :
    ∃ τ₁, Step s' limit τ τ₁ ∧ σ₁.Alike m τ₁ := by
  obtain ⟨phase, frames, l'⟩ := τ
  obtain ⟨hphase, hframes, hl⟩ := halike
  cases hstep with
  | refuse hread =>
    cases hphase
    obtain ⟨halt', l₁', hread', hresults, hl⟩ := h.readText_error hl hread
    exact ⟨_, .refuse hread', .deliver hresults, hframes, hl⟩
  | begin hread =>
    cases hphase
    obtain ⟨text', l₁', hread', hlines, hl⟩ := h.readText_ok hl hread
    exact ⟨_, .begin hread', .scan, .cons ⟨rfl, .nil, hlines, rfl, .nil⟩ hframes, hl⟩
  | turn hm =>
    cases hphase
    obtain ⟨passed', line', rest', done', outer', rfl, hpassed, hline, -, hrest, hdone, houter⟩ :=
      framesAlike_atLine hframes
    obtain ⟨move', hm', hmove⟩ := h.ofLine hline houter hm
    cases hmove
    exact ⟨_, .turn hm', .scan,
      .cons ⟨rfl, List.rel_append hpassed (.cons hline .nil), hrest, rfl, hdone⟩ houter, hl⟩
  | settle hm =>
    cases hphase
    obtain ⟨passed', line', rest', done', outer', rfl, -, hline, -, -, -, houter⟩ :=
      framesAlike_atLine hframes
    obtain ⟨move', hm', hmove⟩ := h.ofLine hline houter hm
    cases hmove with
    | settle hresults => exact ⟨_, .settle hm', .deliver hresults, hframes, hl⟩
  | reuse hm hcache =>
    cases hphase
    obtain ⟨passed', line', rest', done', outer', rfl, hm', hlength⟩ := h.fetch hframes hm
    obtain ⟨text', hcache', htext⟩ := hl.cache.get?_some hcache
    exact ⟨_, .reuse hm' hcache', .deliver (.text htext), hframes, hl.cache, hl.reads⟩
  | descend hm hcache hroom =>
    cases hphase
    obtain ⟨passed', line', rest', done', outer', rfl, hm', hlength⟩ := h.fetch hframes hm
    rw [hlength] at hroom
    exact ⟨_, .descend hm' (hl.cache.get?_none hcache) hroom, .enter _, hframes, hl⟩
  | @tooDeep place passed line rest blocks done outer l path target n hm hcache hn hle =>
    cases hphase
    obtain ⟨passed', line', rest', done', outer', rfl, hm', hlength⟩ := h.fetch hframes hm
    rw [hlength] at hle
    refine ⟨_, .tooDeep hm' (hl.cache.get?_none hcache) hn hle, .deliver ?_, hframes, hl⟩
    rw [← h.limits]
    exact .depthHalt s.limits path
  | @emit place passed line rest blocks done outer l text =>
    cases hphase with
    | deliver hresults =>
      cases hresults with
      | text htext =>
        obtain ⟨passed', line', rest', done', outer', rfl, hpassed, hline, hmore, hrest, hdone, houter⟩ :=
          framesAlike_atLine hframes
        exact ⟨_, .emit, .scan, .cons ⟨rfl, List.rel_append hpassed (.cons hline .nil), hrest, rfl,
          .cons (emitted_alike htext hmore) hdone⟩ houter, hl⟩
  | @fail place passed line rest blocks done outer l failure =>
    cases hphase with
    | deliver hresults =>
      cases hresults with
      | failed hfailure =>
        obtain ⟨passed', line', rest', done', outer', rfl, hpassed, hline, -, -, -, houter⟩ :=
          framesAlike_atLine hframes
        have hat : NumberedLine.Alike m (passed.length + 1, line) (passed'.length + 1, line') :=
          ⟨by rw [hpassed.length_eq], hline⟩
        exact ⟨_, .fail, .deliver (.failed (hfailure.report place.text (.some hat))), houter, hl.report ..⟩
  | giveUp =>
    cases hphase with
    | deliver hresults =>
      cases hresults
      cases hframes with
      | cons _ houter => exact ⟨_, .giveUp, .deliver (.refused _), houter, hl⟩
  | @unclosed place passed blocks done outer l cause hfinish =>
    cases hphase
    obtain ⟨passed', done', outer', rfl, hpassed, -, houter⟩ := framesAlike_atEnd hframes
    have hreport := (Failure.Alike.same cause).report place.text (.some (lastLine_alike hpassed))
    exact ⟨_, .unclosed hfinish, .deliver (.failed hreport), houter, hl.report ..⟩
  | close hfinish hstore =>
    cases hphase
    cases (hσ.chain.store_eq _).symm.trans hstore
    obtain ⟨passed', done', outer', rfl, -, hdone, houter⟩ := framesAlike_atEnd hframes
    have htext := flatten_alike (List.rel_reverse hdone)
    exact ⟨_, .close hfinish (hτ.chain.store_eq _), .deliver (.text htext), houter,
      hl.cache.insert _ htext, hl.reads⟩
  | conflict hfinish hstore => cases (hσ.chain.store_eq _).symm.trans hstore

/-- **Runs that start alike stay alike**, step by step. -/
theorem Run.parallel (h : Parallel m s s') {cache cache' : Table Text} (hcache : CachesAlike m cache cache')
    (hroot : cache.get? root.text = none) (hrun : Run s limit (.start root cache) σ) :
    ∃ τ, Run s' limit (.start root cache') τ ∧ σ.Alike m τ := by
  have hroot' := hcache.get?_none hroot
  induction hrun with
  | refl => exact ⟨_, .refl, .enter root, .nil, hcache, rfl⟩
  | tail hrun hstep ih =>
    obtain ⟨τ, hrun', halike⟩ := ih
    obtain ⟨τ₁, hstep', halike'⟩ :=
      hstep.parallel h halike (Run.runInv hrun hroot) (Run.runInv hrun' hroot')
    exact ⟨τ₁, hrun'.tail hstep', halike'⟩

end

/-! ## Calls -/

/-- Outcomes that are alike, of calls that have asked for the same files. -/
structure OutcomesAlike (m : Likeness) (outcome outcome' : Outcome Text) : Prop where
  result : ResultsAlike m outcome.1 outcome'.1
  ledger : Ledger.Alike m outcome.2 outcome'.2

/-- **Calls that start alike end alike.** -/
theorem Engine.process_parallel {engine engine' : Engine} {disk disk' : Disk} {bindings bindings' : Bindings}
    (h : Parallel m (engine.setting disk bindings) (engine'.setting disk' bindings'))
    (hcache : CachesAlike m engine.cache engine'.cache) {request : String}
    (hrequest : disk.canonical? request = disk'.canonical? request) :
    OutcomesAlike m (engine.process disk bindings request).1
      (engine'.process disk' bindings' request).1 := by
  have hlevels : engine.limits.levels = engine'.limits.levels := by
    have hlimits : engine.limits = engine'.limits := h.limits
    rw [hlimits]
  -- what the second call is before it enters a file
  have hprocess' : (engine'.process disk' bindings' request).1 =
      Flatten.request (engine'.setting disk' bindings') request (.ofCache engine'.cache) := rfl
  have hdisk' : (engine'.setting disk' bindings').disk = disk' := rfl
  rcases engine.process_cases disk bindings request with ⟨hplace, hcase⟩ | ⟨fault, hplace, hfault, hcase⟩ |
    ⟨place, text, hplace, hget, hcase⟩ | ⟨place, hplace, hget, hrun⟩
  · rw [hcase, hprocess', Flatten.request, hdisk', ← hrequest, hplace]
    exact ⟨.refused _, hcache, rfl⟩
  · have hfailed : Flatten.request (engine'.setting disk' bindings') request (.ofCache engine'.cache) =
        Flatten.failFile (.ofCache engine'.cache) (.unresolvedPath request fault) request := by
      rw [Flatten.request, hdisk', ← hrequest, hplace]
      cases fault with
      | unnameable => exact absurd rfl hfault
      | _ => rfl
    rw [hcase, hprocess', hfailed]
    exact ⟨.failed ((Failure.Alike.same _).report request .none), hcache, rfl⟩
  · obtain ⟨text', hget', htext⟩ := hcache.get?_some hget
    rw [hcase, hprocess', Flatten.request, hdisk', ← hrequest, hplace]
    simp only [Ledger.cache_ofCache, hget']
    exact ⟨.text htext, hcache, rfl⟩
  · obtain ⟨⟨phase, frames, l⟩, hrun', hphase, hframes, hl⟩ := hrun.parallel h hcache hget
    cases hphase with
    | deliver hresults =>
      cases hframes
      rw [hlevels] at hrun'
      rw [Engine.process_of_run (hrequest ▸ hplace) (hcache.get?_none hget) hrun']
      exact ⟨hresults, hl⟩

end ShaderFlatten
