import ShaderFlatten.Proofs.Canonical
import ShaderFlatten.Proofs.Stack

/-!
# The trace of a failure

A failure that leaves the open files takes along one diagnostic for each of them.  When it arises, the
innermost file is at the line that the failure concerns, or cannot be read; every other open file is at
its import of the file above it.  None of this changes on the way out, where every step moves one
position from the stack into the trace:

    trace so far ++ positions of the open files        stays the same

so that at the end of the call the trace is the chain of the files that were open, innermost first.
-/

namespace ShaderFlatten

/-! ## Failures on their way out -/

namespace Failure

/-- The report of a failure at a position. -/
def diagnosticAt (f : Failure) (p : Position) : Diagnostic := f.diagnostic p.place.text p.line

/-- A failure that leaves some positions, one after the other. -/
def through (f : Failure) (positions : List Position) : Failure :=
  positions.foldl (fun f p => f.report p.place.text p.line) f

@[simp] theorem through_nil (f : Failure) : f.through [] = f := rfl

theorem through_cons (f : Failure) (p : Position) (positions : List Position) :
    f.through (p :: positions) = (f.report p.place.text p.line).through positions := rfl

theorem through_snoc (f : Failure) (positions : List Position) (p : Position) :
    f.through (positions ++ [p]) = (f.through positions).report p.place.text p.line := by
  simp [through]

@[simp] theorem kind_through (f : Failure) (positions : List Position) :
    (f.through positions).kind = f.kind := by
  induction positions generalizing f with
  | nil => rfl
  | cons p positions ih => rw [through_cons, ih, kind_report]

@[simp] theorem message_through (f : Failure) (positions : List Position) :
    (f.through positions).message = f.message := by
  induction positions generalizing f with
  | nil => rfl
  | cons p positions ih => rw [through_cons, ih, message_report]

/-- A report says of a failure only what no report changes. -/
theorem diagnosticAt_through (f : Failure) (positions : List Position) :
    (f.through positions).diagnosticAt = f.diagnosticAt := by
  funext p
  simp [diagnosticAt, diagnostic]

theorem trace_through (f : Failure) (positions : List Position) :
    (f.through positions).trace = f.trace ++ positions.map f.diagnosticAt := by
  induction positions generalizing f with
  | nil => simp
  | cons p positions ih =>
    have hdiagnostic : (f.report p.place.text p.line).diagnosticAt = f.diagnosticAt :=
      diagnosticAt_through f [p]
    rw [through_cons, ih, trace_report, hdiagnostic, List.map_cons, List.append_assoc,
      List.singleton_append, diagnosticAt]

/-- Only the first report locates a failure. -/
theorem location_through {f : Failure} {path : String} (hpath : f.path = some path)
    (positions : List Position) :
    (f.through positions).path = some path ∧ (f.through positions).lineNumber = f.lineNumber ∧
      (f.through positions).lineText = f.lineText := by
  induction positions generalizing f with
  | nil => exact ⟨hpath, rfl, rfl⟩
  | cons p positions ih =>
    have hlocate : f.locate p.place.text (p.line.map (·.1)) (p.line.map (·.2)) = f := by
      simp [locate, hpath]
    rw [through_cons, report, hlocate]
    exact ih hpath

theorem location_ofCause (cause : Cause) (first : Position) (positions : List Position) :
    ((ofCause cause).through (first :: positions)).path = some first.place.text ∧
      ((ofCause cause).through (first :: positions)).lineNumber = first.line.map (·.1) ∧
      ((ofCause cause).through (first :: positions)).lineText = first.line.map (·.2) :=
  location_through rfl positions

end Failure

/-! ## Where failures arise -/

/-- Line `number` of the file at `place` is a visible import of the file at `target`. -/
def ImportsAt (s : Setting) (place : Place) (number : Nat) (line : Text) (target : Place) : Prop :=
  ∃ text passed rest blocks path, Flatten.sourceAt s place = .ok text ∧
    Text.lines text = passed ++ line :: rest ∧ number = passed.length + 1 ∧
    Flatten.blocksAfter s.bindings.conditions passed = some blocks ∧
    Imports s place blocks line path target

/-- The outer position is at an import of the file of the inner one. -/
def ImportedBy (s : Setting) (inner outer : Position) : Prop :=
  ∃ number line, outer.line = some (number, line) ∧
    ImportsAt s outer.place number line inner.place

/-- A line fails: by itself, or because it asks for a file that may not be opened. -/
def LineFails (s : Setting) (chain : List String) (place : Place) (blocks : OpenBlocks) (line : Text)
    (cause : Cause) : Prop :=
  Move.ofLine s chain place blocks line = .settle (.error (.ofCause cause)) ∨
    ∃ path target, Move.ofLine s chain place blocks line = .fetch path target ∧
      Flatten.depthHalt s.limits path = .ofCause cause

/-- A cause arises at a position while the files of the chain are open. -/
inductive Arises (s : Setting) (chain : List String) (cause : Cause) : Position → Prop
  | file {place} : Flatten.sourceAt s place = .error cause → cause.origin = .file →
      Arises s chain cause ⟨place, none⟩
  | line {place text passed line rest blocks} : Flatten.sourceAt s place = .ok text →
      Text.lines text = passed ++ line :: rest →
      Flatten.blocksAfter s.bindings.conditions passed = some blocks →
      LineFails s chain place blocks line cause → cause.origin = .line →
      Arises s chain cause ⟨place, some (passed.length + 1, line)⟩
  | finish {place text blocks} : Flatten.sourceAt s place = .ok text →
      Flatten.blocksAfter s.bindings.conditions (Text.lines text) = some blocks →
      blocks.finish = .error cause → cause.origin = .finish →
      Arises s chain cause
        ⟨place, some ((Text.lines text).length, (Text.lines text).getLast?.getD [])⟩

section
variable {s : Setting} {chain : List String} {cause : Cause} {p : Position}

theorem Arises.line_eq_none_iff (h : Arises s chain cause p) :
    p.line = none ↔ ∃ refusal, Flatten.sourceAt s p.place = .error refusal := by
  cases h with
  | file hsource => simp [hsource]
  | line hsource => simp [hsource]
  | finish hsource => simp [hsource]

/-- The line of a position is the line of that number, and the last one if blocks are left open. -/
theorem Arises.line_eq_some (h : Arises s chain cause p) {number : Nat} {line : Text}
    (hline : p.line = some (number, line)) :
    ∃ text, Flatten.sourceAt s p.place = .ok text ∧ 0 < number ∧
      (Text.lines text)[number - 1]? = some line ∧
      (cause.origin = .finish → number = (Text.lines text).length) := by
  cases h with
  | file hsource => cases hline
  | line hsource hlines _ _ horigin =>
    cases hline
    exact ⟨_, hsource, Nat.succ_pos _, by simp [hlines], by simp [horigin]⟩
  | @finish place text blocks hsource hblocks hfinish horigin =>
    cases hline
    have hne : Text.lines text ≠ [] := Text.split_ne_nil _ _
    refine ⟨text, hsource, List.length_pos_iff.mpr hne, ?_, fun _ => rfl⟩
    rw [← List.getLast?_eq_getElem?, List.getLast?_eq_some_getLast hne, Option.getD_some]

end

theorem Frame.Awaits.importedBy {s : Setting} {f : Frame} {inner : Position} (hopened : f.Opened s)
    (hawaits : f.Awaits s inner.place) : ImportedBy s inner f.position := by
  obtain ⟨text, hsource, hlines, hblocks⟩ := hopened
  obtain ⟨line, rest, path, hrest, himports⟩ := hawaits
  rw [hrest] at hlines
  exact ⟨f.passed.length + 1, line, by simp [Frame.position, hrest],
    text, f.passed, rest, f.blocks, path, hsource, hlines, rfl, hblocks, himports⟩

/-- **The stack below a position is a chain of imports** that leads from the requested file to it. -/
theorem Stacked.imports {s : Setting} {root : Place} {frames : List Frame} {inner : Position}
    (hstack : Stacked s root frames) (hasked : Asked s root frames inner.place) :
    (inner :: frames.map Frame.position).IsChain (ImportedBy s) ∧
      (inner :: frames.map Frame.position).getLast?.map (·.place) = some root := by
  induction frames generalizing inner with
  | nil =>
    have hroot : inner.place = root := hasked
    simp [hroot]
  | cons f outer ih =>
    obtain ⟨hopened, hbelow, houter⟩ := hstack
    have hasked' : Asked s root outer f.position.place := hbelow
    obtain ⟨hchain, hlast⟩ := ih houter hasked'
    refine ⟨?_, ?_⟩
    · rw [List.map_cons, List.isChain_cons_cons]
      exact ⟨Frame.Awaits.importedBy hopened hasked, hchain⟩
    · rw [List.map_cons, List.getLast?_cons_cons]
      exact hlast

/-- A failure has arisen from a cause at the first of some positions while the files of the chain were
open, and the other positions lead from the requested file to it. -/
structure Faulted (s : Setting) (root : Place) (chain : List String) (cause : Cause)
    (positions : List Position) : Prop where
  arises : ∃ first outer, positions = first :: outer ∧ Arises s chain cause first
  imports : positions.IsChain (ImportedBy s)
  root : positions.getLast?.map (·.place) = some root
  chain_eq : (positions.map (·.place.text)).reverse = chain

theorem Faulted.of_stacked {s : Setting} {root : Place} {chain : List String} {frames : List Frame}
    {cause : Cause} (first : Position) (hchain : chain = chainOf frames ++ [first.place.text])
    (hstack : Stacked s root frames) (hasked : Asked s root frames first.place)
    (harises : Arises s chain cause first) :
    Faulted s root chain cause (first :: frames.map Frame.position) where
  arises := ⟨first, _, rfl, harises⟩
  imports := (hstack.imports hasked).1
  root := (hstack.imports hasked).2
  chain_eq := by simp [hchain, chainOf, Frame.position, Frame.key, Function.comp_def]

/-! ## Steps -/

/-- A failure is on its way out. -/
def State.Failing (σ : State) : Prop := ∃ failure, σ.phase = .deliver (.error (.failed failure))

/-- A failure that is on its way out has left some positions, and they and the positions of the open files
tell where it arose. -/
def Unwinding (s : Setting) (root : Place) (chain : List String) (σ : State) : Prop :=
  ∃ failure cause left, σ.phase = .deliver (.error (.failed failure)) ∧
    failure = (Failure.ofCause cause).through left ∧
    Faulted s root chain cause (left ++ σ.frames.map Frame.position)

section
variable {s : Setting} {limit : Option Nat} {root : Place} {chain : List String} {σ τ : State}

/-- A line of an open file at which a cause arises. -/
theorem Frame.Opened.arises {place : Place} {passed rest done : List Text} {line : Text}
    {blocks : OpenBlocks} {cause : Cause}
    (hopened : Frame.Opened s ⟨place, passed, line :: rest, blocks, done⟩)
    (hfails : LineFails s chain place blocks line cause) (horigin : cause.origin = .line) :
    Arises s chain cause (Frame.position ⟨place, passed, line :: rest, blocks, done⟩) := by
  obtain ⟨text, hsource, hlines, hblocks⟩ := hopened
  exact .line hsource hlines hblocks hfails horigin

/-- **A failure arises** in the innermost file, and the stack tells how that file has been reached. -/
theorem Step.unwinding_of_new (h : Step s limit σ τ) (hσ : RunInv s limit root σ) (hnew : ¬ σ.Failing)
    (hτ : τ.Failing) : Unwinding s root σ.chain τ := by
  have hstack := hσ.linked.stack
  obtain ⟨phase, frames, l⟩ := τ
  obtain ⟨failure, hphase⟩ := hτ
  cases hphase
  rcases h.halt_cases hσ.chain with harises | ⟨refusal, hhalt, -⟩ | ⟨failure', path, line, -, hbefore⟩
  · cases harises with
    | @unread place frames l cause hunread =>
      have harises : Arises s (chainOf frames ++ [place.text]) cause ⟨place, none⟩ :=
        .file hunread (Flatten.sourceAt_origin hunread)
      exact ⟨_, cause, [⟨place, none⟩], rfl, rfl,
        .of_stacked ⟨place, none⟩ rfl hstack (hσ.linked.entered place rfl) harises⟩
    | line hm =>
      obtain ⟨⟨cause, rfl, horigin⟩, -⟩ := Move.ofLine_halt hm
      have harises := hstack.1.arises (.inl hm) horigin
      rw [State.chain_scan, chainOf_cons]
      exact ⟨_, cause, [], rfl, rfl, .of_stacked _ rfl hstack.2.2 hstack.2.1 harises⟩
    | @tooDeep place passed line rest blocks done outer l path target n halt hm hcache hn hle hhalt =>
      obtain ⟨cause, rfl, horigin⟩ := depthHalt_origin hhalt
      have harises := hstack.1.arises (.inr ⟨path, target, hm, hhalt⟩) horigin
      rw [State.chain_scan, chainOf_cons]
      exact ⟨_, cause, [], rfl, rfl, .of_stacked _ rfl hstack.2.2 hstack.2.1 harises⟩
    | @unclosed place passed blocks done outer l cause hfinish =>
      obtain ⟨⟨text, hsource, hlines, hblocks⟩, hasked, houter⟩ := hstack
      rw [List.append_nil] at hlines
      subst hlines
      let last : Position := ⟨place, some ((Text.lines text).length, (Text.lines text).getLast?.getD [])⟩
      have harises : Arises s (chainOf frames ++ [place.text]) cause last :=
        .finish hsource hblocks hfinish (finish_origin hfinish)
      rw [State.chain_scan, chainOf_cons]
      exact ⟨_, cause, [last], rfl, rfl, .of_stacked last rfl houter hasked harises⟩
  · cases hhalt
  · exact absurd ⟨failure', hbefore⟩ hnew

/-- **A failure leaves a file**, whose position goes from the stack into the trace. -/
theorem Step.unwinding (h : Step s limit σ τ) (hσ : Unwinding s root chain σ) :
    Unwinding s root chain τ := by
  obtain ⟨failure, cause, left, hphase, hfailure, hfaulted⟩ := hσ
  cases h with
  | @fail place passed line rest blocks done outer l failure' =>
    cases hphase
    refine ⟨_, cause, left ++ [⟨place, some (passed.length + 1, line)⟩], rfl, ?_, ?_⟩
    · rw [Failure.through_snoc, ← hfailure]
    · rw [List.append_assoc, List.singleton_append]
      exact hfaulted
  | _ => cases hphase

/-- **A failure that is on its way out arose at some moment of the run**, and the trace so far and the
open files tell how. -/
theorem Run.unwinding {cache : Table Text} (h : Run s limit (.start root cache) σ)
    (hroot : cache.get? root.text = none) (hσ : σ.Failing) :
    ∃ ρ ρ', Run s limit (.start root cache) ρ ∧ Step s limit ρ ρ' ∧ ¬ ρ.Failing ∧ ρ'.Failing ∧
      Unwinding s root ρ.chain σ := by
  induction h with
  | refl => simp [State.Failing, State.start] at hσ
  | @tail σ τ hrun hstep ih =>
    by_cases hfailing : σ.Failing
    · obtain ⟨ρ, ρ', hρ, hstep', hnot, hnow, hunwinding⟩ := ih hfailing
      exact ⟨ρ, ρ', hρ, hstep', hnot, hnow, hstep.unwinding hunwinding⟩
    · have hunwinding := hstep.unwinding_of_new (Run.runInv hrun hroot) hfailing hσ
      exact ⟨σ, τ, hrun, hstep, hfailing, hσ, hunwinding⟩

end

/-! ## Reports -/

/-- The log record of a diagnostic. -/
def Diagnostic.record (d : Diagnostic) : LogRecord := ⟨.error, logSource.run, d.format⟩

theorem failureRecord_eq (f : Failure) (path : String) (line : Option NumberedLine) :
    Ledger.failureRecord f path line = (f.diagnostic path line).record := by
  cases line with
  | none => rfl
  | some line =>
    have hcolon : ∀ t : String, ")" ++ (": " ++ t) = "): " ++ t := by
      intro t
      rw [← String.append_assoc]
      rfl
    simp [Ledger.failureRecord, Diagnostic.record, Diagnostic.format, Failure.diagnostic, hcolon,
      String.append_assoc]

/-- The reports and the failures in the log are those of the trace. -/
structure Reported (σ : State) : Prop where
  reported : σ.ledger.reported = σ.trace
  errors : σ.ledger.errors = σ.trace.map Diagnostic.record

section
variable {s : Setting} {limit : Option Nat} {σ τ : State}

/-- A step that reports nothing and leaves the trace as it is. -/
theorem Reported.pass (hσ : Reported σ) (hreported : τ.ledger.reported = σ.ledger.reported)
    (herrors : τ.ledger.errors = σ.ledger.errors) (htrace : τ.trace = σ.trace) : Reported τ where
  reported := by rw [hreported, htrace, hσ.reported]
  errors := by rw [herrors, htrace, hσ.errors]

/-- A step that reports a failure. -/
theorem Reported.report {f : Failure} {path : String} {line : Option NumberedLine} {l : Ledger}
    {frames : List Frame} (hreported : l.reported = f.trace)
    (herrors : l.errors = f.trace.map Diagnostic.record) :
    Reported ⟨.deliver (.error (.failed (f.report path line))), frames, (l.report f path line).2⟩ where
  reported := by simp [hreported]
  errors := by simp [herrors, failureRecord_eq]

theorem Step.reported (h : Step s limit σ τ) (hchain : ChainInv limit σ) (hσ : Reported σ) :
    Reported τ := by
  have hreported := hσ.reported
  have herrors := hσ.errors
  cases h with
  | refuse hread =>
    obtain ⟨cause, -, rfl, rfl⟩ := Flatten.readText_error hread
    exact .report (by simpa using hreported) (by simpa using herrors)
  | begin hread =>
    obtain ⟨-, rfl⟩ := Flatten.readText_ok hread
    exact hσ.pass (by simp) (by simp) rfl
  | turn hm => exact hσ.pass rfl rfl rfl
  | settle hm => exact hσ.pass rfl rfl (State.trace_of_line _ _ hm)
  | reuse hm hcache => exact hσ.pass rfl (by simp [servedRecord]) rfl
  | descend hm hcache hroom => exact hσ.pass rfl rfl rfl
  | tooDeep hm hcache hn hle => exact hσ.pass rfl rfl (State.trace_of_depth _ _ _ _)
  | emit => exact hσ.pass rfl rfl rfl
  | fail => exact .report hreported herrors
  | giveUp => exact hσ.pass rfl rfl rfl
  | unclosed hfinish => exact .report hreported herrors
  | close hfinish hstore =>
    cases (hchain.store_eq _).symm.trans hstore
    exact hσ.pass rfl rfl rfl
  | conflict hfinish hstore => cases (hchain.store_eq _).symm.trans hstore

end

/-! ## The theorem -/

/-- What a failure tells that arose from a cause while the files of the chain were open, the requested one
being the outermost. -/
structure ImportTrace (s : Setting) (root : Place) (chain : List String) (cause : Cause)
    (failure : Failure) (first : Position) (outer : List Position) : Prop where
  kind : failure.kind = cause.kind
  message : failure.message = (Failure.ofCause cause).message
  /-- one diagnostic for each position, innermost first, with the kind and the message of the failure -/
  trace : failure.trace = (first :: outer).map failure.diagnosticAt
  /-- backwards, the trace is the chain -/
  paths : (failure.trace.map (·.path)).reverse = chain
  nodup : chain.Nodup
  root : chain.head? = some root.text
  /-- every diagnostic but the first is at the import of the one before -/
  imports : (first :: outer).IsChain (ImportedBy s)
  arises : Arises s chain cause first
  /-- the first diagnostic has no line exactly if its file cannot be read -/
  unread : first.line = none ↔ ∃ refusal, Flatten.sourceAt s first.place = .error refusal
  /-- and otherwise a line of its file, the last one if a block is left open -/
  line : ∀ number line, first.line = some (number, line) →
    ∃ text, Flatten.sourceAt s first.place = .ok text ∧ 0 < number ∧
      (Text.lines text)[number - 1]? = some line ∧
      (cause.origin = .finish → number = (Text.lines text).length)
  /-- the failure has the position of the first diagnostic -/
  path : failure.path = some first.place.text
  lineNumber : failure.lineNumber = first.line.map (·.1)
  lineText : failure.lineText = first.line.map (·.2)

theorem Unwinding.importTrace {s : Setting} {root : Place} {chain : List String} {failure : Failure}
    {l : Ledger} (h : Unwinding s root chain ⟨.deliver (.error (.failed failure)), [], l⟩)
    (hnodup : chain.Nodup) : ∃ cause first outer, ImportTrace s root chain cause failure first outer := by
  obtain ⟨failure, cause, left, hphase, hfailure, hfaulted⟩ := h
  cases hphase
  obtain ⟨⟨first, outer, hleft, harises⟩, himports, hlast, hchain⟩ := hfaulted
  rw [List.map_nil, List.append_nil] at hleft himports hlast hchain
  subst hleft
  have htrace : failure.trace = (first :: outer).map failure.diagnosticAt := by
    rw [hfailure, Failure.trace_through, Failure.diagnosticAt_through, Failure.trace_ofCause,
      List.nil_append]
  have hlocation := Failure.location_ofCause cause first outer
  rw [← hfailure] at hlocation
  refine ⟨cause, first, outer, ?_⟩
  constructor
  case kind => rw [hfailure, Failure.kind_through, Failure.kind_ofCause]
  case message => rw [hfailure, Failure.message_through]
  case trace => exact htrace
  case paths =>
    rw [htrace, List.map_map, ← hchain]
    rfl
  case nodup => exact hnodup
  case root =>
    obtain ⟨last, hlast', hplace⟩ := Option.map_eq_some_iff.mp hlast
    rw [← hchain, List.head?_reverse, List.getLast?_map, hlast', Option.map_some, hplace]
  case imports => exact himports
  case arises => exact harises
  case unread => exact harises.line_eq_none_iff
  case line => exact fun _ _ => harises.line_eq_some
  case path => exact hlocation.1
  case lineNumber => exact hlocation.2.1
  case lineText => exact hlocation.2.2

/-- **The trace is the import chain.**  A call whose path leads somewhere fails at one of its moments, for
a cause that arises in the innermost file.  The trace has one diagnostic for each file that is open then,
and tells how the requested file has led to the one that failed.  The reports, and the failures in the
log, are those of the trace. -/
theorem process_trace {engine : Engine} {disk : Disk} {bindings : Bindings} {request : String}
    {failure : Failure} {l : Ledger}
    (h : (engine.process disk bindings request).1 = (.error (.failed failure), l))
    (hkind : failure.kind ≠ .invalidPath) :
    ∃ root σ τ cause first outer,
      disk.canonical? request = .ok root ∧
      engine.Moment disk bindings request σ ∧
      Step (engine.setting disk bindings) (some engine.limits.levels) σ τ ∧
      ¬ σ.Failing ∧ τ.Failing ∧
      ImportTrace (engine.setting disk bindings) root σ.chain cause failure first outer ∧
      l.reported = failure.trace ∧ l.errors = failure.trace.map Diagnostic.record := by
  have hresult : (engine.process disk bindings request).1.1 = .error (.failed failure) := by rw [h]
  rcases Engine.process_error hresult with hhalt | ⟨fault, hhalt⟩ | ⟨root, hroot, hcache, hrun⟩
  · cases hhalt
  · -- a path that leads nowhere is an invalid one
    cases hhalt
    simp [Cause.kind] at hkind
  · rw [h] at hrun
    have hreported : Reported ⟨.deliver (.error (.failed failure)), [], l⟩ :=
      hrun.keeps hcache ⟨rfl, rfl⟩ fun _ _ hstep hσ => hstep.reported hσ.chain
    obtain ⟨σ, τ, hσ, hstep, hnot, hnow, hunwinding⟩ := Run.unwinding hrun hcache ⟨failure, rfl⟩
    obtain ⟨cause, first, outer, htrace⟩ :=
      hunwinding.importTrace (Run.runInv hσ hcache).chain.nodup
    exact ⟨root, σ, τ, cause, first, outer, hroot, ⟨root, hroot, hcache, hσ⟩, hstep, hnot, hnow, htrace,
      hreported.reported, hreported.errors⟩

/-! A shader imports a part that closes a block which is not open. -/

/-- The line of that part. -/
def strayLine : Text := "#endif".toList

/-- The disk with that shader. -/
def strayDisk : Disk := .pair (Utf8.ascii importLine) (Utf8.ascii strayLine)

/-- The failure of that shader. -/
def strayFailure : Failure :=
  (Failure.ofCause .strayEndif).through
    [⟨["b.wgsl"], some (1, strayLine)⟩, ⟨["a"], some (1, importLine)⟩]

theorem run_stray {s : Setting} (hdisk : s.disk = strayDisk) (hconditions : s.bindings.conditions = [])
    (hlimit : s.readLimit = none) :
    ∃ l, Run s (some 1) (.start ["a"] []) ⟨.deliver (.error (.failed strayFailure)), [], l⟩ := by
  have hlines : Text.lines importLine = [importLine] ∧ Text.lines strayLine = [strayLine] := by decide
  have hstray : Move.ofLine s ["/a", "/b.wgsl"] ["b.wgsl"] .none strayLine =
      .settle (.error (.failed (.ofCause .strayEndif))) := by
    have hturn : Flatten.turnBlocks [] .none strayLine = some (.error .strayEndif) := by rfl
    rw [Move.ofLine, hconditions, hturn]
    rfl
  apply Exists.intro
  refine .head (.begin (readText_pair_shader hdisk hlimit (by decide) _)) ?_
  rw [Frame.start, hlines.1]
  refine .head (.descend (ofLine_pair_import hdisk (by decide)) (by simp [Table.get?]) (by simp)) ?_
  refine .head (.begin (readText_pair_part hdisk hlimit (by decide) _)) ?_
  rw [Frame.start, hlines.2]
  exact .head (.settle hstray) (.head .fail (.head .fail .refl))

theorem process_trace_stray : ∃ l,
    ((Engine.create .oneLevel).process strayDisk ⟨[], []⟩ "/a").1 = (.error (.failed strayFailure), l) ∧
    strayFailure.kind ≠ .invalidPath ∧ strayFailure.trace.map (·.path) = ["/b.wgsl", "/a"] ∧
    l.reported = strayFailure.trace := by
  obtain ⟨l, hrun⟩ := run_stray (s := (Engine.create .oneLevel).setting strayDisk ⟨[], []⟩) rfl rfl rfl
  have hprocess := Engine.process_of_run (Disk.canonical?_pair_shader _ _) rfl hrun
  have hkind : strayFailure.kind ≠ .invalidPath := by simp [strayFailure, Cause.kind]
  have hpaths : strayFailure.trace.map (·.path) = ["/b.wgsl", "/a"] := by
    rw [strayFailure, Failure.trace_through, Failure.trace_ofCause]
    decide
  obtain ⟨root, σ, τ, cause, first, outer, -, -, -, -, -, -, hreported, -⟩ :=
    process_trace hprocess hkind
  exact ⟨l, hprocess, hkind, hpaths, hreported⟩

end ShaderFlatten
