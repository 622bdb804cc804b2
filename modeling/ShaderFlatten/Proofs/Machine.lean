import Mathlib.Logic.Relation
import ShaderFlatten.Engine.Session
import ShaderFlatten.Proofs.Ledger

/-!
# Flattening, one step at a time

The recursion of `Flatten.file` as a machine.  Its state is the stack of open files, innermost first,
with the lines that each of them has behind it and ahead of it, and the ledger.

    Step s limit σ τ      one step; `limit` is the greatest number of import levels, if there is one
    Run s limit σ τ       any number of steps

Every call of `Flatten.file` is a run of the machine:

    Flatten.file s levels (chainOf frames) place l = (r, l') →
      Run s (levels + frames.length) ⟨enter place, frames, l⟩ ⟨deliver r, frames, l'⟩     (run_file)

so that what every step preserves holds at every moment of a call.
-/

namespace ShaderFlatten

/-! ## Moves -/

/-- What a line comes to before another file is looked at. -/
inductive Move where
  /-- nothing is emitted; these blocks are open behind the line -/
  | turn (blocks : OpenBlocks)
  /-- the line stands for a text, or it ends the run -/
  | settle (result : Except Halt Text)
  /-- the line stands for the flattened file at `target`, which it names by `path` -/
  | fetch (path : Text) (target : Place)

namespace Move

/-- The move of a visible import line. -/
def ofImport (s : Setting) (chain : List String) (place : Place) (line : Text) : Move :=
  match Line.importPath? line with
  | .error mismatch => .settle (.error (.ofCause (.malformedImport mismatch)))
  | .ok path =>
    match s.disk.canonical? (Flatten.importRequest place path) with
    | .error .unnameable => .settle (.error (.refused .unnameable))
    | .error fault => .settle (.error (.ofCause (.unresolvedImport path fault)))
    | .ok target =>
      if target.text ∈ chain then .settle (.error (.ofCause (.cyclicImport path)))
      else .fetch path target

/-- The move of a line.  Conditional directives count in hidden blocks too. -/
def ofLine (s : Setting) (chain : List String) (place : Place) (blocks : OpenBlocks) (line : Text) :
    Move :=
  match Flatten.turnBlocks s.bindings.conditions blocks line with
  | some (.error cause) => .settle (.error (.ofCause cause))
  | some (.ok blocks) => .turn blocks
  | none =>
    if blocks.visible then
      if Line.kind line = .importLine then ofImport s chain place line
      else .settle (Line.substitute line s.bindings.constants s.limits.lineLength)
    else .turn blocks

end Move

namespace Flatten

/-- The blocks that are open behind a line, unless the line is a directive that fails. -/
def passBlocks (conditions : Table Value) (blocks : OpenBlocks) (line : Text) : Option OpenBlocks :=
  match turnBlocks conditions blocks line with
  | none => some blocks
  | some (.ok blocks) => some blocks
  | some (.error _) => none

/-- The blocks that are open behind the first lines of a file. -/
def blocksAfter (conditions : Table Value) (lines : List Text) : Option OpenBlocks :=
  lines.foldlM (passBlocks conditions) .none

theorem blocksAfter_snoc {conditions : Table Value} {lines : List Text} {blocks : OpenBlocks}
    (h : blocksAfter conditions lines = some blocks) (line : Text) :
    blocksAfter conditions (lines ++ [line]) = passBlocks conditions blocks line := by
  unfold blocksAfter at h ⊢
  simp [h]

end Flatten

/-- With these blocks open, a line is a visible import of the file at `target`. -/
structure Imports (s : Setting) (place : Place) (blocks : OpenBlocks) (line path : Text)
    (target : Place) : Prop where
  visible : blocks.visible = true
  kind : Line.kind line = .importLine
  parsed : Line.importPath? line = .ok path
  resolved : s.disk.canonical? (Flatten.importRequest place path) = .ok target

theorem Imports.passBlocks {s : Setting} {place target : Place} {blocks : OpenBlocks} {line path : Text}
    (h : Imports s place blocks line path target) (conditions : Table Value) :
    Flatten.passBlocks conditions blocks line = some blocks := by
  simp [Flatten.passBlocks, Flatten.turnBlocks, h.kind]

theorem turnBlocks_import {conditions : Table Value} {blocks : OpenBlocks} {line : Text}
    (h : Line.kind line = .importLine) : Flatten.turnBlocks conditions blocks line = none := by
  simp [Flatten.turnBlocks, h]

namespace Move

section
variable {s : Setting} {chain : List String} {place : Place} {blocks : OpenBlocks} {line : Text}

/-- A line asks for a file exactly if it imports it and the file is not open. -/
theorem ofLine_eq_fetch {path : Text} {target : Place} :
    ofLine s chain place blocks line = .fetch path target ↔
      Imports s place blocks line path target ∧ target.text ∉ chain := by
  constructor
  · intro h
    unfold ofLine at h
    split at h
    · cases h
    · cases h
    · split at h
      · next hv =>
        split at h
        · next hk =>
          unfold ofImport at h
          split at h
          · cases h
          · next p hp =>
            split at h
            · cases h
            · cases h
            · next t ht =>
              split at h
              · cases h
              · next hmem =>
                cases h
                exact ⟨⟨hv, hk, hp, ht⟩, hmem⟩
        · cases h
      · cases h
  · rintro ⟨⟨hv, hk, hp, ht⟩, hmem⟩
    simp [ofLine, turnBlocks_import hk, hv, hk, ofImport, hp, ht, hmem]

/-- A visible import line ends the run or asks for a file. -/
theorem ofLine_import (s : Setting) (chain : List String) (place : Place)
    (hv : blocks.visible = true) (hk : Line.kind line = .importLine) :
    (∃ halt, ofLine s chain place blocks line = .settle (.error halt)) ∨
      ∃ path target, ofLine s chain place blocks line = .fetch path target := by
  have h : ofLine s chain place blocks line = ofImport s chain place line := by
    simp [ofLine, turnBlocks_import hk, hv, hk]
  rw [h, ofImport]
  split
  · exact .inl ⟨_, rfl⟩
  · split
    · exact .inl ⟨_, rfl⟩
    · exact .inl ⟨_, rfl⟩
    · split
      · exact .inl ⟨_, rfl⟩
      · exact .inr ⟨_, _, rfl⟩

theorem passBlocks_of_turn {blocks' : OpenBlocks} (h : ofLine s chain place blocks line = .turn blocks') :
    Flatten.passBlocks s.bindings.conditions blocks line = some blocks' := by
  unfold ofLine at h
  unfold Flatten.passBlocks
  split at h
  · cases h
  · next b hb =>
    cases h
    simp [hb]
  · next hn =>
    split at h
    · next hv =>
      split at h
      · next hk =>
        rcases ofLine_import s chain place hv hk with ⟨_, hh⟩ | ⟨_, _, hh⟩ <;>
          simp [ofLine, hn, hv, hk, h] at hh
      · cases h
    · cases h
      simp [hn]

theorem passBlocks_of_text {text : Text} (h : ofLine s chain place blocks line = .settle (.ok text)) :
    Flatten.passBlocks s.bindings.conditions blocks line = some blocks := by
  unfold ofLine at h
  unfold Flatten.passBlocks
  split at h
  · cases h
  · cases h
  · next hn => simp [hn]

/-- The chain matters only to lines that end the run or ask for a file. -/
theorem ofLine_chain (chain chain' : List String)
    (hhalt : ∀ halt, ofLine s chain place blocks line ≠ .settle (.error halt))
    (hfetch : ∀ path target, ofLine s chain place blocks line ≠ .fetch path target) :
    ofLine s chain' place blocks line = ofLine s chain place blocks line := by
  have himport : ¬ (blocks.visible = true ∧ Line.kind line = .importLine) := by
    rintro ⟨hv, hk⟩
    rcases ofLine_import s chain place hv hk with ⟨halt, h⟩ | ⟨path, target, h⟩
    · exact hhalt halt h
    · exact hfetch path target h
  unfold ofLine
  split
  · rfl
  · rfl
  · split
    · next hv => rw [if_neg fun hk => himport ⟨hv, hk⟩, if_neg fun hk => himport ⟨hv, hk⟩]
    · rfl

theorem ofLine_turn_chain {blocks' : OpenBlocks} (h : ofLine s chain place blocks line = .turn blocks')
    (chain' : List String) : ofLine s chain' place blocks line = .turn blocks' := by
  rw [ofLine_chain chain chain' (by simp [h]) (by simp [h]), h]

theorem ofLine_text_chain {text : Text} (h : ofLine s chain place blocks line = .settle (.ok text))
    (chain' : List String) : ofLine s chain' place blocks line = .settle (.ok text) := by
  rw [ofLine_chain chain chain' (by simp [h]) (by simp [h]), h]

end

end Move

/-- **A halt of a line is new**: nothing has reported it. -/
theorem Move.ofLine_halt {s : Setting} {chain : List String} {place : Place} {blocks : OpenBlocks}
    {line : Text} {halt : Halt} (h : ofLine s chain place blocks line = .settle (.error halt)) :
    halt.OfLine ∧ ¬ halt.OfDepth := by
  unfold ofLine at h
  split at h
  · next cause hc =>
    cases h
    obtain ⟨horigin, hkind⟩ := turnBlocks_origin hc
    exact Halt.ofLine_ofCause horigin hkind
  · cases h
  · split at h
    · split at h
      · unfold ofImport at h
        split at h
        · cases h
          exact Halt.ofLine_ofCause rfl (by simp [Cause.kind])
        · split at h
          · cases h
            exact Halt.ofLine_refused (by simp)
          · cases h
            exact Halt.ofLine_ofCause rfl (by simp [Cause.kind])
          · split at h
            · cases h
              exact Halt.ofLine_ofCause rfl (by simp [Cause.kind])
            · cases h
      · simp only [settle.injEq] at h
        exact substitute_ofLine h
    · cases h

/-! ## Steps -/

/-- An open file: the lines behind and ahead, the open blocks, and the emitted texts, backwards. -/
structure Frame where
  place : Place
  passed : List Text
  rest : List Text
  blocks : OpenBlocks
  done : List Text

/-- Where a failure leaves a file: at a line of it, or as a whole. -/
structure Position where
  place : Place
  line : Option NumberedLine

namespace Frame

/-- The name of an open file in the chain. -/
def key (f : Frame) : String := f.place.text

/-- A file that has just been read. -/
def start (place : Place) (text : Text) : Frame := ⟨place, [], Text.lines text, .none, []⟩

/-- The position at which an open file is left. -/
def position (f : Frame) : Position :=
  ⟨f.place, f.rest.head?.map fun line => (f.passed.length + 1, line)⟩

@[simp] theorem key_mk (place : Place) (passed rest : List Text) (blocks : OpenBlocks)
    (done : List Text) : (Frame.mk place passed rest blocks done).key = place.text := rfl

@[simp] theorem key_start (place : Place) (text : Text) : (start place text).key = place.text := rfl

end Frame

/-- The chain of open files, outermost first. -/
def chainOf (frames : List Frame) : List String := (frames.map Frame.key).reverse

@[simp] theorem chainOf_nil : chainOf [] = [] := rfl

@[simp] theorem chainOf_cons (f : Frame) (frames : List Frame) :
    chainOf (f :: frames) = chainOf frames ++ [f.key] := by
  simp [chainOf]

theorem key_mem_chainOf {f : Frame} {frames : List Frame} (h : f ∈ frames) : f.key ∈ chainOf frames :=
  List.mem_reverse.mpr (List.mem_map_of_mem h)

/-- What the machine is about to do. -/
inductive Phase where
  /-- a file is entered, and has not been read -/
  | enter (place : Place)
  /-- the innermost file goes on to its next line -/
  | scan
  /-- a result is handed to the line that the innermost file is at -/
  | deliver (result : Except Halt Text)

/-- A moment of a call. -/
structure State where
  phase : Phase
  frames : List Frame
  ledger : Ledger

/-- The log record of an import that the cache answers. -/
def servedRecord (target : Place) : LogRecord :=
  ⟨.debug, logSource.run, "Import " ++ target.text ++ " served from cache"⟩

/-- One step of flattening.  A result other than a text leaves one open file after the other; a failure
is reported in each of them. -/
inductive Step (s : Setting) (limit : Option Nat) : State → State → Prop
  | refuse {place frames l halt l'} : Flatten.readText s place l = (.error halt, l') →
      Step s limit ⟨.enter place, frames, l⟩ ⟨.deliver (.error halt), frames, l'⟩
  | begin {place frames l text l'} : Flatten.readText s place l = (.ok text, l') →
      Step s limit ⟨.enter place, frames, l⟩ ⟨.scan, .start place text :: frames, l'⟩
  | turn {place passed line rest blocks done outer l blocks'} :
      Move.ofLine s (chainOf outer ++ [place.text]) place blocks line = .turn blocks' →
      Step s limit ⟨.scan, ⟨place, passed, line :: rest, blocks, done⟩ :: outer, l⟩
        ⟨.scan, ⟨place, passed ++ [line], rest, blocks', done⟩ :: outer, l⟩
  | settle {place passed line rest blocks done outer l result} :
      Move.ofLine s (chainOf outer ++ [place.text]) place blocks line = .settle result →
      Step s limit ⟨.scan, ⟨place, passed, line :: rest, blocks, done⟩ :: outer, l⟩
        ⟨.deliver result, ⟨place, passed, line :: rest, blocks, done⟩ :: outer, l⟩
  | reuse {place passed line rest blocks done outer l path target text} :
      Move.ofLine s (chainOf outer ++ [place.text]) place blocks line = .fetch path target →
      l.cache.get? target.text = some text →
      Step s limit ⟨.scan, ⟨place, passed, line :: rest, blocks, done⟩ :: outer, l⟩
        ⟨.deliver (.ok text), ⟨place, passed, line :: rest, blocks, done⟩ :: outer,
          l.note (servedRecord target)⟩
  | descend {place passed line rest blocks done outer l path target} :
      Move.ofLine s (chainOf outer ++ [place.text]) place blocks line = .fetch path target →
      l.cache.get? target.text = none → (∀ n ∈ limit, outer.length < n) →
      Step s limit ⟨.scan, ⟨place, passed, line :: rest, blocks, done⟩ :: outer, l⟩
        ⟨.enter target, ⟨place, passed, line :: rest, blocks, done⟩ :: outer, l⟩
  | tooDeep {place passed line rest blocks done outer l path target n} :
      Move.ofLine s (chainOf outer ++ [place.text]) place blocks line = .fetch path target →
      l.cache.get? target.text = none → limit = some n → n ≤ outer.length →
      Step s limit ⟨.scan, ⟨place, passed, line :: rest, blocks, done⟩ :: outer, l⟩
        ⟨.deliver (.error (Flatten.depthHalt s.limits path)),
          ⟨place, passed, line :: rest, blocks, done⟩ :: outer, l⟩
  | emit {place passed line rest blocks done outer l text} :
      Step s limit
        ⟨.deliver (.ok text), ⟨place, passed, line :: rest, blocks, done⟩ :: outer, l⟩
        ⟨.scan, ⟨place, passed ++ [line], rest, blocks, Flatten.emitted text rest :: done⟩ :: outer, l⟩
  | fail {place passed line rest blocks done outer l failure} :
      Step s limit
        ⟨.deliver (.error (.failed failure)), ⟨place, passed, line :: rest, blocks, done⟩ :: outer, l⟩
        ⟨.deliver (.error (.failed (failure.report place.text (some (passed.length + 1, line))))), outer,
          (l.report failure place.text (some (passed.length + 1, line))).2⟩
  | giveUp {f outer l refusal} :
      Step s limit ⟨.deliver (.error (.refused refusal)), f :: outer, l⟩
        ⟨.deliver (.error (.refused refusal)), outer, l⟩
  | unclosed {place passed blocks done outer l cause} : blocks.finish = .error cause →
      Step s limit ⟨.scan, ⟨place, passed, [], blocks, done⟩ :: outer, l⟩
        ⟨.deliver (.error (.failed ((Failure.ofCause cause).report place.text
            (some (passed.length, passed.getLast?.getD []))))), outer,
          (l.report (.ofCause cause) place.text
            (some (passed.length, passed.getLast?.getD []))).2⟩
  | close {place passed blocks done outer l l'} : blocks.finish = .ok () →
      Flatten.store place.text done.reverse.flatten l = (.ok (), l') →
      Step s limit ⟨.scan, ⟨place, passed, [], blocks, done⟩ :: outer, l⟩
        ⟨.deliver (.ok done.reverse.flatten), outer, l'⟩
  | conflict {place passed blocks done outer l halt l'} : blocks.finish = .ok () →
      Flatten.store place.text done.reverse.flatten l = (.error halt, l') →
      Step s limit ⟨.scan, ⟨place, passed, [], blocks, done⟩ :: outer, l⟩
        ⟨.deliver (.error halt), outer, l'⟩

/-- Any number of steps. -/
abbrev Run (s : Setting) (limit : Option Nat) : State → State → Prop :=
  Relation.ReflTransGen (Step s limit)

/-- What every step preserves holds at the end of every run. -/
theorem Run.preserves {s : Setting} {limit : Option Nat} {P : State → Prop} {σ τ : State}
    (hstep : ∀ σ τ, Step s limit σ τ → P σ → P τ) (h : Run s limit σ τ) (hσ : P σ) : P τ := by
  induction h with
  | refl => exact hσ
  | tail _ hst ih => exact hstep _ _ hst ih

/-- The machine never has a choice. -/
theorem Step.unique {s : Setting} {limit : Option Nat} : Relator.RightUnique (Step s limit) := by
  intro σ τ υ h₁ h₂
  cases h₁ <;> cases h₂ <;> simp_all <;> try omega

/-- A result that no open file waits for is the end. -/
theorem Step.not_of_end {s : Setting} {limit : Option Nat} {result : Except Halt Text} {l : Ledger}
    {σ : State} : ¬ Step s limit ⟨.deliver result, [], l⟩ σ := by
  intro h
  cases h

theorem Run.end_unique {s : Setting} {limit : Option Nat} {σ : State} {r r' : Except Halt Text}
    {l l' : Ledger} (h : Run s limit σ ⟨.deliver r, [], l⟩) (h' : Run s limit σ ⟨.deliver r', [], l'⟩) :
    (r, l) = (r', l') := by
  have hend : ∀ {r r' l l'}, Run s limit ⟨.deliver r, [], l⟩ ⟨.deliver r', [], l'⟩ →
      (r, l) = (r', l') := by
    intro r r' l l' hrun
    rcases hrun.cases_head with heq | ⟨σ, hstep, -⟩
    · cases heq
      rfl
    · exact absurd hstep Step.not_of_end
  rcases Relation.ReflTransGen.total_of_right_unique Step.unique h h' with hrun | hrun
  · exact hend hrun
  · exact (hend hrun).symm

/-! ## The recursion is a run -/

/-- What `Flatten.line` makes of the move of a line. -/
theorem line_eq (s : Setting) (visit : Option Flatten.Visit) (chain : List String) (place : Place)
    (blocks : OpenBlocks) (line : Text) (l : Ledger) :
    Flatten.line s visit chain place blocks line l =
      match Move.ofLine s chain place blocks line with
      | .turn blocks' => (.ok (none, blocks'), l)
      | .settle (.error halt) => (.error halt, l)
      | .settle (.ok text) => (.ok (some text, blocks), l)
      | .fetch path target =>
        match l.cache.get? target.text with
        | some text => (.ok (some text, blocks), l.note (servedRecord target))
        | none =>
          match visit with
          | none => (.error (Flatten.depthHalt s.limits path), l)
          | some visit =>
            match visit chain target l with
            | (.error halt, l) => (.error halt, l)
            | (.ok text, l) => (.ok (some text, blocks), l) := by
  unfold Flatten.line Move.ofLine
  cases Flatten.turnBlocks s.bindings.conditions blocks line with
  | some turned => cases turned <;> simp only
  | none =>
    by_cases hv : blocks.visible
    · by_cases hk : Line.kind line = .importLine
      · simp only [hv, hk, if_true, Flatten.lineText, Flatten.importText, Move.ofImport]
        cases Line.importPath? line with
        | error mismatch => rfl
        | ok path =>
          cases hc : s.disk.canonical? (Flatten.importRequest place path) with
          | error fault => cases fault <;> simp only [hc]
          | ok target =>
            by_cases hmem : target.text ∈ chain
            · simp only [hc, hmem, if_true]
            · simp only [hc, hmem, if_false]
              cases l.cache.get? target.text with
              | some text => rfl
              | none => cases visit <;> rfl
      · simp only [hv, hk, Flatten.lineText, if_true, if_false]
        cases Line.substitute line s.bindings.constants s.limits.lineLength <;> rfl
    · simp [hv]

section
variable {s : Setting} {limit : Option Nat}

/-- What the lines of a file end in: its last line has been passed, or a halt leaves the file. -/
def afterLines (place : Place) (outer : List Frame) (all : List Text) :
    Outcome (List Text × OpenBlocks) → State
  | (.ok (done, blocks), l) => ⟨.scan, ⟨place, all, [], blocks, done⟩ :: outer, l⟩
  | (.error halt, l) => ⟨.deliver (.error halt), outer, l⟩

/-- The machine can do at a file what the recursion does there: it enters the imported files, or it has
no room for them. -/
def Follows (s : Setting) (limit : Option Nat) (outer : List Frame) (place : Place) :
    Option Flatten.Visit → Prop
  | none => ∃ n, limit = some n ∧ n ≤ outer.length
  | some visit => (∀ n ∈ limit, outer.length < n) ∧
      ∀ (f : Frame) (target : Place) (l : Ledger), f.place = place →
        Run s limit ⟨.enter target, f :: outer, l⟩
          ⟨.deliver (visit (chainOf outer ++ [place.text]) target l).1, f :: outer,
            (visit (chainOf outer ++ [place.text]) target l).2⟩

theorem run_lines {visit : Option Flatten.Visit} {place : Place} {outer : List Frame}
    (hvisit : Follows s limit outer place visit) (rest passed : List Text) (blocks : OpenBlocks)
    (done : List Text) (l : Ledger) :
    Run s limit ⟨.scan, ⟨place, passed, rest, blocks, done⟩ :: outer, l⟩
      (afterLines place outer (passed ++ rest)
        (Flatten.lines s visit (chainOf outer ++ [place.text]) place (passed.length + 1) blocks done
          rest l)) := by
  induction rest generalizing passed blocks done l with
  | nil =>
    rw [Flatten.lines, List.append_nil]
    exact .refl
  | cons first rest ih =>
    -- the lines behind the first one, whatever it has left behind
    have next : ∀ blocks done l, Run s limit
        ⟨.scan, ⟨place, passed ++ [first], rest, blocks, done⟩ :: outer, l⟩
        (afterLines place outer (passed ++ first :: rest)
          (Flatten.lines s visit (chainOf outer ++ [place.text]) place (passed.length + 1 + 1) blocks
            done rest l)) := by
      intro blocks done l
      have h := ih (passed ++ [first]) blocks done l
      rwa [List.append_assoc, List.singleton_append, List.length_append, List.length_singleton] at h
    have failed : ∀ failure l, Run s limit
        ⟨.deliver (.error (.failed failure)), ⟨place, passed, first :: rest, blocks, done⟩ :: outer, l⟩
        ⟨.deliver (.error (.failed (failure.report place.text (some (passed.length + 1, first))))), outer,
          (l.report failure place.text (some (passed.length + 1, first))).2⟩ :=
      fun failure l => .single .fail
    have refused : ∀ refusal l, Run s limit
        ⟨.deliver (.error (.refused refusal)), ⟨place, passed, first :: rest, blocks, done⟩ :: outer, l⟩
        ⟨.deliver (.error (.refused refusal)), outer, l⟩ :=
      fun refusal l => .single .giveUp
    rw [Flatten.lines, line_eq]
    cases hm : Move.ofLine s (chainOf outer ++ [place.text]) place blocks first with
    | turn blocks' => exact .head (.turn hm) (next blocks' done l)
    | settle result =>
      cases result with
      | ok text => exact .head (.settle hm) (.head .emit (next _ _ _))
      | error halt =>
        cases halt with
        | failed failure => exact .head (.settle hm) (failed failure l)
        | refused refusal => exact .head (.settle hm) (refused refusal l)
    | fetch path target =>
      cases hcache : l.cache.get? target.text with
      | some text =>
        simp only [hcache]
        exact .head (.reuse hm hcache) (.head .emit (next _ _ _))
      | none =>
        simp only [hcache]
        cases visit with
        | none =>
          obtain ⟨n, hn, hle⟩ := hvisit
          refine .head (.tooDeep hm hcache hn hle) ?_
          cases Flatten.depthHalt s.limits path with
          | failed failure => exact failed failure l
          | refused refusal => exact refused refusal l
        | some visit =>
          obtain ⟨hroom, hrun⟩ := hvisit
          refine .head (.descend hm hcache hroom) ((hrun _ target l rfl).trans ?_)
          cases hv : visit (chainOf outer ++ [place.text]) target l with
          | mk result l' =>
            simp only [hv]
            cases result with
            | ok text => exact .head .emit (next _ _ _)
            | error halt =>
              cases halt with
              | failed failure => exact failed failure l'
              | refused refusal => exact refused refusal l'

theorem run_fileWith {visit : Option Flatten.Visit} {place : Place} {outer : List Frame}
    (hvisit : Follows s limit outer place visit) (l : Ledger) :
    Run s limit ⟨.enter place, outer, l⟩
      ⟨.deliver (Flatten.fileWith s visit (chainOf outer) place l).1, outer,
        (Flatten.fileWith s visit (chainOf outer) place l).2⟩ := by
  unfold Flatten.fileWith
  cases hread : Flatten.readText s place l with
  | mk read l₁ =>
    cases read with
    | error halt => exact .single (.refuse hread)
    | ok text =>
      refine .head (.begin hread) ?_
      have h := run_lines hvisit (Text.lines text) [] .none [] l₁
      rw [List.nil_append, List.length_nil, Nat.zero_add] at h
      simp only [Flatten.source]
      cases hlines : Flatten.lines s visit (chainOf outer ++ [place.text]) place 1 .none []
          (Text.lines text) l₁ with
      | mk read l₂ =>
        rw [hlines] at h
        cases read with
        | error halt => exact h
        | ok made =>
          obtain ⟨done, blocks⟩ := made
          refine h.trans ?_
          cases hfinish : blocks.finish with
          | error cause =>
            simp only [hfinish]
            exact .single (.unclosed hfinish)
          | ok _ =>
            simp only [hfinish]
            cases hstore : Flatten.store place.text done.reverse.flatten l₂ with
            | mk stored l₃ =>
              cases stored with
              | error halt => exact .single (.conflict hfinish hstore)
              | ok _ => exact .single (.close hfinish hstore)

/-- **Every file is a run.**  With so many levels left below the open files, the machine comes back to
them with the outcome of the recursion. -/
theorem run_file (levels : Nat) (place : Place) (frames : List Frame) (l : Ledger) :
    Run s (some (levels + frames.length)) ⟨.enter place, frames, l⟩
      ⟨.deliver (Flatten.file s levels (chainOf frames) place l).1, frames,
        (Flatten.file s levels (chainOf frames) place l).2⟩ := by
  induction levels generalizing place frames l with
  | zero =>
    have hvisit : Follows s (some (0 + frames.length)) frames place none :=
      ⟨frames.length, by rw [Nat.zero_add], Nat.le_refl _⟩
    exact run_fileWith hvisit l
  | succ levels ih =>
    have hvisit : Follows s (some (levels + 1 + frames.length)) frames place
        (some (Flatten.file s levels)) := by
      refine ⟨fun n hn => ?_, fun f target l' hplace => ?_⟩
      · cases hn
        omega
      · have h := ih target (f :: frames) l'
        rwa [List.length_cons, chainOf_cons, Frame.key, hplace, ← Nat.add_assoc,
          Nat.add_right_comm] at h
    exact run_fileWith hvisit l

end

end ShaderFlatten
