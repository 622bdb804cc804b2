import Mathlib.Data.List.Nodup
import ShaderFlatten.Proofs.Canonical
import ShaderFlatten.Proofs.Machine

/-!
# The stack of open files

Two things hold at every moment of a call.

* `ChainInv`: the files that are being processed are distinct, none of them is in the cache, and there
  are at most as many as the limit allows.
* `Linked`: every open file has been read, its open blocks are those behind the lines that it has passed,
  and it waits at a visible import of the file above it.

A halt that is handed on has arisen in the innermost file (`HaltArises`) or was on its way out before; no
step stores a file twice, so none comes from the cache (`Step.halt_cases`).
-/

namespace ShaderFlatten

/-! ## The chain -/

namespace State

/-- The files that are being processed, outermost first. -/
def chain (σ : State) : List String :=
  match σ.phase with
  | .enter place => chainOf σ.frames ++ [place.text]
  | _ => chainOf σ.frames

section
variable (frames : List Frame) (l : Ledger)

@[simp] theorem chain_enter (place : Place) :
    (State.mk (.enter place) frames l).chain = chainOf frames ++ [place.text] := rfl

@[simp] theorem chain_scan : (State.mk .scan frames l).chain = chainOf frames := rfl

@[simp] theorem chain_deliver (result : Except Halt Text) :
    (State.mk (.deliver result) frames l).chain = chainOf frames := rfl

end

theorem chainOf_sublist (σ : State) : (chainOf σ.frames).Sublist σ.chain := by
  unfold chain
  split <;> simp

/-- The trace of the failure that is on its way out. -/
def trace (σ : State) : List Diagnostic :=
  match σ.phase with
  | .deliver (.error (.failed failure)) => failure.trace
  | _ => []

section
variable (frames : List Frame) (l : Ledger)

@[simp] theorem trace_enter (place : Place) : (State.mk (.enter place) frames l).trace = [] := rfl
@[simp] theorem trace_scan : (State.mk .scan frames l).trace = [] := rfl

@[simp] theorem trace_text (text : Text) : (State.mk (.deliver (.ok text)) frames l).trace = [] := rfl

@[simp] theorem trace_failed (failure : Failure) :
    (State.mk (.deliver (.error (.failed failure))) frames l).trace = failure.trace := rfl

@[simp] theorem trace_refused (refusal : Refusal) :
    (State.mk (.deliver (.error (.refused refusal))) frames l).trace = [] := rfl

/-- A line leaves no file. -/
theorem trace_of_line {s : Setting} {chain : List String} {place : Place} {blocks : OpenBlocks}
    {line : Text} {result : Except Halt Text}
    (h : Move.ofLine s chain place blocks line = .settle result) :
    (State.mk (.deliver result) frames l).trace = [] := by
  cases result with
  | ok text => rfl
  | error halt =>
    cases halt with
    | refused refusal => rfl
    | failed failure =>
      obtain ⟨⟨cause, rfl, -⟩, -⟩ := Move.ofLine_halt h
      exact Failure.trace_ofCause cause

theorem trace_of_depth (limits : Limits) (path : Text) :
    (State.mk (.deliver (.error (Flatten.depthHalt limits path))) frames l).trace = [] := by
  unfold Flatten.depthHalt
  split <;> rfl

end

end State

/-- The files that are being processed are distinct, not cached, and not too many. -/
structure ChainInv (limit : Option Nat) (σ : State) : Prop where
  nodup : σ.chain.Nodup
  uncached : ∀ key ∈ σ.chain, σ.ledger.cache.get? key = none
  length_le : ∀ n ∈ limit, σ.chain.length ≤ n + 1

section
variable {s : Setting} {limit : Option Nat} {σ τ : State}

/-- Files that are left do no harm as long as the cache stays as it is for the others. -/
theorem ChainInv.sublist (hσ : ChainInv limit σ) (hchain : τ.chain.Sublist σ.chain)
    (hcache : ∀ key ∈ τ.chain, τ.ledger.cache.get? key = σ.ledger.cache.get? key) :
    ChainInv limit τ where
  nodup := hσ.nodup.sublist hchain
  uncached := fun key hk => by rw [hcache key hk, hσ.uncached key (hchain.subset hk)]
  length_le := fun n hn => Nat.le_trans hchain.length_le (hσ.length_le n hn)

/-- A file that is entered is neither open nor cached. -/
theorem ChainInv.entered {place : Place} {frames : List Frame} {l : Ledger}
    (h : ChainInv limit ⟨.enter place, frames, l⟩) :
    place.text ∉ chainOf frames ∧ l.cache.get? place.text = none := by
  have hnodup := h.nodup
  rw [State.chain_enter, ← List.concat_eq_append, List.nodup_concat] at hnodup
  exact ⟨hnodup.1, h.uncached place.text (by simp)⟩

theorem ChainInv.open_nodup (h : ChainInv limit σ) : (chainOf σ.frames).Nodup :=
  h.nodup.sublist σ.chainOf_sublist

theorem ChainInv.open_uncached (h : ChainInv limit σ) :
    ∀ key ∈ chainOf σ.frames, σ.ledger.cache.get? key = none :=
  fun key hk => h.uncached key (σ.chainOf_sublist.subset hk)

/-- The innermost file is not open a second time, and it is not cached. -/
theorem ChainInv.innermost {phase : Phase} {f : Frame} {outer : List Frame} {l : Ledger}
    (h : ChainInv limit ⟨phase, f :: outer, l⟩) :
    f.key ∉ chainOf outer ∧ l.cache.get? f.key = none := by
  have hnodup := h.open_nodup
  rw [chainOf_cons, ← List.concat_eq_append, List.nodup_concat] at hnodup
  exact ⟨hnodup.1, h.open_uncached f.key (by simp)⟩

/-- Nothing stands against storing the innermost file. -/
theorem ChainInv.store_eq {f : Frame} {outer : List Frame} {l : Ledger}
    (h : ChainInv limit ⟨.scan, f :: outer, l⟩) (text : Text) :
    Flatten.store f.place.text text l = (.ok (), { l with cache := l.cache.insert f.place.text text }) :=
  Flatten.store_new h.innermost.2

theorem Step.chainInv (h : Step s limit σ τ) (hσ : ChainInv limit σ) : ChainInv limit τ := by
  cases h with
  | refuse hread =>
    obtain ⟨cause, -, -, rfl⟩ := Flatten.readText_error hread
    exact hσ.sublist (by simp) (by simp)
  | begin hread =>
    obtain ⟨-, rfl⟩ := Flatten.readText_ok hread
    exact hσ.sublist (by simp) (by simp)
  | turn hm => exact hσ.sublist (by simp) (by simp)
  | settle hm => exact hσ.sublist (by simp) (by simp)
  | reuse hm hcache => exact hσ.sublist (by simp) (by simp)
  | tooDeep hm hcache hn hle => exact hσ.sublist (by simp) (by simp)
  | emit => exact hσ.sublist (by simp) (by simp)
  | fail => exact hσ.sublist (by simp) (by simp)
  | giveUp => exact hσ.sublist (by simp) (by simp)
  | unclosed hfinish => exact hσ.sublist (by simp) (by simp)
  | @descend place passed line rest blocks done outer l path target hm hcache hroom =>
    have hnew : target.text ∉ chainOf outer ++ [place.text] := (Move.ofLine_eq_fetch.mp hm).2
    constructor
    · rw [State.chain_enter, ← List.concat_eq_append]
      exact hσ.nodup.concat (by simpa using hnew)
    · intro key hk
      rcases List.mem_append.mp hk with hk | hk
      · exact hσ.uncached key hk
      · rw [List.mem_singleton.mp hk]
        exact hcache
    · intro n hn
      have := hroom n hn
      simp [chainOf]
      omega
  | @close place passed blocks done outer l l' hfinish hstore =>
    cases (hσ.store_eq _).symm.trans hstore
    refine hσ.sublist (by simp) fun key hk => ?_
    have hne : place.text ≠ key := by
      rintro rfl
      exact hσ.innermost.1 hk
    simp [Table.get?_insert, hne]
  | conflict hfinish hstore => cases (hσ.store_eq _).symm.trans hstore

/-! ## How a halt arises -/

/-- A halt arises in the innermost file: the file cannot be read, its next line halts or asks for a file below
the last level, or blocks are left open at its end.  Then these files are still open. -/
inductive HaltArises (s : Setting) (limit : Option Nat) : State → Halt → List Frame → Prop
  | unread {place frames l cause} : Flatten.sourceAt s place = .error cause →
      HaltArises s limit ⟨.enter place, frames, l⟩
        (.failed ((Failure.ofCause cause).report place.text none)) frames
  | line {place passed line rest blocks done outer l halt} :
      Move.ofLine s (chainOf outer ++ [place.text]) place blocks line = .settle (.error halt) →
      HaltArises s limit ⟨.scan, ⟨place, passed, line :: rest, blocks, done⟩ :: outer, l⟩ halt
        (⟨place, passed, line :: rest, blocks, done⟩ :: outer)
  | tooDeep {place passed line rest blocks done outer l path target n halt} :
      Move.ofLine s (chainOf outer ++ [place.text]) place blocks line = .fetch path target →
      l.cache.get? target.text = none → limit = some n → n ≤ outer.length →
      Flatten.depthHalt s.limits path = halt →
      HaltArises s limit ⟨.scan, ⟨place, passed, line :: rest, blocks, done⟩ :: outer, l⟩ halt
        (⟨place, passed, line :: rest, blocks, done⟩ :: outer)
  | unclosed {place passed blocks done outer l cause} : blocks.finish = .error cause →
      HaltArises s limit ⟨.scan, ⟨place, passed, [], blocks, done⟩ :: outer, l⟩
        (.failed ((Failure.ofCause cause).report place.text
          (some (passed.length, passed.getLast?.getD [])))) outer

/-- **A halt that a step hands on** arises in it, or it is on its way out: a refusal as it is, a failure with one
more report. -/
theorem Step.halt_cases {halt : Halt} {frames : List Frame} {l : Ledger}
    (h : Step s limit σ ⟨.deliver (.error halt), frames, l⟩) (hσ : ChainInv limit σ) :
    HaltArises s limit σ halt frames ∨
      (∃ refusal, halt = .refused refusal ∧ σ.phase = .deliver (.error (.refused refusal))) ∨
      ∃ failure path line, halt = .failed (failure.report path line) ∧
        σ.phase = .deliver (.error (.failed failure)) := by
  cases h with
  | refuse hread =>
    obtain ⟨cause, hcause, rfl, -⟩ := Flatten.readText_error hread
    exact .inl (.unread hcause)
  | settle hm => exact .inl (.line hm)
  | tooDeep hm hcache hn hle => exact .inl (.tooDeep hm hcache hn hle rfl)
  | unclosed hfinish => exact .inl (.unclosed hfinish)
  | giveUp => exact .inr (.inl ⟨_, rfl, rfl⟩)
  | fail => exact .inr (.inr ⟨_, _, _, rfl, rfl⟩)
  | conflict hfinish hstore => cases (hσ.store_eq _).symm.trans hstore

end

/-! ## Links between open files -/

/-- The file has been read, and the open blocks are those behind the lines that have been passed. -/
def Frame.Opened (s : Setting) (f : Frame) : Prop :=
  ∃ text, Flatten.sourceAt s f.place = .ok text ∧ Text.lines text = f.passed ++ f.rest ∧
    Flatten.blocksAfter s.bindings.conditions f.passed = some f.blocks

/-- The next line of the file is a visible import of `target`. -/
def Frame.Awaits (s : Setting) (f : Frame) (target : Place) : Prop :=
  ∃ line rest path, f.rest = line :: rest ∧ Imports s f.place f.blocks line path target

/-- Who asks for a file: the innermost open file, or the request if none is open. -/
def Asked (s : Setting) (root : Place) : List Frame → Place → Prop
  | [], target => target = root
  | f :: _, target => f.Awaits s target

/-- Every file of the stack is opened and has been asked for by the rest of the stack. -/
def Stacked (s : Setting) (root : Place) : List Frame → Prop
  | [] => True
  | f :: outer => f.Opened s ∧ Asked s root outer f.place ∧ Stacked s root outer

/-- The stack is linked, a file that is entered has been asked for, and a text is handed to a line that
leaves the blocks as they are. -/
structure Linked (s : Setting) (root : Place) (σ : State) : Prop where
  stack : Stacked s root σ.frames
  entered : ∀ target, σ.phase = .enter target → Asked s root σ.frames target
  delivered : ∀ text f outer, σ.phase = .deliver (.ok text) → σ.frames = f :: outer →
    ∃ line rest, f.rest = line :: rest ∧
      Flatten.passBlocks s.bindings.conditions f.blocks line = some f.blocks

section
variable {s : Setting} {limit : Option Nat} {root : Place} {σ τ : State}

theorem Frame.Opened.pass {place : Place} {passed rest done done' : List Text} {line : Text}
    {blocks blocks' : OpenBlocks} (h : Frame.Opened s ⟨place, passed, line :: rest, blocks, done⟩)
    (hpass : Flatten.passBlocks s.bindings.conditions blocks line = some blocks') :
    Frame.Opened s ⟨place, passed ++ [line], rest, blocks', done'⟩ := by
  obtain ⟨text, htext, hlines, hblocks⟩ := h
  refine ⟨text, htext, ?_, ?_⟩
  · rw [hlines]
    simp
  · rw [Flatten.blocksAfter_snoc hblocks, hpass]

theorem Linked.of_error {halt : Halt} {frames : List Frame} {l : Ledger} (h : Stacked s root frames) :
    Linked s root ⟨.deliver (.error halt), frames, l⟩ where
  stack := h
  entered := by simp
  delivered := by simp

theorem Linked.of_text {text : Text} {frames : List Frame} {l : Ledger} (h : Stacked s root frames)
    (hpass : ∀ f outer, frames = f :: outer → ∃ line rest, f.rest = line :: rest ∧
      Flatten.passBlocks s.bindings.conditions f.blocks line = some f.blocks) :
    Linked s root ⟨.deliver (.ok text), frames, l⟩ where
  stack := h
  entered := by simp
  delivered := fun _ f outer _ hframes => hpass f outer hframes

theorem Linked.of_scan {frames : List Frame} {l : Ledger} (h : Stacked s root frames) :
    Linked s root ⟨.scan, frames, l⟩ where
  stack := h
  entered := by simp
  delivered := by simp

theorem Step.linked (h : Step s limit σ τ) (hσ : Linked s root σ) : Linked s root τ := by
  cases h with
  | refuse hread => exact .of_error hσ.stack
  | begin hread =>
    obtain ⟨hsource, -⟩ := Flatten.readText_ok hread
    exact .of_scan ⟨⟨_, hsource, rfl, rfl⟩, hσ.entered _ rfl, hσ.stack⟩
  | turn hm =>
    obtain ⟨hopened, hrest⟩ := hσ.stack
    exact .of_scan ⟨hopened.pass (Move.passBlocks_of_turn hm), hrest⟩
  | @settle place passed line rest blocks done outer l result hm =>
    cases result with
    | error halt => exact .of_error hσ.stack
    | ok text =>
      refine .of_text hσ.stack fun f outer hframes => ?_
      cases hframes
      exact ⟨line, rest, rfl, Move.passBlocks_of_text hm⟩
  | @reuse place passed line rest blocks done outer l path target text hm hcache =>
    refine .of_text hσ.stack fun f outer hframes => ?_
    cases hframes
    exact ⟨line, rest, rfl, (Move.ofLine_eq_fetch.mp hm).1.passBlocks _⟩
  | descend hm hcache hroom =>
    refine ⟨hσ.stack, fun target htarget => ?_, by simp⟩
    cases htarget
    exact ⟨_, _, _, rfl, (Move.ofLine_eq_fetch.mp hm).1⟩
  | tooDeep hm hcache hn hle => exact .of_error hσ.stack
  | emit =>
    obtain ⟨hopened, hrest⟩ := hσ.stack
    obtain ⟨line, rest, hline, hpass⟩ := hσ.delivered _ _ _ rfl rfl
    cases hline
    exact .of_scan ⟨hopened.pass hpass, hrest⟩
  | fail => exact .of_error hσ.stack.2.2
  | giveUp => exact .of_error hσ.stack.2.2
  | unclosed hfinish => exact .of_error hσ.stack.2.2
  | conflict hfinish hstore => exact .of_error hσ.stack.2.2
  | close hfinish hstore =>
    refine .of_text hσ.stack.2.2 fun f outer hframes => ?_
    -- the file below waits at its import of the file that is closed
    have hasked := hσ.stack.2.1
    subst hframes
    obtain ⟨line, rest, path, hline, himports⟩ := hasked
    exact ⟨line, rest, hline, himports.passBlocks _⟩

end

/-! ## Calls -/

/-- The moment at which a call enters the file that it asks for. -/
def State.start (place : Place) (cache : Table Text) : State := ⟨.enter place, [], .ofCache cache⟩

theorem ChainInv.start {place : Place} {cache : Table Text} (limit : Option Nat)
    (h : cache.get? place.text = none) : ChainInv limit (.start place cache) where
  nodup := by simp [State.start]
  uncached := by simpa [State.start] using h
  length_le := by simp [State.start]

theorem Linked.start (s : Setting) (place : Place) (cache : Table Text) :
    Linked s place (.start place cache) where
  stack := trivial
  entered := by simp [State.start, Asked]
  delivered := by simp [State.start]

/-- What a call keeps that enters a file which is not cached. -/
structure RunInv (s : Setting) (limit : Option Nat) (root : Place) (σ : State) : Prop where
  chain : ChainInv limit σ
  linked : Linked s root σ

section
variable {s : Setting} {limit : Option Nat} {root : Place} {σ τ : State}

theorem Step.runInv (h : Step s limit σ τ) (hσ : RunInv s limit root σ) : RunInv s limit root τ where
  chain := h.chainInv hσ.chain
  linked := h.linked hσ.linked

theorem RunInv.start {cache : Table Text} (hroot : cache.get? root.text = none) :
    RunInv s limit root (.start root cache) where
  chain := .start limit hroot
  linked := .start s root cache

theorem Run.runInv {cache : Table Text} (h : Run s limit (.start root cache) σ)
    (hroot : cache.get? root.text = none) : RunInv s limit root σ :=
  h.preserves (fun _ _ hstep hσ => hstep.runInv hσ) (.start hroot)

/-- What a call has at its start and keeps with every step, it has at every moment. -/
theorem Run.keeps {P : State → Prop} {cache : Table Text} (h : Run s limit (.start root cache) σ)
    (hroot : cache.get? root.text = none) (hstart : P (.start root cache))
    (hkeep : ∀ σ τ, Step s limit σ τ → RunInv s limit root σ → P σ → P τ) : P σ := by
  induction h with
  | refl => exact hstart
  | tail hrun hstep ih => exact hkeep _ _ hstep (Run.runInv hrun hroot) ih

end

theorem Engine.process_engine (engine : Engine) (disk : Disk) (bindings : Bindings) (request : String) :
    (engine.process disk bindings request).2 =
      { engine with cache := (engine.process disk bindings request).1.2.cache } := rfl

/-- A call that enters a file is the flattening of that file. -/
theorem Engine.process_file {engine : Engine} {disk : Disk} {bindings : Bindings} {request : String}
    {place : Place} (hplace : disk.canonical? request = .ok place)
    (hcache : engine.cache.get? place.text = none) :
    (engine.process disk bindings request).1 = Flatten.file (engine.setting disk bindings)
      engine.limits.levels [] place (.ofCache engine.cache) := by
  simp [process, Flatten.request, setting, hplace, hcache]

/-- A call that enters a file is a run until no file is open. -/
theorem Engine.process_run {engine : Engine} {disk : Disk} {request : String} {place : Place}
    (bindings : Bindings) (hplace : disk.canonical? request = .ok place)
    (hcache : engine.cache.get? place.text = none) :
    Run (engine.setting disk bindings) (some engine.limits.levels) (.start place engine.cache)
      ⟨.deliver (engine.process disk bindings request).1.1, [],
        (engine.process disk bindings request).1.2⟩ := by
  rw [process_file hplace hcache]
  exact run_file engine.limits.levels place [] (.ofCache engine.cache)

/-- **What a run of the machine ends in is the outcome of the call.** -/
theorem Engine.process_of_run {engine : Engine} {disk : Disk} {bindings : Bindings} {request : String}
    {place : Place} {result : Except Halt Text} {l : Ledger} (hplace : disk.canonical? request = .ok place)
    (hcache : engine.cache.get? place.text = none)
    (hrun : Run (engine.setting disk bindings) (some engine.limits.levels) (.start place engine.cache)
      ⟨.deliver result, [], l⟩) :
    (engine.process disk bindings request).1 = (result, l) :=
  Run.end_unique (process_run bindings hplace hcache) hrun

/-- A moment of a call.  Calls that the cache answers and calls whose path leads nowhere have none. -/
def Engine.Moment (engine : Engine) (disk : Disk) (bindings : Bindings) (request : String)
    (σ : State) : Prop :=
  ∃ place, disk.canonical? request = .ok place ∧ engine.cache.get? place.text = none ∧
    Run (engine.setting disk bindings) (some engine.limits.levels) (.start place engine.cache) σ

/-- **The four ways of a call**: its path cannot be named, its path leads nowhere, the cache answers it,
or it enters the file that it asks for and runs until no file is open. -/
theorem Engine.process_cases (engine : Engine) (disk : Disk) (bindings : Bindings) (request : String) :
    (disk.canonical? request = .error .unnameable ∧
      (engine.process disk bindings request).1 = (.error (.refused .unnameable), .ofCache engine.cache)) ∨
    (∃ fault, disk.canonical? request = .error fault ∧ fault ≠ .unnameable ∧
      (engine.process disk bindings request).1 =
        Flatten.failFile (.ofCache engine.cache) (.unresolvedPath request fault) request) ∨
    (∃ place text, disk.canonical? request = .ok place ∧ engine.cache.get? place.text = some text ∧
      (engine.process disk bindings request).1 = (.ok text, (Ledger.ofCache engine.cache).note
        ⟨.debug, logSource.run, "Serving " ++ place.text ++ " from cache"⟩)) ∨
    (∃ place, disk.canonical? request = .ok place ∧ engine.cache.get? place.text = none ∧
      Run (engine.setting disk bindings) (some engine.limits.levels) (.start place engine.cache)
        ⟨.deliver (engine.process disk bindings request).1.1, [],
          (engine.process disk bindings request).1.2⟩) := by
  have hprocess : (engine.process disk bindings request).1 =
      Flatten.request (engine.setting disk bindings) request (.ofCache engine.cache) := rfl
  have hdisk : (engine.setting disk bindings).disk = disk := rfl
  cases hplace : disk.canonical? request with
  | error fault =>
    rw [hprocess, Flatten.request, hdisk, hplace]
    by_cases hf : fault = .unnameable
    · subst hf
      exact .inl ⟨rfl, rfl⟩
    · refine .inr (.inl ⟨fault, rfl, hf, ?_⟩)
      cases fault with
      | unnameable => exact absurd rfl hf
      | _ => rfl
  | ok place =>
    cases hcache : engine.cache.get? place.text with
    | some text =>
      refine .inr (.inr (.inl ⟨place, text, rfl, hcache, ?_⟩))
      rw [hprocess, Flatten.request, hdisk, hplace]
      simp only [Ledger.cache_ofCache, hcache]
    | none => exact .inr (.inr (.inr ⟨place, rfl, hcache, process_run bindings hplace hcache⟩))

/-- A call that comes to no text has not been able to name its file or to find it, or it is a run. -/
theorem Engine.process_error {engine : Engine} {disk : Disk} {bindings : Bindings} {request : String}
    {halt : Halt} (h : (engine.process disk bindings request).1.1 = .error halt) :
    halt = .refused .unnameable ∨
    (∃ fault, halt = .failed ((Failure.ofCause (.unresolvedPath request fault)).report request none)) ∨
    ∃ place, disk.canonical? request = .ok place ∧ engine.cache.get? place.text = none ∧
      Run (engine.setting disk bindings) (some engine.limits.levels) (.start place engine.cache)
        ⟨.deliver (.error halt), [], (engine.process disk bindings request).1.2⟩ := by
  rcases engine.process_cases disk bindings request with ⟨-, hcase⟩ | ⟨fault, -, -, hcase⟩ |
    ⟨place, text, -, -, hcase⟩ | ⟨place, hplace, hcache, hrun⟩
  · rw [hcase] at h
    cases h
    exact .inl rfl
  · rw [hcase] at h
    cases h
    exact .inr (.inl ⟨fault, rfl⟩)
  · rw [hcase] at h
    cases h
  · rw [h] at hrun
    exact .inr (.inr ⟨place, hplace, hcache, hrun⟩)

/-! ## The machine on a disk with two files -/

/-- One level of imports, and no other limit. -/
def Limits.oneLevel : Limits := { importDepth := .levels 1, fileBytes := none, lineLength := none }

/-- The line by which a shader imports the other file. -/
def importLine : Text := "#import \"b.wgsl\"".toList

theorem lines_importLine : Text.lines importLine = [importLine] := by decide

section
variable {s : Setting} {shader part : ByteArray} {text : Text}

theorem readText_pair_shader (hdisk : s.disk = .pair (Utf8.ascii text) part) (hlimit : s.readLimit = none)
    (hascii : (text.all fun c => c.toNat < 128) = true) (l : Ledger) :
    Flatten.readText s ["a"] l = (.ok text, Flatten.askedFor s ["a"] l) := by
  have hread : s.disk.readBytes (Place.path ["a"]) = .ok (Utf8.ascii text) := by
    rw [hdisk, Disk.readBytes_pair_shader]
  rw [Flatten.readText_eq, Flatten.sourceAt_ascii hlimit hread hascii]

theorem readText_pair_part (hdisk : s.disk = .pair shader (Utf8.ascii text)) (hlimit : s.readLimit = none)
    (hascii : (text.all fun c => c.toNat < 128) = true) (l : Ledger) :
    Flatten.readText s ["b.wgsl"] l = (.ok text, Flatten.askedFor s ["b.wgsl"] l) := by
  have hread : s.disk.readBytes (Place.path ["b.wgsl"]) = .ok (Utf8.ascii text) := by
    rw [hdisk, Disk.readBytes_pair_part]
  rw [Flatten.readText_eq, Flatten.sourceAt_ascii hlimit hread hascii]

theorem ofLine_pair_import {chain : List String} (hdisk : s.disk = .pair shader part)
    (hclosed : "/b.wgsl" ∉ chain) :
    Move.ofLine s chain ["a"] .none importLine = .fetch "b.wgsl".toList ["b.wgsl"] := by
  have hrequest : Flatten.importRequest ["a"] "b.wgsl".toList = "/b.wgsl" := by decide
  refine Move.ofLine_eq_fetch.mpr ⟨⟨by decide, by decide, by rfl, ?_⟩, hclosed⟩
  rw [hdisk, hrequest]
  exact Disk.canonical?_pair_part _ _

end

end ShaderFlatten
