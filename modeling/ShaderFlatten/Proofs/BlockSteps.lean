import Mathlib.Data.List.Infix
import ShaderFlatten.Directive.Block

/-!
# Steps on the blocks of a file

The open blocks of a file are one stack that is changed in place, so a step that failed half way would leave it
spoilt.  Every step checks first and pops and pushes afterwards; a step that fails has changed nothing, and any
steps leave the stack that the successful ones among them leave:

    step.run b = (.error cause, b') → b' = b

The successful steps from an `#if` to the `#endif` that matches it are a frame.  Whatever they do in between,
the truths of the blocks around them stay below, so that they are all there is at the end:

    s  →  t :: s  →  t₁ :: t :: s  →  ...  →  t' :: s  →  s
-/

namespace ShaderFlatten

/-! ## Steps in place -/

/-- An action that changes the open blocks in place.  What it throws does not undo what it has done. -/
abbrev InPlace := ExceptT Cause (StateM OpenBlocks)

namespace InPlace

/-- Put a truth on the stack. -/
def push (truth : Bool) : InPlace Unit := modify fun b => ⟨truth :: b.truths⟩

/-- Take the innermost truth off the stack, which must not be empty. -/
def pop : InPlace Bool := modifyGet fun b => (b.truths.headD false, ⟨b.truths.tail⟩)

/-- Throw a cause if no block is open. -/
def demandOpen (cause : Cause) : InPlace Unit := do
  if (← get).truths.isEmpty then throw cause

end InPlace

/-- What may happen to the blocks of a file. -/
inductive BlockStep where
  | openIf (name : Text) (conditions : Table Value)
  | flip
  | close
  | finish

namespace BlockStep

/-- Carry out a step on the stack. -/
def perform : BlockStep → InPlace Unit
  | openIf name conditions =>
    match conditions.get? (String.ofList name) with
    | none => throw (.unknownCondition name)
    | some value => InPlace.push value.isTrue
  | flip => do
    InPlace.demandOpen .strayElse
    let truth ← InPlace.pop
    InPlace.push !truth
  | close => do
    InPlace.demandOpen .strayEndif
    let _ ← InPlace.pop
  | finish => do
    let b ← get
    if !b.truths.isEmpty then throw (.unclosedBlocks b.depth)

/-- What a step comes to, and the stack that it leaves. -/
def run (step : BlockStep) (b : OpenBlocks) : Except Cause Unit × OpenBlocks := step.perform.run.run b

/-- The blocks behind a step, or why there are none. -/
def result (step : BlockStep) (b : OpenBlocks) : Except Cause OpenBlocks :=
  match step with
  | openIf name conditions => b.openIf name conditions
  | flip => b.flip
  | close => b.close
  | finish => b.finish.map fun () => b

/-- **A step in place leaves the blocks of its result**, and the ones that it found if it has none. -/
theorem run_eq (step : BlockStep) (b : OpenBlocks) :
    step.run b = match step.result b with
      | .ok b' => (.ok (), b')
      | .error cause => (.error cause, b) := by
  obtain ⟨truths⟩ := b
  cases step with
  | openIf name conditions =>
    simp only [run, perform, result, OpenBlocks.openIf]
    cases conditions.get? (String.ofList name) <;> rfl
  | flip => cases truths <;> rfl
  | close => cases truths <;> rfl
  | finish => cases truths <;> rfl

variable {step : BlockStep} {b b' : OpenBlocks}

theorem run_eq_ok : step.run b = (.ok (), b') ↔ step.result b = .ok b' := by
  rw [run_eq]
  cases step.result b <;> simp

/-- A step that fails leaves the stack as it was. -/
theorem run_of_error {cause : Cause} (h : step.run b = (.error cause, b')) : b' = b := by
  rw [run_eq] at h
  cases hresult : step.result b <;> simp_all

/-! ## Steps in a row -/

/-- The steps that succeed when some are carried out in a row, whatever the others come to. -/
def succeeding : OpenBlocks → List BlockStep → List BlockStep
  | _, [] => []
  | b, step :: rest =>
    match step.run b with
    | (.ok (), b') => step :: succeeding b' rest
    | (.error _, b') => succeeding b' rest

/-- The stack behind some steps in a row, whatever they come to. -/
def behind (b : OpenBlocks) (steps : List BlockStep) : OpenBlocks :=
  steps.foldl (fun b step => (step.run b).2) b

/-- All of some steps succeed, one after the other. -/
inductive Succeed : OpenBlocks → List BlockStep → OpenBlocks → Prop
  | nil {b : OpenBlocks} : Succeed b [] b
  | cons {b b' t : OpenBlocks} {step : BlockStep} {rest : List BlockStep} (hstep : step.run b = (.ok (), b'))
      (hrest : Succeed b' rest t) : Succeed b (step :: rest) t

/-- The steps that open a block. -/
def isOpening : BlockStep → Bool
  | openIf _ _ => true
  | _ => false

/-- The steps that close a block. -/
def isClosing : BlockStep → Bool
  | close => true
  | _ => false

/-- **Failing steps do not matter**: the stack behind some steps is the one behind those that succeed. -/
theorem succeed_succeeding (b : OpenBlocks) (steps : List BlockStep) :
    Succeed b (succeeding b steps) (behind b steps) := by
  induction steps generalizing b with
  | nil => exact .nil
  | cons step rest ih =>
    rw [succeeding, behind, List.foldl_cons]
    split
    · next b' hstep =>
      rw [hstep]
      exact .cons hstep (ih b')
    · next cause b' hstep =>
      rw [hstep, run_of_error hstep]
      exact ih b

/-- A step that succeeds opens one block, closes one, or leaves their number. -/
theorem depth_of_run (h : step.run b = (.ok (), b')) :
    b'.depth + [step].countP isClosing = b.depth + [step].countP isOpening := by
  rw [run_eq_ok] at h
  obtain ⟨truths⟩ := b
  cases step with
  | openIf name conditions =>
    simp only [result, OpenBlocks.openIf] at h
    split at h <;> cases h
    rfl
  | flip => cases truths <;> cases h; rfl
  | close => cases truths <;> cases h; rfl
  | finish => cases truths <;> cases h; rfl

theorem Succeed.depth {t : OpenBlocks} {steps : List BlockStep} (h : Succeed b steps t) :
    t.depth + steps.countP isClosing = b.depth + steps.countP isOpening := by
  induction h with
  | nil => rfl
  | cons hstep hrest ih =>
    have hone := depth_of_run hstep
    rw [List.countP_cons, List.countP_cons]
    simp only [List.countP_singleton] at hone
    omega

/-- Successful steps lead to the stack behind them. -/
theorem Succeed.behind_eq {t : OpenBlocks} {steps : List BlockStep} (h : Succeed b steps t) :
    behind b steps = t := by
  induction h with
  | nil => rfl
  | cons hstep hrest ih => rwa [behind, List.foldl_cons, hstep]

theorem behind_append (b : OpenBlocks) (front back : List BlockStep) :
    behind b (front ++ back) = behind (behind b front) back := List.foldl_append ..

/-! ## Nested blocks -/

/-- All blocks of `s` are open in `m`, with one more inside them at least. -/
def Holds (s m : OpenBlocks) : Prop := ∃ truth inner, m.truths = truth :: inner ++ s.truths

variable {s m : OpenBlocks}

theorem Holds.visible (h : Holds s m) (hvisible : m.visible = true) : s.visible = true := by
  obtain ⟨truth, inner, hm⟩ := h
  rw [OpenBlocks.visible, hm, List.all_append, Bool.and_eq_true] at hvisible
  exact hvisible.2

/-- Opening a block holds what is open. -/
theorem holds_openIf {name : Text} {conditions : Table Value}
    (hdepth : s.depth < ((openIf name conditions).run s).2.depth) :
    Holds s ((openIf name conditions).run s).2 := by
  rw [run_eq] at hdepth ⊢
  simp only [result, OpenBlocks.openIf] at hdepth ⊢
  cases hget : conditions.get? (String.ofList name) with
  | none =>
    rw [hget] at hdepth
    exact absurd hdepth (Nat.lt_irrefl _)
  | some value => exact ⟨value.isTrue, [], rfl⟩

/-- A step that does not go below the blocks of `s` leaves them alone, whether it succeeds or not. -/
theorem Holds.run (h : Holds s m) (hdepth : s.depth < (step.run m).2.depth) : Holds s (step.run m).2 := by
  obtain ⟨truth, inner, hm⟩ := h
  obtain ⟨truths⟩ := m
  cases hm
  rw [run_eq] at hdepth ⊢
  cases step with
  | openIf name conditions =>
    simp only [result, OpenBlocks.openIf]
    cases conditions.get? (String.ofList name) with
    | none => exact ⟨truth, inner, rfl⟩
    | some value => exact ⟨value.isTrue, truth :: inner, rfl⟩
  | flip => exact ⟨!truth, inner, rfl⟩
  | close =>
    cases inner with
    | nil => exact absurd hdepth (Nat.lt_irrefl _)
    | cons below inner => exact ⟨below, inner, rfl⟩
  | finish => exact ⟨truth, inner, rfl⟩

/-- The step that goes back to the number of blocks of `s` goes back to `s`. -/
theorem Holds.close (h : Holds s m) (hdepth : (BlockStep.close.run m).2.depth = s.depth) :
    (BlockStep.close.run m).2 = s := by
  obtain ⟨truth, inner, hm⟩ := h
  obtain ⟨truths⟩ := m
  cases hm
  cases inner with
  | nil => rfl
  | cons below inner =>
    have hlength : inner.length + s.truths.length + 1 = s.truths.length := by
      simpa [run_eq, result, OpenBlocks.close, OpenBlocks.depth] using hdepth
    omega

/-- Steps that never go below the blocks of `s` leave them alone. -/
theorem Holds.behind {steps : List BlockStep} (h : Holds s m)
    (hdepth : ∀ passed, passed <+: steps → s.depth < (behind m passed).depth) : Holds s (behind m steps) := by
  induction steps generalizing m with
  | nil => exact h
  | cons step rest ih =>
    have hone : s.depth < (step.run m).2.depth := hdepth [step] (by simp)
    exact ih (h.run hone) fun passed hpassed => hdepth (step :: passed) (by simpa using hpassed)

end BlockStep

/-- **Steps are atomic, and nested blocks are frames.**  A step that is carried out in place leaves the blocks
of its result, or fails with the cause of its result and leaves the blocks as they were.  Whatever steps come
in a row, those that succeed there also succeed alone and leave the same blocks; there are as many more open
blocks than before as of these steps opened one, less as many as closed one.  Let steps begin by opening a
block in `s`, end with a close, and keep more blocks open than `s` has in between, until the close brings it
back to as many.  Then they leave `s`, and in between a line is visible only if it would be in `s`. -/
theorem blocks_are_frames :
    (∀ (step : BlockStep) (b b' : OpenBlocks),
      (step.run b = (.ok (), b') ↔ step.result b = .ok b') ∧
      ∀ cause, step.run b = (.error cause, b') ↔ step.result b = .error cause ∧ b' = b) ∧
    (∀ (b : OpenBlocks) (steps : List BlockStep),
      BlockStep.Succeed b (BlockStep.succeeding b steps) (BlockStep.behind b steps) ∧
      BlockStep.behind b (BlockStep.succeeding b steps) = BlockStep.behind b steps ∧
      (BlockStep.behind b steps).depth + (BlockStep.succeeding b steps).countP BlockStep.isClosing =
        b.depth + (BlockStep.succeeding b steps).countP BlockStep.isOpening) ∧
    ∀ (s : OpenBlocks) (name : Text) (conditions : Table Value) (inner : List BlockStep),
      (∀ passed, passed <+: inner →
        s.depth < (BlockStep.behind s (.openIf name conditions :: passed)).depth) →
      (BlockStep.behind s (.openIf name conditions :: inner ++ [.close])).depth = s.depth →
      BlockStep.behind s (.openIf name conditions :: inner ++ [.close]) = s ∧
      ∀ passed, passed <+: inner →
        (BlockStep.behind s (.openIf name conditions :: passed)).visible = true → s.visible = true := by
  refine ⟨fun step b b' => ⟨BlockStep.run_eq_ok, fun cause => ?_⟩, fun b steps => ?_,
    fun s name conditions inner hinside hback => ?_⟩
  · rw [BlockStep.run_eq]
    cases step.result b with
    | ok b'' => simp
    | error cause' => simp [eq_comm]
  · have hsucceed := BlockStep.succeed_succeeding b steps
    exact ⟨hsucceed, hsucceed.behind_eq, hsucceed.depth⟩
  · have hopen : BlockStep.Holds s ((BlockStep.openIf name conditions).run s).2 :=
      BlockStep.holds_openIf (hinside [] List.nil_prefix)
    have hholds (passed : List BlockStep) (hpassed : passed <+: inner) :
        BlockStep.Holds s (BlockStep.behind s (.openIf name conditions :: passed)) :=
      hopen.behind fun front hfront => hinside front (hfront.trans hpassed)
    refine ⟨?_, fun passed hpassed => (hholds passed hpassed).visible⟩
    rw [List.cons_append, ← List.singleton_append, ← List.append_assoc, BlockStep.behind_append] at hback ⊢
    exact (hholds inner List.prefix_rfl).close hback

/-! A block that is not selected, with another one in its second branch and two steps that fail. -/

/-- Two conditions. -/
def blockConditions : Table Value := [("x", .bool false), ("y", .bool true)]

/-- What happens in a block: its second branch holds a block, a condition without a value, and an end of file. -/
def innerSteps : List BlockStep :=
  [.flip, .openIf ['y'] blockConditions, .openIf ['z'] blockConditions, .flip, .finish, .close]

theorem blocks_are_frames_inner :
    (∀ passed, passed <+: innerSteps →
      1 < (BlockStep.behind ⟨[true]⟩ (.openIf ['x'] blockConditions :: passed)).depth) ∧
    BlockStep.behind ⟨[true]⟩ (.openIf ['x'] blockConditions :: innerSteps ++ [.close]) = ⟨[true]⟩ := by
  have hinside : ∀ passed, passed <+: innerSteps →
      1 < (BlockStep.behind ⟨[true]⟩ (.openIf ['x'] blockConditions :: passed)).depth := by
    have hall : ∀ passed ∈ innerSteps.inits,
        1 < (BlockStep.behind ⟨[true]⟩ (.openIf ['x'] blockConditions :: passed)).depth := by decide
    exact fun passed hpassed => hall passed ((List.mem_inits _ _).mpr hpassed)
  exact ⟨hinside, (blocks_are_frames.2.2 ⟨[true]⟩ ['x'] blockConditions innerSteps hinside (by decide)).1⟩

end ShaderFlatten
