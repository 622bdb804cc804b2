import ShaderFlatten.Engine.Flatten

/-!
# Failures

A failure is made from a cause and then only reported: its kind and its message stay, its first report
gives it its location, and every report adds a diagnostic to its trace.  The origin of a cause tells
whether a request, a file, a line, the end of a file or the cache gave it.

What a line gives by itself (`Halt.OfLine`) never comes from the depth of the imports (`Halt.OfDepth`):
that takes a file that the line asks for.
-/

namespace ShaderFlatten

/-! ## Reports -/

namespace Failure

section
variable (f : Failure) (path : String) (line : Option NumberedLine)

@[simp] theorem kind_report : (f.report path line).kind = f.kind := by
  unfold report locate
  split <;> rfl

@[simp] theorem message_report : (f.report path line).message = f.message := by
  unfold report locate
  split <;> rfl

@[simp] theorem trace_report : (f.report path line).trace = f.trace ++ [f.diagnostic path line] := by
  unfold report locate
  split <;> rfl

@[simp] theorem path_report : (f.report path line).path = some (f.path.getD path) := by
  unfold report locate
  split
  · next hpath => rw [hpath, Option.getD_some]
  · next hpath => rw [hpath, Option.getD_none]

@[simp] theorem path_diagnostic : (f.diagnostic path line).path = path := rfl

end

@[simp] theorem kind_ofCause (cause : Cause) : (ofCause cause).kind = cause.kind := rfl
@[simp] theorem trace_ofCause (cause : Cause) : (ofCause cause).trace = [] := rfl

end Failure

/-! ## Origins -/

/-- What a cause concerns. -/
inductive Origin where
  /-- the path of a request -/
  | request
  /-- a file that cannot be read or decoded -/
  | file
  | line
  /-- the end of a file -/
  | finish
  | cache
  deriving DecidableEq

/-- Where a cause arises. -/
def Cause.origin : Cause → Origin
  | .unresolvedPath .. => .request
  | .tooLarge .. | .unreadable .. | .notUtf8 .. => .file
  | .unclosedBlocks .. => .finish
  | .cacheConflict .. => .cache
  | _ => .line

theorem Cause.kind_ne_of_origin {cause : Cause} (hrequest : cause.origin ≠ .request)
    (hcache : cause.origin ≠ .cache) : cause.kind ≠ .invalidPath ∧ cause.kind ≠ .cacheConflict := by
  cases cause with
  | unresolvedPath => exact absurd rfl hrequest
  | cacheConflict => exact absurd rfl hcache
  | _ => simp [Cause.kind]

/-- A directive that fails does so for a cause of its own, which is not the depth of imports. -/
theorem turnBlocks_origin {conditions : Table Value} {blocks : OpenBlocks} {line : Text} {cause : Cause}
    (h : Flatten.turnBlocks conditions blocks line = some (.error cause)) :
    cause.origin = .line ∧ cause.kind ≠ .importDepth := by
  unfold Flatten.turnBlocks at h
  split at h
  · simp only [Option.some.injEq] at h
    split at h
    · cases h
      exact ⟨rfl, by simp [Cause.kind]⟩
    · unfold OpenBlocks.openIf at h
      split at h <;> cases h
      exact ⟨rfl, by simp [Cause.kind]⟩
  · simp only [Option.some.injEq] at h
    split at h
    · cases h
      exact ⟨rfl, by simp [Cause.kind]⟩
    · unfold OpenBlocks.flip at h
      split at h <;> cases h
      exact ⟨rfl, by simp [Cause.kind]⟩
  · simp only [Option.some.injEq] at h
    split at h
    · cases h
      exact ⟨rfl, by simp [Cause.kind]⟩
    · unfold OpenBlocks.close at h
      split at h <;> cases h
      exact ⟨rfl, by simp [Cause.kind]⟩
  · cases h
  · cases h

/-- A halt that a line gives by itself: a failure that has not been reported, or a refusal that has nothing
to do with the depth of imports. -/
def Halt.OfLine : Halt → Prop
  | .failed failure => ∃ cause, failure = .ofCause cause ∧ cause.origin = .line
  | .refused refusal => ∀ found, refusal ≠ .depth found

/-- A halt that comes from the depth of the imports: it is exhausted, or it is no number. -/
def Halt.OfDepth : Halt → Prop
  | .failed failure => failure.kind = .importDepth
  | .refused (.depth _) => True
  | .refused _ => False

theorem Halt.ofDepth_depthHalt (limits : Limits) (path : Text) :
    (Flatten.depthHalt limits path).OfDepth := by
  unfold Flatten.depthHalt
  split
  · rfl
  · trivial
  · trivial

theorem Halt.ofLine_ofCause {cause : Cause} (horigin : cause.origin = .line)
    (hkind : cause.kind ≠ .importDepth) : (Halt.ofCause cause).OfLine ∧ ¬ (Halt.ofCause cause).OfDepth :=
  ⟨⟨cause, rfl, horigin⟩, hkind⟩

theorem Halt.ofLine_refused {refusal : Refusal} (h : ∀ found, refusal ≠ .depth found) :
    (Halt.refused refusal).OfLine ∧ ¬ (Halt.refused refusal).OfDepth := by
  refine ⟨h, ?_⟩
  cases refusal with
  | depth found => exact absurd rfl (h found)
  | digits limit => exact id
  | unnameable => exact id

theorem render_ofLine {value : Value} {halt : Halt} (h : value.render = .error halt) :
    halt.OfLine ∧ ¬ halt.OfDepth := by
  unfold Value.render at h
  split at h
  · cases h
  · split at h <;> cases h
    exact Halt.ofLine_refused (by simp)
  · cases h
  · cases h
  · cases h
    exact Halt.ofLine_ofCause rfl (by simp [Cause.kind])

theorem substitute_ofLine {line : Text} {constants : Table Value} {limit : Option Int} {halt : Halt}
    (h : Line.substitute line constants limit = .error halt) : halt.OfLine ∧ ¬ halt.OfDepth := by
  unfold Line.substitute at h
  split at h
  · cases h
    exact Halt.ofLine_ofCause rfl (by simp [Cause.kind])
  · cases h
  · split at h
    · cases h
      exact Halt.ofLine_ofCause rfl (by simp [Cause.kind])
    · split at h
      · next hr =>
        cases h
        exact render_ofLine hr
      · simp only at h
        split at h
        · cases h
          exact Halt.ofLine_ofCause rfl (by simp [Cause.kind])
        · cases h

theorem depthHalt_levels {limits : Limits} {n : Int} (h : limits.importDepth = .levels n) (path : Text) :
    Flatten.depthHalt limits path = .ofCause (.importTooDeep path (limits.depthInForce n)) := by
  rw [Flatten.depthHalt, h]

theorem depthHalt_refused {limits : Limits} {path : Text} {refusal : Refusal}
    (h : Flatten.depthHalt limits path = .refused refusal) :
    refusal = .depth limits.importDepth ∧ ∀ n, limits.importDepth ≠ .levels n := by
  unfold Flatten.depthHalt at h
  split at h
  · cases h
  · next hdepth =>
    cases h
    exact ⟨rfl, by simp [hdepth]⟩
  · next hdepth =>
    cases h
    exact ⟨rfl, by simp [hdepth]⟩

theorem depthHalt_origin {limits : Limits} {path : Text} {failure : Failure}
    (h : Flatten.depthHalt limits path = .failed failure) :
    ∃ cause, failure = .ofCause cause ∧ cause.origin = .line := by
  unfold Flatten.depthHalt at h
  split at h
  · cases h
    exact ⟨_, rfl, rfl⟩
  · cases h
  · cases h

theorem finish_origin {blocks : OpenBlocks} {cause : Cause} (h : blocks.finish = .error cause) :
    cause.origin = .finish := by
  unfold OpenBlocks.finish at h
  split at h <;> cases h
  rfl

end ShaderFlatten
