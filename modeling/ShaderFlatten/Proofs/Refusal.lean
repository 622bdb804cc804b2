import ShaderFlatten.Proofs.Nameable
import ShaderFlatten.Proofs.Stack

/-!
# Refused calls

A call is refused, rather than failed, for three reasons: a name that cannot be written, an integer with too
many digits, and a depth of imports that is no number.  On a disk whose own names can be written, with a
depth that is a number, a call that has entered a file can only be refused at a visible line that asks for
an integer with too many digits, and there it is:

    Run s limit σ ⟨deliver (error (refused r)), [], l⟩     from a moment σ at such a line, and only from one

So where neither the disk nor the bindings nor the limits give a reason, only the request can:

    isNameable request → (engine.process disk bindings request).1.1 ≠ .error (.refused refusal)
-/

namespace ShaderFlatten

/-- Every integer among the constants has few enough digits to be written. -/
def Bindings.Writable (bindings : Bindings) : Prop :=
  ∀ name n, bindings.constants.get? name = some (.int n) →
    Binary64.digitCount n.natAbs ≤ Numeral.maxDigits

/-- Nothing in a setting is a reason to refuse. -/
structure Setting.Unrefusing (s : Setting) : Prop where
  disk : s.disk.Nameable
  bindings : s.bindings.Writable
  depth : ∃ n, s.limits.importDepth = .levels n

/-! ## Lines -/

/-- The first placeholder of a line names an integer that has too many digits to be written. -/
def Line.Overlong (constants : Table Value) (line : Text) : Prop :=
  ∃ found n, placeholder? line = .ok (some found) ∧
    constants.get? (String.ofList found.name) = some (.int n) ∧
    Numeral.maxDigits < Binary64.digitCount n.natAbs

theorem Bindings.Writable.not_overlong {bindings : Bindings} (h : bindings.Writable) {line : Text} :
    ¬ Line.Overlong bindings.constants line := by
  rintro ⟨found, n, -, hget, hdigits⟩
  have := h _ n hget
  omega

theorem Value.render_eq_refused {value : Value} {refusal : Refusal} :
    value.render = .error (.refused refusal) ↔
      refusal = .digits .writing ∧ ∃ n, value = .int n ∧ Numeral.maxDigits < Binary64.digitCount n.natAbs := by
  cases value with
  | int n =>
    by_cases h : Numeral.maxDigits < Binary64.digitCount n.natAbs
    · simp [render, intText, h, eq_comm]
    · simp [render, intText, h]
  | _ => simp [render, Halt.ofCause]

/-- **A content line is refused exactly if it asks for an overlong integer.** -/
theorem Line.substitute_eq_refused {line : Text} {constants : Table Value} {limit : Option Int}
    {refusal : Refusal} :
    substitute line constants limit = .error (.refused refusal) ↔
      refusal = .digits .writing ∧ Overlong constants line := by
  unfold substitute Overlong
  cases hplaceholder : placeholder? line with
  | error mismatch => simp [Halt.ofCause]
  | ok found? =>
    cases found? with
    | none => simp
    | some found =>
      cases hget : constants.get? (String.ofList found.name) with
      | none => simp [hget, Halt.ofCause]
      | some value =>
        simp only [hget]
        cases hrender : value.render with
        | error halt =>
          have hiff := @Value.render_eq_refused value refusal
          rw [hrender] at hiff
          simpa [hget] using hiff
        | ok rendered =>
          have hshort : ¬ ∃ n, value = .int n ∧ Numeral.maxDigits < Binary64.digitCount n.natAbs := by
            intro hlong
            rw [Value.render_eq_refused.mpr ⟨rfl, hlong⟩] at hrender
            cases hrender
          simp only
          constructor
          · intro h
            split at h <;> cases h
          · rintro ⟨-, found', n, hfound, hvalue, hdigits⟩
            cases hfound
            rw [hget] at hvalue
            exact absurd ⟨n, Option.some.inj hvalue, hdigits⟩ hshort

theorem Flatten.kind_of_turnBlocks {conditions : Table Value} {blocks : OpenBlocks} {line : Text}
    (h : turnBlocks conditions blocks line = none) :
    Line.kind line = .importLine ∨ Line.kind line = .content := by
  cases hkind : Line.kind line with
  | importLine => exact .inl rfl
  | content => exact .inr rfl
  | _ => simp [turnBlocks, hkind] at h

/-- The request of an import from a place that can be written can be written. -/
theorem Flatten.isNameable_importRequest {place : Place} {line path : Text}
    (hplace : ∀ name ∈ place, isNameable name = true) (hpath : Line.importPath? line = .ok path) :
    isNameable (importRequest place path) = true := by
  have hchars : isNameable (String.ofList path) = true := by
    rw [isNameable_iff, String.toList_ofList]
    exact fun hzero => (Line.importPath?_chars hpath _ hzero).ne_zero rfl
  have hparts : ∀ name ∈ (Path.ofString (String.ofList path)).parts, isNameable name = true :=
    fun name => Path.isNameable_splitNames hchars
  apply Path.isNameable_toString
  unfold Path.join
  split
  · exact List.all_eq_true.mpr hparts
  · refine List.all_eq_true.mpr fun name hname => ?_
    rcases List.mem_append.mp hname with hname | hname
    · exact hplace name (List.dropLast_subset _ hname)
    · exact hparts name hname

section
variable {s : Setting} {limit : Option Nat} {root : Place} {σ τ : State}

theorem Move.ofLine_overlong {chain : List String} {place : Place} {blocks : OpenBlocks} {line : Text}
    (hvisible : blocks.visible = true) (hkind : Line.kind line = .content)
    (hoverlong : Line.Overlong s.bindings.constants line) :
    ofLine s chain place blocks line = .settle (.error (.refused (.digits .writing))) := by
  have hturn : Flatten.turnBlocks s.bindings.conditions blocks line = none := by
    simp [Flatten.turnBlocks, hkind]
  rw [ofLine, hturn]
  simp only [hvisible, hkind, reduceCtorEq, if_true, if_false]
  rw [Line.substitute_eq_refused.mpr ⟨rfl, hoverlong⟩]

/-- On a disk whose names can be written no other line is refused. -/
theorem Move.overlong_of_refused (hdisk : s.disk.Nameable) {chain : List String} {place : Place}
    {blocks : OpenBlocks} {line : Text} {refusal : Refusal}
    (hplace : ∀ name ∈ place, isNameable name = true)
    (h : ofLine s chain place blocks line = .settle (.error (.refused refusal))) :
    refusal = .digits .writing ∧ blocks.visible = true ∧ Line.kind line = .content ∧
      Line.Overlong s.bindings.constants line := by
  unfold ofLine at h
  split at h
  · cases h
  · cases h
  · next hturn =>
    split at h
    · next hvisible =>
      split at h
      · unfold ofImport at h
        split at h
        · cases h
        · next path hpath =>
          have hrequest := Flatten.isNameable_importRequest hplace hpath
          split at h
          · next hrefused => exact absurd hrefused (hdisk.canonical?_ne hrequest)
          · cases h
          · split at h <;> cases h
      · next hkind =>
        simp only [settle.injEq] at h
        obtain ⟨hrefusal, hoverlong⟩ := Line.substitute_eq_refused.mp h
        have hcontent := (Flatten.kind_of_turnBlocks hturn).resolve_left hkind
        exact ⟨hrefusal, hvisible, hcontent, hoverlong⟩
    · cases h

/-! ## Runs -/

/-- A file that has been asked for has a place that can be written. -/
theorem Asked.nameable (hdisk : s.disk.Nameable) (hroot : ∀ name ∈ root, isNameable name = true)
    {frames : List Frame} {target : Place} (h : Asked s root frames target) :
    ∀ name ∈ target, isNameable name = true := by
  cases frames with
  | nil =>
    have heq : target = root := h
    rwa [heq]
  | cons f outer =>
    obtain ⟨line, rest, path, -, himports⟩ := h
    exact hdisk.place himports.resolved

/-- The innermost open file is at a visible line that asks for an overlong integer. -/
def State.Overlong (s : Setting) (σ : State) : Prop :=
  ∃ f outer line rest, σ.phase = .scan ∧ σ.frames = f :: outer ∧ f.rest = line :: rest ∧
    f.blocks.visible = true ∧ Line.kind line = .content ∧ Line.Overlong s.bindings.constants line

theorem Step.refused (hdisk : s.disk.Nameable) (hdepth : ∃ n, s.limits.importDepth = .levels n)
    (hroot : ∀ name ∈ root, isNameable name = true) (h : Step s limit σ τ)
    (hσ : RunInv s limit root σ) {refusal : Refusal}
    (hphase : τ.phase = .deliver (.error (.refused refusal))) :
    σ.phase = .deliver (.error (.refused refusal)) ∨ refusal = .digits .writing ∧ σ.Overlong s := by
  obtain ⟨phase, frames, l⟩ := τ
  cases hphase
  rcases h.halt_cases hσ.chain with harises | ⟨_, hhalt, hbefore⟩ | ⟨failure, path, line, hhalt, -⟩
  · cases harises with
    | line hm =>
      obtain ⟨-, hasked, -⟩ := hσ.linked.stack
      obtain ⟨hrefusal, hvisible, hkind, hoverlong⟩ :=
        Move.overlong_of_refused hdisk (hasked.nameable hdisk hroot) hm
      exact .inr ⟨hrefusal, _, _, _, _, rfl, rfl, rfl, hvisible, hkind, hoverlong⟩
    | tooDeep hm hcache hn hle hhalt =>
      obtain ⟨n, hdepth⟩ := hdepth
      exact absurd hdepth ((depthHalt_refused hhalt).2 n)
  · cases hhalt
    exact .inl hbefore
  · cases hhalt

/-- **A run is refused only after a moment at an overlong integer.** -/
theorem Run.overlong_of_refused (hdisk : s.disk.Nameable) (hdepth : ∃ n, s.limits.importDepth = .levels n)
    (hroot : ∀ name ∈ root, isNameable name = true) {cache : Table Text}
    (hcache : cache.get? root.text = none) (h : Run s limit (.start root cache) σ) {refusal : Refusal}
    (hphase : σ.phase = .deliver (.error (.refused refusal))) :
    refusal = .digits .writing ∧ ∃ σ₀, Run s limit (.start root cache) σ₀ ∧ σ₀.Overlong s := by
  induction h with
  | refl => cases hphase
  | tail hrun hstep ih =>
    rcases hstep.refused hdisk hdepth hroot (Run.runInv hrun hcache) hphase with hbefore | ⟨rfl, hoverlong⟩
    · exact ih hbefore
    · exact ⟨rfl, _, hrun, hoverlong⟩

/-- A refusal leaves all open files. -/
theorem run_giveUp (refusal : Refusal) (frames : List Frame) (l : Ledger) :
    Run s limit ⟨.deliver (.error (.refused refusal)), frames, l⟩
      ⟨.deliver (.error (.refused refusal)), [], l⟩ := by
  induction frames with
  | nil => exact .refl
  | cons f outer ih => exact .head .giveUp ih

/-- **A run that comes to an overlong integer is refused.** -/
theorem State.Overlong.run (h : σ.Overlong s) :
    Run s limit σ ⟨.deliver (.error (.refused (.digits .writing))), [], σ.ledger⟩ := by
  obtain ⟨phase, frames, l⟩ := σ
  obtain ⟨⟨place, passed, ahead, blocks, done⟩, outer, line, rest, hphase, hframes, hrest, hvisible, hkind,
    hoverlong⟩ := h
  cases hphase
  cases hframes
  cases hrest
  exact .head (.settle (Move.ofLine_overlong hvisible hkind hoverlong)) (run_giveUp _ _ _)

end

/-! ## Calls -/

/-- **A call whose request can be written is not refused** if nothing in its setting is a reason to. -/
theorem Engine.process_ne_refused {engine : Engine} {disk : Disk} {bindings : Bindings} {request : String}
    {refusal : Refusal} (hs : (engine.setting disk bindings).Unrefusing)
    (hrequest : isNameable request = true) :
    (engine.process disk bindings request).1.1 ≠ .error (.refused refusal) := by
  intro h
  rcases engine.process_cases disk bindings request with ⟨hplace, -⟩ | ⟨fault, -, -, hcase⟩ |
    ⟨place, text, -, -, hcase⟩ | ⟨place, hplace, hcache, hrun⟩
  · exact hs.disk.canonical?_ne hrequest hplace
  · rw [hcase] at h
    cases h
  · rw [hcase] at h
    cases h
  · rw [h] at hrun
    obtain ⟨-, σ₀, -, f, outer, line, rest, -, -, -, -, -, hoverlong⟩ :=
      hrun.overlong_of_refused hs.disk hs.depth (hs.disk.place hplace) hcache rfl
    exact hs.bindings.not_overlong hoverlong

end ShaderFlatten
