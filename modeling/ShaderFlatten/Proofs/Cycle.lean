import Mathlib.Data.List.Chain
import ShaderFlatten.Proofs.ImportGraph

/-!
# Cycles of imports

The depth-first walk of a call finds a cycle of imports exactly if there is one.

* A text is handed on only for files that are grounded in the cache, so a call that comes to a text has
  seen no cycle below the file that it asks for, whatever had been cached before it.
* If no file that can be reached has an error of its own, a failure can only come from a line that imports
  an open file.  The open files are a chain of imports, which that line closes.

So importing a file twice, or along two ways, is no reason to fail.
-/

namespace ShaderFlatten

open Relation

/-- A file has no error of its own: it can be read, no line of it halts while no file is open, and it leaves
no block open. -/
def Clean (s : Setting) (place : Place) : Prop :=
  ∃ text, Flatten.sourceAt s place = .ok text ∧
    (∀ passed line rest blocks, Text.lines text = passed ++ line :: rest →
      Flatten.blocksAfter s.bindings.conditions passed = some blocks →
      ∀ halt, Move.ofLine s [] place blocks line ≠ .settle (.error halt)) ∧
    ∀ blocks, Flatten.blocksAfter s.bindings.conditions (Text.lines text) = some blocks →
      blocks.finish = .ok ()

/-- Visible imports lead from a file to one that leads back to itself. -/
def ReachesCycle (s : Setting) (root : Place) : Prop :=
  ∃ place, ReflTransGen (VisibleImport s) root place ∧ TransGen (VisibleImport s) place place

/-- No cycle can be reached from where every chain of imports ends. -/
theorem not_reachesCycle {s : Setting} {root : Place}
    (h : Acc (fun target place => VisibleImport s place target) root) : ¬ ReachesCycle s root := by
  rintro ⟨place, hreach, hcycle⟩
  have hplace : ∀ {place}, ReflTransGen (VisibleImport s) root place →
      Acc (fun target place => VisibleImport s place target) place := by
    intro place hreach
    induction hreach with
    | refl => exact h
    | tail _ himport ih => exact ih.inv himport
  have hloop : TransGen (fun target place => VisibleImport s place target) place place :=
    transGen_swap.mpr hcycle
  induction (hplace hreach).transGen with
  | intro place _ ih => exact ih place hloop hreach hcycle hloop

/-! ## Open files -/

section
variable {s : Setting} {root : Place}

/-- The file that the stack asks for can be reached, and so can every open file. -/
theorem Asked.reachable {frames : List Frame} {target : Place} (hstack : Stacked s root frames)
    (hasked : Asked s root frames target) : ReflTransGen (VisibleImport s) root target := by
  induction frames generalizing target with
  | nil =>
    have heq : target = root := hasked
    rw [heq]
  | cons f outer ih =>
    obtain ⟨hopened, hbelow, houter⟩ := hstack
    exact (ih houter hbelow).tail (Frame.Awaits.visibleImport hasked hopened)

/-- A line of a file without errors of its own halts only if it imports an open file. -/
theorem Move.cyclic_of_halt {chain : List String} {place : Place} {blocks : OpenBlocks} {line : Text}
    {halt : Halt} (h : ofLine s chain place blocks line = .settle (.error halt))
    (hown : ∀ halt, ofLine s [] place blocks line ≠ .settle (.error halt)) :
    ∃ path target, Imports s place blocks line path target ∧ target.text ∈ chain ∧
      halt = .ofCause (.cyclicImport path) := by
  have himport : blocks.visible = true ∧ Line.kind line = .importLine := by
    unfold ofLine at h hown
    split at h
    · next cause hturn =>
      simp only [hturn] at hown
      exact absurd rfl (hown _)
    · cases h
    · next hturn =>
      simp only [hturn] at hown
      split at h
      · next hvisible =>
        split at h
        · next hkind => exact ⟨hvisible, hkind⟩
        · next hkind =>
          simp only [hvisible, hkind, if_true, if_false] at hown
          exact absurd h (hown halt)
      · cases h
  obtain ⟨hvisible, hkind⟩ := himport
  -- the import can be resolved, so the open files are what stands against it
  rcases ofLine_import s [] place hvisible hkind with ⟨halt', h'⟩ | ⟨path, target, h'⟩
  · exact absurd h' (hown halt')
  · obtain ⟨himports, -⟩ := ofLine_eq_fetch.mp h'
    have hopen : target.text ∈ chain := by
      by_contra hclosed
      rw [ofLine_eq_fetch.mpr ⟨himports, hclosed⟩] at h
      cases h
    refine ⟨path, target, himports, hopen, ?_⟩
    simp only [ofLine, turnBlocks_import hkind, hvisible, hkind, if_true, ofImport, himports.parsed,
      himports.resolved, hopen, settle.injEq, Except.error.injEq] at h
    exact h.symm

/-- Each position of a chain of imports leads to the innermost one. -/
theorem reaches_innermost {first : Position} {outer : List Position}
    (h : (first :: outer).IsChain (ImportedBy s)) :
    ∀ p ∈ first :: outer, ReflTransGen (VisibleImport s) p.place first.place := by
  induction outer generalizing first with
  | nil =>
    intro p hp
    rw [List.mem_singleton.mp hp]
  | cons second outer ih =>
    obtain ⟨⟨number, line, -, himports⟩, hchain⟩ := List.isChain_cons_cons.mp h
    intro p hp
    rcases List.mem_cons.mp hp with rfl | hp
    · exact .refl
    · exact (ih hchain p hp).tail ⟨number, line, himports⟩

/-- The outermost position of a chain of imports leads to each of them. -/
theorem reaches_position {positions : List Position} (h : positions.IsChain (ImportedBy s))
    (hroot : positions.getLast?.map (·.place) = some root) :
    ∀ p ∈ positions, ReflTransGen (VisibleImport s) root p.place := by
  intro p hp
  obtain ⟨inner, outer, rfl⟩ := List.append_of_mem hp
  obtain ⟨last, hlast, rfl⟩ := Option.map_eq_some_iff.mp hroot
  rw [List.getLast?_append_of_ne_nil _ (by simp)] at hlast
  exact reaches_innermost h.right_of_append last (List.mem_of_getLast? hlast)

/-- **A failure among files without errors of their own comes from an import of an open file**, which
closes a cycle. -/
theorem Faulted.cyclic {chain : List String} {cause : Cause} {positions : List Position}
    (hdisk : s.disk.WellNamed) (hnamed : ∀ name ∈ root, IsName name)
    (hclean : ∀ place, ReflTransGen (VisibleImport s) root place → Clean s place)
    (hdepth : cause.kind ≠ .importDepth) (h : Faulted s root chain cause positions) :
    cause.kind = .cyclicImport ∧ ReachesCycle s root ∧
      ∃ first outer number line target, positions = first :: outer ∧ first.line = some (number, line) ∧
        ImportsAt s first.place number line target ∧ target ∈ positions.map (·.place) := by
  obtain ⟨⟨first, outer, rfl, harises⟩, himports, hroot, hchain⟩ := h
  have hreach := reaches_position himports hroot
  obtain ⟨source, hsource, hlines, hfinish⟩ := hclean _ (hreach first List.mem_cons_self)
  cases harises with
  | file hunread =>
    rw [hsource] at hunread
    cases hunread
  | finish hsource' hblocks hunclosed =>
    obtain rfl : source = _ := Except.ok.inj (hsource.symm.trans hsource')
    rw [hfinish _ hblocks] at hunclosed
    cases hunclosed
  | @line place source' passed line rest blocks hsource' hsplit hblocks hfails =>
    obtain rfl : source = source' := Except.ok.inj (hsource.symm.trans hsource')
    rcases hfails with hhalt | ⟨path, target, -, htooDeep⟩
    · obtain ⟨path, target, himport, hopen, hcause⟩ :=
        Move.cyclic_of_halt hhalt (hlines passed line rest blocks hsplit hblocks)
      have hat : ImportsAt s place (passed.length + 1) line target :=
        ⟨source, passed, rest, blocks, path, hsource, hsplit, rfl, hblocks, himport⟩
      have hstep : VisibleImport s place target := ⟨_, line, hat⟩
      -- the file that is imported is one of the open files
      obtain ⟨p, hp, htext⟩ : ∃ p ∈ Position.mk place (some (passed.length + 1, line)) :: outer,
          p.place.text = target.text := by
        rw [← hchain, List.mem_reverse] at hopen
        exact List.mem_map.mp hopen
      have hplace : p.place = target := by
        have hpnamed : ∀ name ∈ p.place, IsName name := by
          rcases ReflTransGen.cases_tail (hreach p hp) with heq | ⟨middle, -, himport'⟩
          · rw [heq]
            exact hnamed
          · exact himport'.named hdisk
        exact Place.text_injective hpnamed (hstep.named hdisk) htext
      have hback : ReflTransGen (VisibleImport s) target place := by
        rw [← hplace]
        exact reaches_innermost himports p hp
      have hkind : cause.kind = .cyclicImport := congrArg Failure.kind (Halt.failed.inj hcause)
      refine ⟨hkind, ⟨target, (hreach _ List.mem_cons_self).tail hstep, .tail' hback hstep⟩, ?_⟩
      exact ⟨_, outer, _, line, target, rfl, rfl, hat, List.mem_map.mpr ⟨p, hp, hplace⟩⟩
    · have hkind := Halt.ofDepth_depthHalt s.limits path
      rw [htooDeep] at hkind
      exact absurd hkind hdepth

/-! ## Refusals -/

/-- A refusal that is on its way out comes from the depth of the imports. -/
def RefusedByDepth (σ : State) : Prop :=
  ∀ refusal, σ.phase = .deliver (.error (.refused refusal)) → (Halt.refused refusal).OfDepth

theorem Step.refusedByDepth {limit : Option Nat} {σ τ : State}
    (hclean : ∀ place, ReflTransGen (VisibleImport s) root place → Clean s place)
    (h : Step s limit σ τ) (hrun : RunInv s limit root σ) (hσ : RefusedByDepth σ) : RefusedByDepth τ := by
  intro refusal hphase
  obtain ⟨phase, frames, l⟩ := τ
  cases hphase
  rcases h.halt_cases hrun.chain with harises | ⟨_, hhalt, hbefore⟩ | ⟨failure, path, line, hhalt, -⟩
  · cases harises with
    | @line place passed line rest blocks done outer l halt hm =>
      obtain ⟨⟨source, hsource, hsplit, hblocks⟩, hasked, houter⟩ := hrun.linked.stack
      obtain ⟨source', hsource', hlines, -⟩ := hclean place (hasked.reachable houter)
      obtain rfl : source = source' := Except.ok.inj (hsource.symm.trans hsource')
      obtain ⟨path, target, -, -, hhalt⟩ :=
        Move.cyclic_of_halt hm (hlines passed line rest blocks hsplit hblocks)
      cases hhalt
    | tooDeep hm hcache hn hle hhalt =>
      rw [← hhalt]
      exact Halt.ofDepth_depthHalt _ _
  · cases hhalt
    exact hσ refusal hbefore
  · cases hhalt

end

/-! ## The theorem -/

/-- A failure tells of a cycle: its innermost diagnostic is at an import of a file that the trace names. -/
def Failure.NamesCycle (s : Setting) (failure : Failure) : Prop :=
  ∃ innermost outer place number line target, failure.trace = innermost :: outer ∧
    innermost.path = place.text ∧ innermost.lineNumber = some number ∧ innermost.lineText = some line ∧
    ImportsAt s place number line target ∧ target.text ∈ failure.trace.map (·.path)

/-- A run among files without errors of their own that comes to no text, though not because of the depth of
its imports, has found a cycle. -/
theorem Run.cyclic {s : Setting} {limit : Option Nat} {root : Place} {cache : Table Text} {halt : Halt}
    {l : Ledger} (hdisk : s.disk.WellNamed) (hnamed : ∀ name ∈ root, IsName name)
    (hclean : ∀ place, ReflTransGen (VisibleImport s) root place → Clean s place)
    (hget : cache.get? root.text = none) (hdepth : ¬ halt.OfDepth)
    (h : Run s limit (.start root cache) ⟨.deliver (.error halt), [], l⟩) :
    ReachesCycle s root ∧
      ∃ failure, halt = .failed failure ∧ failure.kind = .cyclicImport ∧ failure.NamesCycle s := by
  cases halt with
  | refused refusal =>
    have hrefused : RefusedByDepth ⟨.deliver (.error (.refused refusal)), [], l⟩ :=
      h.keeps hget (fun _ hphase => by cases hphase) fun _ _ hstep hσ => hstep.refusedByDepth hclean hσ
    exact absurd (hrefused refusal rfl) hdepth
  | failed failure =>
    obtain ⟨ρ, -, -, -, -, -, failure, cause, positions, hphase, hfailure, hfaulted⟩ :=
      h.unwinding hget ⟨failure, rfl⟩
    cases hphase
    rw [List.map_nil, List.append_nil] at hfaulted
    have hkind : failure.kind = cause.kind := by
      rw [hfailure, Failure.kind_through, Failure.kind_ofCause]
    have htrace : failure.trace = positions.map failure.diagnosticAt := by
      rw [hfailure, Failure.trace_through, Failure.diagnosticAt_through, Failure.trace_ofCause,
        List.nil_append]
    obtain ⟨hcyclic, hcycle, first, outer, number, line, target, rfl, hline, himports, hopen⟩ :=
      hfaulted.cyclic hdisk hnamed hclean (fun hcause => hdepth (hkind.trans hcause))
    refine ⟨hcycle, failure, rfl, hkind.trans hcyclic, failure.diagnosticAt first,
      outer.map failure.diagnosticAt, first.place, number, line, target, htrace, rfl, ?_, ?_, himports, ?_⟩
    · simp [Failure.diagnosticAt, Failure.diagnostic, hline]
    · simp [Failure.diagnosticAt, Failure.diagnostic, hline]
    · rw [htrace, List.map_map]
      obtain ⟨p, hp, rfl⟩ := List.mem_map.mp hopen
      exact List.mem_map.mpr ⟨p, hp, rfl⟩

/-- **Cycle detection is exact.**  Let an engine have served only requests with the same tree and bindings,
and let no file that visible imports lead to from the requested one have an error of its own.  Then a call
that the depth of its imports does not end fails with a cyclic import exactly if those imports have a
cycle, and comes to a text otherwise.  The failure names a line that imports a file of its trace. -/
theorem process_cyclic_iff {engine : Engine} {disk : Disk} {bindings : Bindings} {request : String}
    {root : Place} (hdisk : disk.WellNamed) (hserved : engine.Served disk bindings)
    (hroot : disk.canonical? request = .ok root)
    (hclean : ∀ place, ReflTransGen (VisibleImport (engine.setting disk bindings)) root place →
      Clean (engine.setting disk bindings) place)
    (hdepth : ∀ halt, (engine.process disk bindings request).1.1 = .error halt → ¬ halt.OfDepth) :
    ((∃ failure, (engine.process disk bindings request).1.1 = .error (.failed failure) ∧
        failure.kind = .cyclicImport) ↔ ReachesCycle (engine.setting disk bindings) root) ∧
    (¬ ReachesCycle (engine.setting disk bindings) root →
      ∃ text, (engine.process disk bindings request).1.1 = .ok text) ∧
    ∀ failure, (engine.process disk bindings request).1.1 = .error (.failed failure) →
      failure.kind = .cyclicImport ∧ failure.NamesCycle (engine.setting disk bindings) := by
  have hnamed := Disk.canonical?_named hdisk hroot
  have hgrounded := hserved.grounded hdisk
  -- a text rules a cycle out, and a halt proves one
  have htext : ∀ text, (engine.process disk bindings request).1.1 = .ok text →
      ¬ ReachesCycle (engine.setting disk bindings) root := by
    intro text hresult
    apply not_reachesCycle
    cases hget : engine.cache.get? root.text with
    | some cached => exact hgrounded.ends root hnamed (by simp [Cached, hget])
    | none =>
      have hrun := Engine.process_run bindings hroot hget
      have hbacked := hrun.backed hdisk hnamed hget hgrounded
      rw [hresult] at hbacked
      exact hbacked.grounded.ends root hnamed (hbacked.delivered text root rfl rfl)
  have hhalt : ∀ halt, (engine.process disk bindings request).1.1 = .error halt →
      ReachesCycle (engine.setting disk bindings) root ∧ ∃ failure, halt = .failed failure ∧
        failure.kind = .cyclicImport ∧ failure.NamesCycle (engine.setting disk bindings) := by
    intro halt hresult
    have hget : engine.cache.get? root.text = none := by
      cases hget : engine.cache.get? root.text with
      | none => rfl
      | some cached =>
        have hserve : (engine.process disk bindings request).1.1 = .ok cached := by
          simp [Engine.process, Flatten.request, Engine.setting, hroot, hget]
        rw [hserve] at hresult
        cases hresult
    have hrun := Engine.process_run bindings hroot hget
    rw [hresult] at hrun
    exact hrun.cyclic hdisk hnamed hclean hget (hdepth halt hresult)
  refine ⟨⟨?_, ?_⟩, ?_, ?_⟩
  · rintro ⟨failure, hresult, -⟩
    exact (hhalt _ hresult).1
  · intro hcycle
    cases hresult : (engine.process disk bindings request).1.1 with
    | ok text => exact absurd hcycle (htext text hresult)
    | error halt =>
      obtain ⟨-, failure, rfl, hkind, -⟩ := hhalt halt hresult
      exact ⟨failure, rfl, hkind⟩
  · intro hnone
    cases hresult : (engine.process disk bindings request).1.1 with
    | ok text => exact ⟨text, rfl⟩
    | error halt => exact absurd (hhalt halt hresult).1 hnone
  · intro failure hresult
    obtain ⟨-, failure', hfailure, hkind, hnames⟩ := hhalt _ hresult
    cases hfailure
    exact ⟨hkind, hnames⟩

/-! A shader imports a part that imports itself. -/

/-- The disk with that shader. -/
def loopDisk : Disk := .pair (Utf8.ascii importLine) (Utf8.ascii importLine)

/-- The failure of that shader. -/
def loopFailure : Failure :=
  (Failure.ofCause (.cyclicImport "b.wgsl".toList)).through
    [⟨["b.wgsl"], some (1, importLine)⟩, ⟨["a"], some (1, importLine)⟩]

section
variable {s : Setting}

theorem sourceAt_loop (hdisk : s.disk = loopDisk) (hlimit : s.readLimit = none) {place : Place}
    (hplace : place = ["a"] ∨ place = ["b.wgsl"]) : Flatten.sourceAt s place = .ok importLine := by
  refine Flatten.sourceAt_ascii hlimit ?_ (by decide)
  rw [hdisk, loopDisk]
  rcases hplace with rfl | rfl
  · exact Disk.readBytes_pair_shader _ _
  · exact Disk.readBytes_pair_part _ _

theorem imports_loop (hdisk : s.disk = loopDisk) {place : Place}
    (hplace : place = ["a"] ∨ place = ["b.wgsl"]) :
    Imports s place .none importLine "b.wgsl".toList ["b.wgsl"] := by
  have hrequest : Flatten.importRequest place "b.wgsl".toList = "/b.wgsl" := by
    rcases hplace with rfl | rfl <;> decide
  refine ⟨by decide, by decide, by rfl, ?_⟩
  rw [hrequest, hdisk]
  exact Disk.canonical?_pair_part _ _

/-- Both files import the part and nothing else. -/
theorem visibleImport_loop (hdisk : s.disk = loopDisk) (hlimit : s.readLimit = none)
    {place target : Place} (hplace : place = ["a"] ∨ place = ["b.wgsl"]) :
    VisibleImport s place target ↔ target = ["b.wgsl"] := by
  have hsource := sourceAt_loop hdisk hlimit hplace
  have himports := imports_loop hdisk hplace
  constructor
  · rintro ⟨number, line, text, passed, rest, blocks, path, htext, hlines, -, hblocks, himports'⟩
    cases htext.symm.trans hsource
    rw [lines_importLine] at hlines
    obtain ⟨rfl, rfl, rfl⟩ : passed = [] ∧ line = importLine ∧ rest = [] := by
      cases passed <;> simp_all
    cases hblocks
    exact himports'.target_unique himports
  · rintro rfl
    exact ⟨1, importLine, importLine, [], [], .none, _, hsource, lines_importLine, rfl, rfl, himports⟩

theorem clean_loop (hdisk : s.disk = loopDisk) (hlimit : s.readLimit = none) {place : Place}
    (hplace : place = ["a"] ∨ place = ["b.wgsl"]) : Clean s place := by
  have himports := imports_loop hdisk hplace
  refine ⟨importLine, sourceAt_loop hdisk hlimit hplace, ?_, ?_⟩
  · intro passed line rest blocks hlines hblocks halt hhalt
    rw [lines_importLine] at hlines
    obtain ⟨rfl, rfl, rfl⟩ : passed = [] ∧ line = importLine ∧ rest = [] := by
      cases passed <;> simp_all
    cases hblocks
    rw [Move.ofLine_eq_fetch.mpr ⟨himports, List.not_mem_nil⟩] at hhalt
    cases hhalt
  · intro blocks hblocks
    rw [lines_importLine, Flatten.blocksAfter, List.foldlM_cons, himports.passBlocks] at hblocks
    cases hblocks
    rfl

theorem run_loop (hdisk : s.disk = loopDisk) (hlimit : s.readLimit = none) :
    ∃ l, Run s (some 1) (.start ["a"] []) ⟨.deliver (.error (.failed loopFailure)), [], l⟩ := by
  have hloop : Move.ofLine s ["/a", "/b.wgsl"] ["b.wgsl"] .none importLine =
      .settle (.error (.failed (.ofCause (.cyclicImport "b.wgsl".toList)))) := by
    have himports := imports_loop hdisk (.inr rfl)
    have hopen : Place.text ["b.wgsl"] ∈ ["/a", "/b.wgsl"] := by decide
    simp only [Move.ofLine, turnBlocks_import himports.kind, himports.visible, himports.kind, if_true,
      Move.ofImport, himports.parsed, himports.resolved, hopen]
    rfl
  apply Exists.intro
  refine .head (.begin (readText_pair_shader hdisk hlimit (by decide) _)) ?_
  rw [Frame.start, lines_importLine]
  refine .head (.descend (ofLine_pair_import hdisk (by decide)) (by simp [Table.get?]) (by simp)) ?_
  refine .head (.begin (readText_pair_part hdisk hlimit (by decide) _)) ?_
  rw [Frame.start, lines_importLine]
  exact .head (.settle hloop) (.head .fail (.head .fail .refl))

end

theorem process_cyclic_iff_loop :
    ReachesCycle ((Engine.create .oneLevel).setting loopDisk ⟨[], []⟩) ["a"] ∧
    ∃ failure, ((Engine.create .oneLevel).process loopDisk ⟨[], []⟩ "/a").1.1 =
        .error (.failed failure) ∧ failure.kind = .cyclicImport ∧
      failure.NamesCycle ((Engine.create .oneLevel).setting loopDisk ⟨[], []⟩) := by
  have hreach : ∀ place, ReflTransGen
      (VisibleImport ((Engine.create .oneLevel).setting loopDisk ⟨[], []⟩)) ["a"] place →
      place = ["a"] ∨ place = ["b.wgsl"] := by
    intro place hplace
    induction hplace with
    | refl => exact .inl rfl
    | tail _ himport ih => exact .inr ((visibleImport_loop rfl rfl ih).mp himport)
  have hcycle : ReachesCycle ((Engine.create .oneLevel).setting loopDisk ⟨[], []⟩) ["a"] :=
    ⟨["b.wgsl"], .single ((visibleImport_loop rfl rfl (.inl rfl)).mpr rfl),
      .single ((visibleImport_loop rfl rfl (.inr rfl)).mpr rfl)⟩
  obtain ⟨l, hrun⟩ := run_loop (s := (Engine.create .oneLevel).setting loopDisk ⟨[], []⟩) rfl rfl
  have hprocess : ((Engine.create .oneLevel).process loopDisk ⟨[], []⟩ "/a").1 =
      (.error (.failed loopFailure), l) :=
    Engine.process_of_run (Disk.canonical?_pair_shader _ _) rfl hrun
  have hdepth : ∀ halt, ((Engine.create .oneLevel).process loopDisk ⟨[], []⟩ "/a").1.1 = .error halt →
      ¬ halt.OfDepth := by
    intro halt hhalt
    rw [hprocess] at hhalt
    cases hhalt
    simp [Halt.OfDepth, loopFailure, Cause.kind]
  obtain ⟨hexact, -, hnames⟩ := process_cyclic_iff (Disk.wellNamed_pair _ _) (.create .oneLevel)
    (Disk.canonical?_pair_shader _ _) (fun place hplace => clean_loop rfl rfl (hreach place hplace)) hdepth
  obtain ⟨failure, hfailure, hcyclic⟩ := hexact.mpr hcycle
  exact ⟨hcycle, failure, hfailure, hcyclic, (hnames failure hfailure).2⟩

end ShaderFlatten
