import ShaderFlatten.Proofs.Trace
import ShaderFlatten.Proofs.Transparency

/-!
# The graph of imports

A file imports another one if some visible line of it does.  Which lines are visible depends on the tree,
on the conditions and on the size limit for files, but on no other limit.

What has been cached is closed under imports and has no cycle, because a file is cached only after all
files that it imports:

    Grounded s cache      every cached file leads by imports to cached files only, and to none forever

This holds for the cache of every engine that has served nothing but requests with the same tree and the
same bindings.
-/

namespace ShaderFlatten

/-! ## Imports of a file -/

/-- Some visible line of the file at `place` imports the file at `target`. -/
def VisibleImport (s : Setting) (place target : Place) : Prop :=
  ∃ number line, ImportsAt s place number line target

section
variable {s : Setting} {place target target' : Place} {blocks : OpenBlocks} {line path path' : Text}

theorem Imports.target_unique (h : Imports s place blocks line path target)
    (h' : Imports s place blocks line path' target') : target = target' := by
  obtain rfl : path = path' := Except.ok.inj (h.parsed.symm.trans h'.parsed)
  exact Except.ok.inj (h.resolved.symm.trans h'.resolved)

theorem Imports.not_turn {chain : List String} {blocks' : OpenBlocks}
    (h : Imports s place blocks line path target) :
    Move.ofLine s chain place blocks line ≠ .turn blocks' := by
  intro hturn
  rcases Move.ofLine_import s chain place h.visible h.kind with ⟨halt, hmove⟩ | ⟨path', target', hmove⟩ <;>
    simp [hmove] at hturn

theorem Imports.not_text {chain : List String} {text : Text}
    (h : Imports s place blocks line path target) :
    Move.ofLine s chain place blocks line ≠ .settle (.ok text) := by
  intro htext
  rcases Move.ofLine_import s chain place h.visible h.kind with ⟨halt, hmove⟩ | ⟨path', target', hmove⟩ <;>
    simp [hmove] at htext

theorem VisibleImport.named (hdisk : s.disk.WellNamed) (h : VisibleImport s place target) :
    ∀ name ∈ target, IsName name := by
  obtain ⟨number, line, text, passed, rest, blocks, path, -, -, -, -, himports⟩ := h
  exact Disk.canonical?_named hdisk himports.resolved

end

theorem Frame.Awaits.visibleImport {s : Setting} {f : Frame} {target : Place} (hawaits : f.Awaits s target)
    (hopened : f.Opened s) : VisibleImport s f.place target := by
  have h : ImportedBy s ⟨target, none⟩ f.position := Frame.Awaits.importedBy hopened hawaits
  obtain ⟨number, line, -, himports⟩ := h
  exact ⟨number, line, himports⟩

/-- The same setting with other limits for a run. -/
def Setting.relimit (s : Setting) (limits : Limits) : Setting := { s with limits := limits }

/-- The limits of a run hide no import. -/
theorem visibleImport_relimit {s : Setting} {limits : Limits} {place target : Place} :
    VisibleImport (s.relimit limits) place target ↔ VisibleImport s place target := by
  have himports : ∀ blocks line path,
      Imports (s.relimit limits) place blocks line path target ↔ Imports s place blocks line path target :=
    fun _ _ _ =>
      ⟨fun ⟨hvisible, hkind, hparsed, hresolved⟩ => ⟨hvisible, hkind, hparsed, hresolved⟩,
        fun ⟨hvisible, hkind, hparsed, hresolved⟩ => ⟨hvisible, hkind, hparsed, hresolved⟩⟩
  have hsource : Flatten.sourceAt (s.relimit limits) place = Flatten.sourceAt s place := rfl
  have hbindings : (s.relimit limits).bindings = s.bindings := rfl
  simp only [VisibleImport, ImportsAt, himports, hsource, hbindings]

/-! ## What the cache holds -/

/-- A file is cached. -/
def Cached (cache : Table Text) (place : Place) : Prop := cache.get? place.text ≠ none

/-- Cached files import cached files only, and no chain of imports goes on forever from them. -/
structure Grounded (s : Setting) (cache : Table Text) : Prop where
  closed : ∀ place target, (∀ name ∈ place, IsName name) → Cached cache place →
    VisibleImport s place target → Cached cache target
  ends : ∀ place, (∀ name ∈ place, IsName name) → Cached cache place →
    Acc (fun target place => VisibleImport s place target) place

/-- Everything that the lines behind an open file import is cached. -/
def Frame.Backed (s : Setting) (cache : Table Text) (f : Frame) : Prop :=
  ∀ before line after blocks path target, f.passed = before ++ line :: after →
    Flatten.blocksAfter s.bindings.conditions before = some blocks →
    Imports s f.place blocks line path target → Cached cache target

/-- The cache is grounded, the open files have cached what they have imported so far, and a text that is
handed to an import is the one of a cached file. -/
structure Backed (s : Setting) (root : Place) (σ : State) : Prop where
  grounded : Grounded s σ.ledger.cache
  frames : ∀ f ∈ σ.frames, f.Backed s σ.ledger.cache
  delivered : ∀ text target, σ.phase = .deliver (.ok text) → Asked s root σ.frames target →
    Cached σ.ledger.cache target

section
variable {s : Setting} {cache : Table Text}

theorem Cached.insert {place : Place} (h : Cached cache place) (key : String) (text : Text) :
    Cached (cache.insert key text) place := by
  rw [Cached, Table.get?_insert]
  split
  · simp
  · exact h

theorem cached_insert_self (place : Place) (text : Text) :
    Cached (cache.insert place.text text) place := by
  simp [Cached, Table.get?_insert]

theorem Frame.Backed.insert {f : Frame} (h : f.Backed s cache) (key : String) (text : Text) :
    f.Backed s (cache.insert key text) :=
  fun before line after blocks path target hpassed hblocks himports =>
    (h before line after blocks path target hpassed hblocks himports).insert key text

/-- One more line is behind a file; what it imports, if anything, is cached. -/
theorem Frame.Backed.pass {place : Place} {passed rest done done' : List Text} {line : Text}
    {blocks blocks' : OpenBlocks}
    (h : Frame.Backed s cache ⟨place, passed, line :: rest, blocks, done⟩)
    (hopened : Frame.Opened s ⟨place, passed, line :: rest, blocks, done⟩)
    (hline : ∀ path target, Imports s place blocks line path target → Cached cache target) :
    Frame.Backed s cache ⟨place, passed ++ [line], rest, blocks', done'⟩ := by
  intro before line' after blocks₁ path target hpassed hblocks himports
  rcases List.eq_nil_or_concat after with rfl | ⟨after', last, rfl⟩
  · -- it is the line that has just been passed
    obtain ⟨rfl, hlast⟩ := List.append_inj' hpassed rfl
    cases hlast
    obtain ⟨-, -, -, hbehind⟩ := hopened
    obtain rfl : blocks₁ = blocks := Option.some.inj (hblocks.symm.trans hbehind)
    exact hline path target himports
  · have hpassed' : passed ++ [line] = (before ++ line' :: after') ++ [last] := by
      simpa using hpassed
    exact h before line' after' blocks₁ path target (List.append_inj' hpassed' rfl).1 hblocks himports

/-- **A file whose imports are cached may be cached.** -/
theorem Grounded.insert {f : Frame} (h : Grounded s cache) (hdisk : s.disk.WellNamed)
    (hnamed : ∀ name ∈ f.place, IsName name) (hopened : f.Opened s) (hrest : f.rest = [])
    (hbacked : f.Backed s cache) (text : Text) : Grounded s (cache.insert f.key text) := by
  -- every visible import of the file is behind it
  have hfile : ∀ target, VisibleImport s f.place target → Cached cache target := by
    rintro target ⟨number, line, source, before, after, blocks, path, hsource, hlines, -, hblocks, himports⟩
    obtain ⟨source', hsource', hlines', -⟩ := hopened
    obtain rfl : source = source' := Except.ok.inj (hsource.symm.trans hsource')
    rw [hrest, List.append_nil, hlines] at hlines'
    exact hbacked before line after blocks path target hlines'.symm hblocks himports
  -- a file that is cached now is this one or has been cached before
  have hcached : ∀ place, (∀ name ∈ place, IsName name) → Cached (cache.insert f.key text) place →
      place = f.place ∨ Cached cache place := by
    intro place hplace hget
    rw [Cached, Table.get?_insert] at hget
    split at hget
    · next hkey => exact .inl (Place.text_injective hplace hnamed hkey.symm)
    · exact .inr hget
  constructor
  · intro place target hplace hget himport
    rcases hcached place hplace hget with rfl | hget
    · exact (hfile target himport).insert _ _
    · exact (h.closed place target hplace hget himport).insert _ _
  · intro place hplace hget
    rcases hcached place hplace hget with rfl | hget
    · exact ⟨_, fun target himport => h.ends target (himport.named hdisk) (hfile target himport)⟩
    · exact h.ends place hplace hget

end

/-! ## Steps -/

section
variable {s : Setting} {limit : Option Nat} {root : Place} {σ τ : State}

/-- A step that leaves the cache and hands no text to an import. -/
theorem Backed.of_frames {phase : Phase} {frames : List Frame} {l : Ledger} (h : Backed s root σ)
    (hcache : l.cache = σ.ledger.cache) (hphase : ∀ text, phase ≠ .deliver (.ok text))
    (hframes : ∀ f ∈ frames, f.Backed s σ.ledger.cache) : Backed s root ⟨phase, frames, l⟩ where
  grounded := by
    simp only [hcache]
    exact h.grounded
  frames := by
    simp only [hcache]
    exact hframes
  delivered := fun text _ htext => absurd htext (hphase text)

theorem Frame.Awaits.target_unique {f : Frame} {target target' : Place} (h : f.Awaits s target)
    (h' : f.Awaits s target') : target = target' := by
  obtain ⟨line, rest, path, hrest, himports⟩ := h
  obtain ⟨line', rest', path', hrest', himports'⟩ := h'
  obtain ⟨rfl, -⟩ := List.cons.inj (hrest.symm.trans hrest')
  exact himports.target_unique himports'

theorem Asked.unique {frames : List Frame} {target target' : Place} (h : Asked s root frames target)
    (h' : Asked s root frames target') : target = target' := by
  cases frames with
  | nil => exact h.trans h'.symm
  | cons f outer => exact Frame.Awaits.target_unique h h'

theorem Step.backed (hdisk : s.disk.WellNamed) (hroot : ∀ name ∈ root, IsName name)
    (h : Step s limit σ τ) (hrun : RunInv s limit root σ) (hσ : Backed s root σ) : Backed s root τ := by
  have hframes := hσ.frames
  have hstack := hrun.linked.stack
  cases h with
  | refuse hread =>
    obtain ⟨cause, -, -, rfl⟩ := Flatten.readText_error hread
    exact hσ.of_frames (by simp) (by simp) hframes
  | @begin place frames l text l' hread =>
    obtain ⟨-, rfl⟩ := Flatten.readText_ok hread
    refine hσ.of_frames (by simp) (by simp) fun f hf => ?_
    rcases List.mem_cons.mp hf with rfl | hf
    · intro before line after blocks path target hpassed
      simp [Frame.start] at hpassed
    · exact hframes f hf
  | turn hm =>
    refine hσ.of_frames rfl (by simp) fun f hf => ?_
    rcases List.mem_cons.mp hf with rfl | hf
    · exact (hframes _ List.mem_cons_self).pass hstack.1
        fun path target himports => absurd hm himports.not_turn
    · exact hframes f (List.mem_cons_of_mem _ hf)
  | @settle place passed line rest blocks done outer l result hm =>
    cases result with
    | error halt => exact hσ.of_frames rfl (by simp) hframes
    | ok text =>
      refine ⟨hσ.grounded, hframes, ?_⟩
      rintro - target - ⟨line', rest', path, hrest, himports⟩
      cases hrest
      exact absurd hm himports.not_text
  | @reuse place passed line rest blocks done outer l path target text hm hcache =>
    refine ⟨hσ.grounded, hframes, ?_⟩
    intro text' target' htext hasked
    have hawaits : Frame.Awaits s ⟨place, passed, line :: rest, blocks, done⟩ target :=
      ⟨line, rest, path, rfl, (Move.ofLine_eq_fetch.mp hm).1⟩
    obtain rfl := Frame.Awaits.target_unique hawaits hasked
    simp [Cached, hcache]
  | descend hm hcache hroom => exact hσ.of_frames rfl (by simp) hframes
  | tooDeep hm hcache hn hle => exact hσ.of_frames rfl (by simp) hframes
  | @emit place passed line rest blocks done outer l text =>
    refine hσ.of_frames rfl (by simp) fun f hf => ?_
    rcases List.mem_cons.mp hf with rfl | hf
    · exact (hframes _ List.mem_cons_self).pass hstack.1
        fun path target himports => hσ.delivered text target rfl ⟨line, rest, path, rfl, himports⟩
    · exact hframes f (List.mem_cons_of_mem _ hf)
  | fail => exact hσ.of_frames (by simp) (by simp) fun f hf => hframes f (List.mem_cons_of_mem _ hf)
  | giveUp => exact hσ.of_frames rfl (by simp) fun f hf => hframes f (List.mem_cons_of_mem _ hf)
  | unclosed hfinish =>
    exact hσ.of_frames (by simp) (by simp) fun f hf => hframes f (List.mem_cons_of_mem _ hf)
  | conflict hfinish hstore => cases (hrun.chain.store_eq _).symm.trans hstore
  | @close place passed blocks done outer l l' hfinish hstore =>
    have hasked : Asked s root outer place := hstack.2.1
    cases (hrun.chain.store_eq _).symm.trans hstore
    refine ⟨?_, ?_, ?_⟩
    · exact hσ.grounded.insert hdisk (hasked.named hdisk hroot) hstack.1 rfl
        (hframes _ List.mem_cons_self) _
    · exact fun f hf => (hframes f (List.mem_cons_of_mem _ hf)).insert _ _
    · intro text target htext hasked'
      obtain rfl := hasked.unique hasked'
      exact cached_insert_self _ _

theorem Backed.start {cache : Table Text} (h : Grounded s cache) : Backed s root (.start root cache) where
  grounded := h
  frames := by simp [State.start]
  delivered := by simp [State.start]

/-- **A run keeps the cache grounded.** -/
theorem Run.backed {cache : Table Text} (hdisk : s.disk.WellNamed) (hroot : ∀ name ∈ root, IsName name)
    (h : Run s limit (.start root cache) σ) (hget : cache.get? root.text = none)
    (hgrounded : Grounded s cache) : Backed s root σ :=
  h.keeps hget (.start hgrounded) fun _ _ hstep hσ => hstep.backed hdisk hroot hσ

end

/-! ## Engines -/

/-- An engine that has served requests with a tree and bindings and nothing else, under limits that may
have changed in between. -/
inductive Engine.Served (disk : Disk) (bindings : Bindings) : Engine → Prop
  | create (limits : Limits) : Served disk bindings (.create limits)
  | process {engine : Engine} (request : String) : Served disk bindings engine →
      Served disk bindings (engine.process disk bindings request).2
  | relimit {engine : Engine} (limits : Limits) : Served disk bindings engine →
      Served disk bindings { engine with limits := limits }

theorem Grounded.nil (s : Setting) : Grounded s [] where
  closed := fun _ _ _ hget => absurd rfl hget
  ends := fun _ _ hget => absurd rfl hget

theorem Grounded.relimit {s : Setting} {cache : Table Text} (h : Grounded s cache) (limits : Limits) :
    Grounded (s.relimit limits) cache where
  closed := by
    simp only [visibleImport_relimit]
    exact h.closed
  ends := by
    simp only [visibleImport_relimit]
    exact h.ends

theorem Engine.process_grounded {engine : Engine} {disk : Disk} {bindings : Bindings}
    (hdisk : disk.WellNamed) (h : Grounded (engine.setting disk bindings) engine.cache)
    (request : String) :
    Grounded (engine.setting disk bindings) (engine.process disk bindings request).2.cache := by
  rw [Engine.process_engine]
  rcases engine.process_cases disk bindings request with ⟨-, hcase⟩ | ⟨fault, -, -, hcase⟩ |
    ⟨place, text, -, -, hcase⟩ | ⟨place, hplace, hget, hrun⟩
  · rw [hcase]
    exact h
  · rw [hcase]
    exact h
  · rw [hcase]
    exact h
  · exact (hrun.backed hdisk (Disk.canonical?_named hdisk hplace) hget h).grounded

/-- **The cache of an engine that has served requests with one tree and one set of bindings is
grounded.** -/
theorem Engine.Served.grounded {disk : Disk} {bindings : Bindings} {engine : Engine}
    (hdisk : disk.WellNamed) (h : engine.Served disk bindings) :
    Grounded (engine.setting disk bindings) engine.cache := by
  induction h with
  | create limits => exact .nil _
  | process request _ ih => exact Engine.process_grounded hdisk ih request
  | relimit limits _ ih => exact ih.relimit limits

end ShaderFlatten
