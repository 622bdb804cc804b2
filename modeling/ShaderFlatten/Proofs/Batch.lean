import ShaderFlatten.Batch
import ShaderFlatten.Proofs.Recursion
import ShaderFlatten.Proofs.Refusal
import ShaderFlatten.Proofs.Warmth

/-!
# Batches

A batch processes its inputs one after the other with one engine, so every input but the first meets a
cache that others have filled.  `Batch.outcome limits disk bindings earlier path` is what an input comes to
after some earlier ones; alone, it comes to `Batch.outcome limits disk bindings [] path`.

The earlier inputs can only turn a failure around that comes from the depth of imports: any other outcome
is the one that the input has alone.  Three facts lead there:

* a batch hands on its whole ledger from one input to the next, but only the cache in it matters to what
  the next input comes to (`Flatten.request_cache`), so a batch tells the outcomes of its inputs
  (`Batch.runFrom_tells`);
* a fuller cache changes no outcome but one that comes from the depth of imports (`Engine.process_warm`);
* without a limit nothing comes from the depth of imports, so what is left of it is the plain recursion
  (`Uncached.gives_unlimited`), and so is every call that the depth does not end.

A refusal ends a batch.  Where neither the disk nor the bindings nor the limits give a reason for one, only
an input can, by a name that cannot be written.
-/

namespace ShaderFlatten

/-! ## Only the cache matters -/

/-- Two moments that differ only in what has been recorded. -/
inductive SameCache : State → State → Prop
  | mk {phase frames l l'} : l'.cache = l.cache → SameCache ⟨phase, frames, l⟩ ⟨phase, frames, l'⟩

theorem Flatten.store_other {key : String} {text : Text} {l l₁ l' : Ledger} {result : Except Halt Unit}
    (h : store key text l = (result, l₁)) (hcache : l'.cache = l.cache) :
    ∃ l₂, store key text l' = (result, l₂) ∧ l₂.cache = l₁.cache := by
  unfold store at h ⊢
  rw [hcache]
  cases hget : l.cache.get? key with
  | some cached =>
    simp only [hget] at h
    split at h
    · next heq =>
      cases h
      exact ⟨l', if_pos heq, hcache⟩
    · next hne =>
      cases h
      exact ⟨_, if_neg hne, hcache⟩
  | none =>
    simp only [hget] at h
    cases h
    exact ⟨_, rfl, rfl⟩

section
variable {s : Setting} {limit : Option Nat} {root : Place} {σ σ' τ : State}

theorem Step.sameCache (h : Step s limit σ σ') (hσ : SameCache σ τ) :
    ∃ τ', Step s limit τ τ' ∧ SameCache σ' τ' := by
  obtain @⟨phase, frames, l, l', hcache⟩ := hσ
  cases h with
  | refuse hread =>
    obtain ⟨hcold, l₂, hread', hwarm⟩ := Flatten.readText_other hread l'
    exact ⟨_, .refuse hread', .mk (by rw [hcold, hwarm, hcache])⟩
  | begin hread =>
    obtain ⟨hcold, l₂, hread', hwarm⟩ := Flatten.readText_other hread l'
    exact ⟨_, .begin hread', .mk (by rw [hcold, hwarm, hcache])⟩
  | turn hm => exact ⟨_, .turn hm, .mk hcache⟩
  | settle hm => exact ⟨_, .settle hm, .mk hcache⟩
  | reuse hm hget => exact ⟨_, .reuse hm (hcache ▸ hget), .mk hcache⟩
  | descend hm hget hroom => exact ⟨_, .descend hm (hcache ▸ hget) hroom, .mk hcache⟩
  | tooDeep hm hget hn hle => exact ⟨_, .tooDeep hm (hcache ▸ hget) hn hle, .mk hcache⟩
  | emit => exact ⟨_, .emit, .mk hcache⟩
  | fail => exact ⟨_, .fail, .mk hcache⟩
  | giveUp => exact ⟨_, .giveUp, .mk hcache⟩
  | unclosed hfinish => exact ⟨_, .unclosed hfinish, .mk hcache⟩
  | close hfinish hstore =>
    obtain ⟨l₂, hstore', hstored⟩ := Flatten.store_other hstore hcache
    exact ⟨_, .close hfinish hstore', .mk hstored⟩
  | conflict hfinish hstore =>
    obtain ⟨l₂, hstore', hstored⟩ := Flatten.store_other hstore hcache
    exact ⟨_, .conflict hfinish hstore', .mk hstored⟩

theorem Run.sameCache (h : Run s limit σ σ') (hσ : SameCache σ τ) :
    ∃ τ', Run s limit τ τ' ∧ SameCache σ' τ' := by
  induction h with
  | refl => exact ⟨τ, .refl, hσ⟩
  | tail _ hstep ih =>
    obtain ⟨τ₁, hrun, hsame⟩ := ih
    obtain ⟨τ₂, hstep', hsame'⟩ := hstep.sameCache hsame
    exact ⟨τ₂, hrun.tail hstep', hsame'⟩

end

/-- **Only the cache matters** to what a request comes to and to what is cached behind it. -/
theorem Flatten.request_cache (s : Setting) (path : String) {l l' : Ledger} (hcache : l'.cache = l.cache) :
    (request s path l').1 = (request s path l).1 ∧
      (request s path l').2.cache = (request s path l).2.cache := by
  unfold request
  cases hplace : s.disk.canonical? path with
  | error fault => cases fault <;> exact ⟨rfl, hcache⟩
  | ok place =>
    simp only [hcache]
    cases hget : l.cache.get? place.text with
    | some text => exact ⟨rfl, hcache⟩
    | none =>
      have hrun := run_file (s := s) s.limits.levels place [] l
      have hrun' := run_file (s := s) s.limits.levels place [] l'
      obtain ⟨τ, hτ, hsame⟩ := Run.sameCache hrun (.mk hcache)
      obtain @⟨-, -, -, l₁, hcache₁⟩ := hsame
      obtain ⟨hresult, hledger⟩ := Prod.mk.inj (Run.end_unique hrun' hτ)
      exact ⟨hresult, (congrArg Ledger.cache hledger).trans hcache₁⟩

/-! ## Without a limit on the depth of imports -/

theorem Cause.kind_ne_importDepth {cause : Cause} (h : cause.origin ≠ .line) :
    cause.kind ≠ .importDepth := by
  cases cause with
  | importTooDeep => exact absurd rfl h
  | _ => simp [Cause.kind]

/-- No halt that is on its way out comes from the depth of imports. -/
def Shallow (σ : State) : Prop := ∀ halt, σ.phase = .deliver (.error halt) → ¬ halt.OfDepth

section
variable {s : Setting} {root : Place} {σ τ : State}

theorem Step.shallow (h : Step s none σ τ) (hchain : ChainInv none σ) (hσ : Shallow σ) : Shallow τ := by
  intro halt hphase
  obtain ⟨phase, frames, l⟩ := τ
  cases hphase
  rcases h.halt_cases hchain with harises | ⟨refusal, rfl, hbefore⟩ | ⟨failure, path, line, rfl, hbefore⟩
  · cases harises with
    | unread hunread =>
      have horigin := Flatten.sourceAt_origin hunread
      simpa [Halt.OfDepth] using Cause.kind_ne_importDepth (by simp [horigin])
    | line hm => exact (Move.ofLine_halt hm).2
    | tooDeep hm hcache hn => cases hn
    | unclosed hfinish =>
      have horigin := finish_origin hfinish
      simpa [Halt.OfDepth] using Cause.kind_ne_importDepth (by simp [horigin])
  · exact hσ _ hbefore
  · simpa [Halt.OfDepth] using hσ _ hbefore

/-- **With more levels than entries** a file comes to what the plain recursion comes to. -/
theorem Uncached.gives_unlimited (hdisk : s.disk.WellNamed) (hroot : ∀ name ∈ root, IsName name)
    {levels : Nat} (hlevels : s.disk.tree.entries.length < levels) :
    Gives s [] root (Flatten.file s levels [] root (.ofCache [])).1 := by
  have hrun : Run s none (.start root []) ⟨.deliver (Flatten.file s levels [] root (.ofCache [])).1, [], _⟩ :=
    run_unlimited rfl hlevels
  have hshallow := hrun.keeps rfl (P := Shallow) (fun _ hphase => by cases hphase)
    fun _ _ hstep hσ => hstep.shallow hσ.chain
  have hmirrored := hrun.keeps rfl (.start (.nil s)) fun _ _ hstep hσ => hstep.mirrored hdisk hroot hσ
  have hanswered := hmirrored.answered _ rfl
  cases hresult : (Flatten.file s levels [] root (.ofCache [])).1 with
  | ok text =>
    rw [hresult] at hanswered
    exact hanswered
  | error halt =>
    rw [hresult] at hanswered
    exact hanswered (hshallow halt (by rw [hresult]))

end

/-- What a request comes to with no limit on the depth of imports.  No files are open twice, so that more
levels than the tree has entries are as good as no limit. -/
def Unlimited (s : Setting) (request : String) (result : Except Halt Text) : Prop :=
  ∃ place, s.disk.canonical? request = .ok place ∧
    ∀ levels, s.disk.tree.entries.length < levels →
      (Flatten.file s levels [] place (.ofCache [])).1 = result

/-- **A call that the depth of imports does not end** comes to what it comes to without a limit. -/
theorem Engine.process_unlimited {engine : Engine} {disk : Disk} {bindings : Bindings} {request : String}
    {place : Place} (hdisk : disk.WellNamed) (hsound : Sound (engine.setting disk bindings) engine.cache)
    (hplace : disk.canonical? request = .ok place)
    (hdepth : ∀ halt, (engine.process disk bindings request).1.1 = .error halt → ¬ halt.OfDepth) :
    Unlimited (engine.setting disk bindings) request (engine.process disk bindings request).1.1 := by
  refine ⟨place, hplace, fun levels hlevels => ?_⟩
  obtain ⟨n, hplain⟩ := (process_mirrored hdisk hsound request).2 hdepth
  have hgives := hplain n le_rfl
  rw [Uncached.request, show (engine.setting disk bindings).disk = disk from rfl, hplace] at hgives
  exact (Uncached.gives_unlimited hdisk (Disk.canonical?_named hdisk hplace) hlevels).unique ⟨n, hgives⟩

/-! ## Batches -/

theorem Engine.afterAll_snoc (engine : Engine) (disk : Disk) (bindings : Bindings) (requests : List String)
    (request : String) : engine.afterAll disk bindings (requests ++ [request]) =
      ((engine.afterAll disk bindings requests).process disk bindings request).2 := by
  simp [Engine.afterAll]

theorem Engine.afterAll_setting (engine : Engine) (disk : Disk) (bindings : Bindings)
    (requests : List String) :
    (engine.afterAll disk bindings requests).setting disk bindings = engine.setting disk bindings := by
  induction requests generalizing engine with
  | nil => rfl
  | cons request requests ih => exact ih _

namespace Batch

/-- The entry of an input that comes to a text. -/
def entry? : Path × Except Halt Text → Option (Path × Text)
  | (path, .ok text) => some (path, text)
  | (_, .error _) => none

/-- The failure of an input, if it is this one. -/
def failure? (path : Path) : Path × Except Halt Text → Option Failure
  | (path', .error (.failed failure)) => if path' = path then some failure else none
  | _ => none

/-- The results tell what the inputs have come to: in the order of the inputs one text for each that has
come to one, and of each input that has failed its last failure. -/
structure Tells (b : Batch) (outcomes : List (Path × Except Halt Text)) : Prop where
  entries : b.entries = outcomes.filterMap entry?
  errors : ∀ path, b.errors.lookup path = (outcomes.filterMap (failure? path)).getLast?

theorem lookup_putError (errors : List (Path × Failure)) (path path' : Path) (failure : Failure) :
    (putError errors path failure).lookup path' =
      if path = path' then some failure else errors.lookup path' := by
  fun_induction putError errors path failure with
  | case1 => grind
  | case2 => grind
  | case3 => grind

section
variable {b : Batch} {outcomes : List (Path × Except Halt Text)} {path : Path}

theorem Tells.text (h : b.Tells outcomes) (text : Text) :
    Tells { b with entries := b.entries ++ [(path, text)] } (outcomes ++ [(path, .ok text)]) where
  entries := by simp [h.entries, entry?]
  errors := by simp [h.errors, failure?]

theorem Tells.failure (h : b.Tells outcomes) (failure : Failure) :
    Tells { b with errors := putError b.errors path failure }
      (outcomes ++ [(path, .error (.failed failure))]) where
  entries := by simp [h.entries, entry?]
  errors := by
    intro path'
    rw [lookup_putError, h.errors, List.filterMap_append]
    by_cases hpath : path = path'
    · simp [failure?, hpath]
    · simp [failure?, hpath]

end

section
variable (limits : Limits) (disk : Disk) (bindings : Bindings)

/-- What an input comes to after some earlier ones with one engine. -/
def outcome (earlier : List Path) (path : Path) : Except Halt Text :=
  (((Engine.create limits).afterAll disk bindings (earlier.map Path.toString)).process disk bindings
    path.toString).1.1

/-- What inputs come to, each after the earlier ones and those that stand before it. -/
def outcomes : (earlier paths : List Path) → List (Path × Except Halt Text)
  | _, [] => []
  | earlier, path :: rest =>
    (path, outcome limits disk bindings earlier path) :: outcomes (earlier ++ [path]) rest

end

section
variable {limits : Limits} {disk : Disk} {bindings : Bindings}

/-- The next input of a batch meets the cache that the earlier ones leave. -/
theorem request_next {earlier : List Path} {l : Ledger}
    (hcache : l.cache = ((Engine.create limits).afterAll disk bindings (earlier.map Path.toString)).cache)
    (path : Path) :
    ∃ l', Flatten.request ((Engine.create limits).setting disk bindings) path.toString l =
        (outcome limits disk bindings earlier path, l') ∧
      l'.cache =
        ((Engine.create limits).afterAll disk bindings ((earlier ++ [path]).map Path.toString)).cache := by
  obtain ⟨hresult, hledger⟩ := Flatten.request_cache ((Engine.create limits).setting disk bindings)
    path.toString (l := .ofCache _) hcache
  have hsetting := (Engine.create limits).afterAll_setting disk bindings (earlier.map Path.toString)
  refine ⟨_, Prod.ext ?_ rfl, ?_⟩
  · rw [hresult, ← hsetting]
    rfl
  · rw [hledger, ← hsetting, List.map_append, List.map_singleton, Engine.afterAll_snoc]
    rfl

theorem mem_outcomes {paths : List Path} (earlier : List Path) {o : Path × Except Halt Text} :
    o ∈ outcomes limits disk bindings earlier paths ↔ ∃ front path rest, paths = front ++ path :: rest ∧
      o = (path, outcome limits disk bindings (earlier ++ front) path) := by
  induction paths generalizing earlier with
  | nil => simp [outcomes]
  | cons path rest ih =>
    rw [outcomes, List.mem_cons, ih]
    constructor
    · rintro (rfl | ⟨front, path', rest', rfl, rfl⟩)
      · exact ⟨[], path, rest, rfl, by rw [List.append_nil]⟩
      · exact ⟨path :: front, path', rest', rfl, by rw [List.append_assoc, List.singleton_append]⟩
    · rintro ⟨_ | ⟨first, front⟩, path', rest', hsplit, rfl⟩
      · cases hsplit
        exact .inl (by rw [List.append_nil])
      · cases hsplit
        exact .inr ⟨front, path', rest', rfl, by rw [List.append_assoc, List.singleton_append]⟩

/-- **A batch tells what its inputs come to**, or one of them is refused. -/
theorem runFrom_cases {paths : List Path} (earlier : List Path) {b : Batch} {l : Ledger}
    {before : List (Path × Except Halt Text)}
    (hcache : l.cache = ((Engine.create limits).afterAll disk bindings (earlier.map Path.toString)).cache)
    (hb : b.Tells before) :
    (∃ b', (runFrom ((Engine.create limits).setting disk bindings) b paths l).1 = .ok b' ∧
      b'.Tells (before ++ outcomes limits disk bindings earlier paths) ∧
      ∀ o ∈ outcomes limits disk bindings earlier paths, ∀ refusal, o.2 ≠ .error (.refused refusal)) ∨
    ∃ refusal, (runFrom ((Engine.create limits).setting disk bindings) b paths l).1 = .error refusal ∧
      ∃ o ∈ outcomes limits disk bindings earlier paths, o.2 = .error (.refused refusal) := by
  -- what is kept from input to input: the ledger has the cache of an engine that has served the earlier ones
  induction paths generalizing earlier b l before with
  | nil => exact .inl ⟨b, rfl, by simpa [outcomes] using hb, by simp [outcomes]⟩
  | cons path rest ih =>
    obtain ⟨l', hrequest, hcache'⟩ := request_next hcache path
    rw [runFrom, hrequest, outcomes]
    cases houtcome : outcome limits disk bindings earlier path with
    | ok text => simpa using ih _ hcache' (hb.text text)
    | error halt =>
      cases halt with
      | failed failure => simpa using ih _ hcache' (hb.failure failure)
      | refused refusal => exact .inr ⟨refusal, rfl, _, List.mem_cons_self, rfl⟩

/-- A batch that refuses none of its further inputs tells what they come to. -/
theorem runFrom_tells {paths : List Path} (earlier : List Path) {b : Batch} {l : Ledger}
    {before : List (Path × Except Halt Text)}
    (hrefused : ∀ earlier, ∀ path ∈ paths, ∀ refusal,
      outcome limits disk bindings earlier path ≠ .error (.refused refusal))
    (hcache : l.cache = ((Engine.create limits).afterAll disk bindings (earlier.map Path.toString)).cache)
    (hb : b.Tells before) :
    ∃ b', (runFrom ((Engine.create limits).setting disk bindings) b paths l).1 = .ok b' ∧
      b'.Tells (before ++ outcomes limits disk bindings earlier paths) := by
  rcases runFrom_cases earlier hcache hb with ⟨b', hrun, htells, -⟩ | ⟨refusal, -, o, ho, hrefusal⟩
  · exact ⟨b', hrun, htells⟩
  · obtain ⟨front, path, rest, hsplit, rfl⟩ := (mem_outcomes earlier).mp ho
    exact absurd hrefusal (hrefused _ path (by simp [hsplit]) refusal)

theorem empty_tells : empty.Tells [] where
  entries := rfl
  errors := fun _ => rfl

/-- Inputs that come to the same after any earlier ones do so in every order. -/
theorem outcomes_eq_map {paths : List Path} {earlier : List Path}
    (h : ∀ earlier, ∀ path ∈ paths,
      outcome limits disk bindings earlier path = outcome limits disk bindings [] path) :
    outcomes limits disk bindings earlier paths =
      paths.map fun path => (path, outcome limits disk bindings [] path) := by
  induction paths generalizing earlier with
  | nil => rfl
  | cons path rest ih =>
    rw [outcomes, List.map_cons, h earlier path List.mem_cons_self,
      ih fun earlier path hpath => h earlier path (List.mem_cons_of_mem _ hpath)]

/-- **Earlier inputs change no outcome** but one that comes from the depth of imports. -/
theorem outcome_of_alone (hdisk : disk.WellNamed) (earlier : List Path) {path : Path}
    (hdepth : ∀ halt, outcome limits disk bindings [] path = .error halt → ¬ halt.OfDepth) :
    outcome limits disk bindings earlier path = outcome limits disk bindings [] path := by
  have hcold := Engine.Filled.create limits ((Engine.create limits).setting disk bindings)
  have hsetting := (Engine.create limits).afterAll_setting disk bindings (earlier.map Path.toString)
  have hwarm := hcold.afterAll hdisk (earlier.map Path.toString)
  rw [← hsetting] at hwarm
  exact Engine.process_warm hdisk hsetting (fun place hcached => absurd rfl hcached) hcold hwarm _ hdepth

/-- **An input that fails alone because of the depth of imports** fails so after earlier ones too, or comes
to what it comes to without a limit. -/
theorem outcome_of_deep (hdisk : disk.WellNamed) (earlier : List Path) {path : Path} {halt : Halt}
    (hhalt : outcome limits disk bindings [] path = .error halt) (hdepth : halt.OfDepth) :
    (∃ halt', outcome limits disk bindings earlier path = .error halt' ∧ halt'.OfDepth) ∨
      Unlimited ((Engine.create limits).setting disk bindings) path.toString
        (outcome limits disk bindings earlier path) := by
  by_cases hdeep : ∃ halt', outcome limits disk bindings earlier path = .error halt' ∧ halt'.OfDepth
  · exact .inl hdeep
  · right
    obtain ⟨hsetting, hsound⟩ := Engine.afterAll_sound hdisk
      (Sound.nil ((Engine.create limits).setting disk bindings)) (earlier.map Path.toString)
    rcases Engine.process_error hhalt with rfl | ⟨fault, rfl⟩ | ⟨place, hplace, -, -⟩
    · exact hdepth.elim
    · cases hdepth
    · rw [← hsetting] at hsound ⊢
      exact Engine.process_unlimited hdisk hsound hplace fun halt' hhalt' hof =>
        hdeep ⟨halt', hhalt', hof⟩

theorem outcome_ne_refused (hs : ((Engine.create limits).setting disk bindings).Unrefusing)
    (earlier : List Path) {path : Path} (hpath : path.isNameable = true) (refusal : Refusal) :
    outcome limits disk bindings earlier path ≠ .error (.refused refusal) := by
  have hsetting := (Engine.create limits).afterAll_setting disk bindings (earlier.map Path.toString)
  rw [← hsetting] at hs
  exact Engine.process_ne_refused hs (Path.isNameable_toString hpath)

end

end Batch

open Batch in
/-- **A batch turns only failures around that come from the depth of imports.**  It tells of every
occurrence of an input what that comes to after those before it: the text that it comes to alone, the very
failure that it comes to alone, or, where it fails alone because of the depth of imports, such a failure
again or what it comes to without a limit.  So inputs none of which fails alone for that reason come to the
same in every order. -/
theorem batch_turns_only_depth {limits : Limits} {disk : Disk} {bindings : Bindings}
    (hdisk : disk.WellNamed) (hs : ((Engine.create limits).setting disk bindings).Unrefusing)
    {paths : List Path} (hpaths : ∀ path ∈ paths, path.isNameable = true) :
    (∃ b, (Batch.run limits disk bindings paths).1 = .ok b ∧
      b.Tells (outcomes limits disk bindings [] paths)) ∧
    (∀ earlier path rest, paths = earlier ++ path :: rest →
      (∀ text, outcome limits disk bindings [] path = .ok text →
        outcome limits disk bindings earlier path = .ok text) ∧
      ∀ failure, outcome limits disk bindings [] path = .error (.failed failure) →
        (failure.kind ≠ .importDepth →
          outcome limits disk bindings earlier path = .error (.failed failure)) ∧
        (failure.kind = .importDepth →
          (∃ failure', outcome limits disk bindings earlier path = .error (.failed failure') ∧
            failure'.kind = .importDepth) ∨
          Unlimited ((Engine.create limits).setting disk bindings) path.toString
            (outcome limits disk bindings earlier path))) ∧
    ((∀ path ∈ paths, ∀ failure, outcome limits disk bindings [] path = .error (.failed failure) →
        failure.kind ≠ .importDepth) →
      ∀ order, order.Perm paths → outcomes limits disk bindings [] order =
        order.map fun path => (path, outcome limits disk bindings [] path)) := by
  have hrefused : ∀ earlier, ∀ path ∈ paths, ∀ refusal,
      outcome limits disk bindings earlier path ≠ .error (.refused refusal) :=
    fun earlier path hpath => outcome_ne_refused hs earlier (hpaths path hpath)
  refine ⟨runFrom_tells [] hrefused rfl empty_tells, ?_, ?_⟩
  · intro earlier path rest hsplit
    refine ⟨fun text halone => ?_, fun failure halone => ⟨fun hkind => ?_, fun hkind => ?_⟩⟩
    · rw [outcome_of_alone hdisk earlier (by simp [halone]), halone]
    · have hdepth : ¬ (Halt.failed failure).OfDepth := hkind
      rw [outcome_of_alone hdisk earlier (by simpa [halone] using hdepth), halone]
    · rcases outcome_of_deep hdisk earlier halone hkind with ⟨halt, hhalt, hdepth⟩ | hunlimited
      · left
        cases halt with
        | failed failure' => exact ⟨failure', hhalt, hdepth⟩
        | refused refusal => exact absurd hhalt (hrefused earlier path (by simp [hsplit]) refusal)
      · exact .inr hunlimited
  · intro hkinds order hperm
    refine outcomes_eq_map fun earlier path hpath => outcome_of_alone hdisk earlier fun halt hhalt => ?_
    have hmem := hperm.mem_iff.mp hpath
    cases halt with
    | failed failure => exact hkinds path hmem failure hhalt
    | refused refusal => exact absurd hhalt (hrefused [] path hmem refusal)

/-! An input that fails alone because of the depth of imports, and not after the part that it imports. -/

/-- No imports, and no other limit. -/
def Limits.noImports : Limits := { importDepth := .levels 0, fileBytes := none, lineLength := none }

/-- The shader of a disk with two files. -/
def shaderPath : Path := ⟨.root, ["a"]⟩

/-- The part that it may import. -/
def partPath : Path := ⟨.root, ["b.wgsl"]⟩

theorem Disk.nameable_pair (shader part : ByteArray) : (Disk.pair shader part).Nameable where
  cwd := by simp [Disk.pair]
  home := by simp [Disk.pair]
  links := by
    intro place target hentry
    unfold FileTree.entry? at hentry
    split at hentry
    · cases hentry
    · obtain ⟨⟨place', entry⟩, hfind, rfl⟩ := Option.map_eq_some_iff.mp hentry
      have hmem := List.mem_of_find?_eq_some hfind
      simp [Disk.pair] at hmem

theorem unrefusing_import : ((Engine.create .noImports).setting importDisk ⟨[], []⟩).Unrefusing where
  disk := Disk.nameable_pair _ _
  bindings := fun _ _ hget => by cases hget
  depth := ⟨0, rfl⟩

/-- The failure of the shader that may not import its part. -/
def deepFailure : Failure :=
  (Failure.ofCause (.importTooDeep "b.wgsl".toList 0)).report "/a" (some (1, importLine))

theorem run_too_deep {s : Setting} (hdisk : s.disk = importDisk) (hlimit : s.readLimit = none)
    (hdepth : s.limits.importDepth = .levels 0) :
    ∃ l, Run s (some 0) (.start ["a"] []) ⟨.deliver (.error (.failed deepFailure)), [], l⟩ ∧
      l.cache = [] := by
  have himport : Move.ofLine s ["/a"] ["a"] .none importLine = .fetch "b.wgsl".toList ["b.wgsl"] :=
    ofLine_pair_import hdisk (by decide)
  have hdeep : Step s (some 0)
      ⟨.scan, [⟨["a"], [], [importLine], .none, []⟩], Flatten.askedFor s ["a"] (.ofCache [])⟩
      ⟨.deliver (.error (Flatten.depthHalt s.limits "b.wgsl".toList)), [_], _⟩ :=
    .tooDeep himport (by simp [Table.get?]) rfl le_rfl
  have hnone : s.limits.depthInForce 0 = 0 := min_eq_left (Int.natCast_nonneg _)
  rw [depthHalt_levels hdepth, hnone] at hdeep
  apply Exists.intro
  constructor
  · refine .head (.begin (readText_pair_shader hdisk hlimit (by decide) _)) ?_
    rw [Frame.start, lines_importLine]
    exact .head hdeep (.head .fail .refl)
  · simp

namespace Batch

theorem process_shader_alone : ∃ l : Ledger, l.cache = [] ∧
    ((Engine.create .noImports).process importDisk ⟨[], []⟩ "/a").1 = (.error (.failed deepFailure), l) := by
  obtain ⟨l, hrun, hcache⟩ :=
    run_too_deep (s := (Engine.create .noImports).setting importDisk ⟨[], []⟩) rfl rfl rfl
  exact ⟨l, hcache, Engine.process_of_run (Disk.canonical?_pair_shader _ _) rfl hrun⟩

theorem outcome_shader_alone :
    outcome .noImports importDisk ⟨[], []⟩ [] shaderPath = .error (.failed deepFailure) := by
  have hrequest : shaderPath.toString = "/a" := by decide
  obtain ⟨l, -, hprocess⟩ := process_shader_alone
  rw [outcome, hrequest]
  exact congrArg Prod.fst hprocess

/-- The part comes to its text, and the shader after it too. -/
theorem outcome_part_shader :
    outcome .noImports importDisk ⟨[], []⟩ [] partPath = .ok ['x'] ∧
    outcome .noImports importDisk ⟨[], []⟩ [partPath] shaderPath = .ok ['x'] := by
  have hrequest : partPath.toString = "/b.wgsl" := by decide
  have hrequest' : shaderPath.toString = "/a" := by decide
  obtain ⟨l, hrun, hcache⟩ := @run_part ((Engine.create .noImports).setting importDisk ⟨[], []⟩)
    (some 0) rfl rfl rfl
  obtain ⟨l', hrun'⟩ := @run_shader ((Engine.create .noImports).setting importDisk ⟨[], []⟩) (some 0) rfl rfl
  have hpart : ((Engine.create .noImports).process importDisk ⟨[], []⟩ "/b.wgsl").1 = (.ok ['x'], l) :=
    Engine.process_of_run (Disk.canonical?_pair_part _ _) rfl hrun
  have hshader : (Engine.process ⟨.noImports, none, [("/b.wgsl", ['x'])]⟩ importDisk ⟨[], []⟩ "/a").1 =
      (.ok ['x'], l') :=
    Engine.process_of_run (Disk.canonical?_pair_shader _ _) rfl hrun'
  have hafter : (Engine.create .noImports).afterAll importDisk ⟨[], []⟩ ["/b.wgsl"] =
      ⟨.noImports, none, [("/b.wgsl", ['x'])]⟩ := by
    rw [Engine.afterAll, List.foldl_cons, List.foldl_nil, Engine.process_engine, hpart, hcache]
    rfl
  constructor
  · rw [outcome, hrequest]
    exact congrArg Prod.fst hpart
  · rw [outcome, List.map_singleton, hrequest, hrequest', hafter, hshader]

end Batch

open Batch in
theorem batch_turns_only_depth_part :
    (∀ path ∈ [partPath, shaderPath], path.isNameable = true) ∧
    (∃ failure, outcome .noImports importDisk ⟨[], []⟩ [] shaderPath = .error (.failed failure) ∧
      failure.kind = .importDepth) ∧
    Unlimited ((Engine.create .noImports).setting importDisk ⟨[], []⟩) shaderPath.toString (.ok ['x']) ∧
    ∃ b, (Batch.run .noImports importDisk ⟨[], []⟩ [partPath, shaderPath]).1 = .ok b ∧
      b.entries = [(partPath, ['x']), (shaderPath, ['x'])] := by
  have hpaths : ∀ path ∈ [partPath, shaderPath], path.isNameable = true := by decide
  have hdisk : importDisk.WellNamed := Disk.wellNamed_pair _ _
  obtain ⟨hpart, hshader⟩ := outcome_part_shader
  obtain ⟨⟨b, hrun, htells⟩, hoccurrence, -⟩ :=
    batch_turns_only_depth hdisk unrefusing_import hpaths
  have hturned := ((hoccurrence [partPath] shaderPath [] rfl).2 deepFailure outcome_shader_alone).2 rfl
  refine ⟨hpaths, ⟨deepFailure, outcome_shader_alone, rfl⟩, ?_, b, hrun, ?_⟩
  · rw [hshader] at hturned
    rcases hturned with ⟨failure, h, -⟩ | hunlimited
    · cases h
    · exact hunlimited
  · rw [htells.entries]
    simp [outcomes, entry?, hpart, hshader]

/-! A path that no system can follow. -/

/-- A path with a name that cannot be written. -/
def zeroPath : Path := ⟨.root, ["\x00"]⟩

theorem Disk.followPath_zero (disk : Disk) (strict : Bool) :
    disk.followPath strict zeroPath = .error .unnameable := by
  have hstart : disk.followPath strict zeroPath =
      disk.follow strict disk.linkDepth [] .root ["\x00"] := rfl
  rw [hstart, follow, if_neg (by decide), if_pos (by decide)]

theorem Disk.canonical?_zero (disk : Disk) : disk.canonical? zeroPath.toString = .error .unnameable := by
  have hpath : Path.ofString zeroPath.toString = zeroPath := by decide
  have hexpand : disk.expandHome zeroPath.toString = .ok zeroPath := by
    rw [expandHome, hpath]
    rfl
  rw [canonical?, hexpand]
  simp only [bind, Except.bind, followPath_zero]
  rfl

open Batch in
/-- A name that cannot be written ends a batch, and an input behind it that comes to a text alone gets no
entry. -/
theorem batch_stops_at_zero :
    outcome .noImports importDisk ⟨[], []⟩ [] partPath = .ok ['x'] ∧
    (Batch.run .noImports importDisk ⟨[], []⟩ [zeroPath, partPath]).1 = .error .unnameable := by
  refine ⟨outcome_part_shader.1, ?_⟩
  have hrequest (l : Ledger) : Flatten.request ((Engine.create .noImports).setting importDisk ⟨[], []⟩)
      zeroPath.toString l = (.error (.refused .unnameable), l) := by
    have hplace : ((Engine.create .noImports).setting importDisk ⟨[], []⟩).disk.canonical?
        zeroPath.toString = .error .unnameable := Disk.canonical?_zero _
    rw [Flatten.request, hplace]
  rw [Batch.run, Batch.runFrom, hrequest]

end ShaderFlatten
