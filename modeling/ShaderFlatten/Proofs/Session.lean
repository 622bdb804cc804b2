import ShaderFlatten.Proofs.Accounting

/-!
# Sessions

A session is an engine together with a disk that others change.  Calls of the engine come in any order
with direct additions to its cache, with changes of the disk and with changes of the limits.  No event of a
session touches a text that is cached:

    cache.get? key = some text  →  the same after every event                        (Session.keeps)

so that every later call and every later import of that file gets the text without a look at the disk.
-/

namespace ShaderFlatten

/-- An engine and the disk that it works on. -/
structure Session where
  engine : Engine
  disk : Disk

namespace Session

/-- What can happen in a session. -/
inductive Event where
  /-- a call, with any bindings -/
  | process (bindings : Bindings) (request : String)
  /-- a text is put into the cache directly -/
  | store (key : String) (text : Text)
  /-- files are written or removed -/
  | change (disk : Disk)
  /-- the limits of the engine are set -/
  | relimit (limits : Limits)

/-- A session after an event, whether the event comes to a text or fails. -/
def after (σ : Session) : Event → Session
  | .process bindings request => { σ with engine := (σ.engine.process σ.disk bindings request).2 }
  | .store key text => { σ with engine := (σ.engine.store key text).2 }
  | .change disk => { σ with disk := disk }
  | .relimit limits => { σ with engine := { σ.engine with limits := limits } }

/-- A session after some events. -/
def afterAll (σ : Session) (events : List Event) : Session := events.foldl after σ

end Session

/-! ## What is stored -/

section
variable {engine : Engine} {key : String} {text : Text}

/-- **The two ways of an addition**: it is refused because another text is there, or the key has the text
afterwards and nothing else has changed. -/
theorem Engine.store_cases (engine : Engine) (key : String) (text : Text) :
    (∃ cached, engine.cache.get? key = some cached ∧ cached ≠ text ∧
      (engine.store key text).1 = Flatten.failFile (.ofCache engine.cache) (.cacheConflict key) key ∧
      (engine.store key text).2 = engine) ∨
    ((∀ cached, engine.cache.get? key = some cached → cached = text) ∧
      (engine.store key text).1.1 = .ok () ∧
      ∀ k, (engine.store key text).2.cache.get? k = if key = k then some text else engine.cache.get? k) := by
  unfold Engine.store Flatten.store
  simp only [Ledger.cache_ofCache]
  cases hget : engine.cache.get? key with
  | none =>
    refine .inr ⟨by simp, rfl, fun k => ?_⟩
    exact Table.get?_insert ..
  | some cached =>
    by_cases heq : cached = text
    · subst heq
      refine .inr ⟨by simp, by simp, fun k => ?_⟩
      by_cases hk : key = k
      · subst hk
        simp [hget]
      · simp [hk]
    · exact .inl ⟨cached, rfl, heq, by simp [heq], by simp [heq, Flatten.failFile]⟩

theorem Engine.store_keeps {other : String} {added : Text} (h : engine.cache.get? key = some text) :
    (engine.store other added).2.cache.get? key = some text := by
  rcases engine.store_cases other added with ⟨-, -, -, -, hengine⟩ | ⟨hsame, -, hget⟩
  · rw [hengine, h]
  · rw [hget]
    split
    · next heq =>
      subst heq
      rw [hsame text h]
    · exact h

/-- An addition fails exactly if another text is there. -/
theorem Engine.store_fails_iff :
    (∃ failure, (engine.store key text).1.1 = .error (.failed failure) ∧ failure.kind = .cacheConflict) ↔
      ∃ cached, engine.cache.get? key = some cached ∧ cached ≠ text := by
  rcases engine.store_cases key text with ⟨cached, hget, hne, hresult, -⟩ | ⟨hsame, hresult, -⟩
  · refine iff_of_true ⟨(Failure.ofCause (.cacheConflict key)).report key none, ?_, rfl⟩ ⟨cached, hget, hne⟩
    rw [hresult]
    rfl
  · refine iff_of_false ?_ ?_
    · rintro ⟨failure, hfailure, -⟩
      rw [hresult] at hfailure
      cases hfailure
    · rintro ⟨cached, hget, hne⟩
      exact hne (hsame cached hget)

theorem Engine.store_error {halt : Halt} (h : (engine.store key text).1.1 = .error halt) :
    (engine.store key text).2 = engine := by
  rcases engine.store_cases key text with ⟨-, -, -, -, hengine⟩ | ⟨-, hresult, -⟩
  · exact hengine
  · rw [hresult] at h
    cases h

end

/-! ## What is kept -/

section
variable {key : String} {text : Text}

/-- **One event**: a text that is cached stays. -/
theorem Session.after_keeps {σ : Session} (h : σ.engine.cache.get? key = some text) (event : Event) :
    (σ.after event).engine.cache.get? key = some text := by
  cases event with
  | process bindings request =>
    exact (σ.engine.process_settled σ.disk bindings request).kept key text h
  | store other added => exact Engine.store_keeps h
  | change disk => exact h
  | relimit limits => exact h

/-- **All events of a session**: a text that is cached stays. -/
theorem Session.keeps {σ : Session} (h : σ.engine.cache.get? key = some text) (events : List Event) :
    (σ.afterAll events).engine.cache.get? key = some text := by
  induction events generalizing σ with
  | nil => exact h
  | cons event events ih => exact ih (Session.after_keeps h event)

end

/-! ## What is served -/

section
variable {engine : Engine} {disk : Disk} {bindings : Bindings} {request : String} {text : Text}

theorem Engine.process_cached {place : Place} (hplace : disk.canonical? request = .ok place)
    (hcache : engine.cache.get? place.text = some text) :
    (engine.process disk bindings request).1.1 = .ok text ∧
      (engine.process disk bindings request).1.2.reads = [] := by
  rcases engine.process_cases disk bindings request with ⟨hfault, -⟩ | ⟨fault, hfault, -, -⟩ |
    ⟨place', text', hplace', hcache', hcase⟩ | ⟨place', hplace', hnone, -⟩
  · rw [hfault] at hplace
    cases hplace
  · rw [hfault] at hplace
    cases hplace
  · rw [hplace'] at hplace
    cases hplace
    rw [hcache'] at hcache
    cases hcache
    rw [hcase]
    exact ⟨rfl, rfl⟩
  · rw [hplace'] at hplace
    cases hplace
    rw [hnone] at hcache
    cases hcache

/-- A text that is cached when a call begins is cached at every moment of it. -/
theorem Engine.Moment.kept {σ : State} {key : String} (hσ : engine.Moment disk bindings request σ)
    (h : engine.cache.get? key = some text) : σ.ledger.cache.get? key = some text := by
  obtain ⟨place, -, hcache, hrun⟩ := hσ
  have haccounted : Accounted engine.cache σ :=
    hrun.keeps hcache (.start place) fun _ _ hstep hinv => hstep.accounted hinv.chain
  exact haccounted.kept key text h

/-- A file that is cached is not open. -/
theorem Engine.Moment.not_mem_chain {σ : State} {key : String}
    (hσ : engine.Moment disk bindings request σ) (h : engine.cache.get? key = some text) :
    key ∉ σ.chain := by
  intro hmem
  have hkept := hσ.kept h
  obtain ⟨place, -, hcache, hrun⟩ := hσ
  rw [(hrun.runInv hcache).chain.uncached key hmem] at hkept
  cases hkept

/-- **A visible import of a cached file** is replaced by the text of the cache, and nothing is read. -/
theorem Engine.Moment.reuses {place target : Place} {passed rest done : List Text} {line path : Text}
    {blocks : OpenBlocks} {outer : List Frame} {l : Ledger}
    (hσ : engine.Moment disk bindings request
      ⟨.scan, ⟨place, passed, line :: rest, blocks, done⟩ :: outer, l⟩)
    (himports : Imports (engine.setting disk bindings) place blocks line path target)
    (h : engine.cache.get? target.text = some text) :
    Run (engine.setting disk bindings) (some engine.limits.levels)
      ⟨.scan, ⟨place, passed, line :: rest, blocks, done⟩ :: outer, l⟩
      ⟨.scan, ⟨place, passed ++ [line], rest, blocks, Flatten.emitted text rest :: done⟩ :: outer,
        l.note (servedRecord target)⟩ := by
  have hclosed : target.text ∉ chainOf outer ++ [place.text] := by
    have hchain := hσ.not_mem_chain h
    rwa [State.chain_scan, chainOf_cons, Frame.key_mk] at hchain
  have hfetch := Move.ofLine_eq_fetch.mpr ⟨himports, hclosed⟩
  exact .head (.reuse hfetch (hσ.kept h)) (.single .emit)

end

/-- A session holds a text for a file: the text is cached, and calls and imports get it from there. -/
structure Session.Holds (τ : Session) (key : String) (text : Text) : Prop where
  cached : τ.engine.cache.get? key = some text
  /-- a call that asks for the file returns the text and reads nothing -/
  served : ∀ bindings request place, τ.disk.canonical? request = .ok place → place.text = key →
    (τ.engine.process τ.disk bindings request).1.1 = .ok text ∧
      (τ.engine.process τ.disk bindings request).1.2.reads = []
  /-- no call has the file open -/
  closed : ∀ bindings request moment, τ.engine.Moment τ.disk bindings request moment → key ∉ moment.chain
  /-- a call that comes to a visible import of the file goes on behind it with the text emitted, and it has
  read nothing for it -/
  imported : ∀ bindings request place passed line rest blocks done outer l path target,
    τ.engine.Moment τ.disk bindings request
      ⟨.scan, ⟨place, passed, line :: rest, blocks, done⟩ :: outer, l⟩ →
    Imports (τ.engine.setting τ.disk bindings) place blocks line path target → target.text = key →
    Run (τ.engine.setting τ.disk bindings) (some τ.engine.limits.levels)
      ⟨.scan, ⟨place, passed, line :: rest, blocks, done⟩ :: outer, l⟩
      ⟨.scan, ⟨place, passed ++ [line], rest, blocks, Flatten.emitted text rest :: done⟩ :: outer,
        l.note (servedRecord target)⟩

theorem Session.holds_of_cached {τ : Session} {key : String} {text : Text}
    (h : τ.engine.cache.get? key = some text) : τ.Holds key text where
  cached := h
  served := by
    rintro bindings request place hplace rfl
    exact Engine.process_cached hplace h
  closed := fun _ _ _ hmoment => hmoment.not_mem_chain h
  imported := by
    rintro bindings request place passed line rest blocks done outer l path target hmoment himports rfl
    exact hmoment.reuses himports h

/-- **Cached texts are for the life of the engine.**  Whatever a session does after a text has been cached,
calls that fail and files that change included, it holds the text.  A direct addition fails with a conflict
exactly if another text is there, and an addition that fails leaves the engine as it was. -/
theorem session_keeps_texts (σ : Session) (events : List Session.Event) :
    (∀ key text, σ.engine.cache.get? key = some text → (σ.afterAll events).Holds key text) ∧
    ∀ key text,
      ((∃ failure, ((σ.afterAll events).engine.store key text).1.1 = .error (.failed failure) ∧
          failure.kind = .cacheConflict) ↔
        ∃ cached, (σ.afterAll events).engine.cache.get? key = some cached ∧ cached ≠ text) ∧
      ∀ halt, ((σ.afterAll events).engine.store key text).1.1 = .error halt →
        ((σ.afterAll events).engine.store key text).2 = (σ.afterAll events).engine :=
  ⟨fun _ _ h => Session.holds_of_cached (Session.keeps h events),
    fun _ _ => ⟨Engine.store_fails_iff, fun _ => Engine.store_error⟩⟩

/-! A session in which the file of a cached text is rewritten, and no import may be opened any more. -/

/-- A session that begins with a cached text. -/
def cachedSession : Session :=
  ⟨⟨.oneLevel, none, [("/a", ['x'])]⟩, .pair (Utf8.ascii ['x']) (Utf8.ascii ['y'])⟩

/-- The other file is processed, the cached one is rewritten, and another text is offered for it. -/
def laterEvents : List Session.Event :=
  [.process ⟨[], []⟩ "/b.wgsl", .change (.pair (Utf8.ascii importLine) (Utf8.ascii ['z'])),
    .relimit { importDepth := .levels 0, fileBytes := none, lineLength := none }, .store "/a" ['z']]

theorem session_keeps_texts_rewritten :
    cachedSession.engine.cache.get? "/a" = some ['x'] ∧
    ((cachedSession.afterAll laterEvents).engine.process (cachedSession.afterAll laterEvents).disk ⟨[], []⟩
      "/a").1.1 = .ok ['x'] := by
  have hcached : cachedSession.engine.cache.get? "/a" = some ['x'] := rfl
  have hholds := (session_keeps_texts cachedSession laterEvents).1 "/a" ['x'] hcached
  exact ⟨hcached, (hholds.served ⟨[], []⟩ "/a" ["a"] (Disk.canonical?_pair_shader _ _) rfl).1⟩

end ShaderFlatten
