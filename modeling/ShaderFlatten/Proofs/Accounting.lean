import ShaderFlatten.Proofs.Stack

/-!
# What a call reads and keeps

Every file that a call reads is finished and cached, or is still open, or has been left by the failure
that ends the call.  At the end no file is open, so that

    reads of the call = new keys of the cache                               after a text
    reads of the call = new keys of the cache, and the files of the trace   after a failure

and nothing else about the cache changes.
-/

namespace ShaderFlatten

theorem Table.mem_names_iff {α : Type} {t : Table α} {name : String} :
    name ∈ t.names ↔ t.get? name ≠ none := by
  fun_induction get? t name with
  | case1 => simp [names]
  | case2 a rest => simp [names]
  | case3 n a rest hn ih =>
    rw [← ih]
    simp [names, Ne.symm hn]

/-- The files that have been read and not finished: those that are open, and those that the failure on its
way out has left. -/
def State.unfinished (σ : State) : List String := chainOf σ.frames ++ σ.trace.map (·.path)

@[simp] theorem State.unfinished_mk (phase : Phase) (frames : List Frame) (l : Ledger) :
    (State.mk phase frames l).unfinished =
      chainOf frames ++ (State.mk phase frames l).trace.map (·.path) := rfl

/-- A refusal is on its way out.  It leaves files without a report. -/
def State.Refused (σ : State) : Prop := ∃ refusal, σ.phase = .deliver (.error (.refused refusal))

/-- What a call has read and cached so far, given the cache that it began with. -/
structure Accounted (before : Table Text) (σ : State) : Prop where
  nodup : σ.ledger.reads.Nodup
  fresh : ∀ key ∈ σ.ledger.reads, before.get? key = none
  kept : ∀ key text, before.get? key = some text → σ.ledger.cache.get? key = some text
  uncached : ∀ key ∈ σ.unfinished, σ.ledger.cache.get? key = none
  balanced : ¬ σ.Refused → ∀ key, key ∈ σ.ledger.reads ↔
    before.get? key = none ∧ σ.ledger.cache.get? key ≠ none ∨ key ∈ σ.unfinished

section
variable {s : Setting} {limit : Option Nat} {before : Table Text} {σ τ : State}

/-! ## Steps -/

/-- A step that neither reads nor stores, and that leaves a file without a report only for a refusal. -/
theorem Accounted.pass (hσ : Accounted before σ) (hreads : τ.ledger.reads = σ.ledger.reads)
    (hcache : τ.ledger.cache = σ.ledger.cache) (hsub : τ.unfinished ⊆ σ.unfinished)
    (hall : ¬ τ.Refused → ¬ σ.Refused ∧ σ.unfinished ⊆ τ.unfinished) : Accounted before τ where
  nodup := by rw [hreads]; exact hσ.nodup
  fresh := by rw [hreads]; exact hσ.fresh
  kept := by rw [hcache]; exact hσ.kept
  uncached := fun key hkey => by rw [hcache]; exact hσ.uncached key (hsub hkey)
  balanced := fun hτ key => by
    obtain ⟨hrefused, hsup⟩ := hall hτ
    have hunfinished : key ∈ τ.unfinished ↔ key ∈ σ.unfinished := ⟨fun h => hsub h, fun h => hsup h⟩
    rw [hreads, hcache, hunfinished]
    exact hσ.balanced hrefused key

/-- A step that reads a file which is neither cached nor open. -/
theorem Accounted.read {key : String} (hσ : Accounted before σ) (hrefused : ¬ σ.Refused)
    (huncached : σ.ledger.cache.get? key = none) (hclosed : key ∉ σ.unfinished)
    (hreads : τ.ledger.reads = σ.ledger.reads ++ [key]) (hcache : τ.ledger.cache = σ.ledger.cache)
    (hopen : ∀ k, k ∈ τ.unfinished ↔ k ∈ σ.unfinished ∨ k = key) : Accounted before τ := by
  have hnew : key ∉ σ.ledger.reads := by
    rw [hσ.balanced hrefused key]
    rintro (⟨-, h⟩ | h)
    · exact h huncached
    · exact hclosed h
  have hbefore : before.get? key = none := by
    cases h : before.get? key with
    | none => rfl
    | some text =>
      rw [hσ.kept key text h] at huncached
      cases huncached
  refine ⟨?_, ?_, ?_, ?_, ?_⟩
  · rw [hreads, ← List.concat_eq_append]
    exact hσ.nodup.concat hnew
  · intro k hk
    rw [hreads, List.mem_append, List.mem_singleton] at hk
    rcases hk with hk | rfl
    · exact hσ.fresh k hk
    · exact hbefore
  · rw [hcache]
    exact hσ.kept
  · intro k hk
    rw [hcache]
    rcases (hopen k).mp hk with hk | rfl
    · exact hσ.uncached k hk
    · exact huncached
  · intro _ k
    rw [hreads, hcache, List.mem_append, List.mem_singleton, hopen, hσ.balanced hrefused k, or_assoc]

/-- A step that stores the text of an open file. -/
theorem Accounted.store {key : String} {text : Text} (hσ : Accounted before σ) (hrefused : ¬ σ.Refused)
    (hread : key ∈ σ.ledger.reads) (hreads : τ.ledger.reads = σ.ledger.reads)
    (hcache : τ.ledger.cache = σ.ledger.cache.insert key text)
    (hopen : ∀ k, k ∈ σ.unfinished ↔ k ∈ τ.unfinished ∨ k = key) (hclosed : key ∉ τ.unfinished) :
    Accounted before τ := by
  have hbefore : before.get? key = none := hσ.fresh key hread
  have hget : ∀ k, key ≠ k → τ.ledger.cache.get? k = σ.ledger.cache.get? k := by
    intro k hk
    rw [hcache, Table.get?_insert, if_neg hk]
  have hstored : τ.ledger.cache.get? key = some text := by
    rw [hcache, Table.get?_insert, if_pos rfl]
  refine ⟨?_, ?_, ?_, ?_, ?_⟩
  · rw [hreads]
    exact hσ.nodup
  · rw [hreads]
    exact hσ.fresh
  · intro k t hk
    have hne : key ≠ k := by
      rintro rfl
      rw [hbefore] at hk
      cases hk
    rw [hget k hne]
    exact hσ.kept k t hk
  · intro k hk
    have hne : key ≠ k := by
      rintro rfl
      exact hclosed hk
    rw [hget k hne]
    exact hσ.uncached k ((hopen k).mpr (.inl hk))
  · intro _ k
    rw [hreads]
    by_cases hk : key = k
    · subst hk
      simp [hread, hbefore, hstored]
    · rw [hσ.balanced hrefused k, hget k hk, hopen]
      simp [Ne.symm hk]

theorem Step.accounted (h : Step s limit σ τ) (hchain : ChainInv limit σ) (hσ : Accounted before σ) :
    Accounted before τ := by
  cases h with
  | @refuse place frames l halt l' hread =>
    obtain ⟨cause, -, rfl, rfl⟩ := Flatten.readText_error hread
    obtain ⟨hclosed, huncached⟩ := hchain.entered
    exact hσ.read (by simp [State.Refused]) huncached (by simpa using hclosed)
      (by simp) (by simp) (by simp)
  | @begin place frames l text l' hread =>
    obtain ⟨-, rfl⟩ := Flatten.readText_ok hread
    obtain ⟨hclosed, huncached⟩ := hchain.entered
    exact hσ.read (by simp [State.Refused]) huncached (by simpa using hclosed)
      (by simp) (by simp) (by simp)
  | turn hm => exact hσ.pass rfl rfl (by simp) (by simp [State.Refused])
  | settle hm =>
    have htrace := fun frames l => State.trace_of_line frames l hm
    exact hσ.pass rfl rfl (by simp [htrace]) (by simp [State.Refused])
  | reuse hm hcache => exact hσ.pass rfl rfl (by simp) (by simp [State.Refused])
  | descend hm hcache hroom => exact hσ.pass rfl rfl (by simp) (by simp [State.Refused])
  | tooDeep hm hcache hn hle =>
    exact hσ.pass rfl rfl (by simp [State.trace_of_depth]) (by simp [State.Refused])
  | emit => exact hσ.pass rfl rfl (by simp) (by simp [State.Refused])
  | fail => exact hσ.pass rfl rfl (by simp) (by simp [State.Refused])
  | giveUp => exact hσ.pass rfl rfl (by simp) (by simp [State.Refused])
  | unclosed hfinish => exact hσ.pass rfl rfl (by simp) (by simp [State.Refused])
  | @close place passed blocks done outer l l' hfinish hstore =>
    cases (hchain.store_eq _).symm.trans hstore
    have hrefused : ¬ (State.mk .scan (⟨place, passed, [], blocks, done⟩ :: outer) l).Refused := by
      simp [State.Refused]
    have hread : place.text ∈ l.reads :=
      (hσ.balanced hrefused place.text).mpr (.inr (by simp))
    exact hσ.store hrefused hread rfl rfl (by simp)
      (by simpa using hchain.innermost.1)
  | conflict hfinish hstore => cases (hchain.store_eq _).symm.trans hstore

theorem Accounted.start {before : Table Text} (root : Place) : Accounted before (.start root before) where
  nodup := by simp [State.start]
  fresh := by simp [State.start]
  kept := by simp [State.start]
  uncached := by simp [State.start]
  balanced := fun _ key => by
    cases h : before.get? key <;> simp [State.start, h]

end

/-! ## Calls -/

/-- What a call may have done when it is over, given the cache before it and its result. -/
structure Settled (before : Table Text) (result : Except Halt Text) (l : Ledger) : Prop where
  nodup : l.reads.Nodup
  fresh : ∀ key ∈ l.reads, before.get? key = none
  kept : ∀ key text, before.get? key = some text → l.cache.get? key = some text
  ofText : ∀ text, result = .ok text →
    ∀ key, before.get? key = none ∧ l.cache.get? key ≠ none ↔ key ∈ l.reads
  ofFailure : ∀ failure, result = .error (.failed failure) →
    ∀ key, before.get? key = none ∧ l.cache.get? key ≠ none ↔
      key ∈ l.reads ∧ key ∉ failure.trace.map (·.path)

section
variable {before : Table Text} {result : Except Halt Text} {l : Ledger}

/-- A call that reads nothing and stores nothing. -/
theorem Settled.idle (hreads : l.reads = []) (hcache : l.cache = before) : Settled before result l where
  nodup := by simp [hreads]
  fresh := by simp [hreads]
  kept := by simp [hcache]
  ofText := fun _ _ key => by simp [hreads, hcache]
  ofFailure := fun _ _ key => by simp [hreads, hcache]

/-- When no file is open any more, only those that a failure has left are unfinished. -/
theorem Accounted.settled (h : Accounted before ⟨.deliver result, [], l⟩) : Settled before result l where
  nodup := h.nodup
  fresh := h.fresh
  kept := h.kept
  ofText := by
    rintro text rfl key
    have hbalanced := h.balanced (by simp [State.Refused]) key
    simpa using hbalanced.symm
  ofFailure := by
    rintro failure rfl key
    have hbalanced := h.balanced (by simp [State.Refused]) key
    have huncached := h.uncached key
    simp only [State.unfinished_mk, State.trace_failed, chainOf_nil,
      List.nil_append] at hbalanced huncached
    rw [hbalanced]
    constructor
    · intro hnew
      exact ⟨.inl hnew, fun hleft => hnew.2 (huncached hleft)⟩
    · rintro ⟨hnew | hleft, hnot⟩
      · exact hnew
      · exact absurd hleft hnot

theorem Engine.process_settled (engine : Engine) (disk : Disk) (bindings : Bindings) (request : String) :
    Settled engine.cache (engine.process disk bindings request).1.1
      (engine.process disk bindings request).1.2 := by
  rcases engine.process_cases disk bindings request with ⟨-, h⟩ | ⟨fault, -, -, h⟩ |
    ⟨place, text, -, -, h⟩ | ⟨place, -, hcache, hrun⟩
  · rw [h]
    exact .idle rfl rfl
  · rw [h]
    exact .idle rfl rfl
  · rw [h]
    exact .idle rfl rfl
  · exact (hrun.keeps hcache (.start place) fun _ _ hstep hσ => hstep.accounted hσ.chain).settled

end

/-- The keys that one engine caches and an earlier one does not. -/
def Engine.Adds (engine after : Engine) (key : String) : Prop :=
  key ∉ engine.cache.names ∧ key ∈ after.cache.names

theorem Engine.adds_iff {engine after : Engine} {key : String} :
    engine.Adds after key ↔ engine.cache.get? key = none ∧ after.cache.get? key ≠ none := by
  simp [Adds, Table.mem_names_iff]

/-- **What a call reads and keeps**, whatever has been cached before it.  It reads no file twice and none
that is cached, and it changes no entry.  After a text the new keys are the files that were read; after a
failure they are those of them that the failure has not left on its way out. -/
theorem process_accounting (engine : Engine) (disk : Disk) (bindings : Bindings) (request : String) :
    ∃ result l after, engine.process disk bindings request = ((result, l), after) ∧
      l.reads.Nodup ∧ (∀ key ∈ l.reads, key ∉ engine.cache.names) ∧
      (∀ key text, engine.cache.get? key = some text → after.cache.get? key = some text) ∧
      (∀ text, result = .ok text → ∀ key, engine.Adds after key ↔ key ∈ l.reads) ∧
      (∀ failure, result = .error (.failed failure) →
        ∀ key, engine.Adds after key ↔ key ∈ l.reads ∧ key ∉ failure.trace.map (·.path)) := by
  have hsettled := engine.process_settled disk bindings request
  refine ⟨_, _, _, rfl, hsettled.nodup, ?_, hsettled.kept, ?_, ?_⟩
  · intro key hkey
    rw [Table.mem_names_iff, hsettled.fresh key hkey]
    exact fun h => h rfl
  · intro text htext key
    rw [Engine.adds_iff]
    exact hsettled.ofText text htext key
  · intro failure hfailure key
    rw [Engine.adds_iff]
    exact hsettled.ofFailure failure hfailure key

end ShaderFlatten
