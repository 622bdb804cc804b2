import ShaderFlatten.Proofs.Delivery
import ShaderFlatten.Proofs.Session

/-!
# How a batch sorts its inputs

A batch keeps its texts in a list and its failures under the inputs that failed, so an input that stands in
the list more than once may be found on both sides.  That takes a failure before a text, and only the depth
of imports can bring it about:

    a text      → every later occurrence comes to the same text              (Batch.outcome_again)
    a text here → a failure there comes from the depth of imports            (Batch.ofDepth_of_text)

Every input is found on one side at least, and a batch is without failures if it has an entry for every
occurrence of every input.
-/

namespace ShaderFlatten

/-! ## An input that occurs again -/

section
variable {engine : Engine} {disk : Disk} {bindings : Bindings} {request : String} {text : Text}

/-- A text that is cached stays, whatever is requested. -/
theorem Engine.afterAll_keeps {key : String} (h : engine.cache.get? key = some text) (requests : List String) :
    (engine.afterAll disk bindings requests).cache.get? key = some text := by
  induction requests generalizing engine with
  | nil => exact h
  | cons request requests ih => exact ih ((engine.process_settled disk bindings request).kept key text h)

/-- **A request that has come to a text comes to it again**, whatever is requested in between. -/
theorem Engine.process_again (h : (engine.process disk bindings request).1.1 = .ok text)
    (requests : List String) :
    (((engine.process disk bindings request).2.afterAll disk bindings requests).process disk bindings
      request).1.1 = .ok text := by
  obtain ⟨place, hplace, hcached⟩ := Engine.cached_of_text h
  exact (Engine.process_cached hplace (Engine.afterAll_keeps hcached requests)).1

theorem Unlimited.unique {s : Setting} {result result' : Except Halt Text}
    (h : Unlimited s request result) (h' : Unlimited s request result') : result = result' := by
  obtain ⟨place, hplace, hresult⟩ := h
  obtain ⟨place', hplace', hresult'⟩ := h'
  rw [hplace] at hplace'
  cases hplace'
  exact (hresult _ (Nat.lt_succ_self _)).symm.trans (hresult' _ (Nat.lt_succ_self _))

end

namespace Batch

section
variable {limits : Limits} {disk : Disk} {bindings : Bindings} {path : Path} {text : Text}

/-- **An input that has come to a text** comes to it wherever it occurs again. -/
theorem outcome_again {earlier : List Path} (h : outcome limits disk bindings earlier path = .ok text)
    (between : List Path) : outcome limits disk bindings (earlier ++ path :: between) path = .ok text := by
  have hafter : (Engine.create limits).afterAll disk bindings
      ((earlier ++ path :: between).map Path.toString) =
      (((Engine.create limits).afterAll disk bindings (earlier.map Path.toString)).process disk bindings
        path.toString).2.afterAll disk bindings (between.map Path.toString) := by
    simp [Engine.afterAll]
  rw [outcome, hafter]
  exact Engine.process_again h (between.map Path.toString)

/-- **An input that comes to a text in one place and fails in another** fails because of the depth of
imports, there and alone. -/
theorem ofDepth_of_text (hdisk : disk.WellNamed) {earlier earlier' : List Path} {halt : Halt}
    (h : outcome limits disk bindings earlier path = .ok text)
    (h' : outcome limits disk bindings earlier' path = .error halt) :
    halt.OfDepth ∧ ∃ alone, outcome limits disk bindings [] path = .error alone ∧ alone.OfDepth := by
  have halone : ∃ alone, outcome limits disk bindings [] path = .error alone ∧ alone.OfDepth := by
    by_contra hshallow
    -- any other outcome is the one that the input has alone, here and there
    have hsame (earlier : List Path) := outcome_of_alone hdisk earlier fun alone halone hdepth =>
      hshallow ⟨alone, halone, hdepth⟩
    rw [hsame, ← hsame earlier', h'] at h
    cases h
  refine ⟨?_, halone⟩
  obtain ⟨alone, halone, hdepth⟩ := halone
  rcases outcome_of_deep hdisk earlier halone hdepth with ⟨halt', hhalt', -⟩ | hunlimited
  · rw [h] at hhalt'
    cases hhalt'
  · rcases outcome_of_deep hdisk earlier' halone hdepth with ⟨halt', hhalt', hdeep⟩ | hunlimited'
    · rw [h'] at hhalt'
      cases hhalt'
      exact hdeep
    · -- without a limit the input comes to one thing only
      rw [h] at hunlimited
      rw [h'] at hunlimited'
      cases hunlimited.unique hunlimited'

end

/-! ## What the results say of the outcomes -/

section
variable {b : Batch} {outcomes : List (Path × Except Halt Text)} {path : Path}

theorem Tells.mem_entries (h : b.Tells outcomes) :
    path ∈ b.entries.map Prod.fst ↔ ∃ text, (path, .ok text) ∈ outcomes := by
  rw [h.entries]
  simp only [List.mem_map, List.mem_filterMap, Prod.exists]
  constructor
  · rintro ⟨p, text, ⟨p', result, hmem, hentry⟩, rfl⟩
    cases result with
    | ok text' =>
      cases hentry
      exact ⟨text, hmem⟩
    | error halt => cases hentry
  · rintro ⟨text, hmem⟩
    exact ⟨path, text, ⟨path, _, hmem, rfl⟩, rfl⟩

theorem mem_failures {failure : Failure} :
    failure ∈ outcomes.filterMap (failure? path) ↔ (path, .error (.failed failure)) ∈ outcomes := by
  rw [List.mem_filterMap]
  constructor
  · rintro ⟨⟨p, result⟩, hmem, hfailure⟩
    unfold failure? at hfailure
    split at hfailure
    · next heq =>
      cases heq
      split at hfailure
      · next hp =>
        cases hfailure
        rwa [← hp]
      · cases hfailure
    · cases hfailure
  · intro hmem
    exact ⟨_, hmem, if_pos rfl⟩

theorem mem_keys_iff {errors : List (Path × Failure)} :
    path ∈ errors.map Prod.fst ↔ ∃ failure, errors.lookup path = some failure := by
  rw [← Option.isSome_iff_exists, List.lookup_isSome_iff, List.mem_map]
  simp only [beq_iff_eq]
  exact exists_congr fun _ => and_congr_right fun _ => eq_comm

theorem Tells.recorded (h : b.Tells outcomes) {failure : Failure}
    (hrecorded : b.errors.lookup path = some failure) : (path, .error (.failed failure)) ∈ outcomes := by
  rw [h.errors] at hrecorded
  exact mem_failures.mp (List.mem_of_getLast? hrecorded)

theorem Tells.mem_errors (h : b.Tells outcomes) :
    path ∈ b.errors.map Prod.fst ↔ ∃ failure, (path, .error (.failed failure)) ∈ outcomes := by
  rw [mem_keys_iff]
  constructor
  · rintro ⟨failure, hrecorded⟩
    exact ⟨failure, h.recorded hrecorded⟩
  · rintro ⟨failure, hmem⟩
    rw [h.errors, ← Option.isSome_iff_exists, List.getLast?_isSome]
    exact List.ne_nil_of_mem (mem_failures.mpr hmem)

/-- All inputs have entries exactly if each of them comes to a text. -/
theorem map_fst_entries_iff : (outcomes.filterMap entry?).map Prod.fst = outcomes.map Prod.fst ↔
    ∀ o ∈ outcomes, ∃ text, o.2 = .ok text := by
  induction outcomes with
  | nil => simp
  | cons o outcomes ih =>
    obtain ⟨p, result⟩ := o
    cases result with
    | ok text => simpa [List.filterMap_cons, entry?] using ih
    | error halt =>
      -- an input without an entry leaves the list of entries shorter
      have hshort := List.length_filterMap_le entry? outcomes
      have hne : (outcomes.filterMap entry?).map Prod.fst ≠ p :: outcomes.map Prod.fst := fun heq => by
        have hlength := congrArg List.length heq
        simp only [List.length_map, List.length_cons] at hlength
        omega
      simpa [List.filterMap_cons, entry?] using hne

/-- An input that is not refused comes to a text or fails. -/
theorem mem_inputs_iff (hrefused : ∀ o ∈ outcomes, ∀ refusal, o.2 ≠ .error (.refused refusal)) :
    path ∈ outcomes.map Prod.fst ↔
      (∃ text, (path, .ok text) ∈ outcomes) ∨ ∃ failure, (path, .error (.failed failure)) ∈ outcomes := by
  constructor
  · intro hpath
    obtain ⟨⟨p, result⟩, hmem, rfl⟩ := List.mem_map.mp hpath
    rcases result with (failure | refusal) | text
    · exact .inr ⟨failure, hmem⟩
    · exact absurd rfl (hrefused _ hmem refusal)
    · exact .inl ⟨text, hmem⟩
  · rintro (⟨text, hmem⟩ | ⟨failure, hmem⟩) <;> exact List.mem_map_of_mem hmem

theorem Tells.ok_iff (h : b.Tells outcomes)
    (hrefused : ∀ o ∈ outcomes, ∀ refusal, o.2 ≠ .error (.refused refusal)) :
    b.ok = true ↔ b.entries.map Prod.fst = outcomes.map Prod.fst := by
  rw [h.entries, map_fst_entries_iff, ok, List.isEmpty_iff]
  constructor
  · rintro hnone ⟨p, result⟩ hmem
    rcases result with (failure | refusal) | text
    · have hkey := h.mem_errors.mpr ⟨failure, hmem⟩
      simp [hnone] at hkey
    · exact absurd rfl (hrefused _ hmem refusal)
    · exact ⟨text, rfl⟩
  · intro htexts
    by_contra hsome
    obtain ⟨⟨p, failure⟩, hmem⟩ := List.exists_mem_of_ne_nil _ hsome
    obtain ⟨failure', hfailed⟩ := h.mem_errors.mp (List.mem_map_of_mem hmem)
    obtain ⟨text, htext⟩ := htexts _ hfailed
    cases htext

end

section
variable {limits : Limits} {disk : Disk} {bindings : Bindings} {paths : List Path} {b : Batch}

theorem map_fst_outcomes (earlier : List Path) :
    (outcomes limits disk bindings earlier paths).map Prod.fst = paths := by
  induction paths generalizing earlier with
  | nil => rfl
  | cons path rest ih => rw [outcomes, List.map_cons, ih]

/-- What an input comes to at one of its occurrences. -/
theorem mem_outcomes_iff {path : Path} {result : Except Halt Text} :
    (path, result) ∈ outcomes limits disk bindings [] paths ↔ ∃ front rest, paths = front ++ path :: rest ∧
      outcome limits disk bindings front path = result := by
  rw [mem_outcomes]
  constructor
  · rintro ⟨front, p, rest, hsplit, heq⟩
    cases heq
    exact ⟨front, rest, hsplit, rfl⟩
  · rintro ⟨front, rest, hsplit, rfl⟩
    exact ⟨front, path, rest, hsplit, rfl⟩

theorem run_cases (limits : Limits) (disk : Disk) (bindings : Bindings) (paths : List Path) :
    (∃ b, (run limits disk bindings paths).1 = .ok b ∧ b.Tells (outcomes limits disk bindings [] paths) ∧
      ∀ o ∈ outcomes limits disk bindings [] paths, ∀ refusal, o.2 ≠ .error (.refused refusal)) ∨
    ∃ refusal, (run limits disk bindings paths).1 = .error refusal ∧
      ∃ o ∈ outcomes limits disk bindings [] paths, o.2 = .error (.refused refusal) :=
  runFrom_cases [] rfl empty_tells

/-- A batch that returns tells what its inputs come to, and has refused none of them. -/
theorem run_tells (h : (run limits disk bindings paths).1 = .ok b) :
    b.Tells (outcomes limits disk bindings [] paths) ∧
      ∀ o ∈ outcomes limits disk bindings [] paths, ∀ refusal, o.2 ≠ .error (.refused refusal) := by
  rcases run_cases limits disk bindings paths with ⟨b', hrun, htells, hrefused⟩ | ⟨refusal, hrun, -⟩
  · rw [hrun] at h
    cases h
    exact ⟨htells, hrefused⟩
  · rw [hrun] at h
    cases h

/-- **A failure and a text of one input**: the failure comes first. -/
theorem split_of_text_of_failure {path : Path} {text : Text} {halt : Halt}
    (htext : (path, .ok text) ∈ outcomes limits disk bindings [] paths)
    (hhalt : (path, .error halt) ∈ outcomes limits disk bindings [] paths) :
    ∃ earlier between rest, paths = earlier ++ path :: (between ++ path :: rest) ∧
      outcome limits disk bindings earlier path = .error halt ∧
      outcome limits disk bindings (earlier ++ path :: between) path = .ok text := by
  obtain ⟨front, rest, hsplit, hok⟩ := mem_outcomes_iff.mp htext
  obtain ⟨front', rest', hsplit', herror⟩ := mem_outcomes_iff.mp hhalt
  have hsame := hsplit.symm.trans hsplit'
  rcases List.append_eq_append_iff.mp hsame with ⟨excess, rfl, hexcess⟩ | ⟨excess, rfl, hexcess⟩
  · -- behind the text the input cannot fail
    cases excess with
    | nil =>
      rw [List.append_nil, hok] at herror
      cases herror
    | cons first between =>
      cases hexcess
      rw [outcome_again hok] at herror
      cases herror
  · cases excess with
    | nil =>
      rw [List.append_nil, herror] at hok
      cases hok
    | cons first between =>
      cases hexcess
      exact ⟨front', between, rest, hsplit', herror, hok⟩

end

end Batch

open Batch in
/-- **A batch sorts its inputs by what they come to.**  Every input has an entry or a failure, and nothing
else has.  An input has both exactly if one occurrence of it fails because of the depth of imports and a later
one comes to a text; then the failure that is kept comes from the depth of imports too, and so does the failure
of the input alone.  Nothing has failed exactly if every occurrence of every input has its entry. -/
theorem batch_sorts_inputs {limits : Limits} {disk : Disk} {bindings : Bindings} {paths : List Path}
    {b : Batch} (hdisk : disk.WellNamed) (hrun : (Batch.run limits disk bindings paths).1 = .ok b) :
    (∀ path, path ∈ paths ↔ path ∈ b.entries.map Prod.fst ∨ path ∈ b.errors.map Prod.fst) ∧
    (∀ path, path ∈ b.entries.map Prod.fst ∧ path ∈ b.errors.map Prod.fst ↔
      ∃ earlier between rest failure text, paths = earlier ++ path :: (between ++ path :: rest) ∧
        outcome limits disk bindings earlier path = .error (.failed failure) ∧
        failure.kind = .importDepth ∧
        outcome limits disk bindings (earlier ++ path :: between) path = .ok text) ∧
    (∀ path ∈ b.entries.map Prod.fst, ∀ failure, b.errors.lookup path = some failure →
      failure.kind = .importDepth ∧
      ∃ alone, outcome limits disk bindings [] path = .error alone ∧ alone.OfDepth) ∧
    (b.ok = true ↔ b.entries.map Prod.fst = paths) := by
  obtain ⟨htells, hrefused⟩ := run_tells hrun
  refine ⟨fun path => ?_, fun path => ?_, fun path hentry failure hrecorded => ?_, ?_⟩
  · rw [htells.mem_entries, htells.mem_errors, ← mem_inputs_iff hrefused, map_fst_outcomes]
  · rw [htells.mem_entries, htells.mem_errors]
    constructor
    · rintro ⟨⟨text, htext⟩, failure, hfailure⟩
      obtain ⟨earlier, between, rest, hsplit, herror, hok⟩ := split_of_text_of_failure htext hfailure
      exact ⟨earlier, between, rest, failure, text, hsplit, herror, (ofDepth_of_text hdisk hok herror).1, hok⟩
    · rintro ⟨earlier, between, rest, failure, text, hsplit, herror, -, hok⟩
      refine ⟨⟨text, mem_outcomes_iff.mpr ⟨earlier ++ path :: between, rest, ?_, hok⟩⟩,
        failure, mem_outcomes_iff.mpr ⟨earlier, between ++ path :: rest, hsplit, herror⟩⟩
      rw [hsplit, List.append_assoc, List.cons_append]
  · obtain ⟨text, htext⟩ := htells.mem_entries.mp hentry
    obtain ⟨earlier, between, rest, -, herror, hok⟩ :=
      split_of_text_of_failure htext (htells.recorded hrecorded)
    exact ofDepth_of_text hdisk hok herror
  · rw [htells.ok_iff hrefused, map_fst_outcomes]

/-! A shader that fails, and comes to its text once the part that it imports has been requested. -/

namespace Batch

/-- The shader that may not import its part leaves nothing behind. -/
theorem outcome_after_shader (earlier : List Path) (path : Path) :
    outcome .noImports importDisk ⟨[], []⟩ (shaderPath :: earlier) path =
      outcome .noImports importDisk ⟨[], []⟩ earlier path := by
  have hrequest : shaderPath.toString = "/a" := by decide
  obtain ⟨l, hcache, hprocess⟩ := process_shader_alone
  have hengine :
      ((Engine.create .noImports).process importDisk ⟨[], []⟩ "/a").2 = Engine.create .noImports := by
    rw [Engine.process_engine, hprocess, hcache]
    rfl
  rw [outcome, List.map_cons, Engine.afterAll, List.foldl_cons, hrequest, hengine]
  rfl

theorem outcomes_shader_part_shader :
    outcomes .noImports importDisk ⟨[], []⟩ [] [shaderPath, partPath, shaderPath] =
      [(shaderPath, .error (.failed deepFailure)), (partPath, .ok ['x']), (shaderPath, .ok ['x'])] := by
  obtain ⟨hpart, hshader⟩ := outcome_part_shader
  simp only [outcomes, List.nil_append, List.singleton_append, outcome_after_shader, outcome_shader_alone,
    hpart, hshader]

theorem run_shader_part_shader :
    ∃ b, (run .noImports importDisk ⟨[], []⟩ [shaderPath, partPath, shaderPath]).1 = .ok b := by
  rcases run_cases .noImports importDisk ⟨[], []⟩ [shaderPath, partPath, shaderPath] with
    ⟨b, hrun, -⟩ | ⟨refusal, -, o, ho, hrefusal⟩
  · exact ⟨b, hrun⟩
  · rw [outcomes_shader_part_shader] at ho
    simp only [List.mem_cons, List.not_mem_nil, or_false] at ho
    rcases ho with rfl | rfl | rfl <;> cases hrefusal

end Batch

open Batch in
/-- A shader that stands in front of its part and behind it is found on both sides. -/
theorem batch_keeps_both_shader :
    ∃ b, (Batch.run .noImports importDisk ⟨[], []⟩ [shaderPath, partPath, shaderPath]).1 = .ok b ∧
      shaderPath ∈ b.entries.map Prod.fst ∧ shaderPath ∈ b.errors.map Prod.fst := by
  obtain ⟨b, hrun⟩ := run_shader_part_shader
  obtain ⟨htells, -⟩ := run_tells hrun
  rw [outcomes_shader_part_shader] at htells
  exact ⟨b, hrun, htells.mem_entries.mpr ⟨['x'], by simp⟩, htells.mem_errors.mpr ⟨deepFailure, by simp⟩⟩

open Batch in
theorem batch_sorts_inputs_shader :
    importDisk.WellNamed ∧
    ∃ b, (Batch.run .noImports importDisk ⟨[], []⟩ [shaderPath, partPath, shaderPath]).1 = .ok b ∧
      shaderPath ∈ b.entries.map Prod.fst ∧
      ∃ failure, b.errors.lookup shaderPath = some failure ∧ failure.kind = .importDepth := by
  have hdisk : importDisk.WellNamed := Disk.wellNamed_pair _ _
  obtain ⟨b, hrun⟩ := run_shader_part_shader
  obtain ⟨-, hboth, hkinds, -⟩ := batch_sorts_inputs hdisk hrun
  have hlater : outcome .noImports importDisk ⟨[], []⟩ [shaderPath, partPath] shaderPath = .ok ['x'] := by
    rw [outcome_after_shader]
    exact outcome_part_shader.2
  obtain ⟨hentry, herror⟩ := (hboth shaderPath).mpr
    ⟨[], [partPath], [], deepFailure, ['x'], rfl, outcome_shader_alone, rfl, hlater⟩
  obtain ⟨failure, hrecorded⟩ := mem_keys_iff.mp herror
  exact ⟨hdisk, b, hrun, hentry, failure, hrecorded, (hkinds shaderPath hentry failure hrecorded).1⟩

end ShaderFlatten
