import ShaderFlatten.Proofs.Layout
import ShaderFlatten.Proofs.Session

/-!
# The depth of a chain of imports

In a chain of files each one imports the next one and does nothing else, and the last one imports nothing.
Where at most `levels` levels of imports may be opened below a file, and the first `m` files of a chain are not
cached while the others are,

    the first file comes to a text  ↔  m ≤ levels + 1                              (ImportChain.ends)

since a file that is cached is not opened, and the file that is asked for needs no level.  Otherwise the files
up to the one at that depth are opened, the next import fails, and every file that has been opened is left by
the failure, so that its trace names all of them and nothing is cached.
-/

namespace ShaderFlatten

/-! ## Chains -/

/-- A file imports another one by one of its lines, and no other line has a `#`. -/
structure OnlyImport (s : Setting) (place target : Place) (passed : List Text) (line path : Text)
    (rest : List Text) : Prop where
  source : ∃ source, Flatten.sourceAt s place = .ok source ∧ Text.lines source = passed ++ line :: rest
  plain : ∀ other ∈ passed ++ rest, '#' ∉ other
  imports : Imports s place .none line path target

/-- A file imports another one and does nothing else. -/
def ImportsOnly (s : Setting) (place target : Place) : Prop :=
  ∃ passed line path rest, OnlyImport s place target passed line path rest

/-- A chain of distinct files: each one imports the next one and does nothing else, and the last one has
no `#`. -/
structure ImportChain (s : Setting) (files : List Place) : Prop where
  distinct : (files.map Place.text).Nodup
  linked : files.IsChain (ImportsOnly s)
  last : ∀ file ∈ files.getLast?, ∃ source, Flatten.sourceAt s file = .ok source ∧ '#' ∉ source

section
variable {s : Setting} {first next : Place} {files : List Place}

theorem ImportChain.imports (h : ImportChain s (first :: next :: files)) : ImportsOnly s first next :=
  (List.isChain_cons_cons.mp h.linked).1

theorem ImportChain.tail (h : ImportChain s (first :: next :: files)) : ImportChain s (next :: files) where
  distinct := (List.nodup_cons.mp h.distinct).2
  linked := (List.isChain_cons_cons.mp h.linked).2
  last := fun file hfile => h.last file (by rwa [List.getLast?_cons_cons])

/-- Where the first file of a chain is open, the others are not. -/
theorem ImportChain.disjoint (h : ImportChain s (first :: files)) {ancestors : List String}
    (hclosed : ancestors.Disjoint ((first :: files).map Place.text)) :
    (ancestors ++ [first.text]).Disjoint (files.map Place.text) := by
  intro key hkey hmem
  rcases List.mem_append.mp hkey with hkey | hkey
  · exact hclosed hkey (List.mem_cons_of_mem _ hmem)
  · rw [List.mem_singleton.mp hkey] at hmem
    exact (List.nodup_cons.mp h.distinct).1 hmem

end

/-! ## A file with one import -/

section
variable {s : Setting} {place target : Place} {passed rest : List Text} {line path : Text}
  {visit : Option Flatten.Visit} {chain ancestors : List String} {l l₁ : Ledger} {levels : Nat}

/-- A visible import of a file that is cached and not open. -/
theorem Imports.line_cached {blocks : OpenBlocks} (h : Imports s place blocks line path target)
    (hclosed : target.text ∉ chain) {text : Text} (hget : l.cache.get? target.text = some text) :
    Flatten.line s visit chain place blocks line l =
      (.ok (some text, blocks), l.note (servedRecord target)) := by
  rw [line_eq, Move.ofLine_eq_fetch.mpr ⟨h, hclosed⟩]
  simp only [hget]

/-- One of a file that is neither cached nor open, where a level is left. -/
theorem Imports.line_ok {blocks : OpenBlocks} (h : Imports s place blocks line path target)
    (hclosed : target.text ∉ chain) (hget : l.cache.get? target.text = none) {visit : Flatten.Visit} {text : Text}
    (hvisit : visit chain target l = (.ok text, l₁)) :
    Flatten.line s (some visit) chain place blocks line l = (.ok (some text, blocks), l₁) := by
  rw [line_eq, Move.ofLine_eq_fetch.mpr ⟨h, hclosed⟩]
  simp only [hget, hvisit]

theorem Imports.line_error {blocks : OpenBlocks} (h : Imports s place blocks line path target)
    (hclosed : target.text ∉ chain) (hget : l.cache.get? target.text = none) {visit : Flatten.Visit} {halt : Halt}
    (hvisit : visit chain target l = (.error halt, l₁)) :
    Flatten.line s (some visit) chain place blocks line l = (.error halt, l₁) := by
  rw [line_eq, Move.ofLine_eq_fetch.mpr ⟨h, hclosed⟩]
  simp only [hget, hvisit]

/-- One of a file that is neither cached nor open, where no level is left. -/
theorem Imports.line_deep {blocks : OpenBlocks} (h : Imports s place blocks line path target)
    (hclosed : target.text ∉ chain) (hget : l.cache.get? target.text = none) :
    Flatten.line s none chain place blocks line l =
      (.error (Flatten.depthHalt s.limits path), l) := by
  rw [line_eq, Move.ofLine_eq_fetch.mpr ⟨h, hclosed⟩]
  simp only [hget]

/-- A file whose import comes to a text comes to a text. -/
theorem OnlyImport.file_ok (h : OnlyImport s place target passed line path rest) {text : Text}
    (himport : Flatten.line s (Flatten.below s levels) (ancestors ++ [place.text]) place .none line
      (Flatten.askedFor s place l) = (.ok (some text, .none), l₁))
    (hcache : l₁.cache.get? place.text = none) :
    ∃ content, Flatten.file s levels ancestors place l =
      (.ok content, { l₁ with cache := l₁.cache.insert place.text content }) := by
  obtain ⟨source, hsource, hlines⟩ := h.source
  have hpassed : ∀ other ∈ passed, '#' ∉ other := fun other ho => h.plain other (List.mem_append_left _ ho)
  have hrest : ∀ other ∈ rest, '#' ∉ other := fun other ho => h.plain other (List.mem_append_right _ ho)
  have hvisible : OpenBlocks.none.visible = true := rfl
  have hfinish : OpenBlocks.none.finish = .ok () := rfl
  have hall : ∃ done, Flatten.lines s (Flatten.below s levels) (ancestors ++ [place.text]) place 1 .none []
      (passed ++ line :: rest) (Flatten.askedFor s place l) = (.ok (done, .none), l₁) := by
    rw [Flatten.lines_plain hpassed hvisible, Flatten.lines, himport]
    exact ⟨_, Flatten.lines_plain_end hrest hvisible _ _ _⟩
  obtain ⟨done, hall⟩ := hall
  refine ⟨done.reverse.flatten, ?_⟩
  rw [Flatten.file_eq, Flatten.fileWith, Flatten.readText_eq, hsource]
  simp only [Flatten.source, hlines, hall, hfinish, Flatten.store_new hcache]

/-- A file whose import fails is left by the failure. -/
theorem OnlyImport.file_failed (h : OnlyImport s place target passed line path rest) {failure : Failure}
    (himport : Flatten.line s (Flatten.below s levels) (ancestors ++ [place.text]) place .none line
      (Flatten.askedFor s place l) = (.error (.failed failure), l₁)) :
    Flatten.file s levels ancestors place l =
      (.error (.failed (failure.report place.text (some (1 + passed.length, line)))),
        (l₁.report failure place.text (some (1 + passed.length, line))).2) := by
  obtain ⟨source, hsource, hlines⟩ := h.source
  have hpassed : ∀ other ∈ passed, '#' ∉ other := fun other ho => h.plain other (List.mem_append_left _ ho)
  have hvisible : OpenBlocks.none.visible = true := rfl
  rw [Flatten.file_eq, Flatten.fileWith, Flatten.readText_eq, hsource]
  simp only [Flatten.source, hlines, Flatten.lines_plain hpassed hvisible]
  rw [Flatten.lines, himport]
  rfl

end

/-! ## A chain within the limit -/

section
variable {s : Setting} {first : Place} {fresh finished : List Place} {ancestors : List String} {l : Ledger}
  {levels : Nat}

theorem get?_insert_of_not_fresh {cache : Table Text} {content : Text} {key : String}
    (h : key ∉ (first :: fresh).map Place.text) :
    (cache.insert first.text content).get? key = cache.get? key := by
  rw [List.map_cons, List.mem_cons, not_or] at h
  rw [Table.get?_insert, if_neg (Ne.symm h.1)]

/-- **A chain within the limit.**  The first file comes to a text, and nothing is cached but the files that have
not been.  The induction is on these, and at the last of them the next file is cached, or there is none. -/
theorem ImportChain.file_ok (h : ImportChain s (first :: (fresh ++ finished)))
    (hclosed : ancestors.Disjoint ((first :: (fresh ++ finished)).map Place.text))
    (hfresh : ∀ file ∈ first :: fresh, l.cache.get? file.text = none)
    (hfinished : ∀ file ∈ finished, l.cache.get? file.text ≠ none) (hroom : fresh.length ≤ levels) :
    ∃ content l', Flatten.file s levels ancestors first l = (.ok content, l') ∧
      ∀ key, key ∉ (first :: fresh).map Place.text → l'.cache.get? key = l.cache.get? key := by
  have hfirst : l.cache.get? first.text = none := hfresh first List.mem_cons_self
  have hothers := h.disjoint hclosed
  induction fresh generalizing first ancestors l levels with
  | nil =>
    cases finished with
    | nil =>
      obtain ⟨source, hsource, hplain⟩ := h.last first rfl
      exact ⟨_, _, Flatten.file_plain hsource hplain hfirst levels ancestors,
        fun key hkey => get?_insert_of_not_fresh hkey⟩
    | cons next finished =>
      obtain ⟨passed, line, path, rest, honly⟩ := h.imports
      obtain ⟨text, hget⟩ := Option.ne_none_iff_exists'.mp (hfinished next List.mem_cons_self)
      have hopen : next.text ∉ ancestors ++ [first.text] := fun hmem => hothers hmem List.mem_cons_self
      have hnext : (Flatten.askedFor s first l).cache.get? next.text = some text := by simpa using hget
      have hline : Flatten.line s (Flatten.below s levels) (ancestors ++ [first.text]) first .none line
          (Flatten.askedFor s first l) = _ := honly.imports.line_cached hopen hnext
      obtain ⟨content, hfile⟩ := honly.file_ok hline (by simpa using hfirst)
      refine ⟨content, _, hfile, fun key hkey => ?_⟩
      simpa using get?_insert_of_not_fresh hkey
  | cons second fresh ih =>
    have hsome : 0 < levels := Nat.lt_of_lt_of_le (Nat.succ_pos _) hroom
    obtain ⟨levels, rfl⟩ := Nat.exists_eq_add_one.mpr hsome
    obtain ⟨passed, line, path, rest, honly⟩ := h.imports
    have hopen : second.text ∉ ancestors ++ [first.text] := fun hmem => hothers hmem List.mem_cons_self
    have hsecond : (Flatten.askedFor s first l).cache.get? second.text = none := by
      simpa using hfresh second (by simp)
    have hbelow : ∃ text l₁, Flatten.file s levels (ancestors ++ [first.text]) second
        (Flatten.askedFor s first l) = (.ok text, l₁) ∧ ∀ key, key ∉ (second :: fresh).map Place.text →
          l₁.cache.get? key = (Flatten.askedFor s first l).cache.get? key := by
      refine ih h.tail hothers ?_ ?_ (Nat.le_of_succ_le_succ hroom) hsecond (h.tail.disjoint hothers)
      · simpa using fun file hfile => hfresh file (List.mem_cons_of_mem _ hfile)
      · simpa using hfinished
    obtain ⟨text, l₁, hfetch, hkept⟩ := hbelow
    have hline : Flatten.line s (Flatten.below s (levels + 1)) (ancestors ++ [first.text]) first .none line
        (Flatten.askedFor s first l) = (.ok (some text, .none), l₁) := honly.imports.line_ok hopen hsecond hfetch
    -- what the second file has brought into the cache does not stand in the way of the first one
    have hfirst' : l₁.cache.get? first.text = none := by
      have hsub : (second :: fresh).map Place.text ⊆ (second :: (fresh ++ finished)).map Place.text :=
        List.map_subset _ (List.cons_subset_cons _ (List.subset_append_left _ _))
      rw [hkept _ fun hmem => (List.nodup_cons.mp h.distinct).1 (hsub hmem)]
      simpa using hfirst
    obtain ⟨content, hfile⟩ := honly.file_ok hline hfirst'
    refine ⟨content, _, hfile, fun key hkey => ?_⟩
    rw [get?_insert_of_not_fresh hkey, hkept key (List.not_mem_of_not_mem_cons hkey), Flatten.cache_askedFor]

end

/-! ## A chain beyond the limit -/

/-- The failure of a chain that is too deep.  It has arisen in the file at a depth and has left the files down to
it, the innermost first. -/
structure Failure.LeavesChain (failure : Failure) (files : List Place) (depth : Nat) : Prop where
  kind : failure.kind = .importDepth
  innermost : failure.path = files[depth]?.map Place.text
  length : failure.trace.length = depth + 1
  paths : failure.trace.map (·.path) = ((files.take (depth + 1)).map Place.text).reverse

theorem Failure.LeavesChain.of_cause {cause : Cause} (hkind : cause.kind = .importDepth) (first : Place)
    (files : List Place) (line : Option NumberedLine) :
    ((ofCause cause).report first.text line).LeavesChain (first :: files) 0 where
  kind := by rw [kind_report, kind_ofCause, hkind]
  innermost := by
    rw [path_report]
    rfl
  length := by
    rw [trace_report, trace_ofCause]
    rfl
  paths := by
    rw [trace_report, trace_ofCause]
    rfl

theorem Failure.LeavesChain.report {failure : Failure} {first : Place} {files : List Place} {depth : Nat}
    (h : failure.LeavesChain files depth) (hdepth : depth < files.length) (line : Option NumberedLine) :
    (failure.report first.text line).LeavesChain (first :: files) (depth + 1) where
  kind := by rw [kind_report, h.kind]
  innermost := by
    rw [path_report, h.innermost, List.getElem?_cons_succ, List.getElem?_eq_getElem hdepth]
    rfl
  length := by rw [trace_report, List.length_append, h.length, List.length_singleton]
  paths := by
    simp only [trace_report, List.map_append, h.paths, List.take_succ_cons, List.map_cons, List.map_nil,
      List.reverse_cons, path_diagnostic]

section
variable {s : Setting} {first : Place} {fresh finished : List Place} {ancestors : List String} {l : Ledger}
  {levels : Nat} {d : Int}

/-- **A chain beyond the limit** fails, and nothing is cached.  The induction is on the levels, and where none is
left the file that has been entered fails at its import. -/
theorem ImportChain.file_failed (hdepth : s.limits.importDepth = .levels d)
    (h : ImportChain s (first :: (fresh ++ finished)))
    (hclosed : ancestors.Disjoint ((first :: (fresh ++ finished)).map Place.text))
    (hfresh : ∀ file ∈ fresh, l.cache.get? file.text = none) (hdeep : levels < fresh.length) :
    ∃ failure l', Flatten.file s levels ancestors first l = (.error (.failed failure), l') ∧
      failure.LeavesChain (first :: fresh) levels ∧ l'.cache = l.cache := by
  induction levels generalizing first fresh ancestors l with
  | zero =>
    obtain ⟨second, fresh, rfl⟩ := List.exists_cons_of_length_pos hdeep
    obtain ⟨passed, line, path, rest, honly⟩ := h.imports
    have hopen : second.text ∉ ancestors ++ [first.text] :=
      fun hmem => h.disjoint hclosed hmem List.mem_cons_self
    have hsecond : (Flatten.askedFor s first l).cache.get? second.text = none := by
      simpa using hfresh second List.mem_cons_self
    have hline := honly.imports.line_deep hopen hsecond
    rw [depthHalt_levels hdepth] at hline
    refine ⟨_, _, honly.file_failed hline, .of_cause rfl .., ?_⟩
    rw [Ledger.cache_report, Flatten.cache_askedFor]
  | succ levels ih =>
    obtain ⟨second, fresh, rfl⟩ := List.exists_cons_of_length_pos (Nat.zero_lt_of_lt hdeep)
    obtain ⟨passed, line, path, rest, honly⟩ := h.imports
    have hothers := h.disjoint hclosed
    have hopen : second.text ∉ ancestors ++ [first.text] := fun hmem => hothers hmem List.mem_cons_self
    have hsecond : (Flatten.askedFor s first l).cache.get? second.text = none := by
      simpa using hfresh second List.mem_cons_self
    have hroom : levels < fresh.length := Nat.lt_of_succ_lt_succ hdeep
    have hlater : ∀ file ∈ fresh, (Flatten.askedFor s first l).cache.get? file.text = none := by
      simpa using fun file hfile => hfresh file (List.mem_cons_of_mem _ hfile)
    obtain ⟨failure, l₁, hfetch, hleaves, hcache⟩ := ih h.tail hothers hlater hroom
    have hline : Flatten.line s (Flatten.below s (levels + 1)) (ancestors ++ [first.text]) first .none line
        (Flatten.askedFor s first l) = (.error (.failed failure), l₁) :=
      honly.imports.line_error hopen hsecond hfetch
    refine ⟨_, _, honly.file_failed hline, hleaves.report ?_ _, ?_⟩
    · exact Nat.lt_succ_of_lt hroom
    · rw [Ledger.cache_report, hcache, Flatten.cache_askedFor]

end

/-! ## The theorem -/

/-- How a call on a chain ends where so many levels of imports may be opened, and these files of it are not
cached before. -/
structure ChainEnds (fresh : List Place) (levels : Nat) (before : Table Text) (outcome : Outcome Text) :
    Prop where
  ok_iff : (∃ text, outcome.1 = .ok text) ↔ fresh.length ≤ levels + 1
  failed : levels + 1 < fresh.length →
    ∃ failure, outcome.1 = .error (.failed failure) ∧ failure.LeavesChain fresh levels
  unchanged : levels + 1 < fresh.length → outcome.2.cache = before

section
variable {s : Setting} {first : Place} {fresh finished : List Place} {l : Ledger} {levels : Nat} {d : Int}

/-- **A chain comes to a text** exactly if its files that are not cached are one more than the levels, or
fewer. -/
theorem ImportChain.ends (hdepth : s.limits.importDepth = .levels d)
    (h : ImportChain s (first :: (fresh ++ finished)))
    (hfresh : ∀ file ∈ first :: fresh, l.cache.get? file.text = none)
    (hfinished : ∀ file ∈ finished, l.cache.get? file.text ≠ none) :
    ChainEnds (first :: fresh) levels l.cache (Flatten.file s levels [] first l) := by
  have hclosed : ([] : List String).Disjoint ((first :: (fresh ++ finished)).map Place.text) :=
    List.disjoint_nil_left _
  rcases Nat.lt_or_ge levels fresh.length with hdeep | hroom
  · obtain ⟨failure, l', hfile, hleaves, hcache⟩ := h.file_failed hdepth hclosed
      (fun file hfile => hfresh file (List.mem_cons_of_mem _ hfile)) hdeep
    rw [hfile]
    refine ⟨iff_of_false (by simp) ?_, fun _ => ⟨failure, rfl, hleaves⟩, fun _ => hcache⟩
    rw [List.length_cons]
    omega
  · obtain ⟨content, l', hfile, -⟩ := h.file_ok hclosed hfresh hfinished hroom
    have hlength : (first :: fresh).length ≤ levels + 1 := Nat.succ_le_succ hroom
    rw [hfile]
    exact ⟨iff_of_true ⟨content, rfl⟩ hlength, fun h => absurd h (Nat.not_lt.mpr hlength),
      fun h => absurd h (Nat.not_lt.mpr hlength)⟩

end

end ShaderFlatten
