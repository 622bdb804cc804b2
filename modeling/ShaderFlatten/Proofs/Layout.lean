import ShaderFlatten.Proofs.Kinds
import ShaderFlatten.Proofs.LineEnds
import ShaderFlatten.Proofs.Splice
import ShaderFlatten.Proofs.Visible

/-!
# How line ends are laid out

Whether an emitted text gets a line end is decided on the lines that are left.  It is the same as to look at
the text of the source behind the line feed of the line, and to ask whether there is any:

    hasText ((Text.lines source).drop n) = true ↔ source.behind n ≠ []             (hasText_drop_lines)

So what a file comes to is made of the texts of its visible lines, each with a line feed behind it if there is
some text in the source behind its own, be it hidden or a directive.  A source without `#` comes to itself,
but for a line feed at its end.

A content line stands for itself with its constant, and an import for what the cache has for the file that it
names, when the file is finished as well as when the line is: no text leaves the cache.
-/

namespace ShaderFlatten

/-! ## Texts behind a line -/

namespace Text

/-- What stands behind so many line feeds of a text; nothing if it has fewer. -/
def behind : (feeds : Nat) → Text → Text
  | 0, t => t
  | _ + 1, [] => []
  | feeds + 1, c :: t => if c = '\n' then behind feeds t else behind (feeds + 1) t

/-- A text without the line feed at its end, if there is one. -/
def dropLineFeed (t : Text) : Text := if t.getLast? = some '\n' then t.dropLast else t

theorem dropLineFeed_cons (c : Char) {t : Text} (h : t ≠ []) :
    dropLineFeed (c :: t) = c :: dropLineFeed t := by
  unfold dropLineFeed
  rw [List.getLast?_cons_of_ne_nil h, List.dropLast_cons_of_ne_nil h]
  split <;> rfl

theorem dropLineFeed_singleton {c : Char} (hc : c ≠ '\n') : dropLineFeed [c] = [c] := by
  simp [dropLineFeed, hc]

end Text

namespace Flatten

theorem hasText_lines (t : Text) : hasText (Text.lines t) = true ↔ t ≠ [] := by
  cases t with
  | nil => decide
  | cons c t =>
    refine iff_of_true ?_ (List.cons_ne_nil c t)
    by_cases hc : c = '\n'
    · subst hc
      rw [lines_lineFeed]
      exact hasText_cons [] t
    · cases hlines : Text.lines t with
      | nil => exact absurd hlines (Text.split_ne_nil _ t)
      | cons first rest =>
        rw [lines_cons hc hlines]
        cases rest <;> rfl

/-- **Some text follows a line** if the source has some behind the line feed of that line. -/
theorem hasText_drop_lines (t : Text) (n : Nat) :
    hasText ((Text.lines t).drop n) = true ↔ t.behind n ≠ [] := by
  induction t generalizing n with
  | nil =>
    cases n with
    | zero => exact hasText_lines []
    | succ n => simp [Text.lines, Text.split, Text.behind, hasText]
  | cons c t ih =>
    cases n with
    | zero => exact hasText_lines (c :: t)
    | succ n =>
      rw [Text.behind]
      split
      · next hc =>
        subst hc
        rw [lines_lineFeed, List.drop_succ_cons]
        exact ih n
      · next hc =>
        cases hlines : Text.lines t with
        | nil => exact absurd hlines (Text.split_ne_nil _ t)
        | cons first rest =>
          -- the first line is longer by a character, and the lines behind it are the same
          rw [lines_cons hc hlines, List.drop_succ_cons, ← ih (n + 1), hlines, List.drop_succ_cons]

theorem emitted_drop_lines (text source : Text) (n : Nat) :
    emitted text ((Text.lines source).drop n) = text ++ if source.behind n = [] then [] else ['\n'] := by
  unfold emitted
  by_cases h : source.behind n = []
  · have hnone : hasText ((Text.lines source).drop n) = false :=
      Bool.eq_false_iff.mpr fun hsome => (hasText_drop_lines source n).mp hsome h
    simp [h, hnone]
  · simp [h, (hasText_drop_lines source n).mpr h]

end Flatten

/-! ## Texts stay in the cache -/

/-- What one ledger has cached, another has cached too. -/
def Ledger.Keeps (l l' : Ledger) : Prop :=
  ∀ key text, l.cache.get? key = some text → l'.cache.get? key = some text

namespace Ledger

variable {l l' l'' : Ledger}

theorem Keeps.of_cache (h : l'.cache = l.cache) : l.Keeps l' := fun key text hget => by rwa [h]

theorem Keeps.trans (h : l.Keeps l') (h' : l'.Keeps l'') : l.Keeps l'' :=
  fun key text hget => h' key text (h key text hget)

end Ledger

namespace Flatten

/-- Flattening a file takes no text out of the cache, and the text that it comes to is cached. -/
structure Caches (visit : Visit) : Prop where
  keeps : ∀ chain place (l : Ledger), l.Keeps (visit chain place l).2
  stores : ∀ chain (place : Place) l text, (visit chain place l).1 = .ok text →
    (visit chain place l).2.cache.get? place.text = some text

section
variable {s : Setting} {visit : Option Visit} {chain : List String} {place : Place} {l : Ledger}

theorem store_keeps (key : String) (text : Text) (l : Ledger) : l.Keeps (store key text l).2 := by
  intro key' text' hget
  unfold store
  cases hcached : l.cache.get? key with
  | some cached =>
    simp only
    split <;> exact hget
  | none =>
    have hne : key ≠ key' := by
      rintro rfl
      rw [hcached] at hget
      cases hget
    rw [Table.get?_insert, if_neg hne]
    exact hget

theorem store_stores {key : String} {text : Text} {l' : Ledger} (h : store key text l = (.ok (), l')) :
    l'.cache.get? key = some text := by
  unfold store at h
  split at h
  · next cached hcached =>
    split at h
    · next heq =>
      cases h
      rw [hcached, heq]
    · cases h
  · cases h
    rw [Table.get?_insert, if_pos rfl]

theorem importText_keeps (hvisit : ∀ v ∈ visit, Caches v) (line : Text) (l : Ledger) :
    l.Keeps (importText s visit chain place line l).2 := by
  unfold importText
  split
  · exact .of_cache rfl
  · split
    · exact .of_cache rfl
    · exact .of_cache rfl
    · simp only
      split
      · exact .of_cache rfl
      · split
        · exact .of_cache rfl
        · split
          · exact .of_cache rfl
          · next v => exact (hvisit v rfl).keeps _ _ _

theorem line_keeps (hvisit : ∀ v ∈ visit, Caches v) (blocks : OpenBlocks) (line : Text) (l : Ledger) :
    l.Keeps (Flatten.line s visit chain place blocks line l).2 := by
  have htext : l.Keeps (lineText s visit chain place line l).2 := by
    unfold lineText
    split
    · exact importText_keeps hvisit line l
    · exact .of_cache rfl
  unfold Flatten.line
  split
  · exact .of_cache rfl
  · exact .of_cache rfl
  · split
    · split
      · next hlineText => rwa [hlineText] at htext
      · next hlineText => rwa [hlineText] at htext
    · exact .of_cache rfl

theorem lines_keeps (hvisit : ∀ v ∈ visit, Caches v) (number : Nat) (blocks : OpenBlocks)
    (done rest : List Text) (l : Ledger) :
    l.Keeps (lines s visit chain place number blocks done rest l).2 := by
  induction rest generalizing number blocks done l with
  | nil => exact .of_cache rfl
  | cons first rest ih =>
    have hfirst : l.Keeps (Flatten.line s visit chain place blocks first l).2 :=
      line_keeps hvisit blocks first l
    rw [lines]
    split
    · next hline =>
      rw [hline] at hfirst
      exact hfirst.trans (.of_cache rfl)
    · next hline => rwa [hline] at hfirst
    · next hline =>
      rw [hline] at hfirst
      exact hfirst.trans (ih _ _ _ _)
    · next hline =>
      rw [hline] at hfirst
      exact hfirst.trans (ih _ _ _ _)

theorem source_keeps (hvisit : ∀ v ∈ visit, Caches v) (text : Text) (l : Ledger) :
    l.Keeps (source s visit chain place text l).2 := by
  have hall : l.Keeps (lines s visit chain place 1 .none [] (Text.lines text) l).2 :=
    lines_keeps hvisit 1 .none [] (Text.lines text) l
  unfold source
  simp only
  split
  · next hlines => rwa [hlines] at hall
  · next done blocks l₁ hlines =>
    rw [hlines] at hall
    split
    · exact hall.trans (.of_cache rfl)
    · have hstore := store_keeps place.text done.reverse.flatten l₁
      split
      · next hstored =>
        rw [hstored] at hstore
        exact hall.trans hstore
      · next hstored =>
        rw [hstored] at hstore
        exact hall.trans hstore

theorem source_stores {text content : Text} {l' : Ledger}
    (h : source s visit chain place text l = (.ok content, l')) :
    l'.cache.get? place.text = some content := by
  obtain ⟨_, _, _, _, _, _, hstore⟩ := source_content h
  exact store_stores hstore

/-- A file that can be read is its source; one that cannot be read leaves the cache as it is. -/
theorem fileWith_caches (hvisit : ∀ v ∈ visit, Caches v) : Caches (fileWith s visit) where
  keeps := by
    intro ancestors place l
    unfold fileWith
    rw [readText_eq]
    cases sourceAt s place with
    | error cause => exact .of_cache (by simp [failFile])
    | ok text => exact (Ledger.Keeps.of_cache (by simp)).trans (source_keeps hvisit text _)
  stores := by
    intro ancestors place l text h
    unfold fileWith at h ⊢
    rw [readText_eq] at h ⊢
    cases hsource : sourceAt s place with
    | error cause => simp [hsource, failFile] at h
    | ok source =>
      simp only [hsource] at h ⊢
      exact source_stores (Prod.ext h rfl)

end

/-- **The cache of a file**, by induction on the levels that may be opened below it. -/
theorem file_caches (s : Setting) (levels : Nat) : Caches (file s levels) := by
  induction levels with
  | zero => exact fileWith_caches (by simp)
  | succ levels ih => exact fileWith_caches (by simpa using ih)

theorem below_caches (s : Setting) (levels : Nat) : ∀ v ∈ below s levels, Caches v := by
  cases levels with
  | zero => simp [below]
  | succ levels => simpa [below] using file_caches s levels

/-! ## What a line stands for -/

/-- A content line of a file stands for itself with its constant, an import line for what is cached for the
file that it names. -/
inductive StandsFor (s : Setting) (cache : Table Text) (place : Place) (line text : Text) : Prop
  | content (kind : Line.kind line = .content)
    (substituted : Line.substitute line s.bindings.constants s.limits.lineLength = .ok text)
  | imported {path : Text} {target : Place} (parses : Line.importPath? line = .ok path)
    (resolved : s.disk.canonical? (importRequest place path) = .ok target)
    (cached : cache.get? target.text = some text)

section
variable {s : Setting} {visit : Option Visit} {chain : List String} {place : Place} {l l' : Ledger}
  {line text : Text}

theorem StandsFor.later (h : StandsFor s l.cache place line text) (hkeeps : l.Keeps l') :
    StandsFor s l'.cache place line text := by
  cases h with
  | content kind substituted => exact .content kind substituted
  | imported parses resolved cached => exact .imported parses resolved (hkeeps _ _ cached)

theorem standsFor_of_importText (hvisit : ∀ v ∈ visit, Caches v)
    (h : importText s visit chain place line l = (.ok text, l')) :
    StandsFor s l'.cache place line text := by
  unfold importText at h
  split at h
  · cases h
  · next path hpath =>
    split at h
    · cases h
    · cases h
    · next target htarget =>
      simp only at h
      split at h
      · cases h
      · split at h
        · next hcached =>
          cases h
          exact .imported hpath htarget hcached
        · split at h
          · cases h
          · next v =>
            have hstores := (hvisit v rfl).stores chain target l text (by rw [h])
            rw [h] at hstores
            exact .imported hpath htarget hstores

theorem standsFor_of_lineText (hvisit : ∀ v ∈ visit, Caches v) (hplain : IsPlain line)
    (h : lineText s visit chain place line l = (.ok text, l')) :
    StandsFor s l'.cache place line text := by
  rcases hplain with hkind | hkind
  · rw [lineText_of_import hkind] at h
    exact standsFor_of_importText hvisit h
  · rw [lineText_of_content hkind] at h
    exact .content hkind (congrArg Prod.fst h)

/-- **A source that comes to a text** is laid out: its visible lines in order, each with a line feed behind it
if some of the source is behind it. -/
theorem source_laid_out {source content : Text} (hvisit : ∀ v ∈ visit, Caches v)
    (h : Flatten.source s visit chain place source l = (.ok content, l')) :
    ∃ emits : List (NumberedLine × Text),
      emits.map Prod.fst = shown s.bindings.conditions .none (numbered 1 (Text.lines source)) ∧
      (∀ e ∈ emits, StandsFor s l'.cache place e.1.2 e.2) ∧
      content = (emits.map fun e => e.2 ++ if source.behind e.1.1 = [] then [] else ['\n']).flatten := by
  obtain ⟨done, blocks, l₁, hlines, -, hcontent, hstore⟩ := source_content h
  obtain ⟨emits, hshown, htexts, hdone⟩ := lines_emits [] hlines
  refine ⟨emits, hshown, fun e he => ?_, ?_⟩
  · obtain ⟨l₂, l₃, htext, number, behind, before, ahead, hahead⟩ := htexts e he
    have hmem : e.1 ∈ emits.map Prod.fst := List.mem_map_of_mem he
    rw [hshown] at hmem
    have hlater : l₃.Keeps l₁ := by
      have hkeeps : l₃.Keeps (lines s visit chain place number behind before ahead l₃).2 :=
        lines_keeps hvisit number behind before ahead l₃
      rwa [hahead] at hkeeps
    have hlast : l₁.Keeps l' := by
      have hkeeps := store_keeps place.text content l₁
      rwa [hstore] at hkeeps
    exact (standsFor_of_lineText hvisit (mem_shown_lines.mp hmem).1 htext).later (hlater.trans hlast)
  · rw [hcontent, hdone]
    simp only [List.nil_append, List.append_nil, List.reverse_reverse, emitted_drop_lines]

/-- The same for a file, as it is flattened at any point of a call. -/
theorem file_laid_out {source content : Text} {levels : Nat} {ancestors : List String}
    (hsource : sourceAt s place = .ok source) (h : file s levels ancestors place l = (.ok content, l')) :
    ∃ emits : List (NumberedLine × Text),
      emits.map Prod.fst = shown s.bindings.conditions .none (numbered 1 (Text.lines source)) ∧
      (∀ e ∈ emits, StandsFor s l'.cache place e.1.2 e.2) ∧
      content = (emits.map fun e => e.2 ++ if source.behind e.1.1 = [] then [] else ['\n']).flatten := by
  rw [file_eq, fileWith, readText_eq, hsource] at h
  exact source_laid_out (below_caches s levels) h

end

/-! ## Sources without a mark -/

/-- The texts that plain lines emit when some other lines are behind them. -/
def emittedAll : (passed rest : List Text) → List Text
  | [], _ => []
  | line :: passed, rest => emitted line (passed ++ rest) :: emittedAll passed rest

section
variable {s : Setting} {visit : Option Visit} {chain : List String} {place : Place} {blocks : OpenBlocks}

/-- A visible line without `#` stands for itself. -/
theorem line_plain {line : Text} (hline : '#' ∉ line) (hvisible : blocks.visible = true) (l : Ledger) :
    Flatten.line s visit chain place blocks line l = (.ok (some line, blocks), l) := by
  have hkind : Line.kind line = .content := Line.kind_of_not_mem hline
  have hturn : turnBlocks s.bindings.conditions blocks line = none := turnBlocks_eq_none_iff.mpr (.inr hkind)
  simp only [Flatten.line, hturn, hvisible, if_true, lineText_of_content hkind, Line.substitute_plain hline]

/-- **Visible lines without `#` stand for themselves**, and change nothing for the lines behind them. -/
theorem lines_plain {passed : List Text} (hpassed : ∀ line ∈ passed, '#' ∉ line)
    (hvisible : blocks.visible = true) (number : Nat) (done rest : List Text) (l : Ledger) :
    lines s visit chain place number blocks done (passed ++ rest) l =
      lines s visit chain place (number + passed.length) blocks ((emittedAll passed rest).reverse ++ done)
        rest l := by
  induction passed generalizing number done with
  | nil => rfl
  | cons first passed ih =>
    rw [List.forall_mem_cons] at hpassed
    rw [List.cons_append, lines, line_plain hpassed.1 hvisible]
    simp only [ih hpassed.2, emittedAll, List.reverse_cons, List.append_assoc, List.singleton_append,
      List.length_cons, Nat.add_assoc, Nat.add_comm 1]

/-- Lines without `#` up to the end go on to it. -/
theorem lines_plain_end {all : List Text} (hall : ∀ line ∈ all, '#' ∉ line) (hvisible : blocks.visible = true)
    (number : Nat) (done : List Text) (l : Ledger) :
    lines s visit chain place number blocks done all l =
      (.ok ((emittedAll all []).reverse ++ done, blocks), l) := by
  rw [← List.append_nil all, lines_plain hall hvisible, lines, List.append_nil]

/-- **All lines of a source together** are the source without the line feed at its end. -/
theorem emittedAll_lines (t : Text) : (emittedAll (Text.lines t) []).flatten = t.dropLineFeed := by
  induction t with
  | nil => rfl
  | cons c t ih =>
    by_cases hc : c = '\n'
    · subst hc
      rw [lines_lineFeed, emittedAll, List.append_nil, List.flatten_cons, ih, emitted]
      by_cases ht : t = []
      · subst ht
        rfl
      · rw [if_pos ((hasText_lines t).mpr ht), Text.dropLineFeed_cons _ ht]
        rfl
    · cases hlines : Text.lines t with
      | nil => exact absurd hlines (Text.split_ne_nil _ t)
      | cons first rest =>
        rw [hlines] at ih
        have hfirst (rest : List Text) : emitted (c :: first) rest = c :: emitted first rest := by
          unfold emitted
          split <;> rfl
        rw [emittedAll, List.flatten_cons] at ih
        rw [lines_cons hc hlines, emittedAll, List.flatten_cons, hfirst, List.cons_append, ih]
        by_cases ht : t = []
        · subst ht
          exact (Text.dropLineFeed_singleton hc).symm
        · exact (Text.dropLineFeed_cons c ht).symm

/-- **A source without `#`** comes to itself, but for the line feed at its end. -/
theorem source_plain {source : Text} {l : Ledger} (hsource : '#' ∉ source)
    (hcache : l.cache.get? place.text = none) :
    Flatten.source s visit chain place source l =
      (.ok source.dropLineFeed, { l with cache := l.cache.insert place.text source.dropLineFeed }) := by
  have hall : ∀ line ∈ Text.lines source, '#' ∉ line :=
    fun line hline hmem => hsource (Text.mem_of_mem_split hline hmem)
  have hvisible : OpenBlocks.none.visible = true := rfl
  have hfinish : OpenBlocks.none.finish = .ok () := rfl
  unfold Flatten.source
  simp only [lines_plain_end hall hvisible, hfinish, List.append_nil, List.reverse_reverse, emittedAll_lines,
    store_new hcache]

/-- The same for a file that has not been read yet. -/
theorem file_plain {source : Text} {l : Ledger} (hsource : sourceAt s place = .ok source) (hplain : '#' ∉ source)
    (hcache : l.cache.get? place.text = none) (levels : Nat) (ancestors : List String) :
    file s levels ancestors place l = (.ok source.dropLineFeed,
      { askedFor s place l with cache := l.cache.insert place.text source.dropLineFeed }) := by
  rw [file_eq, fileWith, readText_eq, hsource]
  simp only
  rw [source_plain hplain (by simpa using hcache), cache_askedFor]

end

end Flatten

/-! ## The theorem -/

/-- **Line ends are laid out by the text behind them.**  A readable file that comes to a text, at any point of
any call, has come to the texts of its visible lines in order, each with a line feed behind it exactly if there
is some text in the source behind the line feed of the line.  A file without `#` that is not cached comes to its
source without the line feed at its end, if there is one.  A call that enters a file is the flattening of that
file. -/
theorem line_ends_laid_out {engine : Engine} {disk : Disk} {bindings : Bindings} {place : Place} {source : Text}
    (hsource : Flatten.sourceAt (engine.setting disk bindings) place = .ok source) :
    (∀ levels ancestors l text l',
      Flatten.file (engine.setting disk bindings) levels ancestors place l = (.ok text, l') →
        ∃ emits : List (NumberedLine × Text),
          emits.map Prod.fst =
            Flatten.shown bindings.conditions .none (Flatten.numbered 1 (Text.lines source)) ∧
          (∀ e ∈ emits, Flatten.StandsFor (engine.setting disk bindings) l'.cache place e.1.2 e.2) ∧
          text = (emits.map fun e => e.2 ++ if source.behind e.1.1 = [] then [] else ['\n']).flatten) ∧
    ('#' ∉ source → ∀ levels ancestors l, l.cache.get? place.text = none →
      (Flatten.file (engine.setting disk bindings) levels ancestors place l).1 = .ok source.dropLineFeed) ∧
    ∀ request, disk.canonical? request = .ok place → engine.cache.get? place.text = none →
      (engine.process disk bindings request).1 = Flatten.file (engine.setting disk bindings)
        engine.limits.levels [] place (.ofCache engine.cache) := by
  refine ⟨fun levels ancestors l text l' htext => Flatten.file_laid_out hsource htext,
    fun hplain levels ancestors l hcache => ?_, fun request hplace hcache => Engine.process_file hplace hcache⟩
  rw [Flatten.file_plain hsource hplain hcache]

/-! A line with a hidden block behind it, and two line feeds at the end of a source. -/

/-- The source with a hidden block at its end. -/
def hiddenEndSource : Text := "a\n#if x\nb\n#endif".toList

theorem hiddenEndSource_outline : Outline.ofSource hiddenEndSource = ⟨[], [['x']], [], [], 1⟩ := by decide

theorem line_ends_laid_out_hidden :
    ((Engine.create .oneLevel).process (.pair (Utf8.ascii hiddenEndSource) .empty) nestedBindings
      "/a").1.1 = .ok "a\n".toList ∧
    ((Engine.create .oneLevel).process (.pair (Utf8.ascii "a\n\n".toList) .empty) nestedBindings
      "/a").1.1 = .ok "a\n".toList := by
  have hsource (t : Text) (hascii : (t.all fun c => c.toNat < 128) = true) :
      Flatten.sourceAt ((Engine.create .oneLevel).setting (.pair (Utf8.ascii t) .empty) nestedBindings) ["a"] =
        .ok t :=
    Flatten.sourceAt_ascii rfl (Disk.readBytes_pair_shader _ _) hascii
  constructor
  · have hread := hsource hiddenEndSource (by decide)
    have hsupplies : nestedBindings.Supplies (.ofSource hiddenEndSource) := by
      rw [hiddenEndSource_outline]
      constructor
      · have hx : String.ofList ['x'] = "x" := rfl
        simp [nestedBindings, Table.get?, hx]
      · simp
    obtain ⟨text, htext⟩ := Engine.process_ok_of_valid (Disk.canonical?_pair_shader _ _) rfl hread
      (by rw [hiddenEndSource_outline]; rfl) hsupplies rfl (by rw [hiddenEndSource_outline])
    obtain ⟨hlaid, -, hcall⟩ := line_ends_laid_out hread
    have hfile := hcall "/a" (Disk.canonical?_pair_shader _ _) rfl
    obtain ⟨emits, hshown, htexts, hemitted⟩ := hlaid _ _ _ _ _ (hfile.symm.trans (Prod.ext htext rfl))
    have hvisible : Flatten.shown nestedBindings.conditions .none
        (Flatten.numbered 1 (Text.lines hiddenEndSource)) = [(1, ['a'])] := by decide
    rw [hvisible] at hshown
    obtain ⟨⟨_, t⟩, nothing, rfl, rfl, hnone⟩ := List.map_eq_cons_iff.mp hshown
    obtain rfl := List.map_eq_nil_iff.mp hnone
    have hstands := htexts ((1, ['a']), t) List.mem_cons_self
    have ht : t = ['a'] := by
      cases hstands with
      | content _ substituted => exact (Except.ok.inj substituted).symm
      | imported parses _ _ => cases parses
    rw [htext, hemitted, ht]
    rfl
  · have hread := hsource "a\n\n".toList (by decide)
    obtain ⟨-, hplain, hcall⟩ := line_ends_laid_out hread
    rw [hcall "/a" (Disk.canonical?_pair_shader _ _) rfl, hplain (by decide) _ _ _ rfl]
    rfl

end ShaderFlatten
