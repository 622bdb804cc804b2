import ShaderFlatten.Proofs.Accounting
import ShaderFlatten.Proofs.Telling
import ShaderFlatten.Proofs.Writing

/-!
# Layers of settings

What holds during a run is said in layers: built in, by the user's configuration, by the project's, by an
options file and by options of the command line.  Every layer is read without regard to the ones below it,
and what it does not mention stays.  So each limit and each name is as the last layer says that speaks of
it,

    condition of a name = last option ∨ options file ∨ project ∨ user          (none if none has it)

and the project's configuration is the nearest one among the folders from the start upwards.
-/

namespace ShaderFlatten

/-! ## Tables -/

namespace Table

variable {α : Type}

/-- What the last entry of a name binds it to. -/
def last? (t : Table α) (name : String) : Option α := get? t.reverse name

@[simp] theorem last?_nil (name : String) : last? ([] : Table α) name = none := rfl

theorem get?_append (t u : Table α) (name : String) :
    get? (t ++ u) name = (get? t name).or (get? u name) := by
  fun_induction get? t name with
  | case1 => rfl
  | case2 a rest => simp [get?]
  | case3 n a rest hn ih => simpa [get?, hn] using ih

theorem last?_cons (n : String) (a : α) (t : Table α) (name : String) :
    last? ((n, a) :: t) name = (last? t name).or (if n = name then some a else none) := by
  rw [last?, List.reverse_cons, get?_append]
  rfl

/-- **The second of two tables wins**, and within it the last entry. -/
theorem get?_merge (t u : Table α) (name : String) :
    (t.merge u).get? name = (u.last? name).or (t.get? name) := by
  induction u generalizing t with
  | nil => rfl
  | cons entry u ih =>
    obtain ⟨n, a⟩ := entry
    have hmerge : t.merge ((n, a) :: u) = (t.insert n a).merge u := rfl
    rw [hmerge, ih, get?_insert, last?_cons, Option.or_assoc]
    split <;> rfl

/-- No name has two entries. -/
def Distinct (t : Table α) : Prop := t.names.Nodup

theorem mem_names_insert {t : Table α} {n name : String} {a : α} :
    name ∈ (t.insert n a).names ↔ name = n ∨ name ∈ t.names := by
  fun_induction insert t n a with
  | case1 => simp [names]
  | case2 b rest => simp [names]
  | case3 m b rest hm ih =>
    simp only [names, List.map_cons, List.mem_cons] at ih ⊢
    rw [ih]
    tauto

theorem Distinct.insert {t : Table α} (h : t.Distinct) (n : String) (a : α) : (t.insert n a).Distinct := by
  fun_induction Table.insert t n a with
  | case1 => simp [Distinct, names]
  | case2 b rest => exact h
  | case3 m b rest hm ih =>
    obtain ⟨hnew, hrest⟩ := List.nodup_cons.mp h
    refine List.nodup_cons.mpr ⟨fun hmem => ?_, ih hrest⟩
    rcases mem_names_insert.mp hmem with rfl | hmem
    · exact hm rfl
    · exact hnew hmem

theorem Distinct.merge {t : Table α} (h : t.Distinct) (u : Table α) : (t.merge u).Distinct := by
  induction u generalizing t with
  | nil => exact h
  | cons entry u ih => exact ih (h.insert entry.1 entry.2)

theorem distinct_nil : Distinct ([] : Table α) := List.nodup_nil

theorem Distinct.last? {t : Table α} (h : t.Distinct) (name : String) : t.last? name = t.get? name := by
  induction t with
  | nil => rfl
  | cons entry t ih =>
    obtain ⟨n, a⟩ := entry
    obtain ⟨hnew, hrest⟩ := List.nodup_cons.mp h
    rw [last?_cons, ih hrest, get?]
    split
    · next heq =>
      subst heq
      have hnone : get? t n = none := by
        by_contra hsome
        exact hnew (mem_names_iff.mpr hsome)
      simp [hnone]
    · simp

/-- The entries of a list as a table: the last one of a name counts. -/
theorem last?_merge_nil (u : Table α) (name : String) : (merge [] u).last? name = u.last? name := by
  rw [(distinct_nil.merge u).last?, get?_merge]
  simp [get?]

end Table

/-! ## What a document says -/

/-- What a configuration says: the limits that it sets, and its conditions and constants.  A limit may be
set to none. -/
structure Layer where
  importDepth : Option Int
  fileBytes : Option (Option Int)
  lineLength : Option (Option Int)
  conditions : Table Value
  constants : Table Value

namespace Layer

/-- The layer that says nothing. -/
def silent : Layer := ⟨none, none, none, [], []⟩

/-- A limit as a document writes it. -/
def limitEntry : Option Int → Value
  | none => .null
  | some n => .int n

/-- A document says a layer, and nothing in it is refused. -/
structure Reads (layer : Layer) (entries : Table Value) : Prop where
  importDepth : entries.get? "max_import_depth" = layer.importDepth.map .int
  fileBytes : entries.get? "max_file_bytes" = layer.fileBytes.map limitEntry
  lineLength : entries.get? "max_line_length" = layer.lineLength.map limitEntry
  importDepth_nonneg : ∀ n, layer.importDepth = some n → 0 ≤ n
  fileBytes_nonneg : ∀ n, layer.fileBytes = some (some n) → 0 ≤ n
  lineLength_nonneg : ∀ n, layer.lineLength = some (some n) → 0 ≤ n
  conditions : Value.part? "conditions" entries = some layer.conditions
  constants : Value.part? "constants" entries = some layer.constants
  conditions_allowed : ∀ entry ∈ layer.conditions, entry.2.isCondition = true
  constants_allowed : ∀ entry ∈ layer.constants, entry.2.isConstant = true

/-- Settings with a layer on top of them. -/
def onto (layer : Layer) (settings : Settings) : Settings :=
  { settings with
    limits :=
      { settings.limits with
        importDepth := (layer.importDepth.map .levels).getD settings.limits.importDepth
        fileBytes := layer.fileBytes.getD settings.limits.fileBytes
        lineLength := layer.lineLength.getD settings.limits.lineLength }
    bindings := settings.bindings.merge
      ⟨Table.merge [] layer.conditions, Table.merge [] layer.constants⟩ }

end Layer

/-! ## When reading succeeds -/

namespace Settings

theorem limitValue_eq_ok {key : String} {v : Value} {n : Int} :
    limitValue key v = .ok n ↔ v = .int n ∧ 0 ≤ n := by
  cases v with
  | int m =>
    by_cases hm : 0 ≤ m
    · simp only [limitValue, hm, if_true, Except.ok.injEq, Value.int.injEq]
      constructor
      · rintro rfl
        exact ⟨rfl, hm⟩
      · exact fun h => h.1
    · simp only [limitValue, hm, if_false, bind_eq_ok, throw_ne_ok, and_false, exists_false, false_iff,
        Value.int.injEq]
      rintro ⟨rfl, hn⟩
      exact hm hn
  | _ => simp [limitValue, bind_eq_ok, throw_ne_ok]

theorem optionalLimit_eq_ok {key : String} {v : Value} {limit : Option Int} :
    optionalLimit key v = .ok limit ↔ v = Layer.limitEntry limit ∧ ∀ n, limit = some n → 0 ≤ n := by
  by_cases hv : v = .null
  · subst hv
    cases limit <;> simp [optionalLimit, Layer.limitEntry]
  · have hsome : optionalLimit key v = (do return some (← limitValue key v)) := by
      unfold optionalLimit
      split
      · exact absurd rfl hv
      · rfl
    rw [hsome, bind_eq_ok]
    cases limit with
    | none => simp [pure_eq_ok, Layer.limitEntry, hv]
    | some n => simp [pure_eq_ok, limitValue_eq_ok, Layer.limitEntry]

/-- The depth of imports behind a document with this entry for it. -/
def depthSet (old : Depth) : Option Value → Except OptionsError Depth
  | none => .ok old
  | some v => do return .levels (← limitValue "max_import_depth" v)

/-- A limit that may be lifted, behind a document with this entry for it. -/
def limitSet (key : String) (old : Option Int) : Option Value → Except OptionsError (Option Int)
  | none => .ok old
  | some v => optionalLimit key v

theorem applyLimits_eq (limits : Limits) (entries : Table Value) :
    applyLimits limits entries = (do
      let importDepth ← depthSet limits.importDepth (entries.get? "max_import_depth")
      let fileBytes ← limitSet "max_file_bytes" limits.fileBytes (entries.get? "max_file_bytes")
      let lineLength ← limitSet "max_line_length" limits.lineLength (entries.get? "max_line_length")
      return { limits with importDepth, fileBytes, lineLength }) := by
  unfold applyLimits
  generalize entries.get? "max_import_depth" = depth
  generalize entries.get? "max_file_bytes" = bytes
  generalize entries.get? "max_line_length" = length
  cases depth with
  | none => cases bytes <;> cases length <;> rfl
  | some v =>
    cases h : limitValue "max_import_depth" v <;> cases bytes <;> cases length <;>
      simp only [depthSet, h] <;> rfl

theorem depthSet_eq_ok {old depth : Depth} {entry : Option Value} :
    depthSet old entry = .ok depth ↔
      ∃ said : Option Int, entry = said.map .int ∧ (∀ n, said = some n → 0 ≤ n) ∧
        depth = (said.map .levels).getD old := by
  cases entry with
  | none => simp [depthSet, eq_comm]
  | some v =>
    simp only [depthSet, bind_eq_ok, pure_eq_ok, limitValue_eq_ok]
    constructor
    · rintro ⟨n, ⟨rfl, hn⟩, rfl⟩
      exact ⟨some n, rfl, by simpa using hn, rfl⟩
    · rintro ⟨said, hv, hn, rfl⟩
      cases said with
      | none => cases hv
      | some n => exact ⟨n, ⟨by simpa using hv, hn n rfl⟩, rfl⟩

theorem limitSet_eq_ok {key : String} {old limit : Option Int} {entry : Option Value} :
    limitSet key old entry = .ok limit ↔
      ∃ said : Option (Option Int), entry = said.map Layer.limitEntry ∧
        (∀ n, said = some (some n) → 0 ≤ n) ∧ limit = said.getD old := by
  cases entry with
  | none => simp [limitSet, eq_comm]
  | some v =>
    simp only [limitSet, optionalLimit_eq_ok]
    constructor
    · rintro ⟨rfl, hn⟩
      exact ⟨some limit, rfl, by simpa using hn, rfl⟩
    · rintro ⟨said, hv, hn, rfl⟩
      cases said with
      | none => cases hv
      | some limit => exact ⟨by simpa using hv, by simpa using hn⟩

end Settings

/-- A table of values is checked entry by entry. -/
theorem EntryReader.check_ofTable {allowed : Value → Bool} {refuse : String → String → OptionsError}
    {entries : Table Value} {u : Unit} :
    ofTable.check allowed refuse entries = .ok u ↔ ∀ entry ∈ entries, allowed entry.2 = true := by
  induction entries with
  | nil => simp [check]
  | cons entry rest ih =>
    obtain ⟨name, v⟩ := entry
    have hvalue : ofTable.value? v = some v := rfl
    by_cases hv : allowed v = true
    · simp only [check, hvalue, Option.any_some, hv, if_true, ih, List.forall_mem_cons, true_and]
    · simp [check, hvalue, hv, bind_eq_ok, throw_ne_ok]

theorem EntryReader.toTable_ofTable (entries : Table Value) :
    ofTable.toTable entries = .ok (Table.merge [] entries) := by
  unfold toTable
  generalize ([] : Table Value) = done
  induction entries generalizing done with
  | nil => rfl
  | cons entry rest ih => exact ih (Table.insert done entry.1 entry.2)

theorem Bindings.ofValue_map_eq_ok {entries : Table Value} {bindings : Bindings} :
    ofValue (.map entries) = .ok bindings ↔
      ∃ conditions constants, Value.part? "conditions" entries = some conditions ∧
        Value.part? "constants" entries = some constants ∧
        (∀ entry ∈ conditions, entry.2.isCondition = true) ∧
        (∀ entry ∈ constants, entry.2.isConstant = true) ∧
        bindings = ⟨Table.merge [] conditions, Table.merge [] constants⟩ := by
  rw [ofValue]
  generalize Value.part? "conditions" entries = conditions?
  generalize Value.part? "constants" entries = constants?
  cases conditions? with
  | none => simp [ofEntries]
  | some conditions =>
    cases constants? with
    | none => simp [ofEntries]
    | some constants =>
      simp only [ofEntries, bind_eq_ok, EntryReader.check_ofTable, EntryReader.toTable_ofTable, pure_eq_ok]
      constructor
      · rintro ⟨-, hconditions, -, hconstants, _, h, _, h', rfl⟩
        cases h
        cases h'
        exact ⟨_, _, rfl, rfl, hconditions, hconstants, rfl⟩
      · rintro ⟨_, _, h, h', hconditions, hconstants, rfl⟩
        cases h
        cases h'
        exact ⟨(), hconditions, (), hconstants, _, rfl, _, rfl, rfl⟩

/-- **A document is accepted exactly if it says a layer**, whatever the settings below it are, and then the
layer comes on top of them. -/
theorem Settings.applyLayer_eq_ok {settings settings' : Settings} {entries : Table Value} :
    applyLayer settings entries = .ok settings' ↔
      ∃ layer : Layer, layer.Reads entries ∧ settings' = layer.onto settings := by
  simp only [applyLayer, applyLimits_eq, bind_eq_ok, pure_eq_ok, depthSet_eq_ok, limitSet_eq_ok,
    Bindings.ofValue_map_eq_ok]
  constructor
  · rintro ⟨_, ⟨_, ⟨depth, hdepth, hdepth₀, rfl⟩, _, ⟨bytes, hbytes, hbytes₀, rfl⟩, _,
      ⟨length, hlength, hlength₀, rfl⟩, rfl⟩, _, ⟨conditions, constants, hconditions, hconstants, hallowed,
      hallowed', rfl⟩, rfl⟩
    exact ⟨⟨depth, bytes, length, conditions, constants⟩, ⟨hdepth, hbytes, hlength, hdepth₀, hbytes₀,
      hlength₀, hconditions, hconstants, hallowed, hallowed'⟩, rfl⟩
  · rintro ⟨layer, h, rfl⟩
    exact ⟨_, ⟨_, ⟨_, h.importDepth, h.importDepth_nonneg, rfl⟩, _, ⟨_, h.fileBytes, h.fileBytes_nonneg, rfl⟩,
      _, ⟨_, h.lineLength, h.lineLength_nonneg, rfl⟩, rfl⟩, _, ⟨_, _, h.conditions, h.constants,
      h.conditions_allowed, h.constants_allowed, rfl⟩, rfl⟩

/-! ## What an options file binds -/

theorem EntryReader.distinct_toTable {κ : Type} {α : Type} {r : EntryReader κ α} {entries : List (κ × α)}
    {t : Table Value} (h : r.toTable entries = .ok t) : t.Distinct := by
  have hdone : Table.Distinct ([] : Table Value) := Table.distinct_nil
  unfold toTable at h
  generalize ([] : Table Value) = done at h hdone
  induction entries generalizing done with
  | nil =>
    rw [List.foldlM_nil, pure_eq_ok] at h
    exact h ▸ hdone
  | cons entry rest ih =>
    simp only [List.foldlM_cons, bind_eq_ok, pure_eq_ok] at h
    obtain ⟨_, ⟨name, -, rfl⟩, h⟩ := h
    exact ih _ h (hdone.insert _ _)

/-- Bindings in which no name is bound twice. -/
structure Bindings.Distinct (bindings : Bindings) : Prop where
  conditions : bindings.conditions.Distinct
  constants : bindings.constants.Distinct

theorem Bindings.distinct_empty : empty.Distinct := ⟨Table.distinct_nil, Table.distinct_nil⟩

theorem Bindings.distinct_ofEntries {κ α : Type} {r : EntryReader κ α}
    {conditions constants : Option (List (κ × α))} {bindings : Bindings}
    (h : ofEntries r conditions constants = .ok bindings) : bindings.Distinct := by
  unfold ofEntries at h
  split at h
  · simp only [bind_eq_ok, pure_eq_ok] at h
    obtain ⟨-, -, -, -, _, hconditions, _, hconstants, rfl⟩ := h
    exact ⟨EntryReader.distinct_toTable hconditions, EntryReader.distinct_toTable hconstants⟩
  · cases h

theorem Bindings.distinct_load {yaml : Yaml.Loader} {disk : Disk} {path : Path} {bindings : Bindings}
    (h : load yaml disk path = .ok bindings) : bindings.Distinct := by
  have hoptions : ∀ {x : Except OptionsError Bindings}, x.mapError LoadError.options = .ok bindings →
      x = .ok bindings := by
    intro x hx
    cases x <;> simp_all [Except.mapError]
  unfold load at h
  split at h
  · obtain ⟨document, -, h⟩ := bind_eq_ok.mp h
    have hbindings := hoptions h
    unfold Yaml.Document.bindings at hbindings
    split at hbindings
    · cases hbindings
      exact distinct_empty
    · exact distinct_ofEntries hbindings
  · obtain ⟨value, -, h⟩ := bind_eq_ok.mp h
    have hbindings := hoptions h
    unfold ofValue at hbindings
    split at hbindings
    · exact distinct_ofEntries hbindings
    · cases hbindings
      exact distinct_empty

/-- The bindings of an options file, and none if there is no such file. -/
def Bindings.OfFile (bindings : Bindings) (yaml : Yaml.Loader) (disk : Disk) : Option Path → Prop
  | none => bindings = empty
  | some path => load yaml disk path = .ok bindings

theorem Bindings.OfFile.distinct {bindings : Bindings} {yaml : Yaml.Loader} {disk : Disk}
    {file : Option Path} (h : bindings.OfFile yaml disk file) : bindings.Distinct := by
  cases file with
  | none => exact h ▸ distinct_empty
  | some path => exact distinct_load h

/-! ## What options of the command line bind -/

namespace Command

/-- The name and the value of an option for a condition; nothing if it is not well-formed. -/
def conditionFlag? : Option String → Option (String × Value)
  | none => none
  | some item =>
    match Arguments.splitEquals item with
    | (name, none) => some (trimmed name, .bool true)
    | (name, some value) => (switchWord? value).map fun b => (trimmed name, .bool b)

/-- The name and the value of an option for a constant; nothing if it has no equals sign. -/
def constantFlag? (item : Option String) : Option (String × Value) :=
  match Arguments.splitEquals (constantWord item) with
  | (name, some value) => some (trimmed name, .ofArgument value)
  | (_, none) => none

theorem addCondition_of_flag {item : Option String} {flag : String × Value}
    (h : conditionFlag? item = some flag) (done : Table Value) :
    addCondition done item = .ok (done.insert flag.1 flag.2) := by
  cases item with
  | none => cases h
  | some item =>
    simp only [conditionFlag?] at h
    simp only [addCondition]
    generalize Arguments.splitEquals item = parts at h ⊢
    obtain ⟨name, value?⟩ := parts
    cases value? with
    | none =>
      cases h
      rfl
    | some value =>
      obtain ⟨b, hb, rfl⟩ := Option.map_eq_some_iff.mp h
      simp only [switchValue, hb]
      rfl

theorem conditionTable_eq {items : List (Option String)} (h : ∀ item ∈ items, (conditionFlag? item).isSome) :
    conditionTable items = .ok (Table.merge [] (items.filterMap conditionFlag?)) := by
  have hfold : ∀ done : Table Value,
      items.foldlM addCondition done = .ok (done.merge (items.filterMap conditionFlag?)) := by
    induction items with
    | nil => exact fun done => rfl
    | cons item rest ih =>
      intro done
      obtain ⟨hitem, hrest⟩ := List.forall_mem_cons.mp h
      obtain ⟨flag, hflag⟩ := Option.isSome_iff_exists.mp hitem
      rw [List.foldlM_cons, addCondition_of_flag hflag, List.filterMap_cons_some hflag]
      exact ih hrest (done.insert flag.1 flag.2)
  exact hfold []

theorem constantTable_eq (items : List (Option String)) :
    constantTable items = Table.merge [] (items.filterMap constantFlag?) := by
  have hfold : ∀ done : Table Value, items.foldl (fun done item =>
      match Arguments.splitEquals (constantWord item) with
      | (name, some value) => done.insert (trimmed name) (.ofArgument value)
      | (_, none) => done) done = done.merge (items.filterMap constantFlag?) := by
    induction items with
    | nil => exact fun done => rfl
    | cons item rest ih =>
      intro done
      rw [List.foldl_cons, ih, List.filterMap_cons, constantFlag?]
      cases Arguments.splitEquals (constantWord item) with
      | mk name value? => cases value? <;> rfl
  exact hfold []

section
variable {tools : Tools} {t : Transcript} {a : Arguments} {base options : Bindings}

/-- Each layer goes on top of the one before, and then the malformed options are told. -/
theorem gatherBindings_of_tell (hoptions : options.OfFile tools.yaml t.disk a.optionsFile)
    (hconds : ∀ item ∈ a.conds, (conditionFlag? item).isSome) {t' : Transcript} :
    (t.tell tools.console .err ((malformedConstants a.consts).map ignoredLine) = (.ok (), t') →
      gatherBindings tools t a base = (.ok ((base.merge options).merge
        ⟨Table.merge [] (a.conds.filterMap conditionFlag?),
          Table.merge [] (a.consts.filterMap constantFlag?)⟩), t')) ∧
    ∀ b, t.tell tools.console .err ((malformedConstants a.consts).map ignoredLine) = (.error b, t') →
      gatherBindings tools t a base = (.error (.broken b), t') := by
  have hfile : fileBindings tools.yaml t.disk base a.optionsFile = .ok (base.merge options) := by
    cases hpath : a.optionsFile with
    | none =>
      rw [hpath] at hoptions
      cases hoptions
      rfl
    | some path =>
      rw [hpath] at hoptions
      have hload : Bindings.load tools.yaml t.disk path = .ok options := hoptions
      simp only [fileBindings, hload]
  constructor
  · intro htell
    simp only [gatherBindings, hfile, conditionTable_eq hconds, constantTable_eq, htell]
  · intro b htell
    simp only [gatherBindings, hfile, conditionTable_eq hconds, htell]

/-- The console shows every line and the bindings are gathered, or it refuses one and that is the end. -/
theorem gatherBindings_cases (hoptions : options.OfFile tools.yaml t.disk a.optionsFile)
    (hconds : ∀ item ∈ a.conds, (conditionFlag? item).isSome) :
    (∀ item ∈ malformedConstants a.consts, tools.console.Shows .err (ignoredLine item)) ∧
      (gatherBindings tools t a base).1 = .ok ((base.merge options).merge
        ⟨Table.merge [] (a.conds.filterMap conditionFlag?),
          Table.merge [] (a.consts.filterMap constantFlag?)⟩) ∨
    ∃ item ∈ malformedConstants a.consts, ∃ e, tools.console.line .err (ignoredLine item) = .error e ∧
      (gatherBindings tools t a base).1 = .error (.broken (.markup e)) := by
  obtain ⟨hok, herror⟩ := @gatherBindings_of_tell tools t a base options hoptions hconds
    (t.tell tools.console .err ((malformedConstants a.consts).map ignoredLine)).2
  cases htell : t.tell tools.console .err ((malformedConstants a.consts).map ignoredLine) with
  | mk result t' =>
    rw [htell] at hok herror
    cases result with
    | ok _ =>
      have hshown := Transcript.tell_eq_ok.mp (congrArg Prod.fst htell)
      exact .inl ⟨List.forall_mem_map.mp hshown, by rw [hok rfl]⟩
    | error b =>
      obtain ⟨line, hline, e, hrefused, rfl⟩ := Transcript.tell_eq_error (congrArg Prod.fst htell)
      obtain ⟨item, hitem, rfl⟩ := List.mem_map.mp hline
      exact .inr ⟨item, hitem, e, hrefused, by rw [herror _ rfl]⟩

theorem gatherBindings_eq_ok (hoptions : options.OfFile tools.yaml t.disk a.optionsFile)
    (hconds : ∀ item ∈ a.conds, (conditionFlag? item).isSome) :
    (gatherBindings tools t a base).1 = .ok ((base.merge options).merge
        ⟨Table.merge [] (a.conds.filterMap conditionFlag?),
          Table.merge [] (a.consts.filterMap constantFlag?)⟩) ↔
      ∀ item ∈ malformedConstants a.consts, tools.console.Shows .err (ignoredLine item) := by
  rcases @gatherBindings_cases tools t a base options hoptions hconds with
    ⟨hshown, hok⟩ | ⟨item, hitem, e, hrefused, herror⟩
  · exact iff_of_true hok hshown
  · refine iff_of_false (by simp [herror]) fun hshown => ?_
    obtain ⟨shown, hline⟩ := hshown item hitem
    cases hline.symm.trans hrefused

theorem gatherBindings_eq_error (hoptions : options.OfFile tools.yaml t.disk a.optionsFile)
    (hconds : ∀ item ∈ a.conds, (conditionFlag? item).isSome) {stop : OptionsStop}
    (h : (gatherBindings tools t a base).1 = .error stop) :
    ∃ item ∈ malformedConstants a.consts, ∃ e,
      tools.console.line .err (ignoredLine item) = .error e ∧ stop = .broken (.markup e) := by
  rcases @gatherBindings_cases tools t a base options hoptions hconds with
    ⟨-, hok⟩ | ⟨item, hitem, e, hrefused, herror⟩
  · cases hok.symm.trans h
  · cases herror.symm.trans h
    exact ⟨item, hitem, e, hrefused, rfl⟩

end

end Command

/-! ## The two configurations -/

/-- The place of the user's configuration, if there is one. -/
def Settings.userPlace? (disk : Disk) : Except Fault (Option Place) := do
  return if ← disk.isFile (userPlace disk).path then some (userPlace disk) else none

/-- A layer is what the configuration at a place says.  Where there is none, nothing is said; a file that
is no document says nothing either. -/
def Layer.Of (layer : Layer) (disk : Disk) : Option Place → Prop
  | none => layer = silent
  | some place => ∃ entries, (Settings.readLayer disk place.path).1 = .ok entries ∧ layer.Reads entries

namespace Settings

section
variable {disk : Disk} {layer : Layer}

theorem addLayer_eq (settings : Settings) {place : Place} (h : layer.Of disk (some place)) :
    ∃ log, addLayer disk settings place = (.ok (layer.onto settings), log) := by
  obtain ⟨entries, hread, hreads⟩ := h
  have happly : applyLayer settings entries = .ok (layer.onto settings) :=
    applyLayer_eq_ok.mpr ⟨layer, hreads, rfl⟩
  unfold addLayer
  cases hlayer : readLayer disk place.path with
  | mk result log =>
    rw [hlayer] at hread
    cases hread
    exact ⟨log, by simp only [happly, Except.mapError]⟩

theorem addUser_eq {user : Option Place} (settings : Settings) (hnone : settings.userFile = none)
    (huser : userPlace? disk = .ok user) (h : layer.Of disk user) :
    ∃ log, addUser disk settings = (.ok { layer.onto settings with userFile := user }, log) := by
  obtain ⟨found, hfound, huser⟩ := bind_eq_ok.mp huser
  rw [pure_eq_ok] at huser
  subst huser
  cases found with
  | false =>
    cases h
    have hsame : { Layer.silent.onto settings with userFile := none } = settings := by
      rw [← hnone]
      rfl
    refine ⟨[], ?_⟩
    simp only [addUser, hfound, Bool.false_eq_true, if_false]
    rw [hsame]
  | true =>
    obtain ⟨log, hadd⟩ := addLayer_eq settings h
    refine ⟨log, ?_⟩
    simp only [addUser, hfound, hadd, if_true]
    rfl

theorem addProject_eq {start : Path} {project : Option Place} (settings : Settings)
    (hnone : settings.projectFile = none)
    (hproject : projectPlace? disk start = .ok project) (h : layer.Of disk project) :
    ∃ log, addProject disk start settings =
      (.ok { layer.onto settings with projectFile := project }, log) := by
  cases project with
  | none =>
    cases h
    have hsame : { Layer.silent.onto settings with projectFile := none } = settings := by
      rw [← hnone]
      rfl
    exact ⟨[], by simp only [addProject, hproject, hsame]⟩
  | some place =>
    obtain ⟨log, hadd⟩ := addLayer_eq settings h
    refine ⟨log, ?_⟩
    simp only [addProject, hproject, hadd]
    rfl

/-- **The project's layer is on top of the user's**, and that on top of what is built in. -/
theorem load_eq {start : Path} {user project : Option Place} {lower upper : Layer}
    (huser : userPlace? disk = .ok user) (hlower : lower.Of disk user)
    (hproject : projectPlace? disk start = .ok project) (hupper : upper.Of disk project) :
    ∃ log, load disk start =
      (.ok { upper.onto (lower.onto standard) with userFile := user, projectFile := project }, log) := by
  obtain ⟨log, hadd⟩ := addUser_eq standard rfl huser hlower
  obtain ⟨more, hadd'⟩ :=
    addProject_eq { lower.onto standard with userFile := user } rfl hproject hupper
  refine ⟨log ++ more, ?_⟩
  simp only [load, hadd, hadd']
  rfl

end

/-! ## The search for the project's configuration -/

/-- The place that is looked at so many folders above one. -/
def candidate (folder : Place) (up : Nat) : Place := folder.take (folder.length - up) ++ [projectName]

theorem candidate_zero (folder : Place) : candidate folder 0 = folder ++ [projectName] := by
  simp [candidate]

theorem candidate_succ (folder : Place) (up : Nat) :
    candidate folder (up + 1) = candidate folder.dropLast up := by
  unfold candidate
  rw [List.dropLast_eq_take, List.take_take, List.length_take]
  congr 2
  omega

/-- What a search upwards from a folder comes to: the nearest place that has a file, with none at the
places before it, or nothing if no place has one.  The root is the last folder. -/
def Nearest (disk : Disk) (levels : Nat) (folder : Place) : Option Place → Prop
  | some place => ∃ up, up < levels ∧ up ≤ folder.length ∧ place = candidate folder up ∧
      disk.isFile (candidate folder up).path = .ok true ∧
      ∀ lower < up, disk.isFile (candidate folder lower).path = .ok false
  | none => ∀ up, up < levels → up ≤ folder.length → disk.isFile (candidate folder up).path = .ok false

section
variable {disk : Disk} {levels : Nat} {folder : Place} {found : Option Place}

theorem Nearest.here (h : disk.isFile (candidate folder 0).path = .ok true) :
    Nearest disk (levels + 1) folder found ↔ some (candidate folder 0) = found := by
  cases found with
  | none =>
    refine iff_of_false (fun hnone => ?_) (by simp)
    rw [hnone 0 (by omega) (by omega)] at h
    cases h
  | some place =>
    constructor
    · rintro ⟨up, -, -, rfl, -, hlower⟩
      rcases Nat.eq_zero_or_pos up with rfl | hup
      · rfl
      · rw [hlower 0 hup] at h
        cases h
    · intro heq
      cases heq
      exact ⟨0, by omega, by omega, rfl, h, by omega⟩

theorem Nearest.above (h : disk.isFile (candidate folder 0).path = .ok false) (hfolder : folder ≠ []) :
    Nearest disk (levels + 1) folder found ↔ Nearest disk levels folder.dropLast found := by
  have hlength : folder.dropLast.length + 1 = folder.length := by
    have hpos := List.length_pos_iff.mpr hfolder
    rw [List.length_dropLast]
    omega
  cases found with
  | none =>
    constructor
    · intro hnone up hup hle
      rw [← candidate_succ]
      exact hnone (up + 1) (by omega) (by omega)
    · intro hnone up hup hle
      cases up with
      | zero => exact h
      | succ up =>
        rw [candidate_succ]
        exact hnone up (by omega) (by omega)
  | some place =>
    constructor
    · rintro ⟨up, hup, hle, rfl, hfile, hlower⟩
      cases up with
      | zero =>
        rw [h] at hfile
        cases hfile
      | succ up =>
        rw [candidate_succ] at hfile ⊢
        refine ⟨up, by omega, by omega, rfl, hfile, fun lower hlt => ?_⟩
        rw [← candidate_succ]
        exact hlower (lower + 1) (by omega)
    · rintro ⟨up, hup, hle, rfl, hfile, hlower⟩
      rw [← candidate_succ] at hfile
      refine ⟨up + 1, by omega, by omega, by rw [candidate_succ], hfile, fun lower hlt => ?_⟩
      cases lower with
      | zero => exact h
      | succ lower =>
        rw [candidate_succ]
        exact hlower lower (by omega)

theorem Nearest.atRoot (h : disk.isFile (candidate [] 0).path = .ok false) :
    Nearest disk (levels + 1) [] found ↔ none = found := by
  cases found with
  | none =>
    refine iff_of_true (fun up _ hle => ?_) rfl
    rw [List.length_nil, Nat.le_zero] at hle
    rw [hle, h]
  | some place =>
    refine iff_of_false ?_ (by simp)
    rintro ⟨up, -, hle, -, hfile, -⟩
    rw [List.length_nil, Nat.le_zero] at hle
    rw [hle, h] at hfile
    cases hfile

theorem not_nearest_of_error {fault : Fault} (h : disk.isFile (candidate folder 0).path = .error fault) :
    ¬ Nearest disk (levels + 1) folder found := by
  intro hfound
  cases found with
  | none =>
    rw [hfound 0 (by omega) (by omega)] at h
    cases h
  | some place =>
    obtain ⟨up, -, -, -, hfile, hlower⟩ := hfound
    rcases Nat.eq_zero_or_pos up with rfl | hup
    · rw [hfile] at h
      cases h
    · rw [hlower 0 hup] at h
      cases h

/-- **The search finds the nearest file.** -/
theorem projectPlaceFrom?_eq_ok :
    projectPlaceFrom? disk levels folder = .ok found ↔ Nearest disk levels folder found := by
  induction levels generalizing folder with
  | zero => cases found <;> simp [projectPlaceFrom?, Nearest]
  | succ levels ih =>
    rw [projectPlaceFrom?, bind_eq_ok, ← candidate_zero]
    cases hfile : disk.isFile (candidate folder 0).path with
    | error fault => simpa using not_nearest_of_error hfile
    | ok here =>
      cases here with
      | true =>
        rw [Nearest.here hfile]
        simp [pure_eq_ok]
      | false =>
        by_cases hfolder : folder = []
        · subst hfolder
          rw [Nearest.atRoot hfile]
          simp [pure_eq_ok]
        · rw [Nearest.above hfile hfolder, ← ih]
          simp [hfolder]

theorem projectPlace?_eq_ok {start : Path} :
    projectPlace? disk start = .ok found ↔
      ∃ folder, disk.resolve? start = .ok folder ∧ Nearest disk searchLevels folder found := by
  simp only [projectPlace?, bind_eq_ok, projectPlaceFrom?_eq_ok]

end

end Settings

/-! ## What holds -/

namespace Command

section
variable (settings : Settings) (a : Arguments)

@[simp] theorem override_importDepth :
    (override settings a).limits.importDepth = a.maxDepth.getD settings.limits.importDepth := by
  unfold override
  cases a.maxDepth <;> rfl

@[simp] theorem override_fileBytes : (override settings a).limits.fileBytes = settings.limits.fileBytes := by
  unfold override
  cases a.maxDepth <;> rfl

@[simp] theorem override_lineLength :
    (override settings a).limits.lineLength = settings.limits.lineLength := by
  unfold override
  cases a.maxDepth <;> rfl

@[simp] theorem override_bindings : (override settings a).bindings = settings.bindings := by
  unfold override
  cases a.maxDepth <;> rfl

end

end Command

theorem Layer.bindings_onto (layer : Layer) (settings : Settings) (name : String) :
    (layer.onto settings).bindings.conditions.get? name =
      (layer.conditions.last? name).or (settings.bindings.conditions.get? name) ∧
    (layer.onto settings).bindings.constants.get? name =
      (layer.constants.last? name).or (settings.bindings.constants.get? name) := by
  simp only [onto, Bindings.merge, Table.get?_merge, Table.last?_merge_nil, and_self]

/-- **The last layer that speaks decides.**  Let the configurations of the user and of the project say
`lower` and `upper`, let an options file bind `options`, and let every option for a condition be
well-formed.  Then the settings are loaded, and each limit is the one of the last of `lower` and `upper` that
sets it, if only to none, under an option for the depth of imports, which comes last.  The bindings are
gathered exactly if the console shows the line about each malformed option for a constant, which is ignored,
and a line that it refuses is the only thing that keeps them from being gathered.  Among them a name has the
value of the last option for it, else of the options file, else of the project's configuration, else of the
user's, and none if none of them binds it.  The project's configuration is the nearest file of its name in the
first fifty folders from the start upwards, and there is none exactly if none of them has one. -/
theorem last_layer_decides {tools : Tools} {disk : Disk} {start : Path} {a : Arguments}
    {user project : Option Place} {lower upper : Layer} {options : Bindings}
    (huser : Settings.userPlace? disk = .ok user) (hlower : lower.Of disk user)
    (hproject : Settings.projectPlace? disk start = .ok project) (hupper : upper.Of disk project)
    (hoptions : options.OfFile tools.yaml disk a.optionsFile)
    (hconds : ∀ item ∈ a.conds, (Command.conditionFlag? item).isSome) :
    (∃ settings log bindings,
      Settings.load disk start = (.ok settings, log) ∧
      (∀ t : Transcript, t.disk = disk →
        ((Command.gatherBindings tools t a (Command.override settings a).bindings).1 = .ok bindings ↔
          ∀ item ∈ Command.malformedConstants a.consts,
            tools.console.Shows .err (Command.ignoredLine item)) ∧
        ∀ stop, (Command.gatherBindings tools t a (Command.override settings a).bindings).1 = .error stop →
          ∃ item ∈ Command.malformedConstants a.consts, ∃ e,
            tools.console.line .err (Command.ignoredLine item) = .error e ∧ stop = .broken (.markup e)) ∧
      (Command.override settings a).limits.importDepth =
        a.maxDepth.getD
          (((upper.importDepth.or lower.importDepth).map .levels).getD Limits.standard.importDepth) ∧
      (Command.override settings a).limits.fileBytes =
        (upper.fileBytes.or lower.fileBytes).getD Limits.standard.fileBytes ∧
      (Command.override settings a).limits.lineLength =
        (upper.lineLength.or lower.lineLength).getD Limits.standard.lineLength ∧
      ∀ name,
        bindings.conditions.get? name =
          (Table.last? (a.conds.filterMap Command.conditionFlag?) name).or
            ((options.conditions.get? name).or
              ((upper.conditions.last? name).or (lower.conditions.last? name))) ∧
        bindings.constants.get? name =
          (Table.last? (a.consts.filterMap Command.constantFlag?) name).or
            ((options.constants.get? name).or
              ((upper.constants.last? name).or (lower.constants.last? name)))) ∧
    ∀ found, Settings.projectPlace? disk start = .ok found ↔
      ∃ folder, disk.resolve? start = .ok folder ∧
        Settings.Nearest disk Settings.searchLevels folder found := by
  refine ⟨?_, fun found => Settings.projectPlace?_eq_ok⟩
  obtain ⟨log, hload⟩ := Settings.load_eq huser hlower hproject hupper
  have hdistinct := hoptions.distinct
  refine ⟨_, log, _, hload, fun t ht => ⟨Command.gatherBindings_eq_ok (ht ▸ hoptions) hconds,
    fun stop => Command.gatherBindings_eq_error (ht ▸ hoptions) hconds⟩, ?_, ?_, ?_, fun name => ⟨?_, ?_⟩⟩
  · rw [Command.override_importDepth]
    cases hupper' : upper.importDepth <;> simp [Layer.onto, hupper', Settings.standard]
  · rw [Command.override_fileBytes]
    cases hupper' : upper.fileBytes <;> simp [Layer.onto, hupper', Settings.standard]
  · rw [Command.override_lineLength]
    cases hupper' : upper.lineLength <;> simp [Layer.onto, hupper', Settings.standard]
  · simp only [Bindings.merge, Table.get?_merge, Table.last?_merge_nil, hdistinct.conditions.last?,
      Command.override_bindings, (upper.bindings_onto _ name).1, (lower.bindings_onto _ name).1]
    simp [Settings.standard, Bindings.empty, Table.get?]
  · simp only [Bindings.merge, Table.get?_merge, Table.last?_merge_nil, hdistinct.constants.last?,
      Command.override_bindings, (upper.bindings_onto _ name).2, (lower.bindings_onto _ name).2]
    simp [Settings.standard, Bindings.empty, Table.get?]

/-! Two configurations, each of which sets one limit. -/

/-- The user's configuration: files of any size. -/
def userText : Text := "\x7b\"max_file_bytes\": null\x7d".toList

/-- The project's configuration: three levels of imports. -/
def projectText : Text := "\x7b\"max_import_depth\": 3\x7d".toList

/-- A disk with both of them. -/
def layeredDisk : Disk where
  tree := ⟨[([".wgslpp"], .folder), ([".wgslpp", "config.json"], .file (Utf8.ascii userText)),
    ([".wgslpp.config.json"], .file (Utf8.ascii projectText))]⟩
  cwd := []
  home := []

/-- What the user's configuration says. -/
def userLayer : Layer := { Layer.silent with fileBytes := some none }

/-- What the project's configuration says. -/
def projectLayer : Layer := { Layer.silent with importDepth := some 3 }

/-- Two options for one condition, one for a constant and one that is ignored. -/
def flags : Arguments :=
  { Arguments.none with conds := [some "x", some " x =no"], consts := [some "n=1", some "m"] }

theorem conditions_flags :
    flags.conds.filterMap Command.conditionFlag? = [("x", .bool true), ("x", .bool false)] := by
  have hset : Command.conditionFlag? (some "x") = some ("x", .bool true) := by
    have hparts : Arguments.splitEquals "x" = ("x", none) := by decide
    have hname : Command.trimmed "x" = "x" := by decide
    simp only [Command.conditionFlag?, hparts, hname]
  have hreset : Command.conditionFlag? (some " x =no") = some ("x", .bool false) := by
    have hparts : Arguments.splitEquals " x =no" = (" x ", some "no") := by decide
    have hname : Command.trimmed " x " = "x" := by decide
    have hword : switchWord? "no" = some false := by decide
    simp only [Command.conditionFlag?, hparts, hname, hword, Option.map_some]
  simp only [flags, List.filterMap_cons, List.filterMap_nil, hset, hreset]

theorem constants_flags : flags.consts.filterMap Command.constantFlag? = [("n", .int 1)] := by
  have hset : Command.constantFlag? (some "n=1") = some ("n", .int 1) := by
    have hparts : Arguments.splitEquals "n=1" = ("n", some "1") := by decide
    have hname : Command.trimmed "n" = "n" := by decide
    have hvalue : Numeral.int? "1".toList = some 1 := by decide
    simp only [Command.constantFlag?, Command.constantWord, Option.getD_some, hparts, hname,
      Value.ofArgument, hvalue]
  have hignored : Command.constantFlag? (some "m") = none := by
    have hparts : Arguments.splitEquals "m" = ("m", none) := by decide
    simp only [Command.constantFlag?, Command.constantWord, Option.getD_some, hparts]
  simp only [flags, List.filterMap_cons, List.filterMap_nil, hset, hignored]

theorem stat_layeredDisk_user :
    layeredDisk.stat (Settings.userPlace layeredDisk).path =
      .ok ([".wgslpp", "config.json"], .file (Utf8.ascii userText)) := by
  have hfolder : layeredDisk.tree.entry? [".wgslpp"] = some .folder := by rfl
  have hfile : layeredDisk.tree.entry? [".wgslpp", "config.json"] = some (.file (Utf8.ascii userText)) := by
    rfl
  have hdescends : layeredDisk.tree.Descends [] [".wgslpp", "config.json"] :=
    ⟨rfl, ⟨by decide, by decide, by decide⟩, hfolder, ⟨by decide, by decide, by decide⟩,
      by simp [FileTree.Descends, hfile]⟩
  exact Disk.stat_of_descends rfl ⟨by decide, by decide⟩ hdescends hfile

/-- The document of one entry, whose key runs up to the colon and whose value up to the closing brace. -/
theorem Json.read_single {inner rest : Text} {key : String} {item : Value}
    (hkey : stringTail (inner.length + 1) [] inner = .ok (key, ':' :: rest))
    (hitem : ∀ fuel nesting, value (fuel + 1) nesting (skipGap rest) = .ok (item, ['\x7d'])) :
    read ('\x7b' :: '\"' :: inner) = .ok (.map [(key, item)]) := by
  have hentries (nesting : Nat) :
      entryList (inner.length + 2) nesting [] ('\"' :: inner) = .ok ([(key, item)], []) := by
    have hgap : skipGap (':' :: rest) = ':' :: rest := rfl
    rw [entryList, hkey]
    simp only [bind, Except.bind, hgap, hitem]
    rfl
  have hvalue (nesting : Nat) :
      value (inner.length + 3) (nesting + 1) ('\x7b' :: '\"' :: inner) = .ok (.map [(key, item)], []) := by
    have hgap : skipGap ('\"' :: inner) = '\"' :: inner := rfl
    rw [value.eq_def]
    simp only [hgap]
    change (entryList (inner.length + 2) nesting [] ('\"' :: inner) >>= fun read =>
      pure (Value.map read.1, read.2)) = _
    rw [hentries]
    rfl
  have hgap : skipGap ('\x7b' :: '\"' :: inner) = '\x7b' :: '\"' :: inner := rfl
  rw [read, hgap, List.length_cons, List.length_cons, maxNesting, hvalue]
  rfl

/-- The document of a configuration in ASCII. -/
theorem Settings.readLayer_ascii {disk : Disk} {path : Path} {place : Place} {text : Text}
    {entries : Table Value} (hstat : disk.stat path = .ok (place, .file (Utf8.ascii text)))
    (hascii : (text.all fun c => c.toNat < 128) = true)
    (hread : Json.read (Text.universalLines text) = .ok (.map entries)) :
    (readLayer disk path).1 = .ok entries := by
  have hbytes : disk.readBytes path = .ok (Utf8.ascii text) := by simp only [Disk.readBytes, hstat]
  have htext : disk.readUniversal path = .ok (Text.universalLines text) := by
    have hdecode : Utf8.decode (Utf8.ascii text).toList = .ok text := by
      have hchars : ∀ c ∈ text, c.toNat < 128 := by simpa using hascii
      rw [Utf8.ascii, Utf8.toList_toByteArray, Utf8.decode, Utf8.decodeFrom_ascii hchars]
      rfl
    rw [Disk.readUniversal, hbytes]
    simp only [Except.mapError, bind, Except.bind, hdecode]
    rfl
  have hjson : disk.readJson path = .ok (.map entries) := by
    rw [Disk.readJson, htext]
    simp only [bind, Except.bind, hread]
    rfl
  simp only [readLayer, hjson]

theorem stat_layeredDisk_project :
    layeredDisk.stat (Place.path [Settings.projectName]) =
      .ok ([Settings.projectName], .file (Utf8.ascii projectText)) :=
  Disk.stat_root ⟨by decide, by decide, by decide, by decide⟩ (by rfl)

theorem projectPlace?_layeredDisk :
    Settings.projectPlace? layeredDisk ⟨.root, []⟩ = .ok (some [Settings.projectName]) := by
  have hfollow : layeredDisk.followPath false ⟨.root, []⟩ = .ok .root := by
    rw [Disk.followPath]
    exact Disk.follow_nil
  have hroot : layeredDisk.stat (Place.path []) = .ok ([], .folder) := by
    have hlength : ¬ maxPathBytes < (Place.path []).toString.utf8ByteSize := by decide
    rw [Disk.stat, Disk.locate, if_neg (by decide), if_neg hlength]
    have hparts : (Place.path []).parts = [] := rfl
    rw [hparts, FileTree.locate]
    rfl
  have hresolve : layeredDisk.resolve? ⟨.root, []⟩ = .ok [] := by
    have hplace : layeredDisk.place .root = [] := rfl
    rw [Disk.resolve?, Disk.reached?, hfollow]
    simp only [pure, Except.pure, bind, Except.bind, hplace, hroot]
  refine Settings.projectPlace?_eq_ok.mpr ⟨[], hresolve, 0, by decide, Nat.le_refl _, rfl, ?_, by omega⟩
  rw [Settings.candidate_zero, List.nil_append, Disk.isFile, Disk.leadsTo, stat_layeredDisk_project]

theorem last_layer_decides_flags :
    ∃ settings log, ∃ bindings : Bindings,
      Settings.load layeredDisk ⟨.root, []⟩ = (.ok settings, log) ∧
      (Command.gatherBindings .standard (.start layeredDisk) flags
          (Command.override settings flags).bindings).1 = .ok bindings ∧
      (Command.override settings flags).limits.importDepth = .levels 3 ∧
      (Command.override settings flags).limits.fileBytes = none ∧
      bindings.conditions.get? "x" = some (.bool false) ∧
      bindings.constants.get? "n" = some (.int 1) ∧ bindings.constants.get? "m" = none := by
  have huserText : Json.read (Text.universalLines userText) = .ok (.map [("max_file_bytes", .null)]) :=
    @Json.read_single "max_file_bytes\": null\x7d".toList " null\x7d".toList _ _ (by rfl) fun _ _ => by rfl
  have hprojectText : Json.read (Text.universalLines projectText) =
      .ok (.map [("max_import_depth", .int 3)]) :=
    @Json.read_single "max_import_depth\": 3\x7d".toList " 3\x7d".toList _ _ (by rfl) fun _ _ => by rfl
  have huser : Settings.userPlace? layeredDisk = .ok (some (Settings.userPlace layeredDisk)) := by
    rw [Settings.userPlace?, Disk.isFile, Disk.leadsTo, stat_layeredDisk_user]
    rfl
  have hlower : userLayer.Of layeredDisk (some (Settings.userPlace layeredDisk)) :=
    ⟨[("max_file_bytes", .null)], Settings.readLayer_ascii stat_layeredDisk_user (by decide) huserText,
      by constructor <;> simp [userLayer, Layer.silent, Table.get?, Value.part?, Layer.limitEntry]⟩
  have hupper : projectLayer.Of layeredDisk (some [Settings.projectName]) :=
    ⟨[("max_import_depth", .int 3)],
      Settings.readLayer_ascii stat_layeredDisk_project (by decide) hprojectText,
      by constructor <;> simp [projectLayer, Layer.silent, Table.get?, Value.part?]⟩
  have hoptions : Bindings.empty.OfFile Tools.standard.yaml layeredDisk flags.optionsFile := rfl
  have hignored : ∀ item ∈ Command.malformedConstants flags.consts,
      Tools.standard.console.Shows .err (Command.ignoredLine item) := by
    have hitems : Command.malformedConstants flags.consts = ["m"] := by decide
    rw [hitems]
    exact List.forall_mem_singleton.mpr (Command.plain_shows_ignoredLine (by decide))
  obtain ⟨⟨settings, log, bindings, hload, hgather, hdepth, hbytes, -, hnames⟩, -⟩ :=
    last_layer_decides huser hlower projectPlace?_layeredDisk hupper hoptions (by decide)
  refine ⟨settings, log, bindings, hload, (hgather _ rfl).1.mpr hignored, hdepth, hbytes,
    (hnames "x").1.trans ?_, (hnames "n").2.trans ?_, (hnames "m").2.trans ?_⟩
  · rw [conditions_flags]
    rfl
  · rw [constants_flags]
    rfl
  · rw [constants_flags]
    rfl

/-- An option for a constant without an equals sign, in which a tag ends a style. -/
def markedFlags : Arguments := { Arguments.none with consts := [some "[/x]"] }

/-- The console refuses to tell that this option is ignored, and that ends the command. -/
theorem marked_option_ends_command :
    (∀ item ∈ markedFlags.conds, (Command.conditionFlag? item).isSome) ∧
    Command.malformedConstants markedFlags.consts = ["[/x]"] ∧
    (∀ bindings, (Command.gatherBindings .standard (.start layeredDisk) markedFlags .empty).1 ≠ .ok bindings) ∧
    (Command.runProcess .standard (.start layeredDisk) markedFlags .standard [⟨.relative, ["a"]⟩]).1 =
      .broken (.markup ⟨"closing tag '[/x]' at position 36 doesn't match any open tag"⟩) := by
  have hconds : ∀ item ∈ markedFlags.conds, (Command.conditionFlag? item).isSome := by
    simp [markedFlags, Arguments.none]
  have hitems : Command.malformedConstants markedFlags.consts = ["[/x]"] := by decide
  have hrefused : Tools.standard.console.line .err (Command.ignoredLine "[/x]") =
      .error ⟨"closing tag '[/x]' at position 36 doesn't match any open tag"⟩ := by
    have hmessage : Markup.notOpen ['[', '/', 'x', ']'] 36 =
        ⟨"closing tag '[/x]' at position 36 doesn't match any open tag"⟩ := by decide +kernel
    rw [← hmessage]
    exact @Command.plain_refuses_ignoredLine "[/x]" [] ['x'] [] (by decide) (by decide) (by decide) (by decide)
      (by decide)
  have hgather : ∀ base, Command.gatherBindings .standard (.start layeredDisk) markedFlags base =
      (.error (.broken (.markup ⟨"closing tag '[/x]' at position 36 doesn't match any open tag"⟩)),
        .start layeredDisk) :=
    fun base => (@Command.gatherBindings_of_tell .standard _ markedFlags base .empty rfl hconds _).2 _ (by
      rw [hitems, List.map_singleton, Transcript.tell, hrefused])
  refine ⟨hconds, hitems, fun bindings h => ?_, ?_⟩
  · rw [hgather] at h
    cases h
  · simp only [Command.runProcess, hgather]
    rfl

end ShaderFlatten
