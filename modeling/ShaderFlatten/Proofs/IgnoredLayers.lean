import ShaderFlatten.Proofs.Contents
import ShaderFlatten.Proofs.Documents

/-!
# Configurations that are ignored

The bytes of a configuration spell an object, or a text that spells none, or they cannot be read at all.  A text
that spells no object is ignored: it counts as the empty object, with one warning,

    Ignored content reason → readLayer disk path = (.ok [], [ignoreRecord path reason])

so that loading comes to the same settings when it is replaced by one.  Loading ends early only at an object with
an entry of the wrong type, or at bytes that cannot be read: they are not UTF-8, or they spell an integer with too
many digits or a value that is nested too deeply.
-/

namespace ShaderFlatten

namespace Settings

/-! ## What bytes come to -/

/-- The bytes of a configuration spell an object. -/
def Spells (content : ByteArray) (entries : Table Value) : Prop :=
  ∃ text, Utf8.decode content.toList = .ok text ∧ Json.read (Text.universalLines text) = .ok (.map entries)

/-- The bytes of a configuration spell a text, but no object, and the reason that a warning gives. -/
inductive Ignored (content : ByteArray) : String → Prop
  | malformed {text : Text} (htext : Utf8.decode content.toList = .ok text)
      (hread : Json.read (Text.universalLines text) = .error .malformed) :
      Ignored content LoadError.malformedJson.message
  | noObject {text : Text} {v : Value} (htext : Utf8.decode content.toList = .ok text)
      (hread : Json.read (Text.universalLines text) = .ok v) (hv : ∀ entries, v ≠ .map entries) :
      Ignored content "not a JSON object"

/-- The bytes of a configuration cannot be read. -/
inductive Stops (content : ByteArray) : LoadError → Prop
  | encoding {refusal : Utf8.Refusal} (htext : Utf8.decode content.toList = .error refusal) :
      Stops content (.encoding refusal)
  | digits {text : Text} {limit : DigitLimit} (htext : Utf8.decode content.toList = .ok text)
      (hread : Json.read (Text.universalLines text) = .error (.digits limit)) : Stops content (.digits limit)
  | deep {text : Text} {list : Bool} (htext : Utf8.decode content.toList = .ok text)
      (hread : Json.read (Text.universalLines text) = .error (.tooDeep list)) : Stops content (.deepJson list)

/-- Bytes spell an object, are ignored, or cannot be read. -/
theorem content_cases (content : ByteArray) :
    (∃ entries, Spells content entries) ∨ (∃ reason, Ignored content reason) ∨ ∃ e, Stops content e := by
  cases htext : Utf8.decode content.toList with
  | error refusal => exact .inr (.inr ⟨_, .encoding htext⟩)
  | ok text =>
    cases hread : Json.read (Text.universalLines text) with
    | error e =>
      cases e with
      | malformed => exact .inr (.inl ⟨_, .malformed htext hread⟩)
      | digits limit => exact .inr (.inr ⟨_, .digits htext hread⟩)
      | tooDeep list => exact .inr (.inr ⟨_, .deep htext hread⟩)
    | ok v =>
      cases v with
      | map entries => exact .inl ⟨entries, text, htext, hread⟩
      | _ => exact .inr (.inl ⟨_, .noObject htext hread (by simp)⟩)

section
variable {content : ByteArray}

theorem Spells.unique {entries entries' : Table Value} (h : Spells content entries) (h' : Spells content entries') :
    entries = entries' := by
  obtain ⟨text, htext, hread⟩ := h
  obtain ⟨text', htext', hread'⟩ := h'
  cases htext.symm.trans htext'
  cases hread.symm.trans hread'
  rfl

theorem Spells.not_ignored {entries : Table Value} (h : Spells content entries) (reason : String) :
    ¬ Ignored content reason := by
  obtain ⟨text, htext, hread⟩ := h
  rintro (⟨htext', hread'⟩ | ⟨htext', hread', hv⟩)
  · cases htext.symm.trans htext'
    cases hread.symm.trans hread'
  · cases htext.symm.trans htext'
    cases hread.symm.trans hread'
    exact hv entries rfl

theorem Ignored.unique {reason reason' : String} (h : Ignored content reason) (h' : Ignored content reason') :
    reason = reason' := by
  rcases h with ⟨htext, hread⟩ | ⟨htext, hread, -⟩ <;>
    rcases h' with ⟨htext', hread'⟩ | ⟨htext', hread', -⟩ <;>
    cases htext.symm.trans htext'
  · rfl
  · cases hread.symm.trans hread'
  · cases hread.symm.trans hread'
  · rfl

theorem Stops.not_spells {e : LoadError} (h : Stops content e) (entries : Table Value) :
    ¬ Spells content entries := by
  rintro ⟨text, htext, hread⟩
  rcases h with ⟨htext'⟩ | ⟨htext', hread'⟩ | ⟨htext', hread'⟩ <;> cases htext.symm.trans htext'
  · cases hread.symm.trans hread'
  · cases hread.symm.trans hread'

theorem Stops.not_ignored {e : LoadError} (h : Stops content e) (reason : String) : ¬ Ignored content reason := by
  rintro (⟨htext, hread⟩ | ⟨htext, hread, -⟩) <;>
    rcases h with ⟨htext'⟩ | ⟨htext', hread'⟩ | ⟨htext', hread'⟩ <;>
    cases htext.symm.trans htext' <;> cases hread.symm.trans hread'

end

section
variable {disk : Disk} {path : Path} {content : ByteArray}

/-- What loading a configuration makes of a text that is no JSON. -/
def ofReadError : Json.ReadError → LoadError
  | .malformed => .malformedJson
  | .digits limit => .digits limit
  | .tooDeep list => .deepJson list

theorem readJson_of_decode_error (hbytes : disk.readBytes path = .ok content) {refusal : Utf8.Refusal}
    (htext : Utf8.decode content.toList = .error refusal) : disk.readJson path = .error (.encoding refusal) := by
  rw [Disk.readJson, Disk.readUniversal, hbytes]
  simp only [Except.mapError, bind, Except.bind, htext]

/-- **Reading a file is decoding its bytes and reading the text.** -/
theorem readJson_of_decode (hbytes : disk.readBytes path = .ok content) {text : Text}
    (htext : Utf8.decode content.toList = .ok text) :
    disk.readJson path = (Json.read (Text.universalLines text)).mapError ofReadError := by
  have huniversal : disk.readUniversal path = .ok (Text.universalLines text) := by
    rw [Disk.readUniversal, hbytes]
    simp only [Except.mapError, bind, Except.bind, htext]
    rfl
  rw [Disk.readJson, huniversal]
  simp only [Except.mapError, bind, Except.bind]
  rcases Json.read (Text.universalLines text) with (- | limit | list) | v <;> rfl

theorem readLayer_of_spells (hbytes : disk.readBytes path = .ok content) {entries : Table Value}
    (h : Spells content entries) : readLayer disk path = (.ok entries, []) := by
  obtain ⟨text, htext, hread⟩ := h
  rw [readLayer, readJson_of_decode hbytes htext, hread]
  rfl

/-- **What is ignored counts as the empty object, with one warning.** -/
theorem readLayer_of_ignored (hbytes : disk.readBytes path = .ok content) {reason : String}
    (h : Ignored content reason) : readLayer disk path = (.ok [], [ignoreRecord path reason]) := by
  cases h with
  | malformed htext hread =>
    rw [readLayer, readJson_of_decode hbytes htext, hread]
    rfl
  | @noObject text v htext hread hv =>
    rw [readLayer, readJson_of_decode hbytes htext, hread]
    cases v with
    | map entries => exact absurd rfl (hv entries)
    | _ => rfl

theorem readLayer_of_stops (hbytes : disk.readBytes path = .ok content) {e : LoadError}
    (h : Stops content e) : readLayer disk path = (.error e, []) := by
  cases h with
  | encoding htext =>
    rw [readLayer, readJson_of_decode_error hbytes htext]
  | digits htext hread =>
    rw [readLayer, readJson_of_decode hbytes htext, hread]
    rfl
  | deep htext hread =>
    rw [readLayer, readJson_of_decode hbytes htext, hread]
    rfl

end

/-! ## The empty object in their place -/

/-- The bytes of the empty object. -/
def emptyObject : ByteArray := Utf8.ascii ['\x7b', '\x7d']

theorem spells_emptyObject : Spells emptyObject [] := by
  have hchars : ∀ c ∈ ['\x7b', '\x7d'], c.toNat < 128 := by simp
  refine ⟨['\x7b', '\x7d'], ?_, by rfl⟩
  rw [emptyObject, Utf8.ascii, Utf8.toList_toByteArray, Utf8.decode, Utf8.decodeFrom_ascii hchars]
  rfl

/-- A change of files that puts the empty object in place of bytes that are ignored, of all or of some. -/
def Clears (edit : Place → ByteArray → ByteArray) : Prop :=
  ∀ place content, edit place content = content ∨
    (∃ reason, Ignored content reason) ∧ edit place content = emptyObject

section
variable {disk : Disk} {edit : Place → ByteArray → ByteArray}

theorem readLayer_of_readBytes_error {disk' : Disk} {path : Path} {fault : Fault}
    (h : disk.readBytes path = .error fault) (h' : disk'.readBytes path = .error fault) :
    readLayer disk path = readLayer disk' path := by
  have hjson {d : Disk} (hbytes : d.readBytes path = .error fault) : d.readJson path = .error (.file fault) := by
    rw [Disk.readJson, Disk.readUniversal, hbytes]
    rfl
  rw [readLayer, readLayer, hjson h, hjson h']

theorem Clears.readLayer (hedit : Clears edit) (path : Path) :
    (readLayer (disk.mapFiles edit) path).1 = (readLayer disk path).1 := by
  cases hbytes : disk.readBytes path with
  | error fault =>
    rw [readLayer_of_readBytes_error (Disk.readBytes_mapFiles_error hbytes) hbytes]
  | ok content =>
    obtain ⟨place, -, -, hbytes'⟩ := Disk.readBytes_mapFiles_ok edit hbytes
    rcases hedit place content with hsame | ⟨⟨reason, hignored⟩, hempty⟩
    · rw [hsame] at hbytes'
      rcases content_cases content with ⟨entries, h⟩ | ⟨reason, h⟩ | ⟨e, h⟩
      · rw [readLayer_of_spells hbytes h, readLayer_of_spells hbytes' h]
      · rw [readLayer_of_ignored hbytes h, readLayer_of_ignored hbytes' h]
      · rw [readLayer_of_stops hbytes h, readLayer_of_stops hbytes' h]
    · rw [hempty] at hbytes'
      rw [readLayer_of_ignored hbytes hignored, readLayer_of_spells hbytes' spells_emptyObject]

theorem addLayer_fst (settings : Settings) (place : Place) :
    (addLayer disk settings place).1 =
      (do ((applyLayer settings (← (Settings.readLayer disk place.path).1)).mapError .options)) := by
  unfold addLayer
  rcases Settings.readLayer disk place.path with ⟨e | entries, log⟩ <;> rfl

theorem addLayer_snd (settings : Settings) (place : Place) :
    (addLayer disk settings place).2 = (Settings.readLayer disk place.path).2 := by
  unfold addLayer
  rcases Settings.readLayer disk place.path with ⟨e | entries, log⟩ <;> rfl

theorem addUser_fst (settings : Settings) :
    (addUser disk settings).1 = (do
      if ← (disk.isFile (userPlace disk).path).mapError .file then
        (addLayer disk settings (userPlace disk)).1.map fun s => { s with userFile := some (userPlace disk) }
      else .ok settings) := by
  simp only [addUser]
  rcases disk.isFile (userPlace disk).path with fault | (- | -) <;> rfl

theorem addProject_fst (start : Path) (settings : Settings) :
    (addProject disk start settings).1 = (do
      match ← (projectPlace? disk start).mapError .file with
      | none => .ok settings
      | some place =>
        (addLayer disk settings place).1.map fun s => { s with projectFile := some place }) := by
  unfold addProject
  rcases projectPlace? disk start with fault | (- | place) <;> rfl

theorem load_fst (start : Path) :
    (load disk start).1 = (do (addProject disk start (← (addUser disk standard).1)).1) := by
  unfold load
  rcases addUser disk standard with ⟨e | settings, log⟩ <;> rfl

theorem projectPlace?_mapFiles (start : Path) :
    projectPlace? (disk.mapFiles edit) start = projectPlace? disk start := by
  have hfrom (levels : Nat) (folder : Place) :
      projectPlaceFrom? (disk.mapFiles edit) levels folder = projectPlaceFrom? disk levels folder := by
    induction levels generalizing folder with
    | zero => rfl
    | succ levels ih => simp only [projectPlaceFrom?, Disk.isFile_mapFiles, ih]
  simp only [projectPlace?, Disk.resolve?_mapFiles, hfrom]

/-- **Ignored configurations count as the empty object**: the same settings are loaded. -/
theorem Clears.load (hedit : Clears edit) (start : Path) :
    (load (disk.mapFiles edit) start).1 = (load disk start).1 := by
  have hlayer (settings : Settings) (place : Place) :
      (addLayer (disk.mapFiles edit) settings place).1 = (addLayer disk settings place).1 := by
    rw [addLayer_fst, addLayer_fst, hedit.readLayer]
  have hplace : userPlace (disk.mapFiles edit) = userPlace disk := rfl
  simp only [load_fst, addUser_fst, addProject_fst, hplace, Disk.isFile_mapFiles, projectPlace?_mapFiles, hlayer]

end

/-! ## When loading ends early -/

/-- Every entry that a configuration may hold is of the right type: the depth of imports is a number that is not
negative, the other limits are such numbers or null, and the bindings can be read. -/
structure WellTyped (entries : Table Value) : Prop where
  importDepth : ∀ v, entries.get? "max_import_depth" = some v → ∃ n, v = .int n ∧ 0 ≤ n
  fileBytes : ∀ v, entries.get? "max_file_bytes" = some v → v = .null ∨ ∃ n, v = .int n ∧ 0 ≤ n
  lineLength : ∀ v, entries.get? "max_line_length" = some v → v = .null ∨ ∃ n, v = .int n ∧ 0 ≤ n
  parts : Bindings.Passes entries

theorem exists_depthSet_iff {old : Depth} {entry : Option Value} :
    (∃ depth, depthSet old entry = .ok depth) ↔ ∀ v, entry = some v → ∃ n, v = .int n ∧ 0 ≤ n := by
  cases entry with
  | none => simp [depthSet]
  | some v =>
    simp only [depthSet, bind_eq_ok, pure_eq_ok, limitValue_eq_ok, Option.some.injEq, forall_eq']
    constructor
    · rintro ⟨depth, n, hn, -⟩
      exact ⟨n, hn⟩
    · rintro ⟨n, hn⟩
      exact ⟨_, n, hn, rfl⟩

theorem exists_limitSet_iff {key : String} {old : Option Int} {entry : Option Value} :
    (∃ limit, limitSet key old entry = .ok limit) ↔
      ∀ v, entry = some v → v = .null ∨ ∃ n, v = .int n ∧ 0 ≤ n := by
  cases entry with
  | none => simp [limitSet]
  | some v =>
    simp only [limitSet, optionalLimit_eq_ok, Option.some.injEq, forall_eq']
    constructor
    · rintro ⟨limit, rfl, hlimit⟩
      cases limit with
      | none => exact .inl rfl
      | some n => exact .inr ⟨n, rfl, hlimit n rfl⟩
    · rintro (rfl | ⟨n, rfl, hn⟩)
      · exact ⟨none, rfl, by simp⟩
      · exact ⟨some n, rfl, by simpa using hn⟩

/-- **A configuration is accepted exactly if it is well typed.** -/
theorem exists_applyLayer_iff (settings : Settings) {entries : Table Value} :
    (∃ settings', applyLayer settings entries = .ok settings') ↔ WellTyped entries := by
  simp only [applyLayer, applyLimits_eq, bind_eq_ok, pure_eq_ok, Bindings.ofValue_map_eq_ok_iff]
  constructor
  · rintro ⟨-, -, ⟨depth, hdepth, bytes, hbytes, length, hlength, -⟩, -, ⟨hparts, -⟩, -⟩
    exact ⟨exists_depthSet_iff.mp ⟨depth, hdepth⟩, exists_limitSet_iff.mp ⟨bytes, hbytes⟩,
      exists_limitSet_iff.mp ⟨length, hlength⟩, hparts⟩
  · rintro ⟨hdepth, hbytes, hlength, hparts⟩
    obtain ⟨depth, hdepth⟩ := exists_depthSet_iff.mpr hdepth
    obtain ⟨bytes, hbytes⟩ := exists_limitSet_iff.mpr hbytes
    obtain ⟨length, hlength⟩ := exists_limitSet_iff.mpr hlength
    exact ⟨_, _, ⟨depth, hdepth, bytes, hbytes, length, hlength, rfl⟩, _, ⟨hparts, rfl⟩, rfl⟩

theorem wellTyped_nil : WellTyped [] := by
  constructor <;> simp [Table.get?, Bindings.Passes, Value.IsPart]

/-- A configuration can be used: it is ignored, or it is an object of the right types. -/
def Usable (content : ByteArray) : Prop :=
  (∃ reason, Ignored content reason) ∨ ∃ entries, Spells content entries ∧ WellTyped entries

/-- Why a configuration ends loading: it cannot be read, or it is an object with an entry of the wrong type. -/
inductive Ends (content : ByteArray) : LoadError → Prop
  | stops {e : LoadError} (h : Stops content e) : Ends content e
  | illTyped {entries : Table Value} {refusal : OptionsError} (h : Spells content entries)
      (htyped : ¬ WellTyped entries) : Ends content (.options refusal)

/-- The warnings about a configuration: one if it is ignored, and none otherwise. -/
def Warned (content : ByteArray) (path : Path) (log : List LogRecord) : Prop :=
  (∃ reason, Ignored content reason ∧ log = [ignoreRecord path reason]) ∨
    (¬ ∃ reason, Ignored content reason) ∧ log = []

/-- **What a configuration adds**: it is usable and accepted, or ends loading; it is warned about if it is
ignored. -/
theorem addLayer_cases {disk : Disk} {place : Place} {content : ByteArray}
    (hbytes : disk.readBytes place.path = .ok content) (settings : Settings) :
    ((∃ settings', (addLayer disk settings place).1 = .ok settings') ∧ Usable content ∨
      ∃ e, (addLayer disk settings place).1 = .error e ∧ Ends content e ∧ ¬ Usable content) ∧
    Warned content place.path (addLayer disk settings place).2 := by
  have hok {entries : Table Value} {settings' : Settings} (h : applyLayer settings entries = .ok settings') :
      (do ((applyLayer settings (← (.ok entries : Except LoadError (Table Value)))).mapError LoadError.options)) =
        .ok settings' := by
    simp only [bind, Except.bind, Except.mapError, h]
  have herror {entries : Table Value} {refusal : OptionsError} (h : applyLayer settings entries = .error refusal) :
      (do ((applyLayer settings (← (.ok entries : Except LoadError (Table Value)))).mapError LoadError.options)) =
        .error (.options refusal) := by
    simp only [bind, Except.bind, Except.mapError, h]
  rw [addLayer_snd, addLayer_fst]
  rcases content_cases content with ⟨entries, h⟩ | ⟨reason, h⟩ | ⟨e, h⟩
  · rw [readLayer_of_spells hbytes h]
    refine ⟨?_, .inr ⟨fun ⟨reason, hignored⟩ => h.not_ignored reason hignored, rfl⟩⟩
    cases hresult : applyLayer settings entries with
    | ok settings' =>
      have htyped : WellTyped entries := (exists_applyLayer_iff settings).mp ⟨settings', hresult⟩
      exact .inl ⟨⟨settings', hok hresult⟩, .inr ⟨entries, h, htyped⟩⟩
    | error refusal =>
      have htyped : ¬ WellTyped entries := by
        rw [← exists_applyLayer_iff settings]
        simp [hresult]
      refine .inr ⟨.options refusal, herror hresult, .illTyped h htyped, ?_⟩
      rintro (⟨reason, hignored⟩ | ⟨entries', h', htyped'⟩)
      · exact h.not_ignored reason hignored
      · exact htyped (h.unique h' ▸ htyped')
  · rw [readLayer_of_ignored hbytes h]
    obtain ⟨settings', hresult⟩ := (exists_applyLayer_iff settings).mpr wellTyped_nil
    exact ⟨.inl ⟨⟨settings', hok hresult⟩, .inl ⟨reason, h⟩⟩, .inl ⟨reason, h, rfl⟩⟩
  · rw [readLayer_of_stops hbytes h]
    have hnone : ¬ ∃ reason, Ignored content reason := fun ⟨reason, hignored⟩ => h.not_ignored reason hignored
    refine ⟨.inr ⟨e, rfl, .stops h, ?_⟩, .inr ⟨hnone, rfl⟩⟩
    rintro (⟨reason, hignored⟩ | ⟨entries, hspells, -⟩)
    · exact h.not_ignored reason hignored
    · exact h.not_spells entries hspells

/-! ## Both configurations -/

theorem exists_readBytes_of_isFile {disk : Disk} {path : Path} (h : disk.isFile path = .ok true) :
    ∃ content, disk.readBytes path = .ok content := by
  rw [Disk.isFile, Disk.leadsTo] at h
  rw [Disk.readBytes]
  rcases hstat : disk.stat path with fault | ⟨place, content | - | target⟩
  all_goals rw [hstat] at h
  · split at h
    · next heq => cases heq
    · cases h
    · split at h <;> cases h
    · cases h
  · exact ⟨content, rfl⟩
  · cases h
  · cases h

/-- Override the settings by the configuration at a place, if there is one. -/
def addAt (disk : Disk) (settings : Settings) : Option Place → Except LoadError Settings × List LogRecord
  | none => (.ok settings, [])
  | some place => addLayer disk settings place

section
variable {disk : Disk} {start : Path} {user project : Option Place} {settings : Settings}

theorem exists_readBytes_of_userPlace? (huser : userPlace? disk = .ok user) :
    ∀ place ∈ user, ∃ content, disk.readBytes place.path = .ok content := by
  obtain ⟨found, hfound, huser⟩ := bind_eq_ok.mp huser
  rw [pure_eq_ok] at huser
  subst huser
  cases found with
  | false => simp
  | true => simpa using exists_readBytes_of_isFile hfound

theorem exists_readBytes_of_projectPlace? (hproject : projectPlace? disk start = .ok project) :
    ∀ place ∈ project, ∃ content, disk.readBytes place.path = .ok content := by
  obtain ⟨folder, -, hnearest⟩ := projectPlace?_eq_ok.mp hproject
  rintro place rfl
  obtain ⟨up, -, -, rfl, hfile, -⟩ := hnearest
  exact exists_readBytes_of_isFile hfile

theorem addUser_eq_addAt (huser : userPlace? disk = .ok user) (settings : Settings) :
    ∃ mark : Settings → Settings, addUser disk settings =
      ((addAt disk settings user).1.map mark, (addAt disk settings user).2) := by
  obtain ⟨found, hfound, huser⟩ := bind_eq_ok.mp huser
  rw [pure_eq_ok] at huser
  subst huser
  cases found with
  | false => exact ⟨id, by simp only [addUser, hfound]; rfl⟩
  | true => exact ⟨_, by simp only [addUser, hfound]; rfl⟩

theorem addProject_eq_addAt (hproject : projectPlace? disk start = .ok project) (settings : Settings) :
    ∃ mark : Settings → Settings, addProject disk start settings =
      ((addAt disk settings project).1.map mark, (addAt disk settings project).2) := by
  cases project with
  | none => exact ⟨id, by simp only [addProject, hproject]; rfl⟩
  | some place => exact ⟨_, by simp only [addProject, hproject]; rfl⟩

end

/-- The configuration at a place can be used, if there is one. -/
def UsableAt (disk : Disk) (found : Option Place) : Prop :=
  ∀ place ∈ found, ∀ content, disk.readBytes place.path = .ok content → Usable content

/-- The configuration at a place ends loading. -/
def EndsAt (disk : Disk) (found : Option Place) (e : LoadError) : Prop :=
  ∃ place ∈ found, ∃ content, disk.readBytes place.path = .ok content ∧ Ends content e

/-- The warnings about the configuration at a place, and none if there is no configuration. -/
def WarnedAt (disk : Disk) (found : Option Place) (log : List LogRecord) : Prop :=
  match found with
  | none => log = []
  | some place => ∃ content, disk.readBytes place.path = .ok content ∧ Warned content place.path log

theorem addAt_cases {disk : Disk} {found : Option Place}
    (hfound : ∀ place ∈ found, ∃ content, disk.readBytes place.path = .ok content) (settings : Settings) :
    ((∃ settings', (addAt disk settings found).1 = .ok settings') ∧ UsableAt disk found ∨
      ∃ e, (addAt disk settings found).1 = .error e ∧ EndsAt disk found e ∧ ¬ UsableAt disk found) ∧
    WarnedAt disk found (addAt disk settings found).2 := by
  cases found with
  | none => exact ⟨.inl ⟨⟨settings, rfl⟩, by simp [UsableAt]⟩, rfl⟩
  | some place =>
    obtain ⟨content, hbytes⟩ := hfound place rfl
    obtain ⟨hcases, hwarned⟩ := addLayer_cases hbytes settings
    refine ⟨?_, content, hbytes, hwarned⟩
    rcases hcases with ⟨hok, husable⟩ | ⟨e, he, hends, hunusable⟩
    · refine .inl ⟨hok, fun place' hplace content' hbytes' => ?_⟩
      cases hplace
      cases hbytes.symm.trans hbytes'
      exact husable
    · exact .inr ⟨e, he, ⟨place, rfl, content, hbytes, hends⟩,
        fun h => hunusable (h place rfl content hbytes)⟩

end Settings

open Settings in
/-- **Configurations that spell no object say nothing.**  Where the user's and the project's configuration have
been looked for, the same settings are loaded, or loading ends in the same way, when the bytes of ignored
configurations are replaced by the empty object.  Each of them causes one warning, the user's first; no other
configuration does.  Settings are loaded exactly if every configuration that there is can be used: it is ignored
or an object of the right types.  Otherwise loading ends with the first one that cannot, either because it is an
object with an entry of the wrong type or because its bytes cannot be read. -/
theorem ignored_layers_say_nothing {disk : Disk} {start : Path} {user project : Option Place}
    (huser : userPlace? disk = .ok user) (hproject : projectPlace? disk start = .ok project) :
    (∀ edit, Clears edit → (load (disk.mapFiles edit) start).1 = (load disk start).1) ∧
    ((∃ settings, (load disk start).1 = .ok settings) ↔ UsableAt disk user ∧ UsableAt disk project) ∧
    (∀ e, (load disk start).1 = .error e →
      EndsAt disk user e ∨ UsableAt disk user ∧ EndsAt disk project e) ∧
    ∃ before after, (load disk start).2 = before ++ after ∧ WarnedAt disk user before ∧
      (WarnedAt disk project after ∨ ¬ UsableAt disk user ∧ after = []) := by
  refine ⟨fun edit hedit => hedit.load start, ?_⟩
  obtain ⟨mark, hadd⟩ := addUser_eq_addAt huser standard
  obtain ⟨hcases, hwarned⟩ := addAt_cases (exists_readBytes_of_userPlace? huser) standard
  rcases hcases with ⟨⟨settings, hok⟩, husable⟩ | ⟨e, he, hends, hunusable⟩
  · obtain ⟨mark', hadd'⟩ := addProject_eq_addAt hproject (mark settings)
    obtain ⟨hcases', hwarned'⟩ := addAt_cases (exists_readBytes_of_projectPlace? hproject) (mark settings)
    have hload : load disk start = ((addAt disk (mark settings) project).1.map mark',
        (addAt disk standard user).2 ++ (addAt disk (mark settings) project).2) := by
      simp only [load, hadd, hok, Except.map, hadd']
    rw [hload]
    refine ⟨?_, fun e he => ?_, _, _, rfl, hwarned, .inl hwarned'⟩
    · rcases hcases' with ⟨⟨settings', hok'⟩, husable'⟩ | ⟨e, he, -, hunusable⟩
      · exact iff_of_true ⟨mark' settings', by rw [hok']; rfl⟩ ⟨husable, husable'⟩
      · exact iff_of_false (by simp [he, Except.map]) fun h => hunusable h.2
    · rcases hcases' with ⟨⟨settings', hok'⟩, -⟩ | ⟨e', he', hends, -⟩
      · rw [hok'] at he
        cases he
      · rw [he'] at he
        cases he
        exact .inr ⟨husable, hends⟩
  · have hload : load disk start = (.error e, (addAt disk standard user).2) := by
      simp only [load, hadd, he, Except.map]
    rw [hload]
    refine ⟨iff_of_false (by simp) fun h => hunusable h.1, fun e' he' => ?_, _, [], (List.append_nil _).symm,
      hwarned, .inr ⟨hunusable, rfl⟩⟩
    cases he'
    exact .inl hends

/-! ## One content for both configurations -/

namespace Settings

/-- A disk on which both configurations hold the same bytes. -/
def uniformDisk (content : ByteArray) : Disk := layeredDisk.mapFiles fun _ _ => content

section
variable (content : ByteArray)

theorem userPlace?_uniformDisk :
    userPlace? (uniformDisk content) = .ok (some (userPlace layeredDisk)) := by
  have hplace : userPlace (uniformDisk content) = userPlace layeredDisk := rfl
  have hfile : layeredDisk.isFile (userPlace layeredDisk).path = .ok true := by
    rw [Disk.isFile, Disk.leadsTo, stat_layeredDisk_user]
  rw [userPlace?, hplace, uniformDisk, Disk.isFile_mapFiles, hfile]
  rfl

theorem projectPlace?_uniformDisk :
    projectPlace? (uniformDisk content) ⟨.root, []⟩ = .ok (some [projectName]) := by
  rw [uniformDisk, projectPlace?_mapFiles, projectPlace?_layeredDisk]

theorem readBytes_uniformDisk_user :
    (uniformDisk content).readBytes (userPlace layeredDisk).path = .ok content := by
  rw [uniformDisk, Disk.readBytes, Disk.stat_mapFiles, stat_layeredDisk_user]
  rfl

theorem readBytes_uniformDisk_project :
    (uniformDisk content).readBytes (Place.path [projectName]) = .ok content := by
  rw [uniformDisk, Disk.readBytes, Disk.stat_mapFiles, stat_layeredDisk_project]
  rfl

end

/-- The letter `x`, which is no document. -/
def scribble : ByteArray := [0x78].toByteArray

theorem toList_scribble : scribble.toList = [0x78] := Utf8.toList_toByteArray _

theorem ignored_of_toList {content : ByteArray} (h : content.toList = [0x78]) :
    Ignored content LoadError.malformedJson.message := by
  have hchars : ∀ c ∈ ['x'], c.toNat < 128 := by simp
  have hbytes : [0x78] = ['x'].map Utf8.asciiByte := rfl
  refine @Ignored.malformed content ['x'] ?_ (by rfl)
  rw [h, hbytes, Utf8.decode, Utf8.decodeFrom_ascii hchars]
  rfl

/-- Put the empty object in place of the scribble. -/
def wipe (_ : Place) (content : ByteArray) : ByteArray :=
  match content.toList with
  | [0x78] => emptyObject
  | _ => content

theorem clears_wipe : Clears wipe := by
  intro place content
  unfold wipe
  split
  · next h => exact .inr ⟨⟨_, ignored_of_toList h⟩, rfl⟩
  · exact .inl rfl

/-- A byte that starts no character. -/
def strayByte : ByteArray := [0xFF].toByteArray

theorem stops_strayByte : Stops strayByte (.encoding ⟨0xFF, 0, 1, .badStart⟩) := by
  refine .encoding ?_
  rw [strayByte, Utf8.toList_toByteArray, Utf8.decode, Utf8.decodeFrom]
  rfl

end Settings

open Settings in
theorem ignored_layers_say_nothing_scribble :
    userPlace? (uniformDisk scribble) = .ok (some (userPlace layeredDisk)) ∧
    projectPlace? (uniformDisk scribble) ⟨.root, []⟩ = .ok (some [projectName]) ∧
    (∃ settings, (load (uniformDisk scribble) ⟨.root, []⟩).1 = .ok settings ∧
      (load ((uniformDisk scribble).mapFiles wipe) ⟨.root, []⟩).1 = .ok settings) ∧
    (load (uniformDisk scribble) ⟨.root, []⟩).2 =
      [ignoreRecord (userPlace layeredDisk).path LoadError.malformedJson.message,
        ignoreRecord (Place.path [projectName]) LoadError.malformedJson.message] := by
  have huser := userPlace?_uniformDisk scribble
  have hproject := projectPlace?_uniformDisk scribble
  have husable : UsableAt (uniformDisk scribble) (some (userPlace layeredDisk)) := by
    rintro place ⟨⟩ content hbytes
    cases (readBytes_uniformDisk_user scribble).symm.trans hbytes
    exact .inl ⟨_, (ignored_of_toList toList_scribble)⟩
  have husable' : UsableAt (uniformDisk scribble) (some [projectName]) := by
    rintro place ⟨⟩ content hbytes
    cases (readBytes_uniformDisk_project scribble).symm.trans hbytes
    exact .inl ⟨_, (ignored_of_toList toList_scribble)⟩
  have hwarned {path : Path} {log : List LogRecord} (h : Warned scribble path log) :
      log = [ignoreRecord path LoadError.malformedJson.message] := by
    rcases h with ⟨reason, hreason, rfl⟩ | ⟨hnone, -⟩
    · rw [hreason.unique (ignored_of_toList toList_scribble)]
    · exact absurd ⟨_, (ignored_of_toList toList_scribble)⟩ hnone
  obtain ⟨hsame, hloads, -, before, after, hlog, ⟨content, hbytes, hbefore⟩, hafter⟩ :=
    ignored_layers_say_nothing huser hproject
  obtain ⟨settings, hload⟩ := hloads.mpr ⟨husable, husable'⟩
  refine ⟨huser, hproject, ⟨settings, hload, (hsame wipe clears_wipe).trans hload⟩, ?_⟩
  rcases hafter with ⟨content', hbytes', hafter⟩ | ⟨hunusable, -⟩
  · cases (readBytes_uniformDisk_user scribble).symm.trans hbytes
    cases (readBytes_uniformDisk_project scribble).symm.trans hbytes'
    rw [hlog, hwarned hbefore, hwarned hafter]
    rfl
  · exact absurd husable hunusable

open Settings in
/-- A configuration that is not UTF-8 spells no object, and yet loading ends with it. -/
theorem stray_byte_stops_loading :
    userPlace? (uniformDisk strayByte) = .ok (some (userPlace layeredDisk)) ∧
    (uniformDisk strayByte).readBytes (userPlace layeredDisk).path = .ok strayByte ∧
    (∀ entries, ¬ Spells strayByte entries) ∧
    load (uniformDisk strayByte) ⟨.root, []⟩ = (.error (.encoding ⟨0xFF, 0, 1, .badStart⟩), []) := by
  have huser := userPlace?_uniformDisk strayByte
  have hbytes := readBytes_uniformDisk_user strayByte
  refine ⟨huser, hbytes, stops_strayByte.not_spells, ?_⟩
  obtain ⟨mark, hadd⟩ := addUser_eq_addAt huser standard
  have hlayer : addAt (uniformDisk strayByte) standard (some (userPlace layeredDisk)) =
      (.error (.encoding ⟨0xFF, 0, 1, .badStart⟩), []) := by
    simp only [addAt, addLayer, readLayer_of_stops hbytes stops_strayByte]
  simp only [load, hadd, hlayer, Except.map]

end ShaderFlatten
