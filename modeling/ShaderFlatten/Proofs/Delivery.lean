import ShaderFlatten.Proofs.Accounting
import ShaderFlatten.Proofs.Batch
import ShaderFlatten.Proofs.OutputPlan
import ShaderFlatten.Proofs.Telling
import ShaderFlatten.Proofs.Writing

/-!
# Delivering a batch

A batch writes the texts of its inputs below an output folder, each to the target that a plan has for it.
Inputs may share a target, and then the file is written more than once.  It holds what each of them came
to, because inputs with one target have one place, and a batch has one text for one place:

    plan.lookup path = plan.lookup path'  →  canonical? path = canonical? path'  →  one text

The folder must not be there before, so that no link in it leads astray.  A double dot in its path may only
stand behind a folder that is there: behind one that has yet to be made it leads to a folder that is there
already.  The plan takes a tilde for a name, where the engine takes it for the home directory, so that an
input with a tilde must have its target for itself.
-/

namespace ShaderFlatten

/-! ## One text for one place -/

section
variable {s : Setting} {limit : Option Nat} {place : Place} {cache : Table Text} {text : Text} {l : Ledger}

/-- **A file that comes to a text is cached with it.** -/
theorem Run.cached_of_text (hcache : cache.get? place.text = none)
    (h : Run s limit (.start place cache) ⟨.deliver (.ok text), [], l⟩) :
    l.cache.get? place.text = some text := by
  rcases Relation.ReflTransGen.cases_tail h with heq | ⟨σ, hrun, hstep⟩
  · cases heq
  · have hinv := Run.runInv hrun hcache
    cases hstep with
    | @close root passed blocks done _ l' _ hfinish hstore =>
      -- the last file that is closed is the one that was asked for
      have hroot : root = place := hinv.linked.stack.2.1
      subst hroot
      cases (hinv.chain.store_eq _).symm.trans hstore
      simp [Table.get?_insert]

end

theorem Engine.cached_of_text {engine : Engine} {disk : Disk} {bindings : Bindings} {request : String}
    {text : Text} (h : (engine.process disk bindings request).1.1 = .ok text) :
    ∃ place, disk.canonical? request = .ok place ∧
      (engine.process disk bindings request).1.2.cache.get? place.text = some text := by
  rcases engine.process_cases disk bindings request with ⟨-, hcase⟩ | ⟨fault, -, -, hcase⟩ |
    ⟨place, text', hplace, hget, hcase⟩ | ⟨place, hplace, hget, hrun⟩
  · rw [hcase] at h
    cases h
  · rw [hcase] at h
    cases h
  · rw [hcase] at h ⊢
    cases h
    exact ⟨place, hplace, hget⟩
  · rw [h] at hrun
    exact ⟨place, hplace, hrun.cached_of_text hget⟩

namespace Batch

/-- Every text of a batch is the one that is cached for the place of its input. -/
def Backed (b : Batch) (disk : Disk) (cache : Table Text) : Prop :=
  ∀ path text, (path, text) ∈ b.entries →
    ∃ place, disk.canonical? path.toString = .ok place ∧ cache.get? place.text = some text

section
variable {limits : Limits} {disk : Disk} {bindings : Bindings} {path : Path} {text : Text} {l l' : Ledger}
  {result : Except Halt Text}

/-- **One input**: what is cached stays, and a text is cached under the input's place. -/
theorem request_backed
    (h : Flatten.request ((Engine.create limits).setting disk bindings) path.toString l = (result, l')) :
    (∀ key text, l.cache.get? key = some text → l'.cache.get? key = some text) ∧
      ∀ text, result = .ok text → ∃ place, disk.canonical? path.toString = .ok place ∧
        l'.cache.get? place.text = some text := by
  -- what a request comes to depends on the cache alone, so an engine with that cache comes to the same
  let engine : Engine := { Engine.create limits with cache := l.cache }
  have hprocess : (engine.process disk bindings path.toString).1 =
      Flatten.request ((Engine.create limits).setting disk bindings) path.toString (.ofCache l.cache) := rfl
  obtain ⟨hresult, hcache⟩ := @Flatten.request_cache ((Engine.create limits).setting disk bindings)
    path.toString (.ofCache l.cache) l rfl
  rw [h, ← hprocess] at hresult hcache
  refine ⟨fun key text hget => ?_, fun text htext => ?_⟩
  · rw [hcache]
    exact (engine.process_settled disk bindings path.toString).kept key text hget
  · rw [hcache]
    exact Engine.cached_of_text (hresult.symm.trans htext)

/-- **All inputs of a batch**: its texts are those that are cached in the end, and come from its inputs. -/
theorem runFrom_backed {paths : List Path} {b b' : Batch}
    (h : runFrom ((Engine.create limits).setting disk bindings) b paths l = (.ok b', l'))
    (hb : b.Backed disk l.cache) :
    b'.Backed disk l'.cache ∧ ∀ path text, (path, text) ∈ b'.entries →
      (path, text) ∈ b.entries ∨ path ∈ paths := by
  induction paths generalizing b l with
  | nil =>
    cases h
    exact ⟨hb, fun _ _ hentry => .inl hentry⟩
  | cons path rest ih =>
    rw [runFrom] at h
    cases hrequest : Flatten.request ((Engine.create limits).setting disk bindings) path.toString l with
    | mk result l₁ =>
      obtain ⟨hkept, hcached⟩ := request_backed hrequest
      have hold : b.Backed disk l₁.cache := by
        intro p text hentry
        obtain ⟨place, hplace, hget⟩ := hb p text hentry
        exact ⟨place, hplace, hkept _ _ hget⟩
      rw [hrequest] at h
      cases result with
      | ok text =>
        obtain ⟨hbacked, hpaths⟩ := ih h fun p t hentry => by
          rcases List.mem_append.mp hentry with hentry | hentry
          · exact hold p t hentry
          · cases List.mem_singleton.mp hentry
            exact hcached text rfl
        refine ⟨hbacked, fun p t hentry => ?_⟩
        rcases hpaths p t hentry with hentry | hrest
        · rcases List.mem_append.mp hentry with hentry | hentry
          · exact .inl hentry
          · cases List.mem_singleton.mp hentry
            exact .inr List.mem_cons_self
        · exact .inr (List.mem_cons_of_mem _ hrest)
      | error halt =>
        cases halt with
        | refused refusal => cases h
        | failed failure =>
          obtain ⟨hbacked, hpaths⟩ := ih h hold
          exact ⟨hbacked, fun p t hentry => (hpaths p t hentry).imp id (List.mem_cons_of_mem _)⟩

end

/-- **One text for one place**: inputs of a batch that have one place come to one text. -/
theorem run_backed {limits : Limits} {disk : Disk} {bindings : Bindings} {paths : List Path} {b : Batch}
    {l : Ledger} (h : run limits disk bindings paths = (.ok b, l)) :
    b.Backed disk l.cache ∧ ∀ path text, (path, text) ∈ b.entries → path ∈ paths := by
  obtain ⟨hbacked, hpaths⟩ := runFrom_backed h fun _ _ hentry => by cases hentry
  exact ⟨hbacked, fun path text hentry => (hpaths path text hentry).resolve_left (by simp [empty])⟩

end Batch

/-! ## Folders that are not there yet -/

namespace Disk

/-- What a disk of a running system is like: whatever it has stands in a folder, and the working directory
is a folder with plain names. -/
structure Standing (disk : Disk) : Prop where
  closed : disk.tree.Closed
  cwd : disk.tree.entry? disk.cwd = some .folder
  plain : ∀ name ∈ disk.cwd, FileTree.IsPlainStep name

/-- A folder that is not there yet.  Its path may have double dots as long as what stands before them is a
folder. -/
structure Missing (disk : Disk) (folder : Path) : Prop where
  readable : folder.Readable
  absent : ∀ found, disk.stat folder ≠ .ok found
  dots : ∀ front back, folder.parts = front ++ ".." :: back →
    disk.isFolder { folder with parts := front } = .ok true

section
variable {disk : Disk} {folder path : Path}

theorem Standing.grounded (h : disk.Standing) (path : Path) : disk.Grounded (disk.base path) where
  closed := h.closed
  folder := by
    unfold base
    split
    · rfl
    · exact h.cwd

theorem leads_of_isFolder (h : disk.isFolder path = .ok true) :
    ∃ m q, disk.Leads path m q ∧ disk.tree.entry? q = some .folder := by
  unfold isFolder leadsTo at h
  split at h
  · next q entry hstat =>
    obtain ⟨-, ⟨m, hleads⟩, hentry⟩ := stat_eq_ok.mp hstat
    cases entry with
    | folder => exact ⟨m, q, hleads, hentry⟩
    | file content => cases h
    | link target => cases h
  · cases h
  · split at h <;> cases h
  · cases h

theorem Missing.anchored (h : disk.Missing folder) (hdisk : disk.Standing) : disk.Anchored folder := by
  have hplain : ∀ {back : List String}, (∀ name ∈ back, name ∈ folder.parts) → ".." ∉ back →
      ∀ name ∈ back, FileTree.IsPlainStep name := by
    intro back hback hup name hn
    refine ⟨h.readable.not_stay name (hback name hn), ?_⟩
    rintro rfl
    exact hup hn
  by_cases hup : ".." ∈ folder.parts
  · -- the last double dot ends the front
    obtain ⟨before, after, hparts, hlast⟩ := List.eq_append_cons_of_mem (List.mem_reverse.mpr hup)
    have hparts' : folder.parts = after.reverse ++ ".." :: before.reverse := by
      rw [← List.reverse_reverse folder.parts, hparts]
      simp
    obtain ⟨m, q, hleads, hfolder⟩ := leads_of_isFolder (h.dots _ _ hparts')
    refine ⟨after.reverse ++ [".."], before.reverse, m, q.dropLast, by simp [hparts'], ?_, ?_, ?_⟩
    · refine hplain (fun name hn => ?_) (by simpa using hlast)
      rw [hparts']
      exact List.mem_append_right _ (List.mem_cons_of_mem _ hn)
    · exact FileTree.Leads.append hleads (.up hfolder .done)
    · exact hdisk.closed.parent (by simp [hfolder])
  · exact ⟨[], folder.parts, maxLinks, disk.base folder, rfl, hplain (fun _ hn => hn) hup, .done,
      (hdisk.grounded folder).folder⟩

/-- **A folder that is not there yet is ready**, if the system takes its path at all. -/
theorem Missing.ready (h : disk.Missing folder) (hdisk : disk.Standing) (htakes : Takes folder) :
    disk.Ready folder where
  grounded := hdisk.grounded folder
  anchored := h.anchored hdisk
  clean := fun m _ hleads hfolder =>
    absurd (stat_eq_ok.mpr ⟨htakes, ⟨m, hleads⟩, hfolder⟩) (h.absent _)

end

end Disk

/-! ## Delivering a batch -/

/-- The transcript after a text has been written and its line has been shown. -/
def Transcript.wrote (t : Transcript) (disk : Disk) (shown : String) : Transcript :=
  ({ t with disk } : Transcript).put .err shown

@[simp] theorem Transcript.disk_wrote (t : Transcript) (disk : Disk) (shown : String) :
    (t.wrote disk shown).disk = disk := rfl

namespace Command

/-- An input is written to plain names below a folder, or to a double dot. -/
def Goes (plan : OutputPlan) (folder path : Path) (names : List String) : Prop :=
  plan.lookup path = some (folder.join ⟨.relative, names⟩) ∧
    ((∀ name ∈ names, FileTree.IsPlainStep name) ∨ names = [".."])

/-- Inputs with one target have one text. -/
def Agree (plan : OutputPlan) (entries : List (Path × Text)) : Prop :=
  ∀ path text path' text', (path, text) ∈ entries → (path', text') ∈ entries →
    plan.lookup path = plan.lookup path' → text = text'

/-- Entries are written: the folder is ready for more, and each file holds its text. -/
structure Written (plan : OutputPlan) (folder : Path) (disk : Disk) (entries : List (Path × Text)) :
    Prop where
  ready : disk.Ready folder
  holds : ∀ path text, (path, text) ∈ entries → ∃ names,
    plan.lookup path = some (folder.join ⟨.relative, names⟩) ∧
      (∀ name ∈ names, FileTree.IsPlainStep name) ∧
      disk.readBytes (folder.join ⟨.relative, names⟩) = .ok (Text.encode text)

section
variable {console : Console} {plan : OutputPlan} {folder path : Path} {disk made new : Disk}
  {done entries : List (Path × Text)} {text : Text} {names : List String} {t t' : Transcript}

theorem Written.nil (h : disk.Ready folder) : Written plan folder disk [] where
  ready := h
  holds := fun _ _ hentry => by cases hentry

/-- **One entry is written.** -/
theorem Written.write (h : Written plan folder disk done) (hgoes : Goes plan folder path names)
    (hagree : Agree plan (done ++ [(path, text)]))
    (hmade : disk.ensureFolder (folder.join ⟨.relative, names⟩).parent = .ok made)
    (hwrite : made.writeBytes (folder.join ⟨.relative, names⟩) (Text.encode text) = .ok new) :
    Written plan folder new (done ++ [(path, text)]) := by
  obtain ⟨hextends, hready⟩ := h.ready.ensureFolder names hmade
  obtain ⟨hready', hnames, hread, hothers⟩ := hready.write hgoes.2 hwrite
  refine ⟨hready', fun p s hentry => ?_⟩
  rcases List.mem_append.mp hentry with hold | hnew
  · obtain ⟨names', hlookup, hplain, hread'⟩ := h.holds p s hold
    refine ⟨names', hlookup, hplain, ?_⟩
    by_cases heq : names' = names
    · -- the file is written once more, with the text that it holds
      subst heq
      rw [hagree p s path text hentry (by simp) (hlookup.trans hgoes.1.symm)]
      exact hread
    · exact hothers names' _ heq hplain (hextends.readBytes hread')
  · cases List.mem_singleton.mp hnew
    exact ⟨names, hgoes.1, hnames, hread⟩

/-- **One step of the writing**: the folder is made, the file is written and told, and the rest follows. -/
theorem writeEntries_step {target : Path} (htarget : plan.lookup path = some target) :
    writeEntries console plan t ((path, text) :: entries) =
      match t.disk.ensureFolder target.parent with
      | .error fault => (.error (.file fault), t)
      | .ok made =>
        match made.writeBytes target (Text.encode text) with
        | .error fault => (.error (.file fault), { t with disk := made })
        | .ok new =>
          match console.line .err (writtenLine path target) with
          | .error e => (.error (.markup e), { t with disk := new })
          | .ok shown => writeEntries console plan (t.wrote new shown) entries := by
  have hgoal : (((plan.find? (·.1 = path)).map (·.2)).getD path) = target :=
    congrArg (Option.getD · path) htarget
  rw [writeEntries]
  simp only [hgoal]
  cases t.disk.ensureFolder target.parent with
  | error fault => rfl
  | ok made =>
    cases hwrite : made.writeBytes target (Text.encode text) with
    | error fault => simp only [hwrite]
    | ok new =>
      simp only [hwrite, Transcript.tell]
      cases console.line .err (writtenLine path target) <;> rfl

theorem writeEntries_cons {target : Path} (htarget : plan.lookup path = some target) :
    writeEntries console plan t ((path, text) :: entries) = (.ok (), t') ↔
      ∃ made new shown, t.disk.ensureFolder target.parent = .ok made ∧
        made.writeBytes target (Text.encode text) = .ok new ∧
        console.line .err (writtenLine path target) = .ok shown ∧
        writeEntries console plan (t.wrote new shown) entries = (.ok (), t') := by
  rw [writeEntries_step htarget]
  constructor
  · intro h
    split at h
    · cases h
    · next made hmade =>
      split at h
      · cases h
      · next new hwrite =>
        split at h
        · cases h
        · next shown hshown => exact ⟨made, new, shown, hmade, hwrite, hshown, h⟩
  · rintro ⟨made, new, shown, hmade, hwrite, hshown, h⟩
    simp only [hmade, hwrite, hshown]
    exact h

/-- What has been written below a folder shows that the system takes the folder. -/
theorem takes_of_writeEntries
    (hgoes : ∀ path text, (path, text) ∈ entries → ∃ names, Goes plan folder path names)
    (hwrite : writeEntries console plan t entries = (.ok (), t')) (hne : entries ≠ []) : Disk.Takes folder := by
  cases entries with
  | nil => exact absurd rfl hne
  | cons entry entries =>
    obtain ⟨names, hfirst, -⟩ := hgoes entry.1 entry.2 List.mem_cons_self
    obtain ⟨made, new, -, -, hnew, -⟩ := (writeEntries_cons hfirst).mp hwrite
    exact (Disk.takes_of_writeBytes hnew).above

/-- **All entries are written**, if the writing comes to an end. -/
theorem Written.writeEntries (h : Written plan folder t.disk done)
    (hgoes : ∀ path text, (path, text) ∈ entries → ∃ names, Goes plan folder path names)
    (hagree : Agree plan (done ++ entries)) (hwrite : writeEntries console plan t entries = (.ok (), t')) :
    Written plan folder t'.disk (done ++ entries) := by
  induction entries generalizing done t with
  | nil =>
    cases hwrite
    rwa [List.append_nil]
  | cons entry entries ih =>
    obtain ⟨path, text⟩ := entry
    obtain ⟨names, hfirst⟩ := hgoes path text List.mem_cons_self
    obtain ⟨made, new, shown, hmade, hnew, -, hrest⟩ := (writeEntries_cons hfirst.1).mp hwrite
    rw [← List.singleton_append, ← List.append_assoc] at hagree ⊢
    refine ih ?_ (fun p s hentry => hgoes p s (List.mem_cons_of_mem _ hentry)) hagree hrest
    refine h.write hfirst (fun p s p' s' hp hp' => ?_) hmade hnew
    exact hagree p s p' s' (List.mem_append_left _ hp) (List.mem_append_left _ hp')

/-- A command that has delivered a batch is left to tell the failures. -/
theorem runBatch_of_deliver {a : Arguments} {settings : Settings} {bindings : Bindings}
    {plan : Option OutputPlan} {inputs : List Path} {b : Batch} {l : Ledger}
    (hbatch : Batch.run settings.limits t.disk bindings inputs = (.ok b, l))
    (hdeliver : deliver console (t.addLog l.log) a plan b = (.ok (), t')) :
    runBatch console t a settings bindings plan inputs =
      t'.tellAndExit console (b.errors.map fun (path, f) => failureLine console path f)
        (if b.ok then 0 else 1) := by
  unfold runBatch
  simp only [hbatch, hdeliver]

end

end Command

/-- Inputs that start with a tilde share their targets with no other input. -/
def OutputPlan.HomesApart (plan : OutputPlan) (inputs : List Path) : Prop :=
  ∀ path ∈ inputs, ∀ path' ∈ inputs, path ≠ path' → plan.lookup path = plan.lookup path' →
    ¬ path.StartsAtHome

open Command

/-- **Inputs with one target have one canonical place**, if they lead anywhere. -/
theorem OutputPlan.Sound.places_eq {disk : Disk} {folder : Path} {places : List Place} {plan : OutputPlan}
    {sources : List (Path × Place)} (h : Sound disk folder places plan sources) {inputs : List Path}
    (hinputs : ∀ path ∈ inputs, path.Readable) (hhomes : plan.HomesApart inputs) {path path' goal : Path}
    (hpath : path ∈ inputs) (hpath' : path' ∈ inputs) (hgoal : plan.lookup path = some goal)
    (hgoal' : plan.lookup path' = some goal) {place place' : Place}
    (hplace : disk.canonical? path.toString = .ok place)
    (hplace' : disk.canonical? path'.toString = .ok place') : place = place' := by
  by_cases heq : path = path'
  · subst heq
    exact Except.ok.inj (hplace.symm.trans hplace')
  · obtain ⟨source, hsource, -, hfirst⟩ := h path goal hgoal
    obtain ⟨source', hsource', -, hfirst'⟩ := h path' goal hgoal'
    have hapart := hhomes path hpath path' hpath' heq (hgoal.trans hgoal'.symm)
    have hapart' := hhomes path' hpath' path hpath (Ne.symm heq) (hgoal'.trans hgoal.symm)
    calc place = source := Disk.canonical?_eq_resolve? (hinputs path hpath) hapart hplace hsource
      _ = source' := Option.some.inj (hfirst.symm.trans hfirst')
      _ = place' := (Disk.canonical?_eq_resolve? (hinputs path' hpath') hapart' hplace' hsource').symm

theorem OutputPlan.Sound.goes {disk : Disk} {folder : Path} {places : List Place} {plan : OutputPlan}
    {sources : List (Path × Place)} (h : Sound disk folder places plan sources) (hdisk : disk.Standing)
    {path : Path} (hpath : path.Readable) (hplanned : plan.lookup path ≠ none) :
    ∃ names, Goes plan folder path names := by
  obtain ⟨goal, hgoal⟩ := Option.ne_none_iff_exists'.mp hplanned
  obtain ⟨source, hsource, rfl, -⟩ := h path goal hgoal
  obtain ⟨names, hnames, hplain⟩ := @OutputPlan.target_eq folder path places source hpath
    (Disk.resolve?_plain hdisk.plain hpath hsource)
  exact ⟨names, by rw [hgoal, hnames], hplain⟩

/-- **No output overwrites another.**  For any disk, any inputs and roots that have a plan, and any output
folder that is not there yet: if the command delivers its batch, then it leaves in the target of every input
that has come to a text that text, and inputs with one target have one canonical place.  What stands before a
double dot of the folder's path must be a folder, and an input that starts with a tilde must share its target
with no other. -/
theorem outputs_hold_own_texts {console : Console} {t t' : Transcript} {a : Arguments} {settings : Settings}
    {bindings : Bindings} {folder : Path} {roots inputs : List Path} {plan : OutputPlan} {b : Batch}
    {l : Ledger} (hdisk : t.disk.Standing) (hfolder : t.disk.Missing folder)
    (hinputs : ∀ path ∈ inputs, path.Readable)
    (hplan : OutputPlan.make t.disk folder roots inputs = .ok plan) (hhomes : plan.HomesApart inputs)
    (hbatch : Batch.run settings.limits t.disk bindings inputs = (.ok b, l))
    (hwrite : deliver console (t.addLog l.log) a (some plan) b = (.ok (), t')) :
    ∀ path text, (path, text) ∈ b.entries → ∃ target, plan.lookup path = some target ∧
      (runBatch console t a settings bindings (some plan) inputs).2.disk.readBytes target =
        .ok (Text.encode text) ∧
      ∀ path' text', (path', text') ∈ b.entries → plan.lookup path' = some target →
        ∃ place, t.disk.canonical? path.toString = .ok place ∧
          t.disk.canonical? path'.toString = .ok place := by
  obtain ⟨places, sources, hsound, hplanned⟩ := OutputPlan.make_sound hplan
  obtain ⟨hbacked, hpaths⟩ := Batch.run_backed hbatch
  have hgoes : ∀ path text, (path, text) ∈ b.entries → ∃ names, Goes plan folder path names :=
    fun path text hentry => hsound.goes hdisk (hinputs path (hpaths path text hentry))
      (hplanned path (hpaths path text hentry))
  have hshared : ∀ path text path' text' goal, (path, text) ∈ b.entries → (path', text') ∈ b.entries →
      plan.lookup path = some goal → plan.lookup path' = some goal →
      ∃ place, t.disk.canonical? path.toString = .ok place ∧ t.disk.canonical? path'.toString = .ok place ∧
        text = text' := by
    intro path text path' text' goal hentry hentry' hgoal hgoal'
    obtain ⟨place, hplace, hget⟩ := hbacked path text hentry
    obtain ⟨place', hplace', hget'⟩ := hbacked path' text' hentry'
    cases hsound.places_eq hinputs hhomes (hpaths path text hentry) (hpaths path' text' hentry') hgoal hgoal'
      hplace hplace'
    exact ⟨place, hplace, hplace', Option.some.inj (hget.symm.trans hget')⟩
  have hagree : Agree plan b.entries := by
    intro path text path' text' hentry hentry' hsame
    obtain ⟨names, hgoal, -⟩ := hgoes path text hentry
    obtain ⟨-, -, -, htext⟩ := hshared path text path' text' _ hentry hentry' hgoal (hsame ▸ hgoal)
    exact htext
  intro path text hentry
  have hready : (t.addLog l.log).disk.Ready folder :=
    hfolder.ready hdisk (takes_of_writeEntries hgoes hwrite (List.ne_nil_of_mem hentry))
  have hwritten : Written plan folder t'.disk b.entries :=
    (Written.nil hready).writeEntries hgoes hagree hwrite
  rw [runBatch_of_deliver hbatch hwrite, Transcript.disk_tellAndExit]
  obtain ⟨names, hgoal, -, hread⟩ := hwritten.holds path text hentry
  refine ⟨_, hgoal, hread, fun path' text' hentry' hgoal' => ?_⟩
  obtain ⟨place, hplace, hplace', -⟩ := hshared path text path' text' _ hentry hentry' hgoal hgoal'
  exact ⟨place, hplace, hplace'⟩

namespace Disk

theorem entryAt_of_descends {disk : Disk} {entry : Entry} {names : List String} {anchored : Bool}
    (hcwd : disk.cwd = []) (hshort : (Trail.mk anchored 0 names).text.utf8ByteSize ≤ maxPathBytes)
    (h : disk.tree.Descends [] names) (hentry : disk.tree.entry? names = some entry) :
    disk.entryAt ⟨anchored, 0, names⟩ = .ok entry := by
  have hstart : (if anchored then [] else disk.cwd) = [] := by rw [hcwd, ite_self]
  have hsteps : (Trail.mk anchored 0 names).steps = names := rfl
  rw [entryAt, if_neg (Nat.not_lt.mpr hshort), hsteps, hstart, FileTree.walk, h.locate, List.nil_append,
    hentry]
  rfl

end Disk

/-! Two paths of one file, and a tilde that is a name and stands for the home directory. -/

/-- A disk with a home directory, a folder whose name is a tilde, and an empty folder. -/
def homeDisk : Disk :=
  ⟨⟨[(["home"], .folder), (["home", "a"], .file (Utf8.ascii ['x'])),
    (["~"], .folder), (["~", "a"], .file (Utf8.ascii ['y'])), (["x"], .folder)]⟩, [], ["home"]⟩

theorem isStep_a : IsStep "a" := ⟨by decide, by decide, by decide⟩

/-- The text of the file in a folder of the disk. -/
def homeText (name : String) : Text := if name = "home" then ['x'] else ['y']

/-- The path of the file in a folder of the disk. -/
def homePath (anchor : Anchor) (name : String) : Path := ⟨anchor, [name, "a"]⟩

/-- A path of that file by way of another folder. -/
def detourPath (name : String) : Path := ⟨.relative, ["x", "..", name, "a"]⟩

section
variable {name : String} {anchor : Anchor}

theorem entry?_homeDisk (hname : name = "home" ∨ name = "~") :
    homeDisk.tree.entry? [name] = some .folder ∧
    homeDisk.tree.entry? [name, "a"] = some (.file (Utf8.ascii (homeText name))) := by
  rcases hname with rfl | rfl <;> simp [homeDisk, FileTree.entry?, homeText]

theorem descends_homeDisk (hname : name = "home" ∨ name = "~") :
    homeDisk.tree.Descends [] [name, "a"] ∧ homeDisk.tree.Descends [] [name] := by
  obtain ⟨hfolder, hfile⟩ := entry?_homeDisk hname
  have hstep : IsStep name := by rcases hname with rfl | rfl <;> exact ⟨by decide, by decide, by decide⟩
  exact ⟨⟨rfl, hstep, hfolder, isStep_a, by simp [FileTree.Descends, hfile]⟩,
    ⟨rfl, hstep, by simp [FileTree.Descends, hfolder]⟩⟩

theorem follow_homeDisk (hname : name = "home" ∨ name = "~") (strict anchored : Bool) :
    homeDisk.follow strict homeDisk.linkDepth [] ⟨anchored, 0, []⟩ [name, "a"] =
      .ok ⟨anchored, 0, [name, "a"]⟩ := by
  obtain ⟨hfolder, hfile⟩ := entry?_homeDisk hname
  obtain ⟨hdeep, hflat⟩ := descends_homeDisk hname
  have hentry : homeDisk.entryAt (Trail.child ⟨anchored, 0, []⟩ name) = .ok .folder :=
    Disk.entryAt_of_descends rfl (by rcases hname with rfl | rfl <;> cases anchored <;> decide) hflat hfolder
  have hentry' : homeDisk.entryAt ((Trail.child ⟨anchored, 0, []⟩ name).child "a") =
      .ok (.file (Utf8.ascii (homeText name))) :=
    Disk.entryAt_of_descends rfl (by rcases hname with rfl | rfl <;> cases anchored <;> decide) hdeep hfile
  have hup : name ≠ ".." := by rcases hname with rfl | rfl <;> decide
  have hnamed : ¬(!isNameable name) = true := by rcases hname with rfl | rfl <;> decide
  rw [Disk.follow_entry hup hnamed hentry (by simp),
    Disk.follow_entry (by decide) (by decide) hentry' (by simp), Disk.follow_nil]
  simp [Trail.child]

theorem followPath_homeDisk (hname : name = "home" ∨ name = "~") (strict : Bool) :
    homeDisk.followPath strict (homePath anchor name) = .ok ⟨anchor != .relative, 0, [name, "a"]⟩ := by
  cases anchor with
  | relative => exact follow_homeDisk hname strict false
  | root => exact follow_homeDisk hname strict true
  | doubleRoot => exact follow_homeDisk hname strict true

theorem followPath_detour (hname : name = "home" ∨ name = "~") (strict : Bool) :
    homeDisk.followPath strict (detourPath name) = .ok ⟨false, 0, [name, "a"]⟩ := by
  have hfolder : homeDisk.tree.entry? ["x"] = some .folder := by simp [homeDisk, FileTree.entry?]
  have hstep : IsStep "x" := ⟨by decide, by decide, by decide⟩
  have hentry : homeDisk.entryAt (Trail.child ⟨false, 0, []⟩ "x") = .ok .folder :=
    Disk.entryAt_of_descends rfl (by decide) ⟨rfl, hstep, by simp [FileTree.Descends, hfolder]⟩ hfolder
  show homeDisk.follow strict homeDisk.linkDepth [] ⟨false, 0, []⟩ ["x", "..", name, "a"] = _
  rw [Disk.follow_entry (by decide) (by decide) hentry (by simp), Disk.follow_up]
  exact follow_homeDisk hname strict false

theorem place_homeDisk (anchored : Bool) (names : List String) :
    homeDisk.place ⟨anchored, 0, names⟩ = names := by
  cases anchored <;> rfl

theorem stat_homeDisk (hname : name = "home" ∨ name = "~") :
    homeDisk.stat (Place.path [name, "a"]) = .ok ([name, "a"], .file (Utf8.ascii (homeText name))) := by
  have htakes : Disk.Takes (Place.path [name, "a"]) := by
    rcases hname with rfl | rfl <;> exact ⟨by decide, by decide⟩
  exact Disk.stat_of_descends rfl htakes (descends_homeDisk hname).1 (entry?_homeDisk hname).2

section
variable {path : Path} {anchored : Bool}

theorem resolve?_of_followPath (hname : name = "home" ∨ name = "~")
    (hfollow : homeDisk.followPath false path = .ok ⟨anchored, 0, [name, "a"]⟩) :
    homeDisk.resolve? path = .ok [name, "a"] := by
  simp only [Disk.resolve?, Disk.reached?, hfollow, place_homeDisk, stat_homeDisk hname, pure, Except.pure,
    bind, Except.bind]

theorem canonical?_of_followPath {request : String} (hrequest : homeDisk.expandHome request = .ok path)
    (hfollow : homeDisk.followPath true path = .ok ⟨anchored, 0, [name, "a"]⟩) :
    homeDisk.canonical? request = .ok [name, "a"] := by
  simp only [Disk.canonical?, hrequest, hfollow, place_homeDisk, pure, Except.pure, bind, Except.bind]

end

theorem resolve?_homeDisk (hname : name = "home" ∨ name = "~") :
    homeDisk.resolve? (homePath anchor name) = .ok [name, "a"] :=
  resolve?_of_followPath hname (followPath_homeDisk hname false)

theorem resolve?_detour (hname : name = "home" ∨ name = "~") :
    homeDisk.resolve? (detourPath name) = .ok [name, "a"] :=
  resolve?_of_followPath hname (followPath_detour hname false)

end

/-- A file of one line that stands for itself comes to that line, if it is not cached. -/
theorem request_of_line {s : Setting} {request : String} {place : Place} {line : Text} {l : Ledger}
    (hplace : s.disk.canonical? request = .ok place)
    (hread : s.disk.readBytes place.path = .ok (Utf8.ascii line)) (hlimit : s.readLimit = none)
    (hascii : (line.all fun c => c.toNat < 128) = true) (hlines : Text.lines line = [line])
    (hmove : Move.ofLine s [place.text] place .none line = .settle (.ok line))
    (hget : l.cache.get? place.text = none) :
    ∃ l', Flatten.request s request l = (.ok line, l') ∧ l'.cache = l.cache.insert place.text line := by
  have htext : Flatten.readText s place l = (.ok line, Flatten.askedFor s place l) := by
    rw [Flatten.readText_eq, Flatten.sourceAt_ascii hlimit hread hascii]
  have hnew : (Flatten.askedFor s place l).cache.get? place.text = none := by simpa using hget
  have hrun := @run_of_line s (some s.limits.levels) _ _ _ _ _ _ _ htext hlines (.settle hmove) hnew
  have hrequest : Flatten.request s request l = Flatten.file s s.limits.levels [] place l := by
    rw [Flatten.request, hplace]
    simp only [hget]
  exact ⟨_, hrequest.trans (Run.end_unique (run_file s.limits.levels place [] l) hrun), by simp⟩

section
variable {name : String} {request : String} {l : Ledger}

theorem request_homeDisk (hname : name = "home" ∨ name = "~")
    (hrequest : homeDisk.canonical? request = .ok [name, "a"])
    (hget : ∀ text, l.cache.get? (Place.text [name, "a"]) = some text → text = homeText name) :
    ∃ l', Flatten.request ((Engine.create .oneLevel).setting homeDisk .empty) request l =
        (.ok (homeText name), l') ∧
      ∀ key, l'.cache.get? key =
        if Place.text [name, "a"] = key then some (homeText name) else l.cache.get? key := by
  have hplace : ((Engine.create .oneLevel).setting homeDisk .empty).disk.canonical? request =
      .ok [name, "a"] := hrequest
  cases hcached : l.cache.get? (Place.text [name, "a"]) with
  | some text =>
    rw [Flatten.request, hplace]
    simp only [hcached]
    obtain rfl := hget text hcached
    refine ⟨_, rfl, fun key => ?_⟩
    split
    · next heq => rw [← heq, Ledger.cache_note, hcached]
    · rfl
  | none =>
    have hread : homeDisk.readBytes (Place.path [name, "a"]) = .ok (Utf8.ascii (homeText name)) := by
      rw [Disk.readBytes, stat_homeDisk hname]
    obtain ⟨l', hrequest', hcache⟩ := request_of_line hplace hread rfl
      (by rcases hname with rfl | rfl <;> decide) (by rcases hname with rfl | rfl <;> decide)
      (by rcases hname with rfl | rfl <;> rfl) hcached
    exact ⟨l', hrequest', fun key => by rw [hcache, Table.get?_insert]⟩

end

/-- The folder that results are written to. -/
def outFolder : Path := ⟨.relative, ["out"]⟩

/-- The file that results are written to. -/
def outFile : Path := ⟨.relative, ["out", "a"]⟩

/-- Two paths of one file. -/
def homeInputs (name : String) : List Path := [homePath .relative name, detourPath name]

/-- The plan that writes two inputs to one file. -/
def sharedPlan (p q : Path) : OutputPlan := [(p, outFile), (q, outFile)]

/-- The plan that writes both paths of a file to one file. -/
def homePlan (name : String) : OutputPlan := sharedPlan (homePath .relative name) (detourPath name)

section
variable {p q : Path} {name name' : String}

theorem lookup_sharedPlan :
    (sharedPlan p q).lookup p = some outFile ∧ (sharedPlan p q).lookup q = some outFile := by
  by_cases h : p = q <;> simp [OutputPlan.lookup, sharedPlan, h]

/-- Two paths of one file share their target. -/
theorem make_homeDisk (hne : p ≠ q) (hp : homeDisk.resolve? p = .ok [name, "a"])
    (hq : homeDisk.resolve? q = .ok [name, "a"]) (hp' : p.name = "a") (hq' : q.name = "a") :
    OutputPlan.make homeDisk outFolder [] [p, q] = .ok (sharedPlan p q) := by
  have htarget : ∀ {path : Path}, path.name = "a" →
      OutputPlan.target outFolder [] path [name, "a"] = outFile := by
    intro path hpath
    have hfile : Path.ofString "a" = ⟨.relative, ["a"]⟩ := by decide
    simp [OutputPlan.target, OutputPlan.relativePath, hpath, hfile, Path.join, Path.isAbsolute, outFolder,
      outFile]
  simp [OutputPlan.make, sharedPlan, OutputPlan.extend, hp, hq, htarget hp', htarget hq', OutputPlan.claimed?,
    OutputPlan.put, hne, pure, Except.pure]

/-- Two inputs come to the texts of the files that they stand for. -/
theorem run_homeDisk (hname : name = "home" ∨ name = "~") (hname' : name' = "home" ∨ name' = "~")
    (hp : homeDisk.canonical? p.toString = .ok [name, "a"])
    (hq : homeDisk.canonical? q.toString = .ok [name', "a"]) :
    ∃ l, Batch.run .oneLevel homeDisk .empty [p, q] =
      (.ok ⟨[(p, homeText name), (q, homeText name')], []⟩, l) := by
  obtain ⟨l, hfirst, hcache⟩ := @request_homeDisk _ _ (.ofCache []) hname hp fun text hget => by cases hget
  obtain ⟨l', hsecond, -⟩ := @request_homeDisk _ _ l hname' hq fun text hget => by
    rw [hcache] at hget
    split at hget
    · next heq =>
      have hsame : name = name' := by
        rcases hname with rfl | rfl <;> rcases hname' with rfl | rfl
        · rfl
        · exact absurd heq (by decide)
        · exact absurd heq (by decide)
        · rfl
      rw [← hsame]
      exact (Option.some.inj hget).symm
    · cases hget
  exact ⟨_, by simp only [Batch.run, Batch.runFrom, hfirst, hsecond]; rfl⟩

end

section
variable {disk : Disk}

theorem takes_outFolder : Disk.Takes outFolder := ⟨by decide, by decide⟩
theorem takes_outFile : Disk.Takes outFile := ⟨by decide, by decide⟩

theorem isStep_out : IsStep "out" := ⟨by decide, by decide, by decide⟩

/-- The folder is made if nothing stands in its place, and left if it is there. -/
theorem ensureFolder_out (hcwd : disk.cwd = []) (hfree : disk.tree.Free ["out", "a"])
    (hout : disk.tree.entry? ["out"] = none ∨ disk.tree.entry? ["out"] = some .folder) :
    ∃ made, disk.ensureFolder outFolder = .ok made ∧ made.cwd = [] ∧
      made.tree.entry? ["out"] = some .folder ∧ made.tree.Free ["out", "a"] ∧
      ∀ p, p ≠ ["out"] → made.tree.entry? p = disk.tree.entry? p := by
  have hdescends : disk.tree.Descends [] ["out"] :=
    ⟨rfl, isStep_out, fun target => by rcases hout with h | h <;> simp [h]⟩
  have hbase : disk.base outFolder = [] := hcwd
  have hlocate : disk.locate .entry outFolder = .ok (["out"], disk.tree.entry? ["out"]) :=
    Disk.locate_of_descends hbase takes_outFolder hdescends
  rcases hout with hnone | hfolder
  · have hmade : disk.makeFolder outFolder = .ok { disk with tree := disk.tree.put ["out"] .folder } := by
      rw [Disk.makeFolder, hlocate, hnone]
    refine ⟨{ disk with tree := disk.tree.put ["out"] .folder }, ?_, hcwd, by simp [FileTree.entry?_put],
      by simpa [FileTree.Free, FileTree.entry?_put] using hfree,
      fun p hp => by rw [FileTree.entry?_put (by simp), if_neg hp]⟩
    rw [Disk.ensureFolder, hmade, Disk.ensureOne, hmade]
  · have hmade : disk.makeFolder outFolder = .error (.system .alreadyExists outFolder.toString) := by
      rw [Disk.makeFolder, hlocate, hfolder]
    have hstat : disk.stat outFolder = .ok (["out"], .folder) :=
      Disk.stat_of_descends hbase takes_outFolder hdescends hfolder
    refine ⟨disk, ?_, hcwd, hfolder, hfree, fun _ _ => rfl⟩
    rw [Disk.ensureFolder, hmade, Disk.ensureOne, hmade]
    simp [Disk.isFolder, Disk.leadsTo, hstat, bind, Except.bind, pure, Except.pure]

/-- A text is written to the file, whether its folder is there or not. -/
theorem write_out (hcwd : disk.cwd = []) (hfree : disk.tree.Free ["out", "a"])
    (hout : disk.tree.entry? ["out"] = none ∨ disk.tree.entry? ["out"] = some .folder)
    (content : ByteArray) :
    ∃ made new, disk.ensureFolder outFolder = .ok made ∧ made.writeBytes outFile content = .ok new ∧
      new.cwd = [] ∧ new.tree.entry? ["out"] = some .folder ∧
      new.tree.entry? ["out", "a"] = some (.file content) ∧ new.readBytes outFile = .ok content ∧
      ∀ p, p ≠ ["out"] → p ≠ ["out", "a"] → new.tree.entry? p = disk.tree.entry? p := by
  obtain ⟨made, hensure, hcwd', hfolder, hfree', hothers⟩ := ensureFolder_out hcwd hfree hout
  have hdescends : ∀ {tree : FileTree}, tree.entry? ["out"] = some .folder → tree.Free ["out", "a"] →
      tree.Descends [] ["out", "a"] := by
    intro tree hfolder hfree
    refine ⟨rfl, isStep_out, hfolder, isStep_a, fun target hlink => ?_⟩
    obtain ⟨content, hcontent⟩ := hfree _ hlink
    cases hcontent
  have hbase : made.base outFile = [] := hcwd'
  have hlocate : made.locate .creation outFile = .ok (["out", "a"], made.tree.entry? ["out", "a"]) :=
    Disk.locate_of_descends hbase takes_outFile (hdescends hfolder hfree')
  let new : Disk := { made with tree := made.tree.put ["out", "a"] (.file content) }
  have hwrite : made.writeBytes outFile content = .ok new := by
    cases hentry : made.tree.entry? ["out", "a"] with
    | none => simp [Disk.writeBytes, hlocate, hentry, new]
    | some entry =>
      obtain ⟨old, rfl⟩ := hfree' entry hentry
      simp [Disk.writeBytes, hlocate, hentry, new]
  have hnew : new.tree.entry? ["out"] = some .folder := by simpa [new, FileTree.entry?_put] using hfolder
  have hfile : new.tree.entry? ["out", "a"] = some (.file content) := by simp [new, FileTree.entry?_put]
  have hagain : new.tree.Free ["out", "a"] := by simp [FileTree.Free, hfile]
  have hstat : new.stat outFile = .ok (["out", "a"], .file content) :=
    @Disk.stat_of_descends new _ _ _ hbase takes_outFile (hdescends hnew hagain) hfile
  refine ⟨made, new, hensure, hwrite, hcwd', hnew, hfile, by rw [Disk.readBytes, hstat], fun p hp hp' => ?_⟩
  rw [← hothers p hp]
  simp [new, FileTree.entry?_put, hp']

variable {console : Console} {p q : Path} {text text' : Text}

/-- Both texts are written to one file, which holds the second in the end. -/
theorem writeEntries_homeDisk {t : Transcript} (ht : t.disk = homeDisk)
    (hp : console.Shows .err (writtenLine p outFile)) (hq : console.Shows .err (writtenLine q outFile)) :
    ∃ t', writeEntries console (sharedPlan p q) t [(p, text), (q, text')] = (.ok (), t') ∧
      t'.disk.readBytes outFile = .ok (Text.encode text') := by
  have hout : homeDisk.tree.entry? ["out"] = none := by simp [homeDisk, FileTree.entry?]
  have hfree : homeDisk.tree.Free ["out", "a"] := by simp [FileTree.Free, homeDisk, FileTree.entry?]
  obtain ⟨made, new, hmade, hnew, hcwd, hfolder, hfile, -⟩ :=
    @write_out homeDisk rfl hfree (.inl hout) (Text.encode text)
  obtain ⟨made', new', hmade', hnew', -, -, -, hread, -⟩ :=
    @write_out new hcwd (by simp [FileTree.Free, hfile]) (.inr hfolder) (Text.encode text')
  obtain ⟨shown, hshown⟩ := hp
  obtain ⟨shown', hshown'⟩ := hq
  rw [← ht] at hmade
  let t₁ := t.wrote new shown
  exact ⟨t₁.wrote new' shown', (writeEntries_cons lookup_sharedPlan.1).mpr
    ⟨made, new, shown, hmade, hnew, hshown, (writeEntries_cons lookup_sharedPlan.2).mpr
      ⟨made', new', shown', hmade', hnew', hshown', rfl⟩⟩, hread⟩

end

/-- Settings with room for one level of imports. -/
def homeSettings : Settings := { Settings.standard with limits := .oneLevel }

theorem homeDisk_standing : homeDisk.Standing where
  closed := FileTree.closed_of_forall (by simp [homeDisk, FileTree.entry?])
  cwd := rfl
  plain := by simp [homeDisk]

theorem missing_outFolder {disk : Disk} (hcwd : disk.cwd = []) (hnone : disk.tree.entry? ["out"] = none) :
    disk.Missing outFolder where
  readable := by
    intro name hn
    rw [List.mem_singleton.mp hn]
    decide
  absent := by
    intro found
    have hbase : disk.base outFolder = [] := hcwd
    have hlocate : disk.locate .target outFolder = .ok (["out"], disk.tree.entry? ["out"]) :=
      Disk.locate_of_descends hbase takes_outFolder ⟨rfl, isStep_out, by simp [FileTree.Descends, hnone]⟩
    simp [Disk.stat, hlocate, hnone]
  dots := by
    intro front back hparts
    have hup : ".." ∈ outFolder.parts := by simp [hparts]
    simp [outFolder] at hup

theorem homeDisk_missing : homeDisk.Missing outFolder :=
  missing_outFolder rfl (by simp [homeDisk, FileTree.entry?])

section
variable {name : String} {anchor : Anchor}

theorem readable_homePath (hname : name = "home" ∨ name = "~") : (homePath anchor name).Readable := by
  rcases hname with rfl | rfl <;> simp [Path.Readable, homePath, IsName]

theorem readable_detour (hname : name = "home" ∨ name = "~") : (detourPath name).Readable := by
  rcases hname with rfl | rfl <;> simp [Path.Readable, detourPath, IsName]

theorem homePath_not_startsAtHome : ¬ (homePath anchor "home").StartsAtHome := by
  rintro ⟨-, first, rest, hparts, hhead⟩
  cases hparts
  exact absurd hhead (by decide)

theorem detour_not_startsAtHome : ¬ (detourPath name).StartsAtHome := by
  rintro ⟨-, first, rest, hparts, hhead⟩
  cases hparts
  exact absurd hhead (by decide)

theorem canonical?_homePath : homeDisk.canonical? (homePath anchor "home").toString = .ok ["home", "a"] :=
  canonical?_of_followPath
    (Disk.expandHome_of_readable (readable_homePath (.inl rfl)) homePath_not_startsAtHome)
    (followPath_homeDisk (.inl rfl) true)

theorem canonical?_detour (hname : name = "home" ∨ name = "~") :
    homeDisk.canonical? (detourPath name).toString = .ok [name, "a"] :=
  canonical?_of_followPath (Disk.expandHome_of_readable (readable_detour hname) detour_not_startsAtHome)
    (followPath_detour hname true)

/-- A tilde stands for the home directory. -/
theorem canonical?_tilde : homeDisk.canonical? (homePath .relative "~").toString = .ok ["home", "a"] := by
  have hexpand : homeDisk.expandHome (homePath .relative "~").toString = .ok (homePath .root "home") := by
    rw [Disk.expandHome, (readable_homePath (.inr rfl)).ofString_toString]
    rfl
  exact canonical?_of_followPath hexpand (followPath_homeDisk (.inl rfl) true)

theorem make_homeInputs (hname : name = "home" ∨ name = "~") :
    OutputPlan.make homeDisk outFolder [] (homeInputs name) = .ok (homePlan name) :=
  make_homeDisk (by simp [homePath, detourPath]) (resolve?_homeDisk hname) (resolve?_detour hname) rfl rfl

/-- The plain console tells what has been written. -/
theorem shows_homeInputs (hname : name = "home" ∨ name = "~") :
    Console.plain.Shows .err (writtenLine (homePath .relative name) outFile) ∧
      Console.plain.Shows .err (writtenLine (detourPath name) outFile) := by
  rcases hname with rfl | rfl <;>
    exact ⟨plain_shows_writtenLine (by decide) (by decide), plain_shows_writtenLine (by decide) (by decide)⟩

end

/-- The command delivers what two inputs come to, the second text over the first. -/
theorem runBatch_homeDisk {name name' : String} {p q : Path} (hname : name = "home" ∨ name = "~")
    (hname' : name' = "home" ∨ name' = "~") (hp : homeDisk.canonical? p.toString = .ok [name, "a"])
    (hq : homeDisk.canonical? q.toString = .ok [name', "a"])
    (hshown : Console.plain.Shows .err (writtenLine p outFile))
    (hshown' : Console.plain.Shows .err (writtenLine q outFile)) :
    ∃ l t', Batch.run .oneLevel homeDisk .empty [p, q] =
        (.ok ⟨[(p, homeText name), (q, homeText name')], []⟩, l) ∧
      deliver .plain ((Transcript.start homeDisk).addLog l.log) .none (some (sharedPlan p q))
        ⟨[(p, homeText name), (q, homeText name')], []⟩ = (.ok (), t') ∧
      runBatch .plain (.start homeDisk) .none homeSettings .empty (some (sharedPlan p q)) [p, q] =
        (.exit 0, t') ∧
      t'.disk.readBytes outFile = .ok (Text.encode (homeText name')) := by
  obtain ⟨l, hbatch⟩ := run_homeDisk hname hname' hp hq
  obtain ⟨t', hwrite, hread⟩ := @writeEntries_homeDisk _ _ _ (homeText name) (homeText name')
    ((Transcript.start homeDisk).addLog l.log) rfl hshown hshown'
  exact ⟨l, t', hbatch, hwrite, @runBatch_of_deliver .plain (.start homeDisk) t' .none homeSettings .empty
    (some (sharedPlan p q)) [p, q] _ l hbatch hwrite, hread⟩

theorem outputs_hold_own_texts_home :
    ∃ t', runBatch .plain (.start homeDisk) .none homeSettings .empty (some (homePlan "home"))
        (homeInputs "home") = (.exit 0, t') ∧
      t'.disk.readBytes outFile = .ok (Text.encode ['x']) ∧
      ∃ place, homeDisk.canonical? (homePath .relative "home").toString = .ok place ∧
        homeDisk.canonical? (detourPath "home").toString = .ok place := by
  have hinputs : ∀ path ∈ homeInputs "home", path.Readable ∧ ¬ path.StartsAtHome := by
    simp [homeInputs, readable_homePath, readable_detour, homePath_not_startsAtHome, detour_not_startsAtHome]
  obtain ⟨hshown, hshown'⟩ := @shows_homeInputs "home" (.inl rfl)
  obtain ⟨l, t', hbatch, hwrite, hrun, -⟩ := runBatch_homeDisk (.inl rfl) (.inl rfl)
    (@canonical?_homePath .relative) (canonical?_detour (.inl rfl)) hshown hshown'
  have hholds := @outputs_hold_own_texts .plain (.start homeDisk) t' .none homeSettings .empty outFolder []
    (homeInputs "home") (homePlan "home") _ l homeDisk_standing homeDisk_missing
    (fun path hpath => (hinputs path hpath).1) (make_homeInputs (.inl rfl))
    (fun path hpath _ _ _ _ => (hinputs path hpath).2) hbatch hwrite
  obtain ⟨target, htarget, hread, hplace⟩ := hholds (homePath .relative "home") ['x'] (by simp [homeText])
  cases lookup_sharedPlan.1.symm.trans htarget
  have hdisk : (runBatch .plain (.start homeDisk) .none homeSettings .empty (some (homePlan "home"))
      (homeInputs "home")).2 = t' := congrArg Prod.snd hrun
  rw [hdisk] at hread
  exact ⟨t', hrun, hread, hplace (detourPath "home") ['x'] (by simp [homeText]) lookup_sharedPlan.2⟩

/-- An input with a tilde and a path of a folder of that name come to two texts, share a target, and leave
only the second text there. -/
theorem outputs_mix_at_tilde :
    ∃ l t', Batch.run .oneLevel homeDisk .empty (homeInputs "~") =
        (.ok ⟨[(homePath .relative "~", ['x']), (detourPath "~", ['y'])], []⟩, l) ∧
      OutputPlan.make homeDisk outFolder [] (homeInputs "~") = .ok (homePlan "~") ∧
      (homePlan "~").lookup (homePath .relative "~") = some outFile ∧
      (homePlan "~").lookup (detourPath "~") = some outFile ∧
      homeDisk.canonical? (homePath .relative "~").toString = .ok ["home", "a"] ∧
      homeDisk.canonical? (detourPath "~").toString = .ok ["~", "a"] ∧
      runBatch .plain (.start homeDisk) .none homeSettings .empty (some (homePlan "~")) (homeInputs "~") =
        (.exit 0, t') ∧
      t'.disk.readBytes outFile = .ok (Text.encode ['y']) := by
  obtain ⟨hshown, hshown'⟩ := @shows_homeInputs "~" (.inr rfl)
  obtain ⟨l, t', hbatch, -, hrun, hread⟩ := runBatch_homeDisk (.inl rfl) (.inr rfl) canonical?_tilde
    (canonical?_detour (.inr rfl)) hshown hshown'
  exact ⟨l, t', hbatch, make_homeInputs (.inr rfl), lookup_sharedPlan.1, lookup_sharedPlan.2, canonical?_tilde,
    canonical?_detour (.inr rfl), hrun, hread⟩

end ShaderFlatten
