import ShaderFlatten.Proofs.Making
import ShaderFlatten.Proofs.Partition
import ShaderFlatten.Proofs.Targets

/-!
# Carrying out a plan

A target may be above another one, so that a folder must stand where a file stands.  A plan tells equal
targets apart and does not see that.  Inputs that are found below one root, or below none, never have such
targets; and if no input has, all files are written, or none is:

    one root for both inputs  →  neither target is above the other
    no target above another   →  all files are written, or none has changed

After each file the command tells so, and a console that refuses the line ends it there.  While the files are
written, nothing stands behind the gap in the folder's path but files at targets and folders above targets, so
that every further target is free and its folders can be made.
-/

namespace ShaderFlatten

/-! ## Paths above others -/

/-- A path goes on where another one ends. -/
def Path.Above (p q : Path) : Prop := p.anchor = q.anchor ∧ p.parts <+: q.parts ∧ p.parts ≠ q.parts

theorem Path.above_join {folder : Path} {names names' : List String} :
    (folder.join ⟨.relative, names⟩).Above (folder.join ⟨.relative, names'⟩) ↔
      names <+: names' ∧ names ≠ names' := by
  simp [Above, Path.join, Path.isAbsolute, List.prefix_append_right_inj]

namespace Disk

open FileTree

/-- A path that the system takes, and each name of it. -/
structure Fits (path : Path) : Prop extends Takes path where
  names : ∀ name ∈ path.parts, name.utf8ByteSize ≤ maxNameBytes

/-- A folder is missing from some name of its path on, and what stands before that name is a folder. -/
def Makeable (disk : Disk) (folder : Path) : Prop :=
  ∃ front name back q, folder.parts = front ++ name :: back ∧ disk.Gap folder front name q

/-! ## What stands behind a gap -/

/-- No end goes on behind another one. -/
def Apart (ends : List String → Prop) : Prop :=
  ∀ rest more, ends rest → ends more → rest <+: more → rest = more

/-- Behind a missing name only files at the ends have been written, and folders made above them. -/
structure Filled (disk : Disk) (q : Place) (name : String) (ends : List String → Prop) : Prop where
  folder : disk.tree.entry? q = some .folder
  behind : ∀ rest entry, disk.tree.entry? (q ++ name :: rest) = some entry →
    (entry = .folder ∧ ∃ more, ends more ∧ rest <+: more ∧ rest ≠ more) ∨
      (∃ content, entry = .file content) ∧ ends rest

/-- A disk grows, and where a file stood stands a file. -/
structure Fills (old new : Disk) : Prop extends old.Grows new where
  file : ∀ p content, old.tree.entry? p = some (.file content) →
    ∃ content', new.tree.entry? p = some (.file content')

section
variable {disk made new : Disk} {path folder goal : Path} {q : Place} {name last : String}
  {rest names : List String} {ends : List String → Prop} {content : ByteArray}

theorem Fills.refl (disk : Disk) : disk.Fills disk :=
  ⟨⟨rfl, .refl _, fun h => h⟩, fun _ content h => ⟨content, h⟩⟩

theorem Fills.trans (h : disk.Fills made) (h' : made.Fills new) : disk.Fills new where
  toGrows := h.toGrows.trans h'.toGrows
  file := fun p content hp => by
    obtain ⟨content', hp'⟩ := h.file p content hp
    exact h'.file p content' hp'

theorem Extends.fills (h : disk.Extends made) : disk.Fills made where
  toGrows := h.toGrows
  file := fun p content hp => ⟨content, (h.file p content).mpr hp⟩

/-- A file that can be read stays one that can be read. -/
theorem Fills.readBytes (h : disk.Fills new) (hread : disk.readBytes path = .ok content) :
    ∃ content', new.readBytes path = .ok content' := by
  obtain ⟨htakes, m, p, hleads, hfile⟩ := readBytes_eq_ok.mp hread
  obtain ⟨content', hfile'⟩ := h.file p content hfile
  exact ⟨content', readBytes_eq_ok.mpr ⟨htakes, m, p, h.leads hleads, hfile'⟩⟩

/-- Writing leaves files where files were, and one where it writes. -/
theorem writeBytes_fills (hground : disk.Grounded (disk.base path)) (h : disk.writeBytes path content = .ok new) :
    disk.Fills new ∧ new.readBytes path = .ok content := by
  have hgrows := writeBytes_grows hground h
  obtain ⟨htakes, m, p, hleads, hfree, hnew⟩ := writeBytes_eq_ok hground h
  have hentry : ∀ r, new.tree.entry? r = if r = p then some (.file content) else disk.tree.entry? r := by
    intro r
    rw [hnew, entry?_put hfree.ne_nil]
  refine ⟨⟨hgrows, fun r old hold => ?_⟩, ?_⟩
  · rw [hentry]
    split
    · exact ⟨content, rfl⟩
    · exact ⟨old, hold⟩
  · exact readBytes_eq_ok.mpr ⟨htakes, m, p, hgrows.leads hleads, by rw [hentry, if_pos rfl]⟩

/-- Folders are made and a file is written there. -/
theorem ensureFolder_writeBytes_fills (hground : disk.Grounded (disk.base goal))
    (hmade : disk.ensureFolder goal.parent = .ok made) (hwrite : made.writeBytes goal content = .ok new) :
    disk.Fills new ∧ new.readBytes goal = .ok content := by
  obtain ⟨hextends, hgroundMade⟩ := ensureFolder_parent hground hmade
  obtain ⟨hfills, hread⟩ := writeBytes_fills hgroundMade hwrite
  exact ⟨hextends.fills.trans hfills, hread⟩

/-- Paths of files are not above each other. -/
theorem not_above_of_readBytes {content' : ByteArray} (hread : disk.readBytes path = .ok content)
    (hread' : disk.readBytes goal = .ok content') : ¬ path.Above goal := by
  rintro ⟨hanchor, ⟨more, hmore⟩, hne⟩
  obtain ⟨-, m, p, hleads, hfile⟩ := readBytes_eq_ok.mp hread
  obtain ⟨-, m', p', hleads', -⟩ := readBytes_eq_ok.mp hread'
  have hbase : disk.base goal = disk.base path := by
    unfold base Path.isAbsolute
    rw [hanchor]
  unfold Leads at hleads'
  rw [hbase, ← hmore] at hleads'
  obtain ⟨m₁, p₁, l, hfirst, hsecond⟩ := hleads'.split
  cases hfirst.unique hleads
  cases more with
  | nil => exact hne (by rw [← hmore, List.append_nil])
  | cons step more =>
    rw [hsecond.folder] at hfile
    cases hfile

/-- Behind a gap nothing stands at first. -/
theorem Gap.filled {front : List String} (h : disk.Gap path front name q) (hclosed : disk.tree.Closed) :
    disk.Filled q name ends where
  folder := h.folder
  behind := fun rest entry hentry => by
    have hnone := hclosed.below h.empty rest
    rw [List.append_assoc, List.singleton_append, hentry] at hnone
    cases hnone

/-- Above an end stand only folders. -/
theorem Filled.clear (h : disk.Filled q name ends) (hapart : Apart ends) (hend : ends rest)
    (hsplit : name :: rest = names ++ [last]) : disk.tree.Clear q names := by
  intro front hfront entry hentry
  have hwhole : front <+: name :: rest := by
    rw [hsplit]
    exact hfront.trans (List.prefix_append _ _)
  cases front with
  | nil =>
    rw [List.append_nil, h.folder] at hentry
    exact (Option.some.inj hentry).symm
  | cons step above =>
    obtain ⟨rfl, habove⟩ := List.cons_prefix_cons.mp hwhole
    rcases h.behind above entry hentry with ⟨rfl, -⟩ | ⟨-, hfile⟩
    · rfl
    · -- a file above the end would be at an end itself
      obtain rfl := hapart above rest hfile hend habove
      have hlength := hfront.length_le
      rw [hsplit, List.length_append, List.length_singleton] at hlength
      omega

/-- At an end stands a file, or nothing. -/
theorem Filled.free (h : disk.Filled q name ends) (hapart : Apart ends) (hend : ends rest) :
    disk.tree.Free (q ++ name :: rest) := by
  intro entry hentry
  rcases h.behind rest entry hentry with ⟨-, more, hmore, hprefix, hne⟩ | ⟨hfile, -⟩
  · exact absurd (hapart rest more hend hmore hprefix) hne
  · exact hfile

/-- The folders above an end are made. -/
theorem Filled.built (h : disk.Filled q name ends) (hend : ends rest) (hsplit : name :: rest = names ++ [last])
    (hbuilt : disk.Built made q names) : made.Filled q name ends where
  folder := by
    have hstart := hbuilt.way [] (List.nil_prefix)
    rwa [List.append_nil] at hstart
  behind := fun above entry hentry => by
    by_cases hway : name :: above <+: names
    · rw [hbuilt.way _ hway] at hentry
      have hmore : name :: above <+: name :: rest := by
        rw [hsplit]
        exact hway.trans (List.prefix_append _ _)
      refine .inl ⟨(Option.some.inj hentry).symm, rest, hend, (List.cons_prefix_cons.mp hmore).2, ?_⟩
      rintro rfl
      have hlength := hway.length_le
      rw [hsplit, List.length_append, List.length_singleton] at hlength
      omega
    · rw [hbuilt.other] at hentry
      · exact h.behind above entry hentry
      · rintro front hfront heq
        rw [List.append_cancel_left heq] at hway
        exact hway hfront

/-- A file is written at an end. -/
theorem Filled.put (h : disk.Filled q name ends) (hend : ends rest) (hgrows : disk.Grows
      { disk with tree := disk.tree.put (q ++ name :: rest) (.file content) }) :
    Filled { disk with tree := disk.tree.put (q ++ name :: rest) (.file content) } q name ends where
  folder := hgrows.tree.folder q h.folder
  behind := fun other entry hentry => by
    rw [entry?_put (by simp)] at hentry
    split at hentry
    · next heq =>
      obtain ⟨-, rfl⟩ := List.cons.inj (List.append_cancel_left heq)
      exact .inr ⟨⟨content, (Option.some.inj hentry).symm⟩, hend⟩
    · exact h.behind other entry hentry

/-- **A file is written at an end**, and the disk is as before for the other ends. -/
theorem Filled.write (h : disk.Filled q name ends) (hapart : Apart ends) (hend : ends rest)
    (hway : disk.Way goal q (name :: rest)) (hground : disk.Grounded (disk.base goal)) (content : ByteArray) :
    ∃ made new, disk.ensureFolder goal.parent = .ok made ∧ made.writeBytes goal content = .ok new ∧
      new.Filled q name ends := by
  obtain ⟨names, last, hsplit⟩ : ∃ names last, name :: rest = names ++ [last] := by
    rcases List.eq_nil_or_concat (name :: rest) with hnil | ⟨names, last, hconcat⟩
    · cases hnil
    · exact ⟨names, last, by rw [hconcat, List.concat_eq_append]⟩
  have hway' : disk.Way goal q (names ++ [last]) := hsplit ▸ hway
  have hground' : disk.Grounded (disk.base goal.parent) := hground
  obtain ⟨made, hmade, hbuilt⟩ := hway'.parent.ensureFolder hground' (h.clear hapart hend hsplit)
  obtain ⟨hextends, hgroundMade⟩ := ensureFolder_parent hground hmade
  have hfilled : made.Filled q name ends := h.built hend hsplit hbuilt
  have hfree : made.tree.Free (q ++ (names ++ [last])) := hsplit ▸ hfilled.free hapart hend
  have hwrite := (hway'.grow hextends.toGrows).writeBytes hgroundMade.closed
    (hbuilt.way names (List.prefix_refl _)) hfree content
  have hgrows := writeBytes_grows hgroundMade hwrite
  refine ⟨made, _, hmade, hwrite, ?_⟩
  rw [← hsplit] at hgrows ⊢
  exact hfilled.put hend hgrows

/-! ## The first file -/

/-- **A file that could be written below a missing folder** shows that the folder could be made. -/
theorem makeable_of_write (hground : disk.Grounded (disk.base folder))
    (habsent : ∀ found, disk.stat folder ≠ .ok found) (hne : names ≠ [])
    (hmade : disk.ensureFolder (folder.join ⟨.relative, names⟩).parent = .ok made)
    (hwrite : made.writeBytes (folder.join ⟨.relative, names⟩) content = .ok new) : disk.Makeable folder := by
  have hbase : disk.base (folder.join ⟨.relative, names⟩).parent = disk.base folder := rfl
  have hgoal : disk.Grounded (disk.base (folder.join ⟨.relative, names⟩)) := hground
  obtain ⟨-, hgroundMade⟩ := ensureFolder_parent hgoal hmade
  obtain ⟨htakes, m, q, hleads, -, -⟩ := writeBytes_eq_ok hgroundMade hwrite
  have hthere : ∀ m₁ q₁, disk.Leads folder m₁ q₁ → disk.tree.entry? q₁ ≠ some .folder :=
    fun m₁ q₁ hfirst hfolder => habsent _ (stat_eq_ok.mpr ⟨htakes.above, ⟨m₁, hfirst⟩, hfolder⟩)
  have hparent : disk.Grounded (disk.base (folder.join ⟨.relative, names⟩).parent) := hground
  rcases ensureFolder_cases hparent hmade with rfl | ⟨front, name, back, p, hparts, hgap⟩
  · -- nothing was made, so the folder was there
    obtain ⟨m₁, q₁, l, hfirst, hsecond⟩ := hleads.through
    cases names with
    | nil => exact absurd rfl hne
    | cons name names => exact absurd hsecond.folder (hthere m₁ q₁ hfirst)
  · have hprefix := parent_join_prefix folder names
    rcases gap_or_prefix hprefix hparts with ⟨back', hback⟩ | ⟨middle, hmiddle⟩
    · exact ⟨front, name, back', p, hback, hgap.of_base hbase⟩
    · obtain ⟨m₁, q₁, hfirst, hfolder⟩ := hgap.folder_above hbase hmiddle
      exact absurd hfolder (hthere m₁ q₁ hfirst)

end

end Disk

/-! ## Writing all entries -/

namespace Command

open Disk

/-- The console shows the line about each entry that is written. -/
def Shown (console : Console) (plan : OutputPlan) (entries : List (Path × Text)) : Prop :=
  ∀ path text goal, (path, text) ∈ entries → plan.lookup path = some goal →
    console.Shows .err (writtenLine path goal)

section
variable {console : Console} {plan : OutputPlan} {t t' : Transcript} {entries : List (Path × Text)} {q : Place}
  {name : String} {ends : List String → Prop} {path goal : Path} {text : Text}

theorem Shown.tail {entry : Path × Text} (h : Shown console plan (entry :: entries)) :
    Shown console plan entries :=
  fun path text goal hentry => h path text goal (List.mem_cons_of_mem _ hentry)

/-- What has been written can be read. -/
theorem writeEntries_reads (hground : ∀ goal, t.disk.Grounded (t.disk.base goal))
    (hplanned : ∀ path text, (path, text) ∈ entries → plan.lookup path ≠ none)
    (hwrite : writeEntries console plan t entries = (.ok (), t')) :
    t.disk.Fills t'.disk ∧ ∀ path text, (path, text) ∈ entries →
      ∃ goal content, plan.lookup path = some goal ∧ t'.disk.readBytes goal = .ok content := by
  induction entries generalizing t with
  | nil =>
    cases hwrite
    exact ⟨.refl _, by simp⟩
  | cons entry entries ih =>
    obtain ⟨path, text⟩ := entry
    obtain ⟨goal, hgoal⟩ := Option.ne_none_iff_exists'.mp (hplanned path text List.mem_cons_self)
    obtain ⟨made, new, shown, hmade, hnew, -, hrest⟩ := (writeEntries_cons hgoal).mp hwrite
    obtain ⟨hfills, hread⟩ := ensureFolder_writeBytes_fills (hground goal) hmade hnew
    have hground' : ∀ goal, new.Grounded (new.base goal) := fun goal => hfills.grounded_base (hground goal)
    obtain ⟨hfills', hreads⟩ := @ih (t.wrote new shown) hground'
      (fun p s hentry => hplanned p s (List.mem_cons_of_mem _ hentry)) hrest
    have hfills' : new.Fills t'.disk := hfills'
    refine ⟨hfills.trans hfills', fun p s hentry => ?_⟩
    rcases List.mem_cons.mp hentry with heq | hentry
    · cases heq
      obtain ⟨content, hcontent⟩ := hfills'.readBytes hread
      exact ⟨goal, content, hgoal, hcontent⟩
    · exact hreads p s hentry

/-- **All entries are written**, if no target is above another one. -/
theorem writeEntries_filled (h : t.disk.Filled q name ends) (hapart : Apart ends)
    (hground : ∀ goal, t.disk.Grounded (t.disk.base goal)) (hshown : Shown console plan entries)
    (hentries : ∀ path text, (path, text) ∈ entries → ∃ goal rest, plan.lookup path = some goal ∧ ends rest ∧
      t.disk.Way goal q (name :: rest)) : ∃ t', writeEntries console plan t entries = (.ok (), t') := by
  induction entries generalizing t with
  | nil => exact ⟨t, rfl⟩
  | cons entry entries ih =>
    obtain ⟨path, text⟩ := entry
    obtain ⟨goal, rest, hgoal, hend, hway⟩ := hentries path text List.mem_cons_self
    obtain ⟨made, new, hmade, hwrite, hfilled⟩ := h.write hapart hend hway (hground goal) (Text.encode text)
    have hgrows := (ensureFolder_writeBytes_fills (hground goal) hmade hwrite).1.toGrows
    have hground' : ∀ goal, new.Grounded (new.base goal) := fun goal => hgrows.grounded_base (hground goal)
    obtain ⟨shown, hline⟩ := hshown path text goal List.mem_cons_self hgoal
    obtain ⟨t', hrest⟩ := @ih (t.wrote new shown) hfilled hground' hshown.tail fun p s hentry => by
      obtain ⟨goal', rest', hgoal', hend', hway'⟩ := hentries p s (List.mem_cons_of_mem _ hentry)
      exact ⟨goal', rest', hgoal', hend', hway'.grow hgrows⟩
    exact ⟨t', (writeEntries_cons hgoal).mpr ⟨made, new, shown, hmade, hwrite, hline, hrest⟩⟩

/-- **All entries are written to one file** that has been written. -/
theorem writeEntries_over (hentries : ∀ path text, (path, text) ∈ entries → plan.lookup path = some goal)
    (hshown : Shown console plan entries) {disk made : Disk} {content : ByteArray}
    (hground : disk.Grounded (disk.base goal))
    (hmade : disk.ensureFolder goal.parent = .ok made) (hwrite : made.writeBytes goal content = .ok t.disk) :
    ∃ t', writeEntries console plan t entries = (.ok (), t') := by
  induction entries generalizing t disk made content with
  | nil => exact ⟨t, rfl⟩
  | cons entry entries ih =>
    obtain ⟨path, text⟩ := entry
    obtain ⟨hground', hagain, newer, hnewer⟩ := write_again hground hmade hwrite (Text.encode text)
    have hgoal := hentries path text List.mem_cons_self
    obtain ⟨shown, hline⟩ := hshown path text goal List.mem_cons_self hgoal
    obtain ⟨t', hrest⟩ := @ih (t.wrote newer shown)
      (fun p s hentry => hentries p s (List.mem_cons_of_mem _ hentry)) hshown.tail _ _ _ hground' hagain hnewer
    exact ⟨t', (writeEntries_cons hgoal).mpr ⟨_, newer, shown, hagain, hnewer, hline, hrest⟩⟩

/-- An entry that cannot be written ends the writing, and no file has changed. -/
theorem writeEntries_cons_cases (hgoal : plan.lookup path = some goal) :
    (∃ made new, t.disk.ensureFolder goal.parent = .ok made ∧ made.writeBytes goal (Text.encode text) = .ok new) ∨
      ∃ e t', writeEntries console plan t ((path, text) :: entries) = (.error e, t') ∧
        (t'.disk = t.disk ∨ t.disk.ensureFolder goal.parent = .ok t'.disk) := by
  rw [writeEntries_step hgoal]
  cases hmade : t.disk.ensureFolder goal.parent with
  | error fault => exact .inr ⟨.file fault, t, rfl, .inl rfl⟩
  | ok made =>
    cases hwrite : made.writeBytes goal (Text.encode text) with
    | ok new => exact .inl ⟨made, new, rfl, hwrite⟩
    | error fault => exact .inr ⟨.file fault, { t with disk := made }, by simp only [hwrite], .inr rfl⟩

/-- A command ends where the writing of its entries ends early. -/
theorem runBatch_of_stop {a : Arguments} {settings : Settings} {bindings : Bindings} {inputs : List Path}
    {b : Batch} {l : Ledger} {e : Breakdown}
    (hbatch : Batch.run settings.limits t.disk bindings inputs = (.ok b, l))
    (hwrite : writeEntries console plan (t.addLog l.log) b.entries = (.error e, t')) :
    runBatch console t a settings bindings (some plan) inputs = (.broken e, t') := by
  simp only [runBatch, hbatch, deliver, hwrite]
  rfl

/-- After the last entry the failures are told, and the batch says how the command ends. -/
theorem runBatch_exit {a : Arguments} {settings : Settings} {bindings : Bindings} {inputs : List Path}
    {b : Batch} {l : Ledger} (hbatch : Batch.run settings.limits t.disk bindings inputs = (.ok b, l))
    (hwrite : deliver console (t.addLog l.log) a (some plan) b = (.ok (), t'))
    (htold : ∀ path f, (path, f) ∈ b.errors → console.Shows .err (failureLine console path f)) :
    (runBatch console t a settings bindings (some plan) inputs).1 = .exit (if b.ok then 0 else 1) := by
  rw [runBatch_of_deliver hbatch hwrite]
  exact Transcript.tellAndExit_exit (List.forall_mem_map.mpr fun entry hentry => htold entry.1 entry.2 hentry)

end

end Command

/-! ## Inputs that come to a text -/

namespace Batch

section
variable {limits : Limits} {disk : Disk} {bindings : Bindings} {path : Path} {text : Text}

/-- An input that comes to a text has been read, by this call or by one before it. -/
theorem read_of_outcome (hnamed : disk.WellNamed) {earlier : List Path}
    (h : outcome limits disk bindings earlier path = .ok text) :
    ∃ place content, disk.canonical? path.toString = .ok place ∧ disk.readBytes place.path = .ok content := by
  obtain ⟨hsetting, hsound⟩ := Engine.afterAll_sound hnamed
    (Sound.nil ((Engine.create limits).setting disk bindings)) (earlier.map Path.toString)
  rw [← hsetting] at hsound
  unfold outcome at h
  obtain ⟨levels, hlevels⟩ := (Engine.process_mirrored hnamed hsound path.toString).2 fun halt hhalt => by
    rw [h] at hhalt
    cases hhalt
  have hrequest := hlevels levels (Nat.le_refl _)
  rw [h, hsetting] at hrequest
  have hdisk : ((Engine.create limits).setting disk bindings).disk = disk := rfl
  rw [Uncached.request, hdisk] at hrequest
  split at hrequest
  · cases hrequest
  · cases hrequest
  · next place hplace =>
    have hgives : Uncached.Gives ((Engine.create limits).setting disk bindings) [] place (.ok text) :=
      ⟨levels, hrequest⟩
    obtain ⟨source, hsource, -⟩ := hgives.source
    obtain ⟨-, content, hread, -⟩ := Flatten.sourceAt_eq_ok_iff.mp hsource
    exact ⟨place, content, hplace, hread⟩

/-- **An input that comes to a text is a file.** -/
theorem file_of_entry (hdisk : disk.Standing) (hnamed : disk.WellNamed)
    (hhome : ∀ name ∈ disk.home, isStay name = false) {inputs : List Path}
    (hinputs : ∀ path ∈ inputs, path.Readable) {b : Batch} {l : Ledger}
    (hrun : run limits disk bindings inputs = (.ok b, l)) (hentry : (path, text) ∈ b.entries) :
    path ∈ inputs ∧ ∃ place content, disk.canonical? path.toString = .ok place ∧
      disk.tree.entry? place = some (.file content) := by
  have hpath : path ∈ inputs := (run_backed hrun).2 path text hentry
  have hrun' : (run limits disk bindings inputs).1 = .ok b := by rw [hrun]
  obtain ⟨text', htext'⟩ := (run_tells hrun').1.mem_entries.mp (List.mem_map_of_mem hentry)
  obtain ⟨earlier, rest, -, houtcome⟩ := mem_outcomes_iff.mp htext'
  obtain ⟨place, content, hplace, hread⟩ := read_of_outcome hnamed houtcome
  obtain ⟨trail, hstands, rfl⟩ := Disk.canonical?_stands hdisk hhome (hinputs path hpath) hplace
  exact ⟨hpath, _, content, hplace, hstands.entry?_of_readBytes hdisk hread⟩

end

end Batch

namespace OutputPlan

section
variable {disk : Disk} {folder path path' : Path} {places : List Place} {place source source' : Place}
  {content content' : ByteArray}

/-- **The target of a file has plain names** behind the folder. -/
theorem target_of_file (hdisk : disk.Standing) (hhome : ∀ name ∈ disk.home, isStay name = false)
    (hpath : path.Readable) (hsource : disk.resolve? path = .ok source)
    (hplace : disk.canonical? path.toString = .ok place) (hfile : disk.tree.entry? place = some (.file content)) :
    ∃ names, target folder places path source = folder.join ⟨.relative, names⟩ ∧
      ∀ name ∈ names, FileTree.IsPlainStep name := by
  obtain ⟨names, hnames, hcases⟩ := @relativePath_cases path places source hpath
  refine ⟨names, by rw [target, hnames], ?_⟩
  rcases hcases with ⟨root, -, rfl⟩ | ⟨-, ⟨-, rfl⟩ | ⟨front, name, hparts, rfl⟩⟩
  · exact fun name hn => Disk.resolve?_plain hdisk.plain hpath hsource name (List.mem_append_right _ hn)
  · simp
  · intro n hn
    rw [List.mem_singleton.mp hn]
    refine ⟨hpath.not_stay name (by simp [hparts]), ?_⟩
    rintro rfl
    rw [Disk.canonical?_up hdisk hhome hpath hparts hplace] at hfile
    cases hfile

/-- **Files below one root, or below none, have no targets above each other.** -/
theorem not_above_of_root (hdisk : disk.Standing) (hpath : path.Readable) (hpath' : path'.Readable)
    (hplace : disk.canonical? path.toString = .ok source) (hfile : disk.tree.entry? source = some (.file content))
    (hfile' : disk.tree.entry? source' = some (.file content'))
    (hroot : firstRoot places source = firstRoot places source') :
    ¬ (target folder places path source).Above (target folder places path' source') := by
  obtain ⟨names, hnames, hcases⟩ := @relativePath_cases path places source hpath
  obtain ⟨names', hnames', hcases'⟩ := @relativePath_cases path' places source' hpath'
  rw [target, target, hnames, hnames', Path.above_join]
  rintro ⟨⟨more, rfl⟩, hne⟩
  rcases hcases with ⟨root, hfirst, rfl⟩ | ⟨hfirst, hown⟩
  · -- the source of the one would be a folder above the source of the other
    rcases hcases' with ⟨root', hfirst', rfl⟩ | ⟨hfirst', -⟩
    · rw [hfirst, hfirst'] at hroot
      cases hroot
      cases more with
      | nil => exact hne (List.append_nil _).symm
      | cons step more =>
        rw [← List.append_assoc] at hfile'
        rw [hdisk.closed.above hfile'] at hfile
        cases hfile
    · rw [hfirst, hfirst'] at hroot
      cases hroot
  · rcases hown with ⟨hparts, -⟩ | ⟨front, name, -, rfl⟩
    · -- a path without names is no file
      rw [Disk.canonical?_nil hdisk hpath hparts hplace] at hfile
      cases hfile
    · rcases hcases' with ⟨root', hfirst', -⟩ | ⟨-, ⟨-, hnil⟩ | ⟨front', name', -, hone⟩⟩
      · rw [hfirst, hfirst'] at hroot
        cases hroot
      · cases hnil
      · obtain ⟨-, rfl⟩ := List.cons.inj hone
        exact hne (List.append_nil _).symm

end

/-- Two inputs are found below one root, or both are found below none. -/
def Together (disk : Disk) (roots : List Path) (path path' : Path) : Prop :=
  ∃ places source source', List.Forall₂ (fun root place => disk.resolve? root = .ok place) roots places ∧
    disk.resolve? path = .ok source ∧ disk.resolve? path' = .ok source' ∧
    firstRoot places source = firstRoot places source'

/-- The target of an input that came to a text is above the target of another one. -/
def Nested (plan : OutputPlan) (b : Batch) : Prop :=
  ∃ path text path' text' goal goal', (path, text) ∈ b.entries ∧ (path', text') ∈ b.entries ∧
    plan.lookup path = some goal ∧ plan.lookup path' = some goal' ∧ goal.Above goal'

end OutputPlan

/-! ## Carrying out a plan -/

open Command OutputPlan

section
variable {console : Console} {t t' : Transcript} {a : Arguments} {settings : Settings} {bindings : Bindings}
  {folder : Path} {roots inputs : List Path} {plan : OutputPlan} {b : Batch} {l : Ledger}

/-- Where the entries of a batch go: to plain names below the folder. -/
theorem target_of_entry (hdisk : t.disk.Standing) (hnamed : t.disk.WellNamed)
    (hhome : ∀ name ∈ t.disk.home, isStay name = false) (hinputs : ∀ path ∈ inputs, path.Readable)
    (hplan : make t.disk folder roots inputs = .ok plan)
    (hbatch : Batch.run settings.limits t.disk bindings inputs = (.ok b, l)) {path : Path} {text : Text}
    (hentry : (path, text) ∈ b.entries) :
    ∃ names, plan.lookup path = some (folder.join ⟨.relative, names⟩) ∧
      ∀ name ∈ names, FileTree.IsPlainStep name := by
  obtain ⟨hpath, place, content, hplace, hfile⟩ := Batch.file_of_entry hdisk hnamed hhome hinputs hbatch hentry
  obtain ⟨places, sources, -, hsound, hplanned⟩ := make_eq_ok hplan
  obtain ⟨goal, hgoal⟩ := Option.ne_none_iff_exists'.mp ((hplanned path).mpr hpath)
  obtain ⟨source, hsource, rfl, -⟩ := hsound path goal hgoal
  obtain ⟨names, hnames, hplain⟩ :=
    @target_of_file _ folder _ places _ _ _ hdisk hhome (hinputs path hpath) hsource hplace hfile
  exact ⟨names, by rw [hgoal, hnames], hplain⟩

/-- The names of the targets behind the folder, after the names of the folder that are missing. -/
def Batch.Ends (b : Batch) (plan : OutputPlan) (folder : Path) (back rest : List String) : Prop :=
  ∃ path text names, (path, text) ∈ b.entries ∧ plan.lookup path = some (folder.join ⟨.relative, names⟩) ∧
    rest = back ++ names

theorem Batch.apart_of_not_nested (hnested : ¬ plan.Nested b) (back : List String) :
    Disk.Apart (b.Ends plan folder back) := by
  rintro _ _ ⟨path, text, names, hentry, hgoal, rfl⟩ ⟨path', text', names', hentry', hgoal', rfl⟩ hfront
  rw [List.prefix_append_right_inj] at hfront
  by_contra hne
  refine hnested ⟨path, text, path', text', _, _, hentry, hentry', hgoal, hgoal', ?_⟩
  exact Path.above_join.mpr ⟨hfront, fun heq => hne (by rw [heq])⟩

/-- **All entries are written below a folder that can be made.** -/
theorem writeEntries_of_makeable (hdisk : t.disk.Standing) (hfolder : t.disk.Missing folder)
    (hgoes : ∀ path text, (path, text) ∈ b.entries → ∃ names,
      plan.lookup path = some (folder.join ⟨.relative, names⟩) ∧ ∀ name ∈ names, FileTree.IsPlainStep name)
    (hnested : ¬ plan.Nested b)
    (hfits : ∀ path text goal, (path, text) ∈ b.entries → plan.lookup path = some goal → Disk.Fits goal)
    (hshown : Shown console plan b.entries) (hmakeable : t.disk.Makeable folder) :
    ∃ t', writeEntries console plan t b.entries = (.ok (), t') := by
  obtain ⟨front, name, back, q, hparts, hgap⟩ := hmakeable
  have hback := hgap.plain_back hparts (hfolder.anchored hdisk)
  have hfilled : t.disk.Filled q name (b.Ends plan folder back) := hgap.filled hdisk.closed
  refine writeEntries_filled hfilled (Batch.apart_of_not_nested hnested back) hdisk.grounded hshown
    fun path text hentry => ?_
  obtain ⟨names, hgoal, hplain⟩ := hgoes path text hentry
  have hfit := hfits path text _ hentry hgoal
  have hgoalParts : (folder.join ⟨.relative, names⟩).parts = front ++ name :: (back ++ names) := by
    have hjoin : (folder.join ⟨.relative, names⟩).parts = folder.parts ++ names := rfl
    rw [hjoin, hparts, List.append_assoc, List.cons_append]
  obtain ⟨m, hleads⟩ := hgap.leads
  refine ⟨_, back ++ names, hgoal, ⟨path, text, names, hentry, hgoal, rfl⟩, hfit.toTakes,
    ⟨front, m, hgoalParts, hleads⟩, hgap.folder, fun step hstep => ?_⟩
  have hstepPlain : FileTree.IsPlainStep step := by
    rw [← List.cons_append] at hstep
    exact (List.mem_append.mp hstep).elim (hback step) (hplain step)
  refine ⟨hstepPlain.1, hstepPlain.2, hfit.names step ?_⟩
  rw [hgoalParts]
  exact List.mem_append_right _ hstep

/-- **All entries are written, or no file has changed.** -/
theorem writeEntries_whole (hdisk : t.disk.Standing) (hfolder : t.disk.Missing folder)
    (hgoes : ∀ path text, (path, text) ∈ b.entries → ∃ names,
      plan.lookup path = some (folder.join ⟨.relative, names⟩) ∧ ∀ name ∈ names, FileTree.IsPlainStep name)
    (hnested : ¬ plan.Nested b)
    (hfits : ∀ path text goal, (path, text) ∈ b.entries → plan.lookup path = some goal → Disk.Fits goal)
    (hshown : Shown console plan b.entries) :
    (∃ t', writeEntries console plan t b.entries = (.ok (), t')) ∨
      ∃ e t', writeEntries console plan t b.entries = (.error e, t') ∧ t.disk.Extends t'.disk := by
  cases hentries : b.entries with
  | nil => exact .inl ⟨t, rfl⟩
  | cons entry entries =>
    obtain ⟨path, text⟩ := entry
    have hfirst : (path, text) ∈ b.entries := by simp [hentries]
    obtain ⟨names, hgoal, -⟩ := hgoes path text hfirst
    have hground : ∀ goal, t.disk.Grounded (t.disk.base goal) := hdisk.grounded
    have hshown' : Shown console plan ((path, text) :: entries) := hentries ▸ hshown
    rcases @writeEntries_cons_cases console plan t entries path _ text hgoal with
      ⟨made, new, hmade, hwrite⟩ | ⟨e, t', herror, hunchanged⟩
    · left
      by_cases hnames : names = []
      · -- the folder itself is written to, and then no other target is below it
        subst hnames
        have hall : ∀ p s, (p, s) ∈ entries → plan.lookup p = some (folder.join ⟨.relative, []⟩) := by
          intro p s hentry
          have hmem : (p, s) ∈ b.entries := by simp [hentries, hentry]
          obtain ⟨names', hgoal', -⟩ := hgoes p s hmem
          have hnil : names' = [] := by
            by_contra hne
            refine hnested ⟨path, text, p, s, _, _, hfirst, hmem, hgoal, hgoal', Path.above_join.mpr ?_⟩
            exact ⟨List.nil_prefix, Ne.symm hne⟩
          rw [hgoal', hnil]
        obtain ⟨shown, hline⟩ := hshown path text _ hfirst hgoal
        obtain ⟨t', hrest⟩ := @writeEntries_over _ _ (t.wrote new shown) _ _ hall hshown'.tail _ _ _ (hground _)
          hmade hwrite
        exact ⟨t', (writeEntries_cons hgoal).mpr ⟨made, new, shown, hmade, hwrite, hline, hrest⟩⟩
      · have hmakeable := Disk.makeable_of_write (hground folder) hfolder.absent hnames hmade hwrite
        obtain ⟨t', hall⟩ := writeEntries_of_makeable hdisk hfolder hgoes hnested hfits hshown hmakeable
        exact ⟨t', hentries ▸ hall⟩
    · right
      refine ⟨e, t', herror, ?_⟩
      rcases hunchanged with heq | hmade
      · rw [heq]
        exact .refl _
      · exact @Disk.ensureFolder_extends _ _ (folder.join ⟨.relative, names⟩).parent (hground _) hmade

/-- **Inputs below one root, or below none, have no targets above each other**, if they came to texts. -/
theorem not_above_of_together (hdisk : t.disk.Standing) (hnamed : t.disk.WellNamed)
    (hhome : ∀ name ∈ t.disk.home, isStay name = false) (hinputs : ∀ path ∈ inputs, path.Readable)
    (hplan : make t.disk folder roots inputs = .ok plan)
    (hbatch : Batch.run settings.limits t.disk bindings inputs = (.ok b, l)) {path path' goal goal' : Path}
    {text text' : Text} (hentry : (path, text) ∈ b.entries) (hentry' : (path', text') ∈ b.entries)
    (htilde : ¬ path.StartsAtHome) (htilde' : ¬ path'.StartsAtHome) (h : Together t.disk roots path path')
    (hgoal : plan.lookup path = some goal) (hgoal' : plan.lookup path' = some goal') : ¬ goal.Above goal' := by
  obtain ⟨places, source, source', hroots, hsource, hsource', hroot⟩ := h
  obtain ⟨hpath, place, content, hplace, hfile⟩ := Batch.file_of_entry hdisk hnamed hhome hinputs hbatch hentry
  obtain ⟨hpath', place', content', hplace', hfile'⟩ :=
    Batch.file_of_entry hdisk hnamed hhome hinputs hbatch hentry'
  -- an input without a tilde has one place for the engine and the plan
  cases hsource.symm.trans (Disk.resolve?_of_canonical? hdisk (hinputs path hpath) htilde hplace)
  cases hsource'.symm.trans (Disk.resolve?_of_canonical? hdisk (hinputs path' hpath') htilde' hplace')
  obtain ⟨s, hs, rfl⟩ := (isTarget_iff hroots).mp ((lookup_make hplan).mp hgoal).2
  obtain ⟨s', hs', rfl⟩ := (isTarget_iff hroots).mp ((lookup_make hplan).mp hgoal').2
  cases hsource.symm.trans hs
  cases hsource'.symm.trans hs'
  exact not_above_of_root hdisk (hinputs path hpath) (hinputs path' hpath') hplace hfile hfile' hroot

/-- **A command that delivers its batch** has written all targets, and none of them is above another one. -/
theorem targets_of_deliver (hdisk : t.disk.Standing)
    (hplanned : ∀ path text, (path, text) ∈ b.entries → plan.lookup path ≠ none)
    (hbatch : Batch.run settings.limits t.disk bindings inputs = (.ok b, l))
    (hwrite : deliver console (t.addLog l.log) a (some plan) b = (.ok (), t')) :
    ¬ plan.Nested b ∧ ∀ path text, (path, text) ∈ b.entries → ∃ goal content, plan.lookup path = some goal ∧
      (runBatch console t a settings bindings (some plan) inputs).2.disk.readBytes goal = .ok content := by
  have hground : ∀ goal, (t.addLog l.log).disk.Grounded ((t.addLog l.log).disk.base goal) := hdisk.grounded
  obtain ⟨-, hreads⟩ := writeEntries_reads hground hplanned hwrite
  rw [runBatch_of_deliver hbatch hwrite, Transcript.disk_tellAndExit]
  refine ⟨?_, hreads⟩
  rintro ⟨path, text, path', text', goal, goal', hentry, hentry', hgoal, hgoal', habove⟩
  obtain ⟨_, content, hlookup, hread⟩ := hreads path text hentry
  cases hgoal.symm.trans hlookup
  obtain ⟨_, content', hlookup', hread'⟩ := hreads path' text' hentry'
  cases hgoal'.symm.trans hlookup'
  exact Disk.not_above_of_readBytes hread hread' habove

/-- **An accepted plan is carried out as a whole, unless one target is above another**, if only the console
shows what has been written.  Take a plan for inputs and roots on the disk of a running system, an output
folder that is not there yet, and a batch that returns.  Two inputs that came to a text and are found below one
root, or below none, have no targets above each other.  A command that delivers its batch has written all
targets, and none of them is above another one; then it ends as the batch says, if the console shows the
failures.  If no target is above another, the system takes all of them and the console shows the line about
each, then the command delivers its batch below a folder that can be made; and whether the folder can be made
or not, it delivers the batch, or it breaks off before any file has changed. -/
theorem accepted_plan_is_carried_out (hdisk : t.disk.Standing) (hnamed : t.disk.WellNamed)
    (hhome : ∀ name ∈ t.disk.home, isStay name = false) (hfolder : t.disk.Missing folder)
    (hinputs : ∀ path ∈ inputs, path.Readable) (hplan : make t.disk folder roots inputs = .ok plan)
    (hbatch : Batch.run settings.limits t.disk bindings inputs = (.ok b, l)) :
    (∀ path text path' text', (path, text) ∈ b.entries → (path', text') ∈ b.entries →
      ¬ path.StartsAtHome → ¬ path'.StartsAtHome → Together t.disk roots path path' →
      ∀ goal goal', plan.lookup path = some goal → plan.lookup path' = some goal' → ¬ goal.Above goal') ∧
    (∀ t', deliver console (t.addLog l.log) a (some plan) b = (.ok (), t') →
      (¬ plan.Nested b ∧ ∀ path text, (path, text) ∈ b.entries → ∃ goal content, plan.lookup path = some goal ∧
        (runBatch console t a settings bindings (some plan) inputs).2.disk.readBytes goal = .ok content) ∧
      ((∀ path f, (path, f) ∈ b.errors → console.Shows .err (failureLine console path f)) →
        (runBatch console t a settings bindings (some plan) inputs).1 = .exit (if b.ok then 0 else 1))) ∧
    (¬ plan.Nested b →
      (∀ path text goal, (path, text) ∈ b.entries → plan.lookup path = some goal → Disk.Fits goal) →
      Shown console plan b.entries →
      (t.disk.Makeable folder → ∃ t', deliver console (t.addLog l.log) a (some plan) b = (.ok (), t')) ∧
      ((∃ t', deliver console (t.addLog l.log) a (some plan) b = (.ok (), t')) ∨
        ∃ e t', runBatch console t a settings bindings (some plan) inputs = (.broken e, t') ∧
          ∀ p content, t'.disk.tree.entry? p = some (.file content) ↔
            t.disk.tree.entry? p = some (.file content))) := by
  have hgoes : ∀ path text, (path, text) ∈ b.entries → ∃ names,
      plan.lookup path = some (folder.join ⟨.relative, names⟩) ∧ ∀ name ∈ names, FileTree.IsPlainStep name :=
    fun path text hentry => target_of_entry hdisk hnamed hhome hinputs hplan hbatch hentry
  refine ⟨fun path text path' text' hentry hentry' htilde htilde' htogether goal goal' => ?_,
    fun t' hwrite => ⟨?_, runBatch_exit hbatch hwrite⟩, fun hnested hfits hshown => ⟨fun hmakeable => ?_, ?_⟩⟩
  · exact not_above_of_together hdisk hnamed hhome hinputs hplan hbatch hentry hentry' htilde htilde' htogether
  · refine targets_of_deliver hdisk (fun path text hentry => ?_) hbatch hwrite
    obtain ⟨names, hgoal, -⟩ := hgoes path text hentry
    simp [hgoal]
  · exact @writeEntries_of_makeable _ (t.addLog l.log) _ _ _ hdisk hfolder hgoes hnested hfits hshown hmakeable
  · rcases @writeEntries_whole _ (t.addLog l.log) _ _ _ hdisk hfolder hgoes hnested hfits hshown with
      hwritten | ⟨e, t₁, hstop, hextends⟩
    · exact .inl hwritten
    · exact .inr ⟨e, t₁, runBatch_of_stop hbatch hstop, hextends.file⟩

end

/-- Two paths of one file have one target, which is not above itself, and the command delivers its batch. -/
theorem accepted_plan_is_carried_out_home :
    ∃ l t', Batch.run .oneLevel homeDisk .empty (homeInputs "home") =
        (.ok ⟨[(homePath .relative "home", ['x']), (detourPath "home", ['x'])], []⟩, l) ∧
      deliver .plain ((Transcript.start homeDisk).addLog l.log) .none (some (homePlan "home"))
        ⟨[(homePath .relative "home", ['x']), (detourPath "home", ['x'])], []⟩ = (.ok (), t') := by
  obtain ⟨l, hbatch⟩ := run_homeDisk (.inl rfl) (.inl rfl) (@canonical?_homePath .relative)
    (canonical?_detour (.inl rfl))
  have hnamed : homeDisk.WellNamed := ⟨by simp [homeDisk], by simp [homeDisk, IsName]⟩
  have hhome : ∀ name ∈ homeDisk.home, isStay name = false := by simp [homeDisk, isStay]
  have hinputs : ∀ path ∈ homeInputs "home", path.Readable := by
    simp [homeInputs, readable_homePath, readable_detour]
  have hgoal : ∀ path text goal, (path, text) ∈
      [(homePath .relative "home", homeText "home"), (detourPath "home", homeText "home")] →
      (homePlan "home").lookup path = some goal →
      goal = outFile ∧ Console.plain.Shows .err (writtenLine path goal) := by
    intro path text goal hentry hlookup
    obtain ⟨hshown, hshown'⟩ := @shows_homeInputs "home" (.inl rfl)
    rcases List.mem_pair.mp hentry with heq | heq
    · cases heq
      cases hlookup.symm.trans lookup_sharedPlan.1
      exact ⟨rfl, hshown⟩
    · cases heq
      cases hlookup.symm.trans lookup_sharedPlan.2
      exact ⟨rfl, hshown'⟩
  have hnested : ¬ (homePlan "home").Nested
      ⟨[(homePath .relative "home", homeText "home"), (detourPath "home", homeText "home")], []⟩ := by
    rintro ⟨path, text, path', text', goal, goal', hentry, hentry', hlookup, hlookup', habove⟩
    obtain rfl := (hgoal path text goal hentry hlookup).1
    obtain rfl := (hgoal path' text' goal' hentry' hlookup').1
    exact habove.2.2 rfl
  have hmakeable : homeDisk.Makeable outFolder :=
    ⟨[], "out", [], [], rfl, ⟨_, .done⟩, rfl, ⟨isStep_out.stay, isStep_out.up⟩, by
      simp [homeDisk, FileTree.entry?]⟩
  obtain ⟨-, -, hwhole⟩ := @accepted_plan_is_carried_out .plain (.start homeDisk) .none homeSettings .empty
    outFolder [] _ _ _ _ homeDisk_standing hnamed hhome homeDisk_missing hinputs (make_homeInputs (.inl rfl))
    hbatch
  obtain ⟨t', hwrite⟩ := (hwhole hnested
    (fun path text goal hentry hlookup => (hgoal path text goal hentry hlookup).1 ▸ ⟨takes_outFile, by decide⟩)
    fun path text goal hentry hlookup => (hgoal path text goal hentry hlookup).2).1 hmakeable
  exact ⟨l, t', hbatch, hwrite⟩

/-! Two files of one name, one of which is found below a root, in a folder that has the name of the other; and
two files, the path of one of which holds a tag. -/

/-- A disk with a file, with a file in a folder of its name, and with two other files. -/
def nestedDisk : Disk :=
  ⟨⟨[(["x"], .folder), (["x", "a"], .file (Utf8.ascii ['x'])),
    (["r"], .folder), (["r", "a"], .folder), (["r", "a", "b"], .file (Utf8.ascii ['y'])),
    (["["], .folder), (["[", "b]"], .folder), (["[", "b]", "a"], .file (Utf8.ascii ['x'])),
    (["c"], .file (Utf8.ascii ['y']))]⟩, [], []⟩

/-- The path of what stands on the disk. -/
def nestedPath (names : List String) : Path := ⟨.root, names⟩

theorem nestedDisk_standing : nestedDisk.Standing where
  closed := FileTree.closed_of_forall (by simp [nestedDisk, FileTree.entry?])
  cwd := rfl
  plain := by simp [nestedDisk]

/-- A file of that disk, with its text. -/
structure NestedFile (names : List String) (text : Text) : Prop where
  takes : Disk.Takes (nestedPath names)
  steps : ∀ name ∈ names, IsStep name
  readable : (nestedPath names).Readable
  entry : nestedDisk.tree.entry? names = some (.file (Utf8.ascii text))
  short : text = ['x'] ∨ text = ['y']

section
variable {names names' : List String} {text text' : Text}

theorem NestedFile.resolve? (h : NestedFile names text) : nestedDisk.resolve? (nestedPath names) = .ok names :=
  Disk.resolve?_straight nestedDisk_standing h.takes h.steps h.entry (by simp)

/-- A file of the disk comes to its line, if it is not cached. -/
theorem NestedFile.request (h : NestedFile names text) {l : Ledger}
    (hget : l.cache.get? (Place.text names) = none) :
    ∃ l', Flatten.request ((Engine.create .oneLevel).setting nestedDisk .empty) (nestedPath names).toString l =
        (.ok text, l') ∧ l'.cache = l.cache.insert (Place.text names) text := by
  have htilde : ¬ (nestedPath names).StartsAtHome := fun h => by cases h.1
  have hlink : ∀ target, Entry.file (Utf8.ascii text) ≠ .link target := by simp
  have hplace : ((Engine.create .oneLevel).setting nestedDisk .empty).disk.canonical?
      (nestedPath names).toString = .ok names :=
    Disk.canonical?_straight nestedDisk_standing h.readable htilde h.takes h.steps h.entry hlink
  have hentry : nestedDisk.tree.entry? ([] ++ names) = some (.file (Utf8.ascii text)) := h.entry
  have hleads : nestedDisk.Leads (nestedPath names) maxLinks names :=
    (nestedDisk_standing.closed.descends h.steps hentry hlink).leads
  have hread : nestedDisk.readBytes (Place.path names) = .ok (Utf8.ascii text) :=
    Disk.readBytes_eq_ok.mpr ⟨h.takes, _, names, hleads, h.entry⟩
  refine request_of_line hplace hread rfl ?_ ?_ ?_ hget
  · rcases h.short with rfl | rfl <;> decide
  · rcases h.short with rfl | rfl <;> decide
  · rcases h.short with rfl | rfl <;> rfl

/-- Two files of the disk come to their texts. -/
theorem NestedFile.run (h : NestedFile names text) (h' : NestedFile names' text')
    (hne : Place.text names ≠ Place.text names') :
    ∃ l, Batch.run .oneLevel nestedDisk .empty [nestedPath names, nestedPath names'] =
      (.ok ⟨[(nestedPath names, text), (nestedPath names', text')], []⟩, l) := by
  obtain ⟨l, hfirst, hcache⟩ := @NestedFile.request _ _ h (.ofCache []) rfl
  have hget : l.cache.get? (Place.text names') = none := by
    rw [hcache, Table.get?_insert, if_neg hne]
    rfl
  obtain ⟨l', hsecond, -⟩ := h'.request hget
  exact ⟨_, by simp only [Batch.run, Batch.runFrom, hfirst, hsecond]; rfl⟩

end

theorem isStep_b : IsStep "b" := ⟨by decide, by decide, by decide⟩
theorem isStep_c : IsStep "c" := ⟨by decide, by decide, by decide⟩
theorem isStep_r : IsStep "r" := ⟨by decide, by decide, by decide⟩
theorem isStep_x : IsStep "x" := ⟨by decide, by decide, by decide⟩

theorem nestedFile_x : NestedFile ["x", "a"] ['x'] where
  takes := ⟨by decide, by decide⟩
  steps := by simp [isStep_x, isStep_a]
  readable := by simp [Path.Readable, nestedPath, IsName]
  entry := by simp [nestedDisk, FileTree.entry?]
  short := .inl rfl

theorem nestedFile_r : NestedFile ["r", "a", "b"] ['y'] where
  takes := ⟨by decide, by decide⟩
  steps := by simp [isStep_r, isStep_a, isStep_b]
  readable := by simp [Path.Readable, nestedPath, IsName]
  entry := by simp [nestedDisk, FileTree.entry?]
  short := .inr rfl

theorem nestedFile_tag : NestedFile ["[", "b]", "a"] ['x'] where
  takes := ⟨by decide, by decide⟩
  steps := by
    have hopen : IsStep "[" := ⟨by decide, by decide, by decide⟩
    have hclose : IsStep "b]" := ⟨by decide, by decide, by decide⟩
    simp [hopen, hclose, isStep_a]
  readable := by simp [Path.Readable, nestedPath, IsName]
  entry := by simp [nestedDisk, FileTree.entry?]
  short := .inl rfl

theorem nestedFile_c : NestedFile ["c"] ['y'] where
  takes := ⟨by decide, by decide⟩
  steps := by simp [isStep_c]
  readable := by simp [Path.Readable, nestedPath, IsName]
  entry := by simp [nestedDisk, FileTree.entry?]
  short := .inr rfl

/-- The file, and the one in the folder of its name. -/
def nestedInputs : List Path := [nestedPath ["x", "a"], nestedPath ["r", "a", "b"]]

/-- The plan with one target above the other. -/
def nestedPlan : OutputPlan :=
  [(nestedPath ["x", "a"], outFile), (nestedPath ["r", "a", "b"], ⟨.relative, ["out", "a", "b"]⟩)]

theorem make_nestedInputs : make nestedDisk outFolder [nestedPath ["r"]] nestedInputs = .ok nestedPlan := by
  have hfolder : nestedDisk.tree.entry? ["r"] = some .folder := by simp [nestedDisk, FileTree.entry?]
  have hroot : nestedDisk.resolve? (nestedPath ["r"]) = .ok ["r"] :=
    @Disk.resolve?_straight nestedDisk .folder nestedDisk_standing (nestedPath ["r"]) ⟨by decide, by decide⟩
      (by simp [nestedPath, isStep_r]) hfolder (by simp)
  have htarget : target outFolder [["r"]] (nestedPath ["x", "a"]) ["x", "a"] = outFile := by decide
  have htarget' : target outFolder [["r"]] (nestedPath ["r", "a", "b"]) ["r", "a", "b"] =
      ⟨.relative, ["out", "a", "b"]⟩ := by decide
  have hne : nestedPath ["x", "a"] ≠ nestedPath ["r", "a", "b"] := by simp [nestedPath]
  have hgoals : outFile ≠ ⟨.relative, ["out", "a", "b"]⟩ := by simp [outFile]
  simp [make, nestedInputs, nestedPlan, extend, hroot, nestedFile_x.resolve?, nestedFile_r.resolve?, htarget,
    htarget', claimed?, put, hne, hgoals, pure, Except.pure, bind, Except.bind]

/-- A file whose path holds a tag that ends a style, and another file. -/
def taggedInputs : List Path := [nestedPath ["[", "b]", "a"], nestedPath ["c"]]

/-- The plan for them. -/
def taggedPlan : OutputPlan :=
  [(nestedPath ["[", "b]", "a"], outFile), (nestedPath ["c"], ⟨.relative, ["out", "c"]⟩)]

theorem make_taggedInputs : make nestedDisk outFolder [] taggedInputs = .ok taggedPlan := by
  have htarget : target outFolder [] (nestedPath ["[", "b]", "a"]) ["[", "b]", "a"] = outFile := by decide
  have htarget' : target outFolder [] (nestedPath ["c"]) ["c"] = ⟨.relative, ["out", "c"]⟩ := by decide
  have hne : nestedPath ["[", "b]", "a"] ≠ nestedPath ["c"] := by simp [nestedPath]
  have hgoals : outFile ≠ ⟨.relative, ["out", "c"]⟩ := by simp [outFile]
  simp [make, taggedInputs, taggedPlan, extend, nestedFile_tag.resolve?, nestedFile_c.resolve?, htarget,
    htarget', claimed?, put, hne, hgoals, pure, Except.pure]

/-- No folder is made where a file stands. -/
theorem ensureFolder_outFile {disk : Disk} {content : ByteArray} (hcwd : disk.cwd = [])
    (hfolder : disk.tree.entry? ["out"] = some .folder)
    (hfile : disk.tree.entry? ["out", "a"] = some (.file content)) :
    disk.ensureFolder outFile = .error (.system .alreadyExists "out/a") := by
  have hdescends : disk.tree.Descends [] ["out", "a"] :=
    ⟨rfl, isStep_out, hfolder, isStep_a, by simp [FileTree.Descends, hfile]⟩
  have hbase : disk.base outFile = [] := hcwd
  have hlocate : disk.locate .entry outFile = .ok (["out", "a"], disk.tree.entry? ["out", "a"]) :=
    Disk.locate_of_descends hbase takes_outFile hdescends
  have hstat : disk.stat outFile = .ok (["out", "a"], .file content) :=
    Disk.stat_of_descends hbase takes_outFile hdescends hfile
  have htext : outFile.toString = "out/a" := by decide
  have hmake : disk.makeFolder outFile = .error (.system .alreadyExists "out/a") := by
    rw [Disk.makeFolder, hlocate, hfile, htext]
  rw [Disk.ensureFolder, hmake]
  simp only [Disk.ensureOne, hmake, Disk.isFolder, Disk.leadsTo, hstat, bind, Except.bind]
  rfl

/-- **Plans that are accepted and break off a command half-way.**  One target is above the other, so that the
first file stands where the folder of the second must be made; and one path holds a tag, so that the console
refuses to tell that the first file has been written, and the second is never written. -/
theorem accepted_plans_stop_halfway :
    nestedDisk.Standing ∧ nestedDisk.Missing outFolder ∧
    (make nestedDisk outFolder [nestedPath ["r"]] nestedInputs = .ok nestedPlan ∧
      Path.Above outFile ⟨.relative, ["out", "a", "b"]⟩ ∧
      ∃ t', runBatch .plain (.start nestedDisk) .none homeSettings .empty (some nestedPlan) nestedInputs =
          (.broken (.file (.system .alreadyExists "out/a")), t') ∧
        t'.disk.readBytes outFile = .ok (Text.encode ['x'])) ∧
    (make nestedDisk outFolder [] taggedInputs = .ok taggedPlan ∧
      taggedPlan.lookup (nestedPath ["c"]) = some ⟨.relative, ["out", "c"]⟩ ∧
      ∃ t', runBatch .plain (.start nestedDisk) .none homeSettings .empty (some taggedPlan) taggedInputs =
          (.broken (.markup ⟨"closing tag '[/b]' at position 13 doesn't match any open tag"⟩), t') ∧
        t'.disk.readBytes outFile = .ok (Text.encode ['x']) ∧ t'.disk.tree.entry? ["out", "c"] = none) := by
  have hnone : nestedDisk.tree.entry? ["out"] = none := by simp [nestedDisk, FileTree.entry?]
  obtain ⟨made, new, hmade, hwrite, hcwd, hfolder, hfile, hread, hothers⟩ :=
    @write_out nestedDisk rfl (by simp [FileTree.Free, nestedDisk, FileTree.entry?]) (.inl hnone)
      (Text.encode ['x'])
  refine ⟨nestedDisk_standing, missing_outFolder rfl hnone,
    ⟨make_nestedInputs, ⟨rfl, by decide, by decide⟩, ?_⟩, make_taggedInputs,
    by simp [lookup, taggedPlan, nestedPath], ?_⟩
  · have hlookup : nestedPlan.lookup (nestedPath ["x", "a"]) = some outFile := by simp [lookup, nestedPlan]
    have hlookup' : nestedPlan.lookup (nestedPath ["r", "a", "b"]) = some ⟨.relative, ["out", "a", "b"]⟩ := by
      simp [lookup, nestedPlan, nestedPath]
    obtain ⟨l, hbatch⟩ := nestedFile_x.run nestedFile_r (by decide)
    obtain ⟨shown, hshown⟩ : Console.plain.Shows .err (writtenLine (nestedPath ["x", "a"]) outFile) :=
      plain_shows_writtenLine (by decide) (by decide)
    let t₁ := ((Transcript.start nestedDisk).addLog l.log).wrote new shown
    have hmade' : ((Transcript.start nestedDisk).addLog l.log).disk.ensureFolder outFile.parent = .ok made :=
      hmade
    have hstop : t₁.disk.ensureFolder (Path.mk .relative ["out", "a", "b"]).parent =
        .error (.system .alreadyExists "out/a") := ensureFolder_outFile hcwd hfolder hfile
    have hentries : writeEntries .plain nestedPlan ((Transcript.start nestedDisk).addLog l.log)
        [(nestedPath ["x", "a"], ['x']), (nestedPath ["r", "a", "b"], ['y'])] =
        (.error (.file (.system .alreadyExists "out/a")), t₁) := by
      simp only [writeEntries_step hlookup, hmade', hwrite, hshown]
      rw [writeEntries_step hlookup', hstop]
    exact ⟨t₁, runBatch_of_stop hbatch hentries, hread⟩
  · have hlookup : taggedPlan.lookup (nestedPath ["[", "b]", "a"]) = some outFile := by
      simp [lookup, taggedPlan]
    obtain ⟨l, hbatch⟩ := nestedFile_tag.run nestedFile_c (by decide)
    have hmessage : Markup.notOpen ['[', '/', 'b', ']'] 13 =
        ⟨"closing tag '[/b]' at position 13 doesn't match any open tag"⟩ := by decide +kernel
    have hrefused : Console.plain.line .err (writtenLine (nestedPath ["[", "b]", "a"]) outFile) =
        .error ⟨"closing tag '[/b]' at position 13 doesn't match any open tag"⟩ := by
      rw [← hmessage]
      exact @plain_refuses_writtenLine _ _ ['/'] ['b'] ['/', 'a'] (by decide) (by decide) (by decide)
        (by decide)
    have hmade' : ((Transcript.start nestedDisk).addLog l.log).disk.ensureFolder outFile.parent = .ok made :=
      hmade
    have hentries : writeEntries .plain taggedPlan ((Transcript.start nestedDisk).addLog l.log)
        [(nestedPath ["[", "b]", "a"], ['x']), (nestedPath ["c"], ['y'])] =
        (.error (.markup ⟨"closing tag '[/b]' at position 13 doesn't match any open tag"⟩),
          { (Transcript.start nestedDisk).addLog l.log with disk := new }) := by
      simp only [writeEntries_step hlookup, hmade', hwrite, hrefused]
    refine ⟨_, runBatch_of_stop hbatch hentries, hread, ?_⟩
    exact (hothers ["out", "c"] (by decide) (by decide)).trans (by simp [nestedDisk, FileTree.entry?])

end ShaderFlatten
