import ShaderFlatten.Proofs.Relevance

/-!
# Trees with other contents

What a path leads to depends on the folders and the links of a tree, not on what its files hold.  So
requests and imports are resolved alike in a tree whose files have been changed:

    (disk.mapFiles change).canonical? request = disk.canonical? request

and reading a file there gives what the change makes of its bytes.
-/

namespace ShaderFlatten

/-! ## Entries -/

namespace Entry

/-- A file with its bytes changed; folders and links stay. -/
def mapFile (change : ByteArray → ByteArray) : Entry → Entry
  | .file content => .file (change content)
  | .folder => .folder
  | .link target => .link target

end Entry

namespace FileTree

/-- A tree with the bytes of its files changed, each according to its place. -/
def mapFiles (tree : FileTree) (change : Place → ByteArray → ByteArray) : FileTree :=
  ⟨tree.entries.map fun (place, entry) => (place, entry.mapFile (change place))⟩

section
variable (tree : FileTree) (change : Place → ByteArray → ByteArray)

theorem entry?_mapFiles (place : Place) :
    FileTree.entry? (tree.mapFiles change) place =
      (tree.entry? place).map (Entry.mapFile (change place)) := by
  unfold entry?
  split
  · rfl
  · rw [mapFiles, List.find?_map, Option.map_map, Option.map_map]
    have hplace : ∀ found ∈ tree.entries.find? (·.1 = place), found.1 = place := by
      intro found hfound
      simpa using List.find?_some hfound
    refine Option.map_congr fun found hfound => ?_
    simp only [Function.comp_apply, hplace found hfound]

theorem linkCount_mapFiles : (tree.mapFiles change).linkCount = tree.linkCount := by
  unfold linkCount mapFiles
  rw [List.countP_map]
  refine List.countP_congr fun found _ => ?_
  obtain ⟨place, entry⟩ := found
  cases entry <;> rfl

/-- The system follows a path to the same place. -/
theorem locate_mapFiles (purpose : Purpose) (budget : Nat) (place : Place) (steps : List String) :
    (tree.mapFiles change).locate purpose budget place steps =
      (tree.locate purpose budget place steps).map fun (reached, entry) =>
        (reached, entry.map (Entry.mapFile (change reached))) := by
  fun_induction locate tree purpose budget place steps with
  | case1 budget place => rw [locate, entry?_mapFiles]; rfl
  | case2 budget place step rest hplace =>
    rw [locate, entry?_mapFiles, hplace]
    rfl
  | case3 budget place step rest hplace hstay ih =>
    rw [locate, entry?_mapFiles, hplace]
    simp only [Option.map_some, Entry.mapFile, if_pos hstay, ih]
  | case4 budget place rest hplace hstay ih =>
    rw [locate, entry?_mapFiles, hplace]
    simp only [Option.map_some, Entry.mapFile, if_neg hstay, if_true, ih]
  | case5 budget place step rest hplace hstay hup hcreation =>
    rw [locate, entry?_mapFiles, hplace]
    simp only [Option.map_some, Entry.mapFile, if_neg hstay, if_neg hup, if_pos hcreation]
    rfl
  | case6 budget place step rest hplace hstay hup hcreation hlong =>
    rw [locate, entry?_mapFiles, hplace]
    simp only [Option.map_some, Entry.mapFile, if_neg hstay, if_neg hup, if_neg hcreation, if_pos hlong]
    rfl
  | case7 budget place step rest hplace hstay hup hcreation hshort target hlink hentry =>
    rw [locate, entry?_mapFiles, hplace]
    simp only [Option.map_some, Entry.mapFile, if_neg hstay, if_neg hup, if_neg hcreation, if_neg hshort,
      entry?_mapFiles, hlink, if_pos hentry]
    rfl
  | case8 place step rest hplace hstay hup hcreation hshort target hlink hentry =>
    rw [locate, entry?_mapFiles, hplace]
    simp only [Option.map_some, Entry.mapFile, if_neg hstay, if_neg hup, if_neg hcreation, if_neg hshort,
      entry?_mapFiles, hlink, if_neg hentry]
    rfl
  | case9 place step rest hplace hstay hup hcreation hshort target hlink hentry budget ih =>
    rw [locate, entry?_mapFiles, hplace]
    simp only [Option.map_some, Entry.mapFile, if_neg hstay, if_neg hup, if_neg hcreation, if_neg hshort,
      entry?_mapFiles, hlink, if_neg hentry]
    simpa only [dite_eq_ite] using ih
  | case10 budget place step rest hplace hstay hup hcreation hshort hother ih =>
    rw [locate, entry?_mapFiles, hplace]
    simp only [Option.map_some, Entry.mapFile, if_neg hstay, if_neg hup, if_neg hcreation, if_neg hshort,
      entry?_mapFiles]
    split
    · next target hlink =>
      obtain ⟨entry, hentry, hmapped⟩ := Option.map_eq_some_iff.mp hlink
      cases entry with
      | link target => exact absurd hentry (hother target)
      | file content => cases hmapped
      | folder => cases hmapped
    · exact ih
  | case11 budget place step rest entry hfolder hplace =>
    rw [locate, entry?_mapFiles, hplace]
    cases entry with
    | folder => exact absurd rfl hfolder
    | file content => rfl
    | link target => rfl

end

end FileTree

/-! ## Disks -/

namespace Disk

/-- A disk with the bytes of its files changed. -/
def mapFiles (disk : Disk) (change : Place → ByteArray → ByteArray) : Disk :=
  { disk with tree := disk.tree.mapFiles change }

section
variable (disk : Disk) (change : Place → ByteArray → ByteArray)

/-- At the end of a trail stands the same entry, but for the bytes of a file. -/
theorem entryAt_mapFiles (t : Trail) :
    ∃ f, (disk.mapFiles change).entryAt t = (disk.entryAt t).map (Entry.mapFile f) := by
  have htree : (disk.mapFiles change).tree = disk.tree.mapFiles change := rfl
  have hcwd : (disk.mapFiles change).cwd = disk.cwd := rfl
  unfold entryAt
  split
  · exact ⟨id, rfl⟩
  · rw [htree, hcwd, FileTree.walk, FileTree.walk, FileTree.locate_mapFiles]
    rcases disk.tree.locate .entry maxLinks (if t.anchored then [] else disk.cwd) t.steps with
      errno | ⟨reached, - | entry⟩
    · exact ⟨id, rfl⟩
    · exact ⟨id, rfl⟩
    · exact ⟨change reached, rfl⟩

theorem follow_mapFiles (strict : Bool) (depth : Nat) (pending : List Trail) (trail : Trail)
    (steps : List String) :
    (disk.mapFiles change).follow strict depth pending trail steps =
      disk.follow strict depth pending trail steps := by
  have hentryAt : ∀ {t : Trail} {found : Except Errno Entry}, disk.entryAt t = found →
      ∃ f, (disk.mapFiles change).entryAt t = found.map (Entry.mapFile f) := by
    rintro t _ rfl
    exact disk.entryAt_mapFiles change t
  fun_induction follow disk strict depth pending trail steps with
  | case1 => exact follow_nil
  | case2 depth pending trail rest ih => rw [follow_up, ih]
  | case3 depth pending trail step rest hup hrefused => exact follow_unnameable hup hrefused
  | case4 depth pending trail step rest hup hnamed next errno hentry hstrict =>
    obtain ⟨f, hf⟩ := hentryAt hentry
    rw [follow_missing hup hnamed hf, if_pos hstrict]
  | case5 depth pending trail step rest hup hnamed next errno hentry hstrict ih =>
    obtain ⟨f, hf⟩ := hentryAt hentry
    rw [follow_missing hup hnamed hf, if_neg hstrict]
    exact ih
  | case6 depth pending trail step rest hup hnamed next target hentry hpending =>
    obtain ⟨f, hf⟩ := hentryAt hentry
    exact follow_pending hup hnamed hf hpending
  | case7 pending trail step rest hup hnamed next target hentry hnew =>
    obtain ⟨f, hf⟩ := hentryAt hentry
    exact follow_exhausted hup hnamed hf
  | case8 pending trail step rest hup hnamed next target hentry hnew depth reached hlink ihLink ihRest =>
    obtain ⟨f, hf⟩ := hentryAt hentry
    rw [follow_link hup hnamed hf hnew (ihLink.trans hlink)]
    exact ihRest
  | case9 pending trail step rest hup hnamed next target hentry hnew depth link left hlink ihLink =>
    obtain ⟨f, hf⟩ := hentryAt hentry
    rw [follow_link hup hnamed hf hnew (ihLink.trans hlink)]
  | case10 pending trail step rest hup hnamed next target hentry hnew depth stop hother hlink ihLink =>
    obtain ⟨f, hf⟩ := hentryAt hentry
    rw [follow_link hup hnamed hf hnew (ihLink.trans hlink)]
    cases stop with
    | cyclic link left => exact absurd rfl (hother link left)
    | missing errno reached => rfl
    | unnameable => rfl
  | case11 depth pending trail step rest hup hnamed next entry hother hentry ih =>
    obtain ⟨f, hf⟩ := hentryAt hentry
    have hmapped : ∀ target, entry.mapFile f ≠ .link target := by
      intro target
      cases entry with
      | link target' => exact absurd rfl (hother target')
      | file content => exact fun h => by cases h
      | folder => exact fun h => by cases h
    rw [follow_entry hup hnamed hf hmapped]
    exact ih

theorem followPath_mapFiles (strict : Bool) (path : Path) :
    (disk.mapFiles change).followPath strict path = disk.followPath strict path := by
  have hdepth : (disk.mapFiles change).linkDepth = disk.linkDepth := by
    unfold linkDepth
    rw [show (disk.mapFiles change).tree.linkCount = disk.tree.linkCount from
      disk.tree.linkCount_mapFiles change]
    rfl
  rw [followPath, followPath, hdepth, follow_mapFiles]

theorem canonical?_mapFiles (request : String) :
    (disk.mapFiles change).canonical? request = disk.canonical? request := by
  have hexpand : (disk.mapFiles change).expandHome request = disk.expandHome request := rfl
  have hplace : (disk.mapFiles change).place = disk.place := rfl
  simp only [canonical?, hexpand, followPath_mapFiles, hplace]

/-- What a path leads to, links followed. -/
theorem stat_mapFiles (path : Path) :
    (disk.mapFiles change).stat path =
      (disk.stat path).map fun (reached, entry) => (reached, entry.mapFile (change reached)) := by
  have htree : (disk.mapFiles change).tree = disk.tree.mapFiles change := rfl
  have hbase : (disk.mapFiles change).base path = disk.base path := rfl
  have hlocate : (disk.mapFiles change).locate .target path =
      (disk.locate .target path).map fun (reached, entry) =>
        (reached, entry.map (Entry.mapFile (change reached))) := by
    unfold locate
    rw [htree, hbase, FileTree.locate_mapFiles]
    split
    · rfl
    · split
      · rfl
      · cases disk.tree.locate .target maxLinks (disk.base path) path.parts <;> rfl
  rw [stat, stat, hlocate]
  rcases disk.locate .target path with fault | ⟨reached, - | entry⟩ <;> rfl

theorem isFile_mapFiles (path : Path) : (disk.mapFiles change).isFile path = disk.isFile path := by
  rw [isFile, isFile, leadsTo, leadsTo, stat_mapFiles]
  rcases disk.stat path with fault | ⟨reached, content | - | target⟩ <;> rfl

theorem resolve?_mapFiles (path : Path) : (disk.mapFiles change).resolve? path = disk.resolve? path := by
  have hplace : (disk.mapFiles change).place = disk.place := rfl
  have hreached : (disk.mapFiles change).reached? path = disk.reached? path := by
    rw [reached?, reached?, followPath_mapFiles, hplace]
  rw [resolve?, resolve?, hreached]
  -- Of what stands at the place only a fault is looked at, and faults stay the same.
  rcases disk.reached? path with fault | place
  · rfl
  · simp only [bind, Except.bind, pure, Except.pure, stat_mapFiles]
    rcases disk.stat place.path with fault | ⟨reached, entry⟩ <;> rfl

end

section
variable {disk : Disk} {change : Place → ByteArray → ByteArray} {path : Path}

/-- A file that can be read can be read when its bytes are changed, and it stands where it stood. -/
theorem readBytes_mapFiles_ok (change : Place → ByteArray → ByteArray) {content : ByteArray}
    (h : disk.readBytes path = .ok content) :
    ∃ place, disk.stat path = .ok (place, .file content) ∧
      (disk.mapFiles change).stat path = .ok (place, .file (change place content)) ∧
      (disk.mapFiles change).readBytes path = .ok (change place content) := by
  obtain ⟨place, hstat⟩ := stat_of_readBytes h
  have hstat' : (disk.mapFiles change).stat path = .ok (place, .file (change place content)) := by
    rw [stat_mapFiles, hstat]
    rfl
  exact ⟨place, hstat, hstat', by rw [readBytes, hstat']⟩

theorem readBytes_mapFiles_error {fault : Fault} (h : disk.readBytes path = .error fault) :
    (disk.mapFiles change).readBytes path = .error fault := by
  unfold readBytes at h ⊢
  rw [stat_mapFiles]
  rcases hstat : disk.stat path with found | ⟨place, content | - | target⟩
  all_goals rw [hstat] at h
  · exact h
  · cases h
  · exact h
  · exact h

end

end Disk

end ShaderFlatten
