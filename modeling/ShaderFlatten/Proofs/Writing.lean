import ShaderFlatten.Proofs.Walking

/-!
# Writing below a folder

Making folders and writing files only lets a tree grow, so whatever a path leads to stays where it is.
What may go wrong is that two paths lead to one file.  Below a folder without links they do not, and a
folder that is made has none:

    disk.Ready folder  →  writing one file below it  →  ready again, and the other files are as they were

A folder may be named with double dots as long as they stand within a part of its path that exists.
-/

namespace ShaderFlatten

namespace Disk

/-- A path leads to a place. -/
def Leads (disk : Disk) (path : Path) (m : Nat) (q : Place) : Prop :=
  disk.tree.Leads maxLinks (disk.base path) path.parts m q

/-- A path that the system takes: its names can be written, and it is not too long. -/
structure Takes (path : Path) : Prop where
  nameable : path.isNameable = true
  short : path.toString.utf8ByteSize ≤ maxPathBytes

/-- The system takes a folder if it takes a path below it. -/
theorem Takes.above {folder : Path} {names : List String} (h : Takes (folder.join ⟨.relative, names⟩)) :
    Takes folder where
  nameable := by
    have hall : (folder.parts ++ names).all isNameable = true := h.nameable
    rw [List.all_append, Bool.and_eq_true] at hall
    exact hall.1
  short := by
    by_cases hdot : folder.anchor = .relative ∧ folder.parts = []
    · rw [Path.toString, if_pos hdot]
      decide
    · have hjoin : ¬ (folder.anchor = .relative ∧ folder.parts ++ names = []) :=
        fun hnil => hdot ⟨hnil.1, (List.append_eq_nil_iff.mp hnil.2).1⟩
      have htext : (folder.join ⟨.relative, names⟩).toString =
          folder.anchor.text ++ "/".intercalate (folder.parts ++ names) := if_neg hjoin
      refine Nat.le_trans ?_ h.short
      rw [htext, Path.toString, if_neg hdot]
      by_cases hparts : folder.parts = []
      · simp [hparts]
      · by_cases hnames : names = []
        · simp [hnames]
        · rw [String.intercalate_append_of_ne_nil hparts hnames]
          simp only [String.utf8ByteSize_append]
          omega

section
variable {disk made new : Disk} {path : Path} {purpose : Purpose} {content : ByteArray} {m : Nat} {q : Place}

theorem locate_eq_ok {r : Place × Option Entry} :
    disk.locate purpose path = .ok r ↔
      Takes path ∧ disk.tree.locate purpose maxLinks (disk.base path) path.parts = .ok r := by
  unfold locate
  constructor
  · intro h
    split at h
    · cases h
    · next hnameable =>
      split at h
      · cases h
      · next hshort =>
        refine ⟨⟨by simpa using hnameable, Nat.not_lt.mp hshort⟩, ?_⟩
        cases hlocate : disk.tree.locate purpose maxLinks (disk.base path) path.parts with
        | error errno =>
          rw [hlocate] at h
          cases h
        | ok found =>
          rw [hlocate] at h
          cases h
          rfl
  · rintro ⟨htakes, h⟩
    rw [if_neg (by simp [htakes.nameable]), if_neg (Nat.not_lt.mpr htakes.short), h]
    rfl

theorem stat_eq_ok {entry : Entry} :
    disk.stat path = .ok (q, entry) ↔
      Takes path ∧ (∃ m, disk.Leads path m q) ∧ disk.tree.entry? q = some entry := by
  unfold stat
  constructor
  · intro h
    split at h
    · next place e hlocate =>
      cases h
      obtain ⟨htakes, hlocated⟩ := locate_eq_ok.mp hlocate
      obtain ⟨hentry, hleads⟩ := FileTree.leads_of_located hlocated (by simp)
      exact ⟨htakes, hleads, hentry.symm⟩
    all_goals cases h
  · rintro ⟨htakes, ⟨m, hleads⟩, hentry⟩
    have hlocate := locate_eq_ok.mpr ⟨htakes, hleads.locate⟩
    rw [hentry] at hlocate
    rw [hlocate]

theorem locate_of_descends {p : Place} (hbase : disk.base path = p) (htakes : Takes path)
    (h : disk.tree.Descends p path.parts) :
    disk.locate purpose path = .ok (p ++ path.parts, disk.tree.entry? (p ++ path.parts)) := by
  refine locate_eq_ok.mpr ⟨htakes, ?_⟩
  rw [hbase, h.locate]

theorem stat_of_descends {p : Place} {entry : Entry} (hbase : disk.base path = p) (htakes : Takes path)
    (h : disk.tree.Descends p path.parts) (hentry : disk.tree.entry? (p ++ path.parts) = some entry) :
    disk.stat path = .ok (p ++ path.parts, entry) := by
  rw [stat, locate_of_descends hbase htakes h, hentry]

theorem readBytes_eq_ok :
    disk.readBytes path = .ok content ↔
      Takes path ∧ ∃ m q, disk.Leads path m q ∧ disk.tree.entry? q = some (.file content) := by
  unfold readBytes
  constructor
  · intro h
    split at h
    · next place c hstat =>
      cases h
      obtain ⟨htakes, ⟨m, hleads⟩, hentry⟩ := stat_eq_ok.mp hstat
      exact ⟨htakes, m, place, hleads, hentry⟩
    all_goals cases h
  · rintro ⟨htakes, m, q, hleads, hentry⟩
    rw [stat_eq_ok.mpr ⟨htakes, ⟨m, hleads⟩, hentry⟩]

/-! ## What making folders and writing do -/

/-- What writing needs of a disk: its tree is closed, and there is a folder to start from. -/
structure Grounded (disk : Disk) (start : Place) : Prop where
  closed : disk.tree.Closed
  folder : disk.tree.entry? start = some .folder

theorem Grounded.isEnd (h : disk.Grounded (disk.base path)) (hleads : disk.Leads path m q) :
    disk.tree.IsEnd q :=
  hleads.isEnd h.closed (FileTree.isEnd_of_folder h.folder)

theorem takes_of_writeBytes (h : disk.writeBytes path content = .ok new) : Takes path := by
  unfold writeBytes at h
  cases hlocate : disk.locate .creation path with
  | error fault => simp [hlocate] at h
  | ok found => exact (locate_eq_ok.mp hlocate).1

/-- **Writing puts a file where the path leads**, over a file or where nothing stands. -/
theorem writeBytes_eq_ok (hground : disk.Grounded (disk.base path))
    (h : disk.writeBytes path content = .ok new) :
    Takes path ∧ ∃ m q, disk.Leads path m q ∧ disk.tree.Free q ∧
      new = { disk with tree := disk.tree.put q (.file content) } := by
  unfold writeBytes at h
  cases hlocate : disk.locate .creation path with
  | error fault => simp [hlocate] at h
  | ok found =>
    obtain ⟨q, e⟩ := found
    obtain ⟨htakes, hlocated⟩ := locate_eq_ok.mp hlocate
    obtain ⟨rfl, m, hleads⟩ := FileTree.leads_of_located hlocated (by simp)
    have hend := hground.isEnd hleads
    rw [hlocate] at h
    refine ⟨htakes, m, q, hleads, ?_⟩
    cases hentry : disk.tree.entry? q with
    | none =>
      simp only [hentry, Except.ok.injEq] at h
      exact ⟨by simp [FileTree.Free, hentry], h.symm⟩
    | some e =>
      cases e with
      | folder => simp [hentry] at h
      | link target => exact absurd hentry (hend.link target)
      | file old =>
        simp only [hentry, Except.ok.injEq] at h
        exact ⟨by simp [FileTree.Free, hentry], h.symm⟩

/-- **A folder is made in a folder where nothing stands.** -/
theorem makeFolder_eq_ok (hground : disk.Grounded (disk.base path)) (h : disk.makeFolder path = .ok new) :
    Takes path ∧ ∃ front name m q, path.parts = front ++ [name] ∧
      disk.tree.Leads maxLinks (disk.base path) front m q ∧ disk.tree.entry? q = some .folder ∧
      IsStep name ∧ disk.tree.entry? (q ++ [name]) = none ∧
      new = { disk with tree := disk.tree.put (q ++ [name]) .folder } := by
  unfold makeFolder at h
  cases hlocate : disk.locate .entry path with
  | error fault => simp [hlocate] at h
  | ok found =>
    obtain ⟨place, e⟩ := found
    obtain ⟨htakes, hlocated⟩ := locate_eq_ok.mp hlocate
    have hentry := FileTree.entry?_of_located hlocated
    rw [hlocate] at h
    cases e with
    | some e => simp at h
    | none =>
      simp only [Except.ok.injEq] at h
      rcases List.eq_nil_or_concat path.parts with hparts | ⟨front, name, hparts⟩
      · -- the start is there
        rw [hparts, FileTree.locate_nil, hground.folder] at hlocated
        cases hlocated
      · rw [List.concat_eq_append] at hparts
        rw [hparts] at hlocated
        obtain ⟨m, q, hleads, hlast⟩ := FileTree.leads_of_locate hlocated (.inl (by simp))
        obtain ⟨hfolder, hstep, rfl⟩ := hground.closed.locate_none hlast
        exact ⟨htakes, front, name, m, q, hparts, hleads, hfolder, hstep, hentry, h.symm⟩

/-- A disk grows into another: the tree does, and a closed tree stays closed. -/
structure Grows (old new : Disk) : Prop where
  cwd : new.cwd = old.cwd
  tree : old.tree.Grows new.tree
  closed : old.tree.Closed → new.tree.Closed

/-- A disk grows, and no file changes. -/
structure Extends (old new : Disk) : Prop extends old.Grows new where
  file : ∀ p content, new.tree.entry? p = some (.file content) ↔ old.tree.entry? p = some (.file content)

theorem Grows.base (h : disk.Grows new) (path : Path) : new.base path = disk.base path := by
  unfold Disk.base
  rw [h.cwd]

theorem Grows.grounded (h : disk.Grows new) {start : Place} (hground : disk.Grounded start) :
    new.Grounded start where
  closed := h.closed hground.closed
  folder := h.tree.folder _ hground.folder

theorem Grows.grounded_base (h : disk.Grows new) (hground : disk.Grounded (disk.base path)) :
    new.Grounded (new.base path) := by
  rw [h.base]
  exact h.grounded hground

theorem Grows.leads (h : disk.Grows new) (hleads : disk.Leads path m q) : new.Leads path m q := by
  unfold Leads
  rw [h.base]
  exact FileTree.Leads.grow h.tree hleads

theorem Grows.trans (h : disk.Grows made) (h' : made.Grows new) : disk.Grows new where
  cwd := h'.cwd.trans h.cwd
  tree := h.tree.trans h'.tree
  closed := fun hclosed => h'.closed (h.closed hclosed)

theorem Extends.refl (disk : Disk) : disk.Extends disk := ⟨⟨rfl, .refl _, fun h => h⟩, fun _ _ => .rfl⟩

theorem Extends.trans (h : disk.Extends made) (h' : made.Extends new) : disk.Extends new where
  toGrows := h.toGrows.trans h'.toGrows
  file := fun p content => (h'.file p content).trans (h.file p content)

/-- What could be read can be read, as it was. -/
theorem Extends.readBytes (h : disk.Extends new) (hread : disk.readBytes path = .ok content) :
    new.readBytes path = .ok content := by
  obtain ⟨htakes, m, q, hleads, hfile⟩ := readBytes_eq_ok.mp hread
  exact readBytes_eq_ok.mpr ⟨htakes, m, q, h.leads hleads, (h.file q content).mpr hfile⟩

/-- Putting a file or a folder at a free place where a way can end lets a disk grow. -/
theorem grows_put {entry : Entry} (hfree : disk.tree.Free q) (hend : disk.tree.IsEnd q)
    (hentry : ∀ target, entry ≠ .link target) :
    disk.Grows { disk with tree := disk.tree.put q entry } where
  cwd := rfl
  tree := hfree.grows hentry
  closed := fun hclosed => hfree.closed hclosed hend hentry

theorem writeBytes_grows (hground : disk.Grounded (disk.base path))
    (h : disk.writeBytes path content = .ok new) : disk.Grows new := by
  obtain ⟨-, m, q, hleads, hfree, rfl⟩ := writeBytes_eq_ok hground h
  exact grows_put hfree (hground.isEnd hleads) (by simp)

theorem makeFolder_extends (hground : disk.Grounded (disk.base path))
    (h : disk.makeFolder path = .ok new) : disk.Extends new := by
  obtain ⟨-, front, name, m, q, -, -, hfolder, -, hempty, rfl⟩ := makeFolder_eq_ok hground h
  have hfree : disk.tree.Free (q ++ [name]) := by simp [FileTree.Free, hempty]
  have hend : disk.tree.IsEnd (q ++ [name]) := ⟨by simp [hempty], fun _ => ⟨q, name, rfl, hfolder⟩⟩
  refine ⟨grows_put hfree hend (by simp), fun p content => ?_⟩
  rw [FileTree.entry?_put hfree.ne_nil]
  split
  · next heq => simp [heq, hempty]
  · exact .rfl

/-- A folder has been made, or it was there. -/
theorem ensureOne_eq_ok (h : disk.ensureOne path = .ok new) :
    disk.makeFolder path = .ok new ∨ new = disk := by
  unfold ensureOne at h
  split at h
  · next made hmade =>
    cases h
    exact .inl hmade
  · cases h
  · cases hfolder : disk.isFolder path with
    | error fault =>
      rw [hfolder] at h
      cases h
    | ok found =>
      rw [hfolder] at h
      cases found <;> cases h
      exact .inr rfl

theorem ensureOne_extends (hground : disk.Grounded (disk.base path)) (h : disk.ensureOne path = .ok new) :
    disk.Extends new := by
  rcases ensureOne_eq_ok h with hmade | rfl
  · exact makeFolder_extends hground hmade
  · exact .refl new

theorem ensureFolder_extends (hground : disk.Grounded (disk.base path))
    (h : disk.ensureFolder path = .ok new) : disk.Extends new := by
  fun_induction ensureFolder disk path generalizing new with
  | case1 => cases h
  | case2 => cases h
  | case3 path _ _ _ made hmade ih =>
    have hextends : disk.Extends made := ih hground hmade
    exact hextends.trans (ensureOne_extends (hextends.grounded_base hground) h)
  | case4 => exact ensureOne_extends hground h

/-- The folder of a file is made. -/
theorem ensureFolder_parent (hground : disk.Grounded (disk.base path))
    (h : disk.ensureFolder path.parent = .ok made) : disk.Extends made ∧ made.Grounded (made.base path) := by
  have hground' : disk.Grounded (disk.base path.parent) := hground
  have hextends := ensureFolder_extends hground' h
  exact ⟨hextends, hextends.grounded_base hground⟩

/-- The front of a path leads to a folder in which its next name is missing. -/
structure Gap (disk : Disk) (path : Path) (front : List String) (name : String) (q : Place) : Prop where
  leads : ∃ m, disk.tree.Leads maxLinks (disk.base path) front m q
  folder : disk.tree.entry? q = some .folder
  plain : FileTree.IsPlainStep name
  empty : disk.tree.entry? (q ++ [name]) = none

/-- **Folders are made behind a gap**, if any are made. -/
theorem ensureFolder_cases (hground : disk.Grounded (disk.base path))
    (h : disk.ensureFolder path = .ok new) :
    new = disk ∨ ∃ front name back q, path.parts = front ++ name :: back ∧ disk.Gap path front name q := by
  fun_induction ensureFolder disk path generalizing new with
  | case1 => cases h
  | case2 => cases h
  | case3 path text hmissing hparts made hmade ih =>
    rcases ih hground hmade with rfl | ⟨front, name, back, q, hfront, hgap⟩
    · -- the folder above is there, but the system did not find it
      rw [ensureOne, hmissing] at h
      cases h
    · rcases List.eq_nil_or_concat path.parts with hnil | ⟨above, last, hlast⟩
      · exact absurd hnil hparts
      · rw [List.concat_eq_append] at hlast
        have habove : above = front ++ name :: back := by
          rw [← hfront, Path.parent, hlast, List.dropLast_concat]
        refine .inr ⟨front, name, back ++ [last], q, ?_, hgap.leads, hgap.folder, hgap.plain, hgap.empty⟩
        rw [hlast, habove, List.append_assoc, List.cons_append]
  | case4 path _ =>
    rcases ensureOne_eq_ok h with hmade | rfl
    · obtain ⟨-, front, name, m, q, hparts, hleads, hfolder, hstep, hempty, -⟩ := makeFolder_eq_ok hground hmade
      exact .inr ⟨front, name, [], q, hparts, ⟨m, hleads⟩, hfolder, ⟨hstep.stay, hstep.up⟩, hempty⟩
    · exact .inl rfl

end

/-! ## Folders without links -/

/-- What a path leads to holds no link, if it is a folder. -/
def Clean (disk : Disk) (folder : Path) : Prop :=
  ∀ m q, disk.Leads folder m q → disk.tree.entry? q = some .folder → disk.tree.Linkless q

/-- The double dots of a path stand within a front of it that leads to a folder. -/
def Anchored (disk : Disk) (folder : Path) : Prop :=
  ∃ front back m q, folder.parts = front ++ back ∧ (∀ name ∈ back, FileTree.IsPlainStep name) ∧
    disk.tree.Leads maxLinks (disk.base folder) front m q ∧ disk.tree.entry? q = some .folder

section
variable {disk made new : Disk} {folder path : Path} {content : ByteArray} {m : Nat} {q : Place}

theorem Anchored.grow (h : disk.Anchored folder) (hgrows : disk.Grows new) : new.Anchored folder := by
  obtain ⟨front, back, m, q, hparts, hplain, hleads, hfolder⟩ := h
  refine ⟨front, back, m, q, hparts, hplain, ?_, hgrows.tree.folder q hfolder⟩
  rw [hgrows.base]
  exact hleads.grow hgrows.tree

theorem Gap.of_base {front : List String} {name : String} (hgap : disk.Gap path front name q)
    (hbase : disk.base path = disk.base folder) : disk.Gap folder front name q :=
  ⟨hbase ▸ hgap.leads, hgap.folder, hgap.plain, hgap.empty⟩

/-- Behind a gap there are only plain names. -/
theorem Gap.plain_back {front back : List String} {name : String} (hgap : disk.Gap folder front name q)
    (hparts : folder.parts = front ++ name :: back) (h : disk.Anchored folder) :
    ∀ step ∈ name :: back, FileTree.IsPlainStep step := by
  obtain ⟨front', back', m', q', hparts', hplain, hleads', hfolder'⟩ := h
  obtain ⟨m, hleads⟩ := hgap.leads
  rw [hparts'] at hparts
  rcases List.append_eq_append_iff.mp hparts with ⟨middle, rfl, heq⟩ | ⟨middle, rfl, heq⟩
  · intro step hstep
    exact hplain step (by rw [heq]; exact List.mem_append_right _ hstep)
  · cases middle with
    | nil =>
      rw [heq]
      exact hplain
    | cons first middle =>
      -- the missing name would stand within the front that leads to a folder
      obtain ⟨rfl, -⟩ := List.cons.inj heq
      obtain ⟨m₁, q₁, l, hfirst, hsecond⟩ := hleads'.split
      cases hfirst.unique hleads
      rw [hsecond.missing hgap.plain hgap.empty, hgap.empty] at hfolder'
      cases hfolder'

/-- A gap on the way to a path, or on the way from it, is within the path or behind it. -/
theorem gap_or_prefix {parts front back : List String} {name : String}
    (hparts : parts <+: folder.parts ∨ folder.parts <+: parts) (hgap : parts = front ++ name :: back) :
    (∃ back', folder.parts = front ++ name :: back') ∨ ∃ middle, front = folder.parts ++ middle := by
  subst hgap
  rcases hparts with ⟨rest, hrest⟩ | ⟨rest, hrest⟩
  · exact .inl ⟨back ++ rest, by rw [← hrest, List.append_assoc, List.cons_append]⟩
  · rcases List.append_eq_append_iff.mp hrest with ⟨middle, hfront, -⟩ | ⟨middle, hfolder, hback⟩
    · exact .inr ⟨middle, hfront⟩
    · cases middle with
      | nil => exact .inr ⟨[], by rw [hfolder, List.append_nil, List.append_nil]⟩
      | cons first middle =>
        obtain ⟨rfl, -⟩ := List.cons.inj hback
        exact .inl ⟨middle, hfolder⟩

/-- A folder whose path goes on to a gap is there. -/
theorem Gap.folder_above {front : List String} {name : String} (hgap : disk.Gap path front name q)
    (hbase : disk.base path = disk.base folder) {middle : List String} (hfront : front = folder.parts ++ middle) :
    ∃ m₁ q₁, disk.Leads folder m₁ q₁ ∧ disk.tree.entry? q₁ = some .folder := by
  obtain ⟨m, hleads⟩ := hgap.leads
  rw [hbase, hfront] at hleads
  obtain ⟨m₁, q₁, l, hfirst, hsecond⟩ := hleads.split
  refine ⟨m₁, q₁, hfirst, ?_⟩
  cases middle with
  | nil =>
    cases hsecond
    exact hgap.folder
  | cons step middle => exact hsecond.folder

/-- Nothing stood behind a gap in a path, so what has grown there since is no link. -/
theorem Gap.clean {front back : List String} {name : String} (hgap : disk.Gap folder front name q)
    (hparts : folder.parts = front ++ name :: back) (hclosed : disk.tree.Closed)
    (hanchored : disk.Anchored folder) (hgrows : disk.Grows new) : new.Clean folder := by
  have hempty : ∀ rest target, new.tree.entry? (q ++ name :: rest) ≠ some (.link target) := by
    intro rest target hlink
    have hnone := hclosed.below hgap.empty rest
    rw [List.append_assoc, List.singleton_append] at hnone
    rw [hgrows.tree.link, hnone] at hlink
    cases hlink
  intro m' q' hleads' _ rest target
  have hq' : q' = q ++ name :: back := by
    unfold Leads at hleads'
    rw [hgrows.base, hparts] at hleads'
    obtain ⟨m, hleads⟩ := hgap.leads
    obtain ⟨m₁, q₁, l, hfirst, hsecond⟩ := hleads'.split
    cases hfirst.unique (hleads.grow hgrows.tree)
    refine hsecond.straight (hgap.plain_back hparts hanchored) fun step rest target hprefix => ?_
    obtain ⟨rfl, -⟩ := List.cons_prefix_cons.mp hprefix
    exact hempty rest target
  rw [hq', List.append_assoc, List.cons_append]
  exact hempty _ target

/-- A folder that was there and held no link holds none when the disk has grown. -/
theorem Clean.grow (hclean : disk.Clean folder) (hleads : disk.Leads folder m q)
    (hfolder : disk.tree.entry? q = some .folder) (hgrows : disk.Grows new) : new.Clean folder := by
  intro m' q' hleads' _
  cases hleads'.unique (hgrows.leads hleads)
  exact (hclean m _ hleads hfolder).grow hgrows.tree

/-- **A folder that is made on the way to a path, or on the way from it, holds no link.** -/
theorem Clean.ensureFolder (hclean : disk.Clean folder) (hground : disk.Grounded (disk.base folder))
    (hanchored : disk.Anchored folder) (hpath : path.anchor = folder.anchor)
    (hparts : path.parts <+: folder.parts ∨ folder.parts <+: path.parts)
    (h : disk.ensureFolder path = .ok new) : new.Clean folder := by
  have hbase : disk.base path = disk.base folder := by
    unfold base Path.isAbsolute
    rw [hpath]
  rw [← hbase] at hground
  have hgrows := (ensureFolder_extends hground h).toGrows
  rcases ensureFolder_cases hground h with rfl | ⟨front, name, back, q, hgapParts, hgap⟩
  · exact hclean
  · rcases gap_or_prefix hparts hgapParts with ⟨back', hfolderParts⟩ | ⟨middle, hfront⟩
    · -- the gap is within the folder's own path
      exact (hgap.of_base hbase).clean hfolderParts hground.closed hanchored hgrows
    · -- the folder was there
      obtain ⟨m₁, q₁, hleads, hfolder⟩ := hgap.folder_above hbase hfront
      exact hclean.grow hleads hfolder hgrows

/-! ## Writing one file after the other -/

/-- Files can be written below a folder without getting in each other's way. -/
structure Ready (disk : Disk) (folder : Path) : Prop where
  grounded : disk.Grounded (disk.base folder)
  anchored : disk.Anchored folder
  clean : disk.Clean folder

/-- A folder and the parent of a path below it are on one way. -/
theorem parent_join_prefix (folder : Path) (names : List String) :
    (folder.join ⟨.relative, names⟩).parent.parts <+: folder.parts ∨
      folder.parts <+: (folder.join ⟨.relative, names⟩).parent.parts := by
  have hjoin : (folder.join ⟨.relative, names⟩).parent.parts = (folder.parts ++ names).dropLast := rfl
  rw [hjoin]
  cases names with
  | nil =>
    rw [List.append_nil]
    exact .inl (List.dropLast_prefix _)
  | cons name names =>
    rw [List.dropLast_append_of_ne_nil (by simp)]
    exact .inr (List.prefix_append _ _)

theorem Ready.ensureFolder (h : disk.Ready folder) (names : List String)
    (hmade : disk.ensureFolder (folder.join ⟨.relative, names⟩).parent = .ok made) :
    disk.Extends made ∧ made.Ready folder := by
  have hanchor : (folder.join ⟨.relative, names⟩).parent.anchor = folder.anchor := rfl
  have hparts := parent_join_prefix folder names
  have hground : disk.Grounded (disk.base (folder.join ⟨.relative, names⟩)) := h.grounded
  obtain ⟨hextends, -⟩ := ensureFolder_parent hground hmade
  exact ⟨hextends, hextends.grounded_base h.grounded, h.anchored.grow hextends.toGrows,
    h.clean.ensureFolder h.grounded h.anchored hanchor hparts hmade⟩

/-- The end of a way that goes through a folder and on. -/
theorem Leads.through {names : List String} (h : disk.Leads (folder.join ⟨.relative, names⟩) m q) :
    ∃ m₁ q₁ l, disk.Leads folder m₁ q₁ ∧ disk.tree.Leads m₁ q₁ names l q :=
  FileTree.Leads.split h

theorem Leads.join_nil (h : disk.Leads (folder.join ⟨.relative, []⟩) m q) : ∃ m₁, disk.Leads folder m₁ q := by
  obtain ⟨m₁, q₁, l, hfirst, hsecond⟩ := h.through
  cases hsecond
  exact ⟨m₁, hfirst⟩

/-- Below a clean folder a plain path leads to its own place. -/
theorem Clean.leads (h : disk.Clean folder) {names : List String} (hne : names ≠ [])
    (hplain : ∀ name ∈ names, FileTree.IsPlainStep name)
    (hleads : disk.Leads (folder.join ⟨.relative, names⟩) m q) :
    ∃ m₁ q₁, disk.Leads folder m₁ q₁ ∧ disk.tree.entry? q₁ = some .folder ∧ q = q₁ ++ names := by
  obtain ⟨m₁, q₁, l, hfirst, hsecond⟩ := hleads.through
  have hfolder : disk.tree.entry? q₁ = some .folder := by
    cases names with
    | nil => exact absurd rfl hne
    | cons name names => exact hsecond.folder
  exact ⟨m₁, q₁, hfirst, hfolder, hsecond.straight_of_linkless (h m₁ q₁ hfirst hfolder) hplain⟩

/-- **Different names below a clean folder are different places**, if something can be written at one of
them and a file stands at the other. -/
theorem Clean.separates (h : disk.Clean folder) {names other : List String} (hne : other ≠ names)
    (hplain : ∀ name ∈ names, FileTree.IsPlainStep name) (hplain' : ∀ name ∈ other, FileTree.IsPlainStep name)
    {m' : Nat} {q' : Place} (hleads : disk.Leads (folder.join ⟨.relative, names⟩) m q)
    (hfree : disk.tree.Free q) (hleads' : disk.Leads (folder.join ⟨.relative, other⟩) m' q')
    (hfile : disk.tree.entry? q' = some (.file content)) : q' ≠ q := by
  by_cases hnames : names = []
  · -- the folder itself is written to, but it is a folder
    subst hnames
    obtain ⟨m₁, hfirst⟩ := hleads.join_nil
    obtain ⟨m₂, q₂, hsecond, hfolder, -⟩ := h.leads hne hplain' hleads'
    cases hfirst.unique hsecond
    obtain ⟨content, hcontent⟩ := hfree _ hfolder
    cases hcontent
  · obtain ⟨m₁, q₁, hfirst, hfolder, rfl⟩ := h.leads hnames hplain hleads
    by_cases hother : other = []
    · -- the folder itself is a file, and there is nothing below it
      subst hother
      obtain ⟨m₂, hsecond⟩ := hleads'.join_nil
      cases hfirst.unique hsecond
      rw [hfile] at hfolder
      cases hfolder
    · obtain ⟨m₂, q₂, hsecond, -, rfl⟩ := h.leads hother hplain' hleads'
      cases hfirst.unique hsecond
      exact fun heq => hne (List.append_cancel_left heq)

/-- What is written below a ready folder has plain names. -/
theorem Ready.not_up (h : disk.Ready folder) (hleads : disk.Leads (folder.join ⟨.relative, [".."]⟩) m q) :
    ¬ disk.tree.Free q := by
  intro hfree
  obtain ⟨m₁, q₁, l, -, hsecond⟩ := hleads.through
  cases hsecond with
  | stay _ hstay => simp [isStay] at hstay
  | down _ hstep => exact hstep.up rfl
  | link _ hstep => exact hstep.up rfl
  | up hfolder hrest =>
    cases hrest
    obtain ⟨content, hcontent⟩ := hfree _ (h.grounded.closed.parent (by simp [hfolder]))
    cases hcontent

/-- **One file is written**: the folder stays ready, the file holds what was written, and so does every
file that was written under another name. -/
theorem Ready.write (h : disk.Ready folder) {names : List String}
    (hplain : (∀ name ∈ names, FileTree.IsPlainStep name) ∨ names = [".."])
    (hwrite : disk.writeBytes (folder.join ⟨.relative, names⟩) content = .ok new) :
    new.Ready folder ∧ (∀ name ∈ names, FileTree.IsPlainStep name) ∧
      new.readBytes (folder.join ⟨.relative, names⟩) = .ok content ∧
      ∀ other old, other ≠ names → (∀ name ∈ other, FileTree.IsPlainStep name) →
        disk.readBytes (folder.join ⟨.relative, other⟩) = .ok old →
        new.readBytes (folder.join ⟨.relative, other⟩) = .ok old := by
  have hground : disk.Grounded (disk.base (folder.join ⟨.relative, names⟩)) := h.grounded
  obtain ⟨htakes, m, q, hleads, hfree, rfl⟩ := writeBytes_eq_ok hground hwrite
  have hnames : ∀ name ∈ names, FileTree.IsPlainStep name := by
    rcases hplain with hplain | rfl
    · exact hplain
    · exact absurd hfree (h.not_up hleads)
  have hgrows : disk.Grows { disk with tree := disk.tree.put q (.file content) } :=
    grows_put hfree (hground.isEnd hleads) (by simp)
  have hwritten : FileTree.entry? (disk.tree.put q (.file content)) q = some (.file content) := by
    rw [FileTree.entry?_put hfree.ne_nil, if_pos rfl]
  refine ⟨⟨hgrows.grounded_base h.grounded, h.anchored.grow hgrows, ?_⟩, hnames, ?_, ?_⟩
  · by_cases hnil : names = []
    · -- the folder itself is a file now
      subst hnil
      intro m' q' hleads' hfolder'
      obtain ⟨m₁, hfirst⟩ := hleads.join_nil
      cases hleads'.unique (hgrows.leads hfirst)
      cases hwritten.symm.trans hfolder'
    · obtain ⟨m₁, q₁, hfirst, hfolder, -⟩ := h.clean.leads hnil hnames hleads
      exact h.clean.grow hfirst hfolder hgrows
  · exact readBytes_eq_ok.mpr ⟨htakes, m, q, hgrows.leads hleads, hwritten⟩
  · intro other old hne hother hread
    obtain ⟨htakes', m', q', hleads', hfile⟩ := readBytes_eq_ok.mp hread
    have hq' := h.clean.separates hne hnames hother hleads hfree hleads' hfile
    exact readBytes_eq_ok.mpr ⟨htakes', m', q', hgrows.leads hleads',
      by rw [FileTree.entry?_put hfree.ne_nil, if_neg hq', hfile]⟩

end

end Disk

end ShaderFlatten
