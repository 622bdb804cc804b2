import ShaderFlatten.Proofs.Places

/-!
# Making a file and the folders above it

A path leads to a folder for some of its names, and then the others go straight down.  If nothing but folders
stands on the way, the folders that are missing can be made, and if no folder stands at the end, a file can be
written there:

    Way disk path q names, nothing but folders on the way  →  ensureFolder path = ok made
    made has a folder at every place on the way, and is as it was elsewhere

A file that has been written can be written again.
-/

namespace ShaderFlatten

namespace FileTree

variable {tree : FileTree} {purpose : Purpose} {n m : Nat} {p q : Place} {names steps : List String}
  {last : String} {entry : Entry}

/-! ## Ways over folders -/

/-- Nothing but folders stands on the way from a place down the names. -/
def Clear (tree : FileTree) (q : Place) (names : List String) : Prop :=
  ∀ front, front <+: names → ∀ entry, tree.entry? (q ++ front) = some entry → entry = .folder

theorem Clear.mono {more : List String} (h : tree.Clear q more) (hmore : names <+: more) : tree.Clear q names :=
  fun front hfront => h front (hfront.trans hmore)

/-- What is asked for an entry stands at its end, if something does. -/
theorem Leads.locate_entry (h : tree.Leads n p steps m q) (hentry : tree.entry? q = some entry) :
    ∃ r found, tree.locate .entry n p steps = .ok (r, some found) := by
  rcases List.eq_nil_or_concat steps with rfl | ⟨front, step, rfl⟩
  · cases h
    exact ⟨_, _, by rw [locate_nil, hentry]⟩
  · rw [List.concat_eq_append] at h ⊢
    obtain ⟨k, r, l, hfront, hlast⟩ := h.split
    have hpurpose : Purpose.entry = .creation → [step] ≠ [""] := fun h => absurd h (by decide)
    rw [hfront.locate_append (by simp) hpurpose]
    have hfolder := hlast.folder
    cases hlast with
    | stay _ hstay => exact ⟨_, _, by rw [locate_stay hfolder hstay, locate_nil, hfolder]⟩
    | up _ hrest =>
      cases hrest
      exact ⟨_, _, by rw [locate_up hfolder, locate_nil, hentry]⟩
    | down _ hstep _ hrest =>
      cases hrest
      exact ⟨_, _, by rw [locate_last hfolder hstep, hentry]⟩
    | link _ hstep hlink => exact ⟨_, _, by rw [locate_last hfolder hstep, hlink]⟩

/-- Below a folder that names lead to, one more name is looked up. -/
theorem Closed.descends_snoc (h : tree.Closed) (hsteps : ∀ step ∈ names ++ [last], IsStep step)
    (hfolder : tree.entry? (q ++ names) = some .folder)
    (hlink : ∀ target, tree.entry? (q ++ (names ++ [last])) ≠ some (.link target)) :
    tree.Descends q (names ++ [last]) := by
  obtain ⟨hnames, hlast⟩ := List.forall_mem_append.mp hsteps
  have hprefix := h.descends hnames hfolder (by simp)
  induction names generalizing q with
  | nil =>
    rw [List.append_nil] at hfolder
    exact ⟨hfolder, hlast last (by simp), hlink⟩
  | cons name names ih =>
    obtain ⟨hq, hname, hrest⟩ := hprefix
    refine ⟨hq, hname, ih (fun step hs => hsteps step (List.mem_cons_of_mem _ hs)) ?_ ?_
      (fun step hs => hnames step (List.mem_cons_of_mem _ hs)) hrest⟩
    · simpa using hfolder
    · simpa using hlink

/-- Where a folder is missing on the way, the system finds no entry. -/
theorem Clear.locate_missing (hclear : tree.Clear q names) (hq : tree.entry? q = some .folder)
    (hsteps : ∀ step ∈ names ++ [last], IsStep step) (hmissing : tree.entry? (q ++ names) = none) :
    tree.locate .entry n q (names ++ [last]) = .error .noEntry := by
  induction names generalizing q with
  | nil =>
    rw [List.append_nil, hq] at hmissing
    cases hmissing
  | cons name names ih =>
    have hname : IsStep name := hsteps name (by simp)
    have hbelow : ∀ entry, tree.entry? (q ++ [name]) = some entry → entry = .folder :=
      hclear [name] ⟨names, rfl⟩
    have hlink : ∀ target, tree.entry? (q ++ [name]) ≠ some (.link target) := by
      intro target htarget
      cases hbelow _ htarget
    rw [List.cons_append, locate_down hq hname (by simp) hlink]
    cases hnext : tree.entry? (q ++ [name]) with
    | none =>
      cases hrest : names ++ [last] with
      | nil => simp at hrest
      | cons next rest => rw [locate, hnext]
    | some entry =>
      obtain rfl := hbelow entry hnext
      refine ih ?_ hnext (fun step hs => hsteps step (List.mem_cons_of_mem _ hs)) (by simpa using hmissing)
      intro front hfront entry hentry
      refine hclear (name :: front) (List.cons_prefix_cons.mpr ⟨rfl, hfront⟩) entry ?_
      simpa using hentry

/-- Where a file can be written, it can be written when the tree has grown. -/
theorem locate_grow {old new : FileTree} (hgrows : old.Grows new) {found : Option Entry}
    (h : old.locate .creation n p steps = .ok (q, found)) :
    new.locate .creation n p steps = .ok (q, new.entry? q) := by
  generalize hpurpose : Purpose.creation = purpose at h ⊢
  fun_induction FileTree.locate old purpose n p steps with
  | case1 =>
    cases h
    exact locate_nil
  | case3 _ _ _ _ hfolder hstay ih => rw [locate_stay (hgrows.folder _ hfolder) hstay, ih h]
  | case4 _ _ _ hfolder _ ih => rw [locate_up (hgrows.folder _ hfolder), ih h]
  | case7 =>
    rename_i hlast
    rw [← hpurpose] at hlast
    exact absurd hlast.2 (by decide)
  | case9 =>
    rename_i hfolder hstay hup hslash hlong target hlink hlast _ ih
    have hstep : IsStep _ := ⟨by simpa using hstay, hup, Nat.not_lt.mp hlong⟩
    rw [locate_link (hgrows.folder _ hfolder) hstep hslash hlast ((hgrows.link _ _).mpr hlink)]
    exact ih h
  | case10 =>
    rename_i hfolder hstay hup hslash hlong hlink ih
    have hstep : IsStep _ := ⟨by simpa using hstay, hup, Nat.not_lt.mp hlong⟩
    rw [locate_down (hgrows.folder _ hfolder) hstep hslash fun target htarget =>
      hlink target ((hgrows.link _ _).mp htarget)]
    exact ih h
  | _ => cases h

end FileTree

namespace Disk

open FileTree

/-- A path leads to a folder by its front, and the names behind the front are steps down. -/
structure Way (disk : Disk) (path : Path) (q : Place) (names : List String) : Prop where
  takes : Takes path
  front : ∃ front m, path.parts = front ++ names ∧ disk.tree.Leads maxLinks (disk.base path) front m q
  folder : disk.tree.entry? q = some .folder
  steps : ∀ name ∈ names, IsStep name

section
variable {disk made : Disk} {path : Path} {q : Place} {names : List String} {last : String} {content : ByteArray}

theorem Takes.parent (h : Takes path) : Takes path.parent := by
  rcases List.eq_nil_or_concat path.parts with hnil | ⟨front, last, hparts⟩
  · have hsame : path.parent = path := by
      obtain ⟨anchor, parts⟩ := path
      cases hnil
      rfl
    rwa [hsame]
  · have hjoin : path = path.parent.join ⟨.relative, [last]⟩ := by
      obtain ⟨anchor, parts⟩ := path
      rw [List.concat_eq_append] at hparts
      cases hparts
      simp [Path.parent, Path.join, Path.isAbsolute]
    rw [hjoin] at h
    exact h.above

theorem Way.parent (h : disk.Way path q (names ++ [last])) : disk.Way path.parent q names := by
  obtain ⟨front, m, hparts, hleads⟩ := h.front
  refine ⟨h.takes.parent, ⟨front, m, ?_, hleads⟩, h.folder, fun name hn => h.steps name (by simp [hn])⟩
  rw [Path.parent, hparts, ← List.append_assoc, List.dropLast_concat]

theorem Way.grow (h : disk.Way path q names) (hgrows : disk.Grows made) : made.Way path q names := by
  obtain ⟨front, m, hparts, hleads⟩ := h.front
  refine ⟨h.takes, ⟨front, m, hparts, ?_⟩, hgrows.tree.folder q h.folder, h.steps⟩
  rw [hgrows.base]
  exact hleads.grow hgrows.tree

/-- Behind the front of a way the names are looked up from the folder. -/
theorem Way.locate_cut (h : disk.Way path q names) {purpose : Purpose} (hne : names ≠ []) :
    ∃ n, disk.tree.locate purpose maxLinks (disk.base path) path.parts = disk.tree.locate purpose n q names := by
  obtain ⟨front, m, hparts, hleads⟩ := h.front
  have hslash : purpose = .creation → names ≠ [""] := by
    rintro - rfl
    exact absurd (h.steps "" (by simp)).stay (by decide)
  exact ⟨m, by rw [hparts, hleads.locate_append hne hslash]⟩

theorem Way.locate_eq (h : disk.Way path q names) {purpose : Purpose} (hne : names ≠ [])
    {found : Place × Option Entry} (hfound : ∀ n, disk.tree.locate purpose n q names = .ok found) :
    disk.locate purpose path = .ok found := by
  obtain ⟨n, hcut⟩ := h.locate_cut hne
  exact locate_eq_ok.mpr ⟨h.takes, by rw [hcut, hfound]⟩

theorem Way.locate_error (h : disk.Way path q names) {purpose : Purpose} (hne : names ≠ []) {errno : Errno}
    (herror : ∀ n, disk.tree.locate purpose n q names = .error errno) :
    disk.locate purpose path = .error (.system errno path.toString) := by
  obtain ⟨n, hcut⟩ := h.locate_cut hne
  rw [locate, if_neg (by simp [h.takes.nameable]), if_neg (Nat.not_lt.mpr h.takes.short), hcut, herror]
  rfl

/-- A folder stands at every place on the way, and elsewhere nothing has changed. -/
structure Built (disk made : Disk) (q : Place) (names : List String) : Prop where
  cwd : made.cwd = disk.cwd
  way : ∀ front, front <+: names → made.tree.entry? (q ++ front) = some .folder
  other : ∀ r, (∀ front, front <+: names → r ≠ q ++ front) → made.tree.entry? r = disk.tree.entry? r

/-- A path that leads to a folder is left as it is. -/
theorem ensureFolder_of_isFolder (h : disk.isFolder path = .ok true) : disk.ensureFolder path = .ok disk := by
  obtain ⟨place, hstat⟩ := isFolder_eq_true.mp h
  obtain ⟨htakes, ⟨m, hleads⟩, hfolder⟩ := stat_eq_ok.mp hstat
  obtain ⟨r, found, hlocate⟩ := FileTree.Leads.locate_entry hleads hfolder
  have hmake : disk.makeFolder path = .error (.system .alreadyExists path.toString) := by
    rw [makeFolder, locate_eq_ok.mpr ⟨htakes, hlocate⟩]
  rw [ensureFolder, hmake]
  simp only [ensureOne, hmake, h, bind, Except.bind, pure, Except.pure, if_true]

theorem Way.leads (h : disk.Way path q names) (hdescends : disk.tree.Descends q names) :
    ∃ m, disk.Leads path m (q ++ names) := by
  obtain ⟨front, m, hparts, hleads⟩ := h.front
  refine ⟨m, ?_⟩
  unfold Leads
  rw [hparts]
  exact hleads.append hdescends.leads

/-- What stands above a folder are folders. -/
theorem clear_of_folder {tree : FileTree} (hclosed : tree.Closed)
    (hfolder : tree.entry? (q ++ names) = some .folder) {front : List String} (hfront : front <+: names) :
    tree.entry? (q ++ front) = some .folder := by
  obtain ⟨back, rfl⟩ := hfront
  cases back with
  | nil => rwa [List.append_nil] at hfolder
  | cons name back => exact hclosed.above (by rwa [List.append_assoc])

/-- **One folder is made in a folder**, unless it is there. -/
theorem Way.ensureOne (h : disk.Way path q (names ++ [last])) (hclosed : disk.tree.Closed)
    (hfolder : disk.tree.entry? (q ++ names) = some .folder) (hclear : disk.tree.Clear q (names ++ [last])) :
    (∀ text, disk.makeFolder path ≠ .error (.system .noEntry text)) ∧
      ∃ made, disk.ensureOne path = .ok made ∧ disk.Built made q (names ++ [last]) := by
  have hlast : ∀ entry, disk.tree.entry? (q ++ (names ++ [last])) = some entry → entry = .folder :=
    hclear _ (List.prefix_refl _)
  have hdescends : disk.tree.Descends q (names ++ [last]) := by
    refine hclosed.descends_snoc h.steps hfolder fun target htarget => ?_
    cases hlast _ htarget
  have hlocate : disk.locate .entry path =
      .ok (q ++ (names ++ [last]), disk.tree.entry? (q ++ (names ++ [last]))) :=
    h.locate_eq (by simp) fun _ => hdescends.locate
  cases hentry : disk.tree.entry? (q ++ (names ++ [last])) with
  | none =>
    have hmake : disk.makeFolder path =
        .ok { disk with tree := disk.tree.put (q ++ (names ++ [last])) .folder } := by
      rw [makeFolder, hlocate, hentry]
    have hne : q ++ (names ++ [last]) ≠ [] := by simp
    refine ⟨fun text => by simp [hmake], { disk with tree := disk.tree.put (q ++ (names ++ [last])) .folder },
      by rw [Disk.ensureOne, hmake], rfl, fun front hfront => ?_, ?_⟩
    · rw [entry?_put hne]
      split
      · rfl
      · next hother =>
        rcases List.prefix_concat_iff.mp hfront with rfl | hfront
        · exact absurd rfl hother
        · exact clear_of_folder hclosed hfolder hfront
    · intro r hr
      rw [entry?_put hne, if_neg (hr _ (List.prefix_refl _))]
  | some entry =>
    obtain rfl := hlast entry hentry
    have hmake : disk.makeFolder path = .error (.system .alreadyExists path.toString) := by
      rw [makeFolder, hlocate, hentry]
    have hisFolder : disk.isFolder path = .ok true :=
      isFolder_eq_true.mpr ⟨_, stat_eq_ok.mpr ⟨h.takes, h.leads hdescends, hentry⟩⟩
    refine ⟨fun text => by simp [hmake], disk, ?_, rfl, fun front => clear_of_folder hclosed hentry,
      fun _ _ => rfl⟩
    simp only [Disk.ensureOne, hmake, hisFolder, bind, Except.bind, pure, Except.pure, if_true]

/-- **The folders of a way are made**, as far as they are missing. -/
theorem Way.ensureFolder (h : disk.Way path q names) (hground : disk.Grounded (disk.base path))
    (hclear : disk.tree.Clear q names) : ∃ made, disk.ensureFolder path = .ok made ∧ disk.Built made q names := by
  induction names using List.reverseRecOn generalizing path with
  | nil =>
    obtain ⟨m, hleads⟩ := h.leads (by simp [Descends, h.folder])
    rw [List.append_nil] at hleads
    have hisFolder : disk.isFolder path = .ok true :=
      isFolder_eq_true.mpr ⟨q, stat_eq_ok.mpr ⟨h.takes, ⟨m, hleads⟩, h.folder⟩⟩
    refine ⟨disk, ensureFolder_of_isFolder hisFolder, rfl, fun front hfront => ?_, fun _ _ => rfl⟩
    rw [List.prefix_nil.mp hfront, List.append_nil, h.folder]
  | append_singleton names last ih =>
    have hclosed := hground.closed
    cases hentry : disk.tree.entry? (q ++ names) with
    | some entry =>
      obtain rfl := hclear names (List.prefix_append _ _) entry hentry
      obtain ⟨hmake, made, hmade, hbuilt⟩ := h.ensureOne hclosed hentry hclear
      refine ⟨made, ?_, hbuilt⟩
      rw [Disk.ensureFolder]
      split
      · next text hmissing => exact absurd hmissing (hmake text)
      · exact hmade
    | none =>
      have hclearNames : disk.tree.Clear q names := hclear.mono (List.prefix_append _ _)
      have hmake : disk.makeFolder path = .error (.system .noEntry path.toString) := by
        rw [makeFolder, h.locate_error (by simp) fun _ =>
          hclearNames.locate_missing h.folder h.steps hentry]
      have hparts : path.parts ≠ [] := by
        obtain ⟨front, m, hparts, -⟩ := h.front
        simp [hparts]
      obtain ⟨made, hmade, hbuilt⟩ := ih h.parent hground hclearNames
      have hground' : disk.Grounded (disk.base path.parent) := hground
      have hextends : disk.Extends made := ensureFolder_extends hground' hmade
      have hbelow : made.tree.entry? (q ++ (names ++ [last])) = none := by
        rw [hbuilt.other, ← List.append_assoc]
        · exact hclosed.below hentry [last]
        · intro front hfront heq
          have hlength := hfront.length_le
          rw [← List.append_cancel_left heq, List.length_append, List.length_singleton] at hlength
          omega
      have hclear' : made.tree.Clear q (names ++ [last]) := by
        intro front hfront entry hfound
        rcases List.prefix_concat_iff.mp hfront with rfl | hfront
        · rw [hbelow] at hfound
          cases hfound
        · rw [hbuilt.way front hfront] at hfound
          exact (Option.some.inj hfound).symm
      obtain ⟨-, made', hmade', hbuilt'⟩ := (h.grow hextends.toGrows).ensureOne (hextends.closed hclosed)
        (hbuilt.way names (List.prefix_refl _)) hclear'
      refine ⟨made', ?_, hbuilt'.cwd.trans hbuilt.cwd, hbuilt'.way, fun r hr => ?_⟩
      · rw [Disk.ensureFolder, hmake]
        simp only [hparts, if_false, hmade]
        exact hmade'
      · rw [hbuilt'.other r hr, hbuilt.other r fun front hfront =>
          hr front (hfront.trans (List.prefix_append _ _))]

/-- **A file is written at the end of a way**, if no folder stands there. -/
theorem Way.writeBytes (h : disk.Way path q (names ++ [last])) (hclosed : disk.tree.Closed)
    (hfolder : disk.tree.entry? (q ++ names) = some .folder) (hfree : disk.tree.Free (q ++ (names ++ [last])))
    (content : ByteArray) : disk.writeBytes path content =
      .ok { disk with tree := disk.tree.put (q ++ (names ++ [last])) (.file content) } := by
  have hdescends : disk.tree.Descends q (names ++ [last]) := by
    refine hclosed.descends_snoc h.steps hfolder fun target htarget => ?_
    obtain ⟨old, hold⟩ := hfree _ htarget
    cases hold
  rw [Disk.writeBytes, h.locate_eq (by simp) fun _ => hdescends.locate]
  cases hentry : disk.tree.entry? (q ++ (names ++ [last])) with
  | none => rfl
  | some entry =>
    obtain ⟨old, rfl⟩ := hfree entry hentry
    rfl

/-! ## Writing again -/

theorem isFolder_of_ensureOne (hground : disk.Grounded (disk.base path)) (h : disk.ensureOne path = .ok made) :
    made.isFolder path = .ok true := by
  unfold Disk.ensureOne at h
  split at h
  · next new hmake =>
    cases h
    obtain ⟨htakes, front, name, m, r, hparts, hleads, hfolder, hname, hempty, heq⟩ :=
      makeFolder_eq_ok hground hmake
    have hgrows := (makeFolder_extends hground hmake).toGrows
    have hentry : made.tree.entry? (r ++ [name]) = some .folder := by
      rw [heq, entry?_put (by simp), if_pos rfl]
    refine isFolder_eq_true.mpr ⟨r ++ [name], stat_eq_ok.mpr ⟨htakes, ⟨m, ?_⟩, hentry⟩⟩
    unfold Leads
    rw [hparts, hgrows.base]
    exact (hleads.grow hgrows.tree).append
      (.down (hgrows.tree.folder r hfolder) hname (by simp [hentry]) .done)
  · cases h
  · obtain ⟨found, hfound, hrest⟩ := bind_eq_ok.mp h
    cases found with
    | false => cases hrest
    | true =>
      cases hrest
      exact hfound

theorem isFolder_of_ensureFolder (hground : disk.Grounded (disk.base path))
    (h : disk.ensureFolder path = .ok made) : made.isFolder path = .ok true := by
  rw [Disk.ensureFolder] at h
  split at h
  · split at h
    · cases h
    · split at h
      · cases h
      · next between hbetween =>
        exact isFolder_of_ensureOne (ensureFolder_parent hground hbetween).2 h
  · exact isFolder_of_ensureOne hground h

/-- **What has been written can be written again**: its folder is there, and the file is written over. -/
theorem write_again {new : Disk} {goal : Path} (hground : disk.Grounded (disk.base goal))
    (hmade : disk.ensureFolder goal.parent = .ok made) (hwrite : made.writeBytes goal content = .ok new)
    (content' : ByteArray) :
    new.Grounded (new.base goal) ∧ new.ensureFolder goal.parent = .ok new ∧
      ∃ newer, new.writeBytes goal content' = .ok newer := by
  have hground' : disk.Grounded (disk.base goal.parent) := hground
  obtain ⟨hextends, hgroundMade⟩ := ensureFolder_parent hground hmade
  obtain ⟨htakes, m, q, hleads, hfree, hnew⟩ := writeBytes_eq_ok hgroundMade hwrite
  have hgrows : made.Grows new := writeBytes_grows hgroundMade hwrite
  have hfolder : new.isFolder goal.parent = .ok true := by
    obtain ⟨place, hstat⟩ := isFolder_eq_true.mp (isFolder_of_ensureFolder hground' hmade)
    obtain ⟨htakes', ⟨m', hleads'⟩, hplace⟩ := stat_eq_ok.mp hstat
    exact isFolder_eq_true.mpr ⟨place, stat_eq_ok.mpr
      ⟨htakes', ⟨m', hgrows.leads hleads'⟩, hgrows.tree.folder _ hplace⟩⟩
  refine ⟨hgrows.grounded_base hgroundMade, ensureFolder_of_isFolder hfolder, ?_⟩
  unfold Disk.writeBytes at hwrite
  cases hlocate : made.locate .creation goal with
  | error fault =>
    rw [hlocate] at hwrite
    cases hwrite
  | ok found =>
    obtain ⟨place, entry⟩ := found
    obtain ⟨-, hlocated⟩ := locate_eq_ok.mp hlocate
    obtain ⟨-, k, hleads'⟩ := leads_of_located hlocated (by simp)
    obtain rfl : place = q := FileTree.Leads.unique hleads' hleads
    have hagain : new.locate .creation goal = .ok (place, new.tree.entry? place) := by
      refine locate_eq_ok.mpr ⟨htakes, ?_⟩
      rw [hgrows.base]
      exact locate_grow hgrows.tree hlocated
    have hfile : new.tree.entry? place = some (.file content) := by
      rw [hnew, entry?_put hfree.ne_nil, if_pos rfl]
    exact ⟨_, by rw [Disk.writeBytes, hagain, hfile]⟩

end

end Disk

end ShaderFlatten
