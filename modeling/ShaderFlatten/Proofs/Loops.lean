import ShaderFlatten.Proofs.Search
import ShaderFlatten.Proofs.Targets

/-!
# Endless links

A link that leads back to itself is a fault of one file for the engine, but it ends a search that comes upon
it, and there is no plan for it.  The engine asks for a canonical place, and a path that leads into endless
links has none; a search and a plan resolve a path whose steps need not exist, and that fails:

    resolve? path = error (endlessLinks _)  →  process path = failed (invalidPath)
    resolve? path = error (endlessLinks _), path a match below a folder  →  findShaders is no list
    resolve? path = error (endlessLinks _), path an input or a root      →  make is no plan

Nothing else stops them but names that cannot be written or are too long, and what a search lists are the
matches that resolve to files.
-/

namespace ShaderFlatten

namespace FileTree

/-- What a walk to a target can fail with. -/
theorem locate_target_error {tree : FileTree} {n : Nat} {p : Place} {steps : List String} {errno : Errno}
    (h : tree.locate .target n p steps = .error errno) : errno.meansAbsent = true ∨ errno = .nameTooLong := by
  generalize hpurpose : Purpose.target = purpose at h
  fun_induction locate tree purpose n p steps with
  | case1 => cases h
  | case2 =>
    cases h
    exact .inl rfl
  | case3 _ _ _ _ _ _ ih => exact ih h
  | case4 _ _ _ _ _ ih => exact ih h
  | case5 _ _ _ _ _ _ _ hslash =>
    rw [← hpurpose] at hslash
    exact absurd hslash.1 (by decide)
  | case6 =>
    cases h
    exact .inr rfl
  | case7 => cases h
  | case8 =>
    cases h
    exact .inl rfl
  | case9 =>
    rename_i ih
    exact ih h
  | case10 =>
    rename_i ih
    exact ih h
  | case11 =>
    cases h
    exact .inl rfl

end FileTree

namespace Disk

variable {disk : Disk} {path : Path} {fault : Fault}

theorem stat_error (h : disk.stat path = .error fault) : fault = .unnameable ∨
    ∃ errno : Errno, fault = .system errno path.toString ∧ (errno.meansAbsent = true ∨ errno = .nameTooLong) := by
  unfold stat at h
  split at h
  · cases h
  · cases h
    exact .inr ⟨.noEntry, rfl, .inl rfl⟩
  · next e hlocate =>
    cases h
    unfold locate at hlocate
    split at hlocate
    · cases hlocate
      exact .inl rfl
    · split at hlocate
      · cases hlocate
        exact .inr ⟨.nameTooLong, rfl, .inr rfl⟩
      · cases hwalk : disk.tree.locate .target maxLinks (disk.base path) path.parts with
        | ok found =>
          rw [hwalk] at hlocate
          cases hlocate
        | error errno =>
          rw [hwalk] at hlocate
          cases hlocate
          exact .inr ⟨errno, rfl, FileTree.locate_target_error hwalk⟩

/-- Whether a path leads to a file or a folder is left open only if a name or the path is too long. -/
theorem leadsTo_error {kind : Entry → Bool} (h : disk.leadsTo kind path = .error fault) :
    fault = .system .nameTooLong path.toString := by
  unfold leadsTo at h
  split at h
  · cases h
  · cases h
  · next errno text herror =>
    split at h
    · cases h
    · next hpresent =>
      rcases stat_error herror with hfault | ⟨errno', hfault, habsent | hlong⟩
      · cases hfault
      · cases hfault
        exact absurd habsent hpresent
      · cases hfault
        cases h
        rw [hlong]
  · next e hunnameable hsystem herror =>
    rcases stat_error herror with hfault | ⟨errno, hfault, -⟩
    · exact absurd hfault hunnameable
    · exact absurd hfault (hsystem errno _)

theorem listed?_error (h : disk.listed? path = .error fault) : disk.resolve? path = .error fault ∨
    ∃ place, disk.resolve? path = .ok place ∧ fault = .system .nameTooLong place.path.toString := by
  unfold listed? at h
  cases hplace : disk.resolve? path with
  | error e =>
    rw [hplace] at h
    cases h
    exact .inl rfl
  | ok place =>
    rw [hplace] at h
    simp only [bind, Except.bind] at h
    cases hfile : disk.isFile place.path with
    | error e =>
      rw [hfile] at h
      cases h
      exact .inr ⟨place, rfl, leadsTo_error hfile⟩
    | ok found =>
      rw [hfile] at h
      cases found <;> cases h

/-- **A search fails** at a folder whose path is too long, or at a match that does not resolve or whose place
has a path that is too long. -/
theorem findShaders_error (hclosed : disk.tree.Closed) {folders : List Path}
    (h : (disk.findShaders folders).1 = .error fault) :
    (∃ folder ∈ folders, fault = .system .nameTooLong folder.toString) ∨
    ∃ folder ∈ folders, ∃ base names, disk.stat folder = .ok (base, .folder) ∧ disk.tree.HasBelow base names ∧
      isShaderName (names.getLast?.getD "") ∧
      (disk.resolve? (folder.join ⟨.relative, names⟩) = .error fault ∨
        ∃ place, disk.resolve? (folder.join ⟨.relative, names⟩) = .ok place ∧
          fault = .system .nameTooLong place.path.toString) := by
  have hlists : folders.mapM disk.listedBelow? = .error fault := by
    rw [findShaders_eq] at h
    cases hlists : folders.mapM disk.listedBelow? with
    | ok lists =>
      rw [hlists] at h
      cases h
    | error e =>
      rw [hlists] at h
      cases h
      rfl
  obtain ⟨folder, hfolder, hbelow⟩ := exists_of_mapM_error hlists
  cases hmatches : disk.matchesBelow? folder with
  | error e =>
    rw [listedBelow?, hmatches] at hbelow
    cases hbelow
    exact .inl ⟨folder, hfolder, leadsTo_error (matchesBelow?_eq_error.mp hmatches)⟩
  | ok found =>
    rw [listedBelow?_eq hmatches] at hbelow
    cases hlisted : (found.getD []).mapM disk.listed? with
    | ok listed =>
      rw [hlisted] at hbelow
      cases hbelow
    | error e =>
      rw [hlisted] at hbelow
      cases hbelow
      obtain ⟨path, hpath, herror⟩ := exists_of_mapM_error hlisted
      obtain ⟨base, names, hstat, hbelow, hname, rfl⟩ :=
        ((matches_of_matchesBelow? hclosed hmatches).mem path).mp hpath
      exact .inr ⟨folder, hfolder, base, names, hstat, hbelow, hname, listed?_error herror⟩

/-! ## The engine -/

/-- **A path into endless links has no canonical place**, for a reason other than a name that cannot be
written. -/
theorem canonical?_of_endless (hdisk : disk.Standing) (h : path.Readable) (htilde : ¬ path.StartsAtHome)
    {text : String} (hendless : disk.resolve? path = .error (.endlessLinks text)) :
    ∃ fault, disk.canonical? path.toString = .error fault ∧ fault ≠ .unnameable := by
  cases hplace : disk.canonical? path.toString with
  | ok place => cases (resolve?_of_canonical? hdisk h htilde hplace).symm.trans hendless
  | error fault =>
    refine ⟨fault, rfl, ?_⟩
    rintro rfl
    have hfollow : disk.followPath true path = .error .unnameable := by
      rw [canonical?, expandHome_of_readable h htilde] at hplace
      simp only [bind, Except.bind] at hplace
      split at hplace
      · cases hplace
      · cases hplace
      · cases hplace
      · assumption
    have hfollow' : disk.followPath false path = .error .unnameable := follow_of_strict hfollow (by simp)
    simp only [resolve?, reached?, hfollow', bind, Except.bind] at hendless
    cases hendless

end Disk

/-- A request that leads into endless links fails and leaves what is cached as it was. -/
theorem Flatten.request_of_endless {s : Setting} (hdisk : s.disk.Standing) {path : Path} (h : path.Readable)
    (htilde : ¬ path.StartsAtHome) {text : String} (hendless : s.disk.resolve? path = .error (.endlessLinks text))
    (l : Ledger) : ∃ failure l', request s path.toString l = (.error (.failed failure), l') ∧
      failure.kind = .invalidPath ∧ l'.cache = l.cache := by
  obtain ⟨fault, hplace, hfault⟩ := Disk.canonical?_of_endless hdisk h htilde hendless
  have hrequest : request s path.toString l =
      failFile l (.unresolvedPath path.toString fault) path.toString := by
    rw [request, hplace]
    cases fault with
    | unnameable => exact absurd rfl hfault
    | _ => rfl
  rw [hrequest]
  exact ⟨_, _, rfl, by simp [Cause.kind], by simp⟩

/-- The links of an input lead back to themselves. -/
def Disk.isEndless (disk : Disk) (path : Path) : Bool :=
  match disk.resolve? path with
  | .error (.endlessLinks _) => true
  | _ => false

theorem Disk.isEndless_iff {disk : Disk} {path : Path} :
    disk.isEndless path = true ↔ ∃ text, disk.resolve? path = .error (.endlessLinks text) := by
  unfold isEndless
  constructor
  · intro h
    split at h
    · next text hendless => exact ⟨text, hendless⟩
    · cases h
  · rintro ⟨text, hendless⟩
    rw [hendless]

namespace Batch

/-- **A batch goes on behind inputs that lead into endless links** as if they were not there. -/
theorem runFrom_skips {s : Setting} (hdisk : s.disk.Standing) {paths : List Path}
    (hpaths : ∀ path ∈ paths, path.Readable ∧ ¬ path.StartsAtHome) {b b' : Batch} {l l' : Ledger}
    (hcache : l'.cache = l.cache) (hentries : b'.entries = b.entries) :
    (runFrom s b' (paths.filter fun path => !s.disk.isEndless path) l').1.map (·.entries) =
      (runFrom s b paths l).1.map (·.entries) := by
  induction paths generalizing b b' l l' with
  | nil => simp [runFrom, Except.map, hentries]
  | cons path rest ih =>
    obtain ⟨⟨hreadable, htilde⟩, hrest⟩ := List.forall_mem_cons.mp hpaths
    by_cases hendless : s.disk.isEndless path = true
    · obtain ⟨text, hresolve⟩ := Disk.isEndless_iff.mp hendless
      obtain ⟨failure, l₁, hrequest, -, hcache₁⟩ :=
        Flatten.request_of_endless hdisk hreadable htilde hresolve l
      rw [List.filter_cons_of_neg (by simp [hendless])]
      simp only [runFrom, hrequest]
      exact ih hrest (hcache.trans hcache₁.symm) hentries
    · rw [List.filter_cons_of_pos (by simp [hendless])]
      obtain ⟨hresult, hcache'⟩ := Flatten.request_cache s path.toString hcache
      cases hrequest : Flatten.request s path.toString l with
      | mk result l₁ =>
        cases hrequest' : Flatten.request s path.toString l' with
        | mk result' l₁' =>
          rw [hrequest, hrequest'] at hresult hcache'
          dsimp only at hresult hcache'
          subst hresult
          simp only [runFrom, hrequest, hrequest']
          cases result' with
          | ok text => exact ih hrest hcache' (by rw [hentries])
          | error halt =>
            cases halt with
            | failed failure => exact ih hrest hcache' hentries
            | refused refusal => rfl

end Batch

open OutputPlan

/-- **Endless links stop searches and plans, but not the engine.**  On the disk of a running system a path
does not resolve only if it leads into endless links or has a name that cannot be written.  A search fails
only at a folder whose path is too long, or at a match that does not resolve or resolves to a place whose path
is too long, and always fails if there is a match that does not resolve; if it does not fail, its list has the
places of the matches that resolve to files, and no others.  A plan fails but for a clash only at a root or an
input that does not resolve, and always fails if there is one.  For the engine an input that leads into
endless links is a failure of the kind `invalidPath`, and a batch comes to the texts that it comes to without
such inputs. -/
theorem endless_links_stop_plans {disk : Disk} (hdisk : disk.Standing) :
    (∀ path fault, disk.resolve? path = .error fault → fault = .unnameable ∨
      ∃ place : Place, fault = .endlessLinks place.text ∧
        ∃ text, disk.stat place.path = .error (.system .linkLoop text)) ∧
    (∀ folders fault, (disk.findShaders folders).1 = .error fault →
      (∃ folder ∈ folders, fault = .system .nameTooLong folder.toString) ∨
      ∃ folder ∈ folders, ∃ base names, disk.stat folder = .ok (base, .folder) ∧ disk.tree.HasBelow base names ∧
        isShaderName (names.getLast?.getD "") ∧
        (disk.resolve? (folder.join ⟨.relative, names⟩) = .error fault ∨
          ∃ place, disk.resolve? (folder.join ⟨.relative, names⟩) = .ok place ∧
            fault = .system .nameTooLong place.path.toString)) ∧
    (∀ folders found, (disk.findShaders folders).1 = .ok found → ∀ place, place ∈ found ↔
      ∃ folder ∈ folders, ∃ base names, disk.stat folder = .ok (base, .folder) ∧ disk.tree.HasBelow base names ∧
        isShaderName (names.getLast?.getD "") ∧ disk.resolve? (folder.join ⟨.relative, names⟩) = .ok place ∧
        disk.isFile place.path = .ok true) ∧
    (∀ folders, ∀ folder ∈ folders, ∀ base names fault, disk.stat folder = .ok (base, .folder) →
      disk.tree.HasBelow base names → isShaderName (names.getLast?.getD "") →
      disk.resolve? (folder.join ⟨.relative, names⟩) = .error fault →
      ∃ e, (disk.findShaders folders).1 = .error e) ∧
    (∀ folder roots inputs fault, make disk folder roots inputs = .error (.unresolved fault) →
      ∃ path ∈ roots ++ inputs, disk.resolve? path = .error fault) ∧
    (∀ folder roots inputs, ∀ path ∈ roots ++ inputs, ∀ fault, disk.resolve? path = .error fault →
      ∃ e, make disk folder roots inputs = .error e) ∧
    (∀ (engine : Engine) (bindings : Bindings) (path : Path) text, path.Readable → ¬ path.StartsAtHome →
      disk.resolve? path = .error (.endlessLinks text) →
      ∃ failure, (engine.process disk bindings path.toString).1.1 = .error (.failed failure) ∧
        failure.kind = .invalidPath) ∧
    ∀ limits bindings paths, (∀ path ∈ paths, path.Readable ∧ ¬ path.StartsAtHome) →
      (Batch.run limits disk bindings (paths.filter fun path => !disk.isEndless path)).1.map (·.entries) =
        (Batch.run limits disk bindings paths).1.map (·.entries) := by
  refine ⟨fun path fault => Disk.resolve?_error, fun folders fault => Disk.findShaders_error hdisk.closed, ?_, ?_,
    ?_, ?_, ?_, ?_⟩
  · intro folders found hfound place
    obtain ⟨paths, hmatches, rfl⟩ := Disk.files_of_findShaders hdisk.closed hfound
    rw [List.mem_eraseDups, Disk.mem_files_iff hmatches]
  · intro folders folder hfolder base names fault hstat hbelow hname hfault
    cases hfound : (disk.findShaders folders).1 with
    | error e => exact ⟨e, rfl⟩
    | ok found =>
      have hsearchable := (Disk.exists_findShaders_iff hdisk.closed).mp ⟨found, hfound⟩ folder hfolder
      obtain ⟨place, -, hplace, -⟩ := hsearchable.resolved base names hstat hbelow hname
      cases hplace.symm.trans hfault
  · intro folder roots inputs fault hmake
    rcases make_error hmake with ⟨fault', hfault', root, hroot, hresolve⟩ | ⟨places, -, hobstructs⟩
    · cases hfault'
      exact ⟨root, List.mem_append_left _ hroot, hresolve⟩
    · cases hobstructs with
      | unresolved hinput hresolve => exact ⟨_, List.mem_append_right _ hinput, hresolve⟩
  · intro folder roots inputs path hpath fault hresolve
    cases hmake : make disk folder roots inputs with
    | error e => exact ⟨e, rfl⟩
    | ok plan =>
      obtain ⟨place, hplace⟩ := resolves_of_make hmake path hpath
      cases hplace.symm.trans hresolve
  · intro engine bindings path text h htilde hendless
    have hrequest : (engine.process disk bindings path.toString).1 =
        Flatten.request (engine.setting disk bindings) path.toString (.ofCache engine.cache) := rfl
    obtain ⟨failure, l', hfailed, hkind, -⟩ := @Flatten.request_of_endless (engine.setting disk bindings) hdisk
      path h htilde text hendless (.ofCache engine.cache)
    exact ⟨failure, by rw [hrequest, hfailed], hkind⟩
  · intro limits bindings paths hpaths
    exact Batch.runFrom_skips hdisk hpaths rfl rfl

/-! A link to itself beside a shader. -/

/-- A path in the folder that is searched. -/
def searchPath (anchor : Anchor) (name : String) : Path := ⟨anchor, ["s", name]⟩

section
variable {anchor : Anchor}

theorem stat_linkDisk_loop :
    (linkDisk "b.wgsl").stat (Place.path ["s", "b.wgsl"]) =
      .error (.system .linkLoop (Place.path ["s", "b.wgsl"]).toString) := by
  obtain ⟨hfolder, -, hlink⟩ := @entry?_linkDisk "b.wgsl"
  have hsteps : linkSteps "b.wgsl" ++ [] = ["b.wgsl"] := by decide
  have htarget : isAbsoluteText "b.wgsl" = false := by decide
  have hstep : IsStep "b.wgsl" := isStep_search (.inr (.inr rfl))
  have hloop : ∀ n, (linkDisk "b.wgsl").tree.locate .target n ["s"] ["b.wgsl"] = .error .linkLoop := by
    intro n
    induction n with
    | zero =>
      rw [FileTree.locate, hfolder]
      simp [hstep.stay, hstep.up, Nat.not_lt.mpr hstep.short, hlink]
    | succ n ih =>
      rw [FileTree.locate_link hfolder hstep (by simp) (by simp) hlink, htarget, hsteps]
      exact ih
  have hlocate : (linkDisk "b.wgsl").tree.locate .target maxLinks [] ["s", "b.wgsl"] = .error .linkLoop := by
    rw [FileTree.locate_down rfl (isStep_search (.inl rfl)) (by simp) (by simp [hfolder])]
    exact hloop maxLinks
  have hparts : (Place.path ["s", "b.wgsl"]).parts = ["s", "b.wgsl"] := rfl
  have htakes : Disk.Takes (Place.path ["s", "b.wgsl"]) := (takes_searchFolder .root).2.2
  rw [Disk.stat, Disk.locate, htakes.nameable, if_neg (by simp), if_neg (Nat.not_lt.mpr htakes.short),
    base_linkDisk, hparts, hlocate]
  rfl

theorem resolve?_linkDisk_loop :
    (linkDisk "b.wgsl").resolve? (searchPath anchor "b.wgsl") =
      .error (.endlessLinks (Place.text ["s", "b.wgsl"])) := by
  have hnames : Path.splitNames "b.wgsl" = ["b.wgsl"] := by decide
  have htarget : isAbsoluteText "b.wgsl" = false := by decide
  have hfollow : (linkDisk "b.wgsl").followPath false (searchPath anchor "b.wgsl") =
      .error (.cyclic ⟨Path.isAbsolute (searchPath anchor "b.wgsl"), 0, ["s", "b.wgsl"]⟩ []) := by
    have hparts : (searchPath anchor "b.wgsl").parts = ["s", "b.wgsl"] := rfl
    rw [followPath_linkDisk, hparts, follow_linkDisk, hnames, htarget]
    simp only [Bool.false_eq_true, if_false]
    rw [Disk.follow_pending (by decide) (by decide) (entryAt_linkDisk _).2.2 (by simp [Trail.child])]
    rfl
  have hplace : ∀ anchored, Place.follow ((linkDisk "b.wgsl").place ⟨anchored, 0, ["s", "b.wgsl"]⟩) [] =
      ["s", "b.wgsl"] := by
    intro anchored
    cases anchored <;> rfl
  have hnameable : ["s", "b.wgsl"].all isNameable = true := by decide
  simp only [Disk.resolve?, Disk.reached?, hfollow, hplace, hnameable, if_true, stat_linkDisk_loop, bind,
    Except.bind]
  rfl

theorem readable_searchPath : (searchPath anchor "b.wgsl").Readable := by
  intro name hn
  have hname : name = "s" ∨ name = "b.wgsl" := by simpa [searchPath] using hn
  rcases hname with rfl | rfl <;> decide

theorem searchPath_not_startsAtHome : ¬ (searchPath anchor "b.wgsl").StartsAtHome := by
  rintro ⟨-, first, rest, hparts, hhead⟩
  cases hparts
  exact absurd hhead (by decide)

theorem hasBelow_linkDisk_link {target : String} : (linkDisk target).tree.HasBelow ["s"] ["b.wgsl"] :=
  .entry entry?_linkDisk.1 (by simp [entry?_linkDisk])

end

/-- The search below the folder fails, and the engine tells of a path that it cannot resolve. -/
theorem endless_links_stop_plans_self :
    (linkDisk "b.wgsl").Standing ∧
    (∃ e, ((linkDisk "b.wgsl").findShaders [searchFolder .relative]).1 = .error e) ∧
    ∃ failure, ((Engine.create .oneLevel).process (linkDisk "b.wgsl") .empty
      (searchPath .relative "b.wgsl").toString).1.1 = .error (.failed failure) ∧ failure.kind = .invalidPath := by
  obtain ⟨-, -, -, hsearch, -, -, hengine, -⟩ := @endless_links_stop_plans (linkDisk "b.wgsl") linkDisk_standing
  refine ⟨linkDisk_standing, ?_, ?_⟩
  · exact hsearch [searchFolder .relative] _ (List.mem_singleton_self _) ["s"] ["b.wgsl"] _ stat_searchFolder
      hasBelow_linkDisk_link (by decide) resolve?_linkDisk_loop
  · exact hengine _ .empty _ _ readable_searchPath searchPath_not_startsAtHome resolve?_linkDisk_loop

/-- A link to itself ends the search for the shader beside it, and there is no plan for the two, although they
do not clash. -/
theorem self_link_stops_neighbours :
    (∀ found, ((linkDisk "b.wgsl").findShaders [searchFolder .relative]).1 ≠ .ok found) ∧
    make (linkDisk "b.wgsl") outFolder [] [searchPath .relative "a.wgsl", searchPath .relative "b.wgsl"] =
      .error (.unresolved (.endlessLinks (Place.text ["s", "b.wgsl"]))) := by
  refine ⟨fun found hfound => ?_, ?_⟩
  · have hsearchable := (Disk.exists_findShaders_iff linkDisk_standing.closed).mp ⟨found, hfound⟩ _
      (List.mem_singleton_self _)
    obtain ⟨place, -, hplace, -⟩ := hsearchable.resolved ["s"] ["b.wgsl"] stat_searchFolder hasBelow_linkDisk_link
      (by decide)
    have hloop := @resolve?_linkDisk_loop .relative
    cases hplace.symm.trans hloop
  · have hfile : (linkDisk "b.wgsl").resolve? (searchPath .relative "a.wgsl") = .ok ["s", "a.wgsl"] :=
      resolve?_linkDisk_file
    simp [make, extend, hfile, resolve?_linkDisk_loop, claimed?, pure, Except.pure]

end ShaderFlatten
