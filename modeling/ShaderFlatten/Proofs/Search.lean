import Mathlib.Data.List.Induction
import Mathlib.Data.List.Lex
import Mathlib.Data.List.ReduceOption
import Mathlib.Data.String.Basic
import ShaderFlatten.Proofs.Places
import ShaderFlatten.Tree.Search

/-!
# What a search lists

The matches below a folder are the entries with the name of a shader that it holds, reached through folders
alone, in the order of their paths.  Each match is listed as the place of the file that it leads to, where
that place occurs first:

    findShaders folders = (the files of the matches of each folder, one after the other).eraseDups

so that a place is listed once, and further folders only add what the folders before them do not have.  A
search below folders of which the system can tell what they are always comes to its end.
-/

namespace ShaderFlatten

/-! ## Lists without what occurs before -/

section
variable {α : Type} [BEq α] [LawfulBEq α] {l r : List α}

theorem eraseDups_snoc (l : List α) (a : α) :
    (l ++ [a]).eraseDups = if a ∈ l then l.eraseDups else l.eraseDups ++ [a] := by
  rw [List.eraseDups_append]
  by_cases h : a ∈ l <;> simp [List.removeAll, h, List.eraseDups_cons]

theorem nodup_eraseDups (l : List α) : l.eraseDups.Nodup := by
  induction l using List.reverseRecOn with
  | nil => simp
  | append_singleton l a ih =>
    rw [eraseDups_snoc]
    split
    · exact ih
    · next h =>
      refine List.nodup_append.mpr ⟨ih, by simp, fun b hb c hc => ?_⟩
      rw [List.mem_singleton.mp hc]
      rintro rfl
      exact h (List.mem_eraseDups.mp hb)

theorem eraseDups_of_nodup (h : l.Nodup) : l.eraseDups = l := by
  induction l using List.reverseRecOn with
  | nil => rfl
  | append_singleton l a ih =>
    obtain ⟨hl, -, hne⟩ := List.nodup_append.mp h
    have ha : a ∉ l := fun hmem => hne a hmem a (by simp) rfl
    rw [eraseDups_snoc, if_neg ha, ih hl]

/-- What occurs before may be left out early. -/
theorem eraseDups_append_left (l r : List α) : (l.eraseDups ++ r).eraseDups = (l ++ r).eraseDups := by
  have hremove : r.removeAll l.eraseDups = r.removeAll l := by
    refine List.filter_congr fun a _ => ?_
    simp
  rw [List.eraseDups_append, List.eraseDups_append, eraseDups_of_nodup (nodup_eraseDups l), hremove]

theorem eraseDups_filter (p : α → Bool) (l : List α) : (l.filter p).eraseDups = l.eraseDups.filter p := by
  induction l using List.reverseRecOn with
  | nil => rfl
  | append_singleton l a ih =>
    rw [List.filter_append, eraseDups_snoc]
    by_cases hp : p a = true
    · have hsingle : [a].filter p = [a] := by simp [hp]
      have hmem : a ∈ l.filter p ↔ a ∈ l := by simp [hp]
      rw [hsingle, eraseDups_snoc, if_congr hmem rfl rfl, ih]
      split <;> simp [hp]
    · have hsingle : [a].filter p = [] := by simp [hp]
      rw [hsingle, List.append_nil, ih]
      split <;> simp [hp]

end

/-! ## What a folder holds -/

namespace Place

variable {a b : String} {p q : Place}

theorem cons_le_cons_iff : a :: p ≤ b :: q ↔ a < b ∨ a = b ∧ p ≤ q := by
  rw [le_iff_lt_or_eq, le_iff_lt_or_eq, List.cons_lt_cons_iff, List.cons.injEq]
  tauto

/-- The order of places is the lexical one. -/
theorem le_iff : Place.le p q = true ↔ p ≤ q := by
  induction p generalizing q with
  | nil =>
    simp only [Place.le, true_iff]
    cases q with
    | nil => exact le_rfl
    | cons b q => exact le_of_lt .nil
  | cons a p ih =>
    cases q with
    | nil => simp [Place.le]
    | cons b q =>
      rw [cons_le_cons_iff, Place.le]
      split
      · next heq => simp [ih, heq]
      · next hne => simp [hne]

theorem append_le_append_iff (l : List String) : l ++ p ≤ l ++ q ↔ p ≤ q := by
  induction l with
  | nil => rfl
  | cons a l ih =>
    rw [List.cons_append, List.cons_append, cons_le_cons_iff]
    simpa using ih

end Place

namespace FileTree

variable {tree : FileTree} {base place : Place} {names : List String}

/-- Names lead from a folder down to an entry, through folders only. -/
inductive HasBelow (tree : FileTree) : Place → List String → Prop
  | entry {p name} : tree.entry? p = some .folder → tree.entry? (p ++ [name]) ≠ none → HasBelow tree p [name]
  | within {p name names} : tree.entry? p = some .folder → HasBelow tree (p ++ [name]) names →
      HasBelow tree p (name :: names)

theorem HasBelow.folder (h : tree.HasBelow base names) : tree.entry? base = some .folder := by
  cases h <;> assumption

/-- In a closed tree folders lead to everything. -/
theorem Closed.hasBelow_iff (h : tree.Closed) :
    tree.HasBelow base names ↔ names ≠ [] ∧ tree.entry? (base ++ names) ≠ none := by
  constructor
  · intro hbelow
    induction hbelow with
    | entry _ hentry => exact ⟨by simp, hentry⟩
    | within _ _ ih => exact ⟨by simp, by simpa using ih.2⟩
  · rintro ⟨hne, hentry⟩
    induction names generalizing base with
    | nil => exact absurd rfl hne
    | cons name names ih =>
      cases names with
      | nil => exact .entry (h base name hentry) hentry
      | cons next names =>
        have hrest : tree.HasBelow (base ++ [name]) (next :: names) := ih (by simp) (by simpa using hentry)
        exact .within (h base name (by simp [hrest.folder])) hrest

theorem below?_eq_some : below? base place = some names ↔ names ≠ [] ∧ place = base ++ names := by
  unfold below?
  constructor
  · intro h
    split at h
    · next hbelow =>
      simp only [Bool.and_eq_true, List.isPrefixOf_iff_prefix, decide_eq_true_eq] at hbelow
      obtain ⟨⟨rest, rfl⟩, hlength⟩ := hbelow
      cases h
      rw [List.drop_left]
      exact ⟨by rintro rfl; simp at hlength, rfl⟩
    · cases h
  · rintro ⟨hne, rfl⟩
    simp [List.length_pos_iff.mpr hne]

theorem mem_entries_iff (hne : place ≠ []) : place ∈ tree.entries.map (·.1) ↔ tree.entry? place ≠ none := by
  constructor
  · intro hmem
    obtain ⟨found, hfound, rfl⟩ := List.mem_map.mp hmem
    simp only [ne_eq, entry?, if_neg hne, Option.map_eq_none_iff, List.find?_eq_none, not_forall]
    exact ⟨found, hfound, by simp⟩
  · intro hentry
    have hplace := mem_of_entry? hentry
    exact hplace.resolve_left hne

theorem mem_shadersBelow (h : tree.Closed) :
    names ∈ tree.shadersBelow base ↔ tree.HasBelow base names ∧ isShaderName (names.getLast?.getD "") := by
  rw [shadersBelow, List.mem_mergeSort, List.mem_filter, List.mem_filterMap, h.hasBelow_iff]
  refine and_congr_left fun _ => ⟨?_, ?_⟩
  · rintro ⟨⟨place, entry⟩, hmem, hplace⟩
    obtain ⟨hne, rfl⟩ := below?_eq_some.mp hplace
    refine ⟨hne, (mem_entries_iff (by simp [hne])).mp ?_⟩
    exact List.mem_map.mpr ⟨_, hmem, rfl⟩
  · rintro ⟨hne, hentry⟩
    obtain ⟨found, hfound, hplace⟩ := List.mem_map.mp ((mem_entries_iff (by simp [hne])).mpr hentry)
    exact ⟨found, hfound, below?_eq_some.mpr ⟨hne, hplace⟩⟩

theorem pairwise_shadersBelow : (tree.shadersBelow base).Pairwise (· ≤ ·) := by
  unfold shadersBelow
  refine (List.pairwise_mergeSort (fun p q r hpq hqr => ?_) (fun p q => ?_) _).imp Place.le_iff.mp
  · exact Place.le_iff.mpr (le_trans (Place.le_iff.mp hpq) (Place.le_iff.mp hqr))
  · simpa [Place.le_iff] using le_total p q

end FileTree

/-! ## The matches below a folder -/

namespace Disk

variable {disk : Disk} {folder path : Path} {fault : Fault}

/-- The matches below a path, in order: the shaders that it holds, if it leads to a folder. -/
structure Matches (disk : Disk) (folder : Path) (paths : List Path) : Prop where
  mem : ∀ path, path ∈ paths ↔ ∃ base names, disk.stat folder = .ok (base, .folder) ∧
    disk.tree.HasBelow base names ∧ isShaderName (names.getLast?.getD "") ∧
    path = folder.join ⟨.relative, names⟩
  sorted : paths.Pairwise fun path path' => path.parts ≤ path'.parts

theorem matchesBelow?_eq_none : disk.matchesBelow? folder = .ok none ↔ disk.isFolder folder = .ok false := by
  unfold matchesBelow?
  constructor
  · intro h
    obtain ⟨found, hfound, hrest⟩ := bind_eq_ok.mp h
    cases found with
    | false => exact hfound
    | true =>
      obtain ⟨⟨base, entry⟩, -, hpaths⟩ := bind_eq_ok.mp hrest
      cases hpaths
  · intro h
    rw [h]
    rfl

theorem matchesBelow?_eq_some {paths : List Path} :
    disk.matchesBelow? folder = .ok (some paths) ↔ ∃ base, disk.stat folder = .ok (base, .folder) ∧
      paths = (disk.tree.shadersBelow base).map fun names => folder.join ⟨.relative, names⟩ := by
  unfold matchesBelow?
  constructor
  · intro h
    obtain ⟨found, hfound, hrest⟩ := bind_eq_ok.mp h
    cases found with
    | false => cases hrest
    | true =>
      obtain ⟨⟨base, entry⟩, hstat, hpaths⟩ := bind_eq_ok.mp hrest
      obtain ⟨base', hbase'⟩ := isFolder_eq_true.mp hfound
      cases hstat.symm.trans hbase'
      cases hpaths
      exact ⟨base, hstat, rfl⟩
  · rintro ⟨base, hstat, rfl⟩
    rw [isFolder_eq_true.mpr ⟨base, hstat⟩]
    simp only [bind, Except.bind, hstat]
    rfl

/-- The matches below a path are found, or the system cannot tell whether the path is a folder. -/
theorem matchesBelow?_eq_error :
    disk.matchesBelow? folder = .error fault ↔ disk.isFolder folder = .error fault := by
  cases hfolder : disk.isFolder folder with
  | error e => simp [matchesBelow?, hfolder, bind, Except.bind]
  | ok found =>
    cases found with
    | false => simp [matchesBelow?_eq_none.mpr hfolder]
    | true =>
      obtain ⟨base, hstat⟩ := isFolder_eq_true.mp hfolder
      simp [matchesBelow?_eq_some.mpr ⟨base, hstat, rfl⟩]

/-- **What is found below a path are its matches.** -/
theorem matches_of_matchesBelow? (hclosed : disk.tree.Closed) {found : Option (List Path)}
    (h : disk.matchesBelow? folder = .ok found) : disk.Matches folder (found.getD []) := by
  cases found with
  | none =>
    have hfalse := matchesBelow?_eq_none.mp h
    refine ⟨fun path => ⟨fun hmem => absurd hmem (by simp), ?_⟩, .nil⟩
    rintro ⟨base, -, hstat, -⟩
    rw [isFolder_eq_true.mpr ⟨base, hstat⟩] at hfalse
    cases hfalse
  | some paths =>
    obtain ⟨base, hstat, rfl⟩ := matchesBelow?_eq_some.mp h
    refine ⟨fun path => ?_, ?_⟩
    · simp only [Option.getD_some, List.mem_map, FileTree.mem_shadersBelow hclosed]
      constructor
      · rintro ⟨names, ⟨hbelow, hname⟩, rfl⟩
        exact ⟨base, names, hstat, hbelow, hname, rfl⟩
      · rintro ⟨base', names, hstat', hbelow, hname, rfl⟩
        cases hstat.symm.trans hstat'
        exact ⟨names, ⟨hbelow, hname⟩, rfl⟩
    · rw [Option.getD_some, List.pairwise_map]
      exact FileTree.pairwise_shadersBelow.imp (Place.append_le_append_iff folder.parts).mpr

/-! ## What is listed -/

/-- The place of the file that a match leads to, if it leads to a file. -/
def listed? (disk : Disk) (path : Path) : Except Fault (Option Place) := do
  let place ← disk.resolve? path
  if ← disk.isFile place.path then return some place else return none

/-- The places of the files that the matches below a path lead to, as often as they do. -/
def listedBelow? (disk : Disk) (folder : Path) : Except Fault (List Place) := do
  return (← ((← disk.matchesBelow? folder).getD []).mapM disk.listed?).reduceOption

/-- The place of the file that a path leads to. -/
def file? (disk : Disk) (path : Path) : Option Place :=
  match disk.listed? path with
  | .ok listed => listed
  | .error _ => none

/-- A listing has every place once, and only files. -/
structure Listing (disk : Disk) (found : List Place) : Prop where
  once : found.Nodup
  files : ∀ place ∈ found, disk.isFile place.path = .ok true

theorem listed?_eq_ok {listed : Option Place} :
    disk.listed? path = .ok listed ↔ ∃ place found, disk.resolve? path = .ok place ∧
      disk.isFile place.path = .ok found ∧ listed = if found then some place else none := by
  unfold listed?
  simp only [bind_eq_ok]
  constructor
  · rintro ⟨place, hplace, found, hfound, h⟩
    refine ⟨place, found, hplace, hfound, ?_⟩
    cases found <;> exact (pure_eq_ok.mp h).symm
  · rintro ⟨place, found, hplace, hfound, rfl⟩
    refine ⟨place, hplace, found, hfound, ?_⟩
    cases found <;> rfl

theorem file?_eq_some {place : Place} :
    disk.file? path = some place ↔ disk.resolve? path = .ok place ∧ disk.isFile place.path = .ok true := by
  unfold file?
  constructor
  · intro h
    split at h
    · next listed hlisted =>
      subst h
      obtain ⟨place', found, hplace, hfound, hsome⟩ := listed?_eq_ok.mp hlisted
      cases found with
      | false => cases hsome
      | true =>
        cases hsome
        exact ⟨hplace, hfound⟩
    · cases h
  · rintro ⟨hplace, hfound⟩
    rw [listed?_eq_ok.mpr ⟨place, true, hplace, hfound, rfl⟩]
    rfl

theorem Listing.nil : disk.Listing [] := ⟨.nil, by simp⟩

theorem isFile_of_listed? {listed : Option Place} (h : disk.listed? path = .ok listed) :
    ∀ place ∈ listed, disk.isFile place.path = .ok true := by
  intro place hplace
  have hfile : disk.file? path = some place := by rwa [file?, h]
  exact (file?_eq_some.mp hfile).2

variable {found : List Place}

theorem Listing.append (h : disk.Listing found) {more : List Place}
    (hmore : ∀ place ∈ more, disk.isFile place.path = .ok true) : disk.Listing (found ++ more).eraseDups := by
  refine ⟨nodup_eraseDups _, fun place hplace => ?_⟩
  rcases List.mem_append.mp (List.mem_eraseDups.mp hplace) with hold | hnew
  · exact h.files place hold
  · exact hmore place hnew

/-- **One match** is added to a listing if it leads to a file that is not listed. -/
theorem addShader_eq (h : disk.Listing found) (path : Path) :
    disk.addShader found path =
      (disk.listed? path).map fun listed => (found ++ listed.toList).eraseDups := by
  unfold addShader listed?
  cases disk.resolve? path with
  | error fault => rfl
  | ok place =>
    by_cases hmem : place ∈ found
    · simp only [bind, Except.bind, hmem, if_true, h.files place hmem, Except.map, pure, Except.pure,
        Option.toList_some, eraseDups_snoc, eraseDups_of_nodup h.once]
    · simp only [bind, Except.bind, hmem, if_false]
      cases disk.isFile place.path with
      | error fault => rfl
      | ok isFile =>
        cases isFile <;>
          simp [pure, Except.pure, Except.map, eraseDups_snoc, hmem, eraseDups_of_nodup h.once]

/-- **The matches of a folder** are added one after the other. -/
theorem foldlM_addShader (h : disk.Listing found) (paths : List Path) :
    paths.foldlM disk.addShader found =
      (paths.mapM disk.listed?).map fun listed => (found ++ listed.reduceOption).eraseDups := by
  induction paths generalizing found with
  | nil => simp [pure, Except.pure, Except.map, eraseDups_of_nodup h.once]
  | cons path paths ih =>
    rw [List.foldlM_cons, List.mapM_cons, addShader_eq h]
    cases hlisted : disk.listed? path with
    | error fault => rfl
    | ok listed =>
      have hrest := ih (h.append fun place hplace =>
        isFile_of_listed? hlisted place (Option.mem_toList.mp hplace))
      simp only [bind, Except.bind, Except.map] at hrest ⊢
      rw [hrest]
      cases paths.mapM disk.listed? with
      | error fault => rfl
      | ok rest =>
        simp only [pure, Except.pure, eraseDups_append_left, List.append_assoc, Except.ok.injEq]
        cases listed <;> rfl

theorem isFile_of_mapM {paths : List Path} {listed : List (Option Place)}
    (h : paths.mapM disk.listed? = .ok listed) :
    ∀ place ∈ listed.reduceOption, disk.isFile place.path = .ok true := by
  intro place hplace
  obtain ⟨path, -, hpath⟩ := exists_of_forall₂ (mapM_eq_ok.mp h).flip _ (List.reduceOption_mem_iff.mp hplace)
  exact isFile_of_listed? hpath place rfl

theorem reduceOption_of_mapM {paths : List Path} {listed : List (Option Place)}
    (h : paths.mapM disk.listed? = .ok listed) : listed.reduceOption = paths.filterMap disk.file? := by
  have hlisted := mapM_eq_ok.mp h
  clear h
  induction hlisted with
  | nil => rfl
  | @cons path listed paths rest hpath _ ih =>
    have hfile : disk.file? path = listed := by rw [file?, hpath]
    cases listed <;> simp [hfile, ih]

theorem listedBelow?_eq {paths : Option (List Path)} (h : disk.matchesBelow? folder = .ok paths) :
    disk.listedBelow? folder = ((paths.getD []).mapM disk.listed?).map List.reduceOption := by
  rw [listedBelow?, h]
  rfl

/-- **A search** lists what is below the folders, each place where it occurs first. -/
theorem findShadersFrom_eq (h : disk.Listing found) (log : List LogRecord) (folders : List Path) :
    (disk.findShadersFrom found log folders).1 =
      (folders.mapM disk.listedBelow?).map fun lists => (found ++ lists.flatten).eraseDups := by
  -- what is kept from folder to folder: the places so far are files, each once
  induction folders generalizing found log with
  | nil => simp [findShadersFrom, pure, Except.pure, Except.map, eraseDups_of_nodup h.once]
  | cons folder folders ih =>
    rw [findShadersFrom, List.mapM_cons]
    cases hmatches : disk.matchesBelow? folder with
    | error fault =>
      have hbelow : disk.listedBelow? folder = .error fault := by
        rw [listedBelow?, hmatches]
        rfl
      rw [hbelow]
      rfl
    | ok paths =>
      rw [listedBelow?_eq hmatches]
      cases paths with
      | none =>
        simp only [ih h]
        cases folders.mapM disk.listedBelow? <;> rfl
      | some paths =>
        simp only [foldlM_addShader h, Option.getD_some]
        cases hlisted : paths.mapM disk.listed? with
        | error fault => rfl
        | ok listed =>
          have hrest := @ih (found ++ listed.reduceOption).eraseDups (h.append (isFile_of_mapM hlisted)) log
          simp only [Except.map, bind, Except.bind, pure, Except.pure] at hrest ⊢
          rw [hrest]
          cases folders.mapM disk.listedBelow? with
          | error fault => rfl
          | ok lists => simp [eraseDups_append_left]

theorem findShaders_eq (folders : List Path) :
    (disk.findShaders folders).1 = (folders.mapM disk.listedBelow?).map fun lists => lists.flatten.eraseDups :=
  findShadersFrom_eq .nil [] folders

/-- A search tells of every path that is no folder. -/
theorem findShadersFrom_log {found' : List Place} {log log' : List LogRecord} {folders : List Path}
    (h : disk.findShadersFrom found log folders = (.ok found', log')) :
    log' = log ++ (folders.filter fun folder => disk.isFolder folder = .ok false).map skipRecord := by
  induction folders generalizing found log with
  | nil =>
    cases h
    simp
  | cons folder folders ih =>
    rw [findShadersFrom] at h
    cases hmatches : disk.matchesBelow? folder with
    | error fault =>
      rw [hmatches] at h
      cases h
    | ok paths =>
      rw [hmatches] at h
      cases paths with
      | none =>
        rw [ih h, List.filter_cons_of_pos (by simpa using matchesBelow?_eq_none.mp hmatches)]
        simp
      | some paths =>
        obtain ⟨base, hstat, -⟩ := matchesBelow?_eq_some.mp hmatches
        have hfolder : ¬ disk.isFolder folder = .ok false := by simp [isFolder_eq_true.mpr ⟨base, hstat⟩]
        rw [List.filter_cons_of_neg (by simpa using hfolder)]
        dsimp only at h
        split at h
        · exact ih h
        · cases h

/-- **Further folders add what the folders before them do not have.** -/
theorem findShaders_append {first second : List Path} {found₁ found₂ : List Place}
    (hfirst : (disk.findShaders first).1 = .ok found₁) (hsecond : (disk.findShaders second).1 = .ok found₂) :
    (disk.findShaders (first ++ second)).1 = .ok (found₁ ++ found₂.filter (· ∉ found₁)) := by
  rw [findShaders_eq] at hfirst hsecond ⊢
  rw [List.mapM_append]
  cases hlists : first.mapM disk.listedBelow? with
  | error fault =>
    rw [hlists] at hfirst
    cases hfirst
  | ok lists =>
    cases hlists' : second.mapM disk.listedBelow? with
    | error fault =>
      rw [hlists'] at hsecond
      cases hsecond
    | ok lists' =>
      rw [hlists] at hfirst
      rw [hlists'] at hsecond
      cases hfirst
      cases hsecond
      have hremove : lists'.flatten.removeAll lists.flatten =
          lists'.flatten.filter (· ∉ lists.flatten.eraseDups) := by
        refine List.filter_congr fun place _ => ?_
        simp only [List.elem_eq_mem, List.mem_eraseDups, decide_not]
      simp only [bind, Except.bind, pure, Except.pure, Except.map, List.flatten_append, List.eraseDups_append,
        hremove, eraseDups_filter]

/-! ## Searches that come to their end -/

/-- The system can tell what a search below a path comes to: whether the path is a folder, and what the
matches below it are. -/
structure Searchable (disk : Disk) (folder : Path) : Prop where
  decided : ∃ found, disk.isFolder folder = .ok found
  resolved : ∀ base names, disk.stat folder = .ok (base, .folder) → disk.tree.HasBelow base names →
    isShaderName (names.getLast?.getD "") → ∃ place found,
      disk.resolve? (folder.join ⟨.relative, names⟩) = .ok place ∧ disk.isFile place.path = .ok found

theorem exists_matchesBelow?_iff :
    (∃ found, disk.matchesBelow? folder = .ok found) ↔ ∃ found, disk.isFolder folder = .ok found := by
  constructor
  · rintro ⟨paths, hpaths⟩
    cases hfolder : disk.isFolder folder with
    | ok found => exact ⟨found, rfl⟩
    | error fault => cases hpaths.symm.trans (matchesBelow?_eq_error.mpr hfolder)
  · rintro ⟨found, hfound⟩
    cases hpaths : disk.matchesBelow? folder with
    | ok paths => exact ⟨paths, rfl⟩
    | error fault => cases hfound.symm.trans (matchesBelow?_eq_error.mp hpaths)

/-- **What is below a path can be listed exactly if the system can tell what it is.** -/
theorem exists_listedBelow?_iff (hclosed : disk.tree.Closed) :
    (∃ places, disk.listedBelow? folder = .ok places) ↔ disk.Searchable folder := by
  have hlisted : (∃ places, disk.listedBelow? folder = .ok places) ↔ ∃ found,
      disk.matchesBelow? folder = .ok found ∧
        ∀ path ∈ found.getD [], ∃ listed, disk.listed? path = .ok listed := by
    simp only [listedBelow?, bind_eq_ok, ← exists_mapM_ok_iff]
    constructor
    · rintro ⟨places, found, hfound, listed, hlisted, -⟩
      exact ⟨found, hfound, listed, hlisted⟩
    · rintro ⟨found, hfound, listed, hlisted⟩
      exact ⟨_, found, hfound, listed, hlisted, rfl⟩
  rw [hlisted]
  constructor
  · rintro ⟨found, hfound, hpaths⟩
    refine ⟨exists_matchesBelow?_iff.mp ⟨found, hfound⟩, fun base names hstat hbelow hname => ?_⟩
    obtain ⟨listed, hlisted⟩ := hpaths _ <|
      ((matches_of_matchesBelow? hclosed hfound).mem _).mpr ⟨base, names, hstat, hbelow, hname, rfl⟩
    obtain ⟨place, isFile, hplace, hisFile, -⟩ := listed?_eq_ok.mp hlisted
    exact ⟨place, isFile, hplace, hisFile⟩
  · intro h
    obtain ⟨found, hfound⟩ := exists_matchesBelow?_iff.mpr h.decided
    refine ⟨found, hfound, fun path hpath => ?_⟩
    obtain ⟨base, names, hstat, hbelow, hname, rfl⟩ :=
      ((matches_of_matchesBelow? hclosed hfound).mem path).mp hpath
    obtain ⟨place, isFile, hplace, hisFile⟩ := h.resolved base names hstat hbelow hname
    exact ⟨_, listed?_eq_ok.mpr ⟨place, isFile, hplace, hisFile, rfl⟩⟩

/-- What is listed below a path are the files of its matches. -/
theorem files_of_listedBelow? (hclosed : disk.tree.Closed) {places : List Place}
    (h : disk.listedBelow? folder = .ok places) :
    ∃ paths, disk.Matches folder paths ∧ places = paths.filterMap disk.file? := by
  obtain ⟨found, hfound, hrest⟩ := bind_eq_ok.mp h
  obtain ⟨listed, hlisted, hplaces⟩ := bind_eq_ok.mp hrest
  refine ⟨found.getD [], matches_of_matchesBelow? hclosed hfound, ?_⟩
  rw [← pure_eq_ok.mp hplaces]
  exact reduceOption_of_mapM hlisted

/-- **A search below folders comes to its end exactly if the system can tell what each comes to.** -/
theorem exists_findShaders_iff (hclosed : disk.tree.Closed) {folders : List Path} :
    (∃ found, (disk.findShaders folders).1 = .ok found) ↔ ∀ folder ∈ folders, disk.Searchable folder := by
  have hlists : (∃ found, (disk.findShaders folders).1 = .ok found) ↔
      ∃ lists, folders.mapM disk.listedBelow? = .ok lists := by
    rw [findShaders_eq]
    cases folders.mapM disk.listedBelow? <;> simp [Except.map]
  simp only [hlists, exists_mapM_ok_iff, exists_listedBelow?_iff hclosed]

/-- What a search lists are the files of the matches, each where it occurs first. -/
theorem files_of_findShaders (hclosed : disk.tree.Closed) {folders : List Path}
    (h : (disk.findShaders folders).1 = .ok found) : ∃ paths, List.Forall₂ disk.Matches folders paths ∧
      found = (paths.flatten.filterMap disk.file?).eraseDups := by
  rw [findShaders_eq] at h
  cases hlists : folders.mapM disk.listedBelow? with
  | error fault =>
    rw [hlists] at h
    cases h
  | ok lists =>
    rw [hlists] at h
    cases h
    dsimp only
    have hfiles : ∃ paths, List.Forall₂ disk.Matches folders paths ∧
        lists.flatten = paths.flatten.filterMap disk.file? := by
      have hbelow := mapM_eq_ok.mp hlists
      clear hlists
      induction hbelow with
      | nil => exact ⟨[], .nil, rfl⟩
      | cons hfolder _ ih =>
        obtain ⟨first, hfirst, hplaces⟩ := files_of_listedBelow? hclosed hfolder
        obtain ⟨rest, hrest, hflatten⟩ := ih
        exact ⟨first :: rest, .cons hfirst hrest, by simp [hplaces, hflatten]⟩
    obtain ⟨paths, hpaths, hflatten⟩ := hfiles
    exact ⟨paths, hpaths, by rw [hflatten]⟩

theorem mem_files_iff {folders : List Path} {paths : List (List Path)}
    (h : List.Forall₂ disk.Matches folders paths) {place : Place} :
    place ∈ paths.flatten.filterMap disk.file? ↔ ∃ folder ∈ folders, ∃ base names,
      disk.stat folder = .ok (base, .folder) ∧ disk.tree.HasBelow base names ∧
      isShaderName (names.getLast?.getD "") ∧ disk.resolve? (folder.join ⟨.relative, names⟩) = .ok place ∧
      disk.isFile place.path = .ok true := by
  rw [List.mem_filterMap]
  constructor
  · rintro ⟨path, hpath, hfile⟩
    obtain ⟨below, hmem, hpath⟩ := List.mem_flatten.mp hpath
    obtain ⟨folder, hfolder, hmatches⟩ := exists_of_forall₂ h.flip below hmem
    obtain ⟨base, names, hstat, hbelow, hname, rfl⟩ := (hmatches.mem path).mp hpath
    exact ⟨folder, hfolder, base, names, hstat, hbelow, hname, file?_eq_some.mp hfile⟩
  · rintro ⟨folder, hfolder, base, names, hstat, hbelow, hname, hfile⟩
    obtain ⟨below, hmem, hmatches⟩ := exists_of_forall₂ h folder hfolder
    refine ⟨_, List.mem_flatten.mpr ⟨below, hmem, ?_⟩, file?_eq_some.mpr hfile⟩
    exact (hmatches.mem _).mpr ⟨base, names, hstat, hbelow, hname, rfl⟩

/-- **Each shader is listed once.**  Take any tree and any list of paths.  The search below them comes to its
end exactly if the system can tell of each path what is below it.  It then tells of every path that is no
folder.  Its list has no place twice; it has the places of the files that the matches below the folders lead
to, and nothing else; the matches of each folder are taken in the order of their paths, and a place stands
where it occurs first.  What is below the last of the paths is listed behind the rest, as far as it is not
there. -/
theorem shaders_listed_once {folders : List Path} (hclosed : disk.tree.Closed) :
    ((∃ found, (disk.findShaders folders).1 = .ok found) ↔ ∀ folder ∈ folders, disk.Searchable folder) ∧
    ∀ found, (disk.findShaders folders).1 = .ok found →
      (disk.findShaders folders).2 =
        (folders.filter fun folder => disk.isFolder folder = .ok false).map skipRecord ∧
      found.Nodup ∧
      (∀ place, place ∈ found ↔ ∃ folder ∈ folders, ∃ base names, disk.stat folder = .ok (base, .folder) ∧
        disk.tree.HasBelow base names ∧ isShaderName (names.getLast?.getD "") ∧
        disk.resolve? (folder.join ⟨.relative, names⟩) = .ok place ∧ disk.isFile place.path = .ok true) ∧
      (∃ paths, List.Forall₂ disk.Matches folders paths ∧
        found = (paths.flatten.filterMap disk.file?).eraseDups) ∧
      ∀ first second, folders = first ++ second → ∃ found₁ found₂, (disk.findShaders first).1 = .ok found₁ ∧
        (disk.findShaders second).1 = .ok found₂ ∧ found = found₁ ++ found₂.filter (· ∉ found₁) := by
  refine ⟨exists_findShaders_iff hclosed, fun found hfound => ?_⟩
  obtain ⟨paths, hmatches, heq⟩ := files_of_findShaders hclosed hfound
  refine ⟨?_, ?_, fun place => ?_, ⟨paths, hmatches, heq⟩, ?_⟩
  · have hlog : disk.findShadersFrom [] [] folders = (.ok found, (disk.findShaders folders).2) :=
      Prod.ext hfound rfl
    simpa using findShadersFrom_log hlog
  · rw [heq]
    exact nodup_eraseDups _
  · rw [heq, List.mem_eraseDups, mem_files_iff hmatches]
  · rintro first second rfl
    have hsearchable := (exists_findShaders_iff hclosed).mp ⟨found, hfound⟩
    obtain ⟨hfirst, hsecond⟩ := List.forall_mem_append.mp hsearchable
    obtain ⟨found₁, hfound₁⟩ := (exists_findShaders_iff hclosed).mpr hfirst
    obtain ⟨found₂, hfound₂⟩ := (exists_findShaders_iff hclosed).mpr hsecond
    refine ⟨found₁, found₂, hfound₁, hfound₂, ?_⟩
    exact Except.ok.inj (hfound.symm.trans (findShaders_append hfound₁ hfound₂))

end Disk

/-! A folder with a shader and a link that has the name of one. -/

/-- A folder with a file and a link beside it. -/
def linkDisk (target : String) : Disk :=
  ⟨⟨[(["s"], .folder), (["s", "a.wgsl"], .file (Utf8.ascii ['x'])), (["s", "b.wgsl"], .link target)]⟩, [], []⟩

/-- The folder, from the working directory or from the root. -/
def searchFolder (anchor : Anchor) : Path := ⟨anchor, ["s"]⟩

theorem isStep_search {name : String} (h : name = "s" ∨ name = "a.wgsl" ∨ name = "b.wgsl") : IsStep name := by
  rcases h with rfl | rfl | rfl <;> exact ⟨by decide, by decide, by decide⟩

section
variable {target : String} {names : List String} {anchor : Anchor}

theorem entry?_linkDisk :
    (linkDisk target).tree.entry? ["s"] = some .folder ∧
    (linkDisk target).tree.entry? ["s", "a.wgsl"] = some (.file (Utf8.ascii ['x'])) ∧
    (linkDisk target).tree.entry? ["s", "b.wgsl"] = some (.link target) := by
  simp [linkDisk, FileTree.entry?]

theorem mem_linkDisk (hentry : (linkDisk target).tree.entry? names ≠ none) :
    names = [] ∨ names = ["s"] ∨ names = ["s", "a.wgsl"] ∨ names = ["s", "b.wgsl"] := by
  rcases FileTree.mem_of_entry? hentry with hnil | hmem
  · exact .inl hnil
  · exact .inr (by simpa [linkDisk] using hmem)

theorem linkDisk_standing : (linkDisk target).Standing where
  closed := FileTree.closed_of_forall (by simp [linkDisk, FileTree.entry?])
  cwd := rfl
  plain := by simp [linkDisk]

theorem hasBelow_linkDisk (h : (linkDisk target).tree.HasBelow ["s"] names) :
    names = ["a.wgsl"] ∨ names = ["b.wgsl"] := by
  obtain ⟨hne, hentry⟩ := linkDisk_standing.closed.hasBelow_iff.mp h
  simpa [hne] using mem_linkDisk hentry

theorem takes_searchFolder (anchor : Anchor) :
    Disk.Takes (searchFolder anchor) ∧ Disk.Takes ⟨anchor, ["s", "a.wgsl"]⟩ ∧
      Disk.Takes ⟨anchor, ["s", "b.wgsl"]⟩ := by
  cases anchor <;> exact ⟨⟨by decide, by decide⟩, ⟨by decide, by decide⟩, ⟨by decide, by decide⟩⟩

theorem base_linkDisk (path : Path) : (linkDisk target).base path = [] := by
  unfold Disk.base
  split <;> rfl

theorem stat_searchFolder : (linkDisk target).stat (searchFolder anchor) = .ok (["s"], .folder) := by
  obtain ⟨hfolder, -⟩ := @entry?_linkDisk target
  refine Disk.stat_of_descends (base_linkDisk _) (takes_searchFolder anchor).1 ?_ hfolder
  exact ⟨rfl, isStep_search (.inl rfl), by simp [FileTree.Descends, hfolder]⟩

theorem resolve?_linkDisk_file :
    (linkDisk target).resolve? ⟨anchor, ["s", "a.wgsl"]⟩ = .ok ["s", "a.wgsl"] := by
  obtain ⟨-, hfile, -⟩ := @entry?_linkDisk target
  have hparts : ∀ name ∈ ["s", "a.wgsl"], IsStep name := by
    simp [isStep_search]
  have hresolve := Disk.resolve?_straight linkDisk_standing (takes_searchFolder anchor).2.1 hparts
    (by rw [base_linkDisk]; exact hfile) (by simp)
  rwa [base_linkDisk] at hresolve

theorem entryAt_linkDisk (anchored : Bool) :
    (linkDisk target).entryAt (Trail.child ⟨anchored, 0, []⟩ "s") = .ok .folder ∧
    (linkDisk target).entryAt (Trail.child ⟨anchored, 0, ["s"]⟩ "a.wgsl") = .ok (.file (Utf8.ascii ['x'])) ∧
    (linkDisk target).entryAt (Trail.child ⟨anchored, 0, ["s"]⟩ "b.wgsl") = .ok (.link target) := by
  obtain ⟨hfolder, hfile, hlink⟩ := @entry?_linkDisk target
  have hstart : (linkDisk target).Stands ⟨anchored, 0, []⟩ := by
    cases anchored with
    | false => exact linkDisk_standing.stands_here
    | true => exact Disk.stands_root _
  have hplace : ∀ names, (linkDisk target).place ⟨anchored, 0, names⟩ = names := by
    intro names
    cases anchored <;> rfl
  have hstep := @isStep_search "s" (.inl rfl)
  have hseen := hstart.entryAt_child linkDisk_standing hstep (by rw [hplace]; rfl) (by rw [hplace]; exact hfolder)
    (by cases anchored <;> decide)
  have hstands := hstart.child linkDisk_standing ⟨hstep.stay, hstep.up⟩ hseen (by simp)
  have hbelow : ∀ name entry, IsStep name → (linkDisk target).tree.entry? ["s", name] = some entry →
      (Trail.mk anchored 0 ["s", name]).text.utf8ByteSize ≤ maxPathBytes →
      (linkDisk target).entryAt (Trail.child ⟨anchored, 0, ["s"]⟩ name) = .ok entry := by
    intro name entry hname hentry hshort
    refine hstands.entryAt_child linkDisk_standing hname ?_ ?_ hshort
    · rw [Disk.place_child, hplace]
      exact hfolder
    · rw [Disk.place_child, hplace]
      exact hentry
  refine ⟨hseen, hbelow _ _ (isStep_search (.inr (.inl rfl))) hfile ?_,
    hbelow _ _ (isStep_search (.inr (.inr rfl))) hlink ?_⟩ <;> cases anchored <;> decide

/-- The link is followed from its folder. -/
theorem follow_linkDisk (strict anchored : Bool) (depth : Nat) :
    (linkDisk target).follow strict (depth + 1) [] ⟨anchored, 0, []⟩ ["s", "b.wgsl"] =
      match (linkDisk target).follow strict depth [⟨anchored, 0, ["s", "b.wgsl"]⟩]
        (if isAbsoluteText target then .root else ⟨anchored, 0, ["s"]⟩) (Path.splitNames target) with
      | .ok reached => .ok reached
      | .error (.cyclic link left) => .error (.cyclic link (left ++ []))
      | .error stop => .error stop := by
  obtain ⟨hfolder, -, hlink⟩ := @entryAt_linkDisk target anchored
  have hchild : Trail.child ⟨anchored, 0, []⟩ "s" = ⟨anchored, 0, ["s"]⟩ := rfl
  rw [Disk.follow_entry (by decide) (by decide) hfolder (by simp), hchild,
    Disk.follow_link (by decide) (by decide) hlink List.not_mem_nil rfl]
  simp only [Disk.follow_nil]
  rfl

theorem followPath_linkDisk (strict : Bool) (path : Path) :
    (linkDisk target).followPath strict path =
      (linkDisk target).follow strict 4 [] ⟨path.isAbsolute, 0, []⟩ path.parts := by
  have hdepth : (linkDisk target).linkDepth = 4 := rfl
  rw [Disk.followPath, hdepth]
  cases path.isAbsolute <;> rfl

theorem stat_linkDisk_file :
    (linkDisk target).stat (Place.path ["s", "a.wgsl"]) = .ok (["s", "a.wgsl"], .file (Utf8.ascii ['x'])) := by
  obtain ⟨hfolder, hfile, -⟩ := @entry?_linkDisk target
  refine Disk.stat_of_descends (base_linkDisk _) (takes_searchFolder .root).2.1 ?_ hfile
  exact ⟨rfl, isStep_search (.inl rfl), hfolder, isStep_search (.inr (.inl rfl)),
    by simp [FileTree.Descends, hfile]⟩

/-- A link to the file beside it stands for the file. -/
theorem resolve?_linkDisk_linked :
    (linkDisk "a.wgsl").resolve? ⟨anchor, ["s", "b.wgsl"]⟩ = .ok ["s", "a.wgsl"] := by
  have hnames : Path.splitNames "a.wgsl" = ["a.wgsl"] := by decide
  have htarget : isAbsoluteText "a.wgsl" = false := by decide
  have hfollow : (linkDisk "a.wgsl").followPath false ⟨anchor, ["s", "b.wgsl"]⟩ =
      .ok ⟨Path.isAbsolute ⟨anchor, ["s", "b.wgsl"]⟩, 0, ["s", "a.wgsl"]⟩ := by
    rw [followPath_linkDisk, follow_linkDisk, hnames, htarget]
    simp only [Bool.false_eq_true, if_false]
    rw [Disk.follow_entry (by decide) (by decide) (entryAt_linkDisk _).2.1 (by simp), Disk.follow_nil]
    rfl
  have hplace : ∀ anchored, (linkDisk "a.wgsl").place ⟨anchored, 0, ["s", "a.wgsl"]⟩ = ["s", "a.wgsl"] := by
    intro anchored
    cases anchored <;> rfl
  simp only [Disk.resolve?, Disk.reached?, hfollow, hplace, stat_linkDisk_file, pure, Except.pure, bind,
    Except.bind]

theorem isFile_linkDisk : (linkDisk target).isFile (Place.path ["s", "a.wgsl"]) = .ok true := by
  rw [Disk.isFile, Disk.leadsTo, stat_linkDisk_file]

theorem searchable_linkDisk : (linkDisk "a.wgsl").Searchable (searchFolder anchor) where
  decided := ⟨true, Disk.isFolder_eq_true.mpr ⟨_, stat_searchFolder⟩⟩
  resolved := by
    intro base names hstat hbelow _
    cases stat_searchFolder.symm.trans hstat
    rcases hasBelow_linkDisk hbelow with rfl | rfl
    · exact ⟨_, true, resolve?_linkDisk_file, isFile_linkDisk⟩
    · exact ⟨_, true, resolve?_linkDisk_linked, isFile_linkDisk⟩

end

/-- A file and a link to it, in a folder that is searched twice, are listed once. -/
theorem shaders_listed_once_linked :
    ∃ found, ((linkDisk "a.wgsl").findShaders [searchFolder .relative, searchFolder .root]).1 = .ok found ∧
      found.Nodup ∧ ["s", "a.wgsl"] ∈ found := by
  obtain ⟨hends, hfiles⟩ := @Disk.shaders_listed_once (linkDisk "a.wgsl")
    [searchFolder .relative, searchFolder .root] linkDisk_standing.closed
  obtain ⟨found, hfound⟩ := hends.mpr (by simp [searchable_linkDisk])
  obtain ⟨-, hnodup, hmem, -⟩ := hfiles found hfound
  refine ⟨found, hfound, hnodup, (hmem _).mpr ?_⟩
  have hfile : (linkDisk "a.wgsl").tree.HasBelow ["s"] ["a.wgsl"] :=
    .entry entry?_linkDisk.1 (by simp [entry?_linkDisk])
  exact ⟨searchFolder .root, by simp, _, _, stat_searchFolder, hfile, by decide, resolve?_linkDisk_file,
    isFile_linkDisk⟩

/-! A name that is too long. -/

theorem Disk.isFolder_of_stat {disk : Disk} {path : Path} {errno : Errno} {text : String}
    (h : disk.stat path = .error (.system errno text)) (hpresent : errno.meansAbsent = false) :
    disk.isFolder path = .error (.system errno text) := by
  simp [Disk.isFolder, Disk.leadsTo, h, hpresent]

/-- A name that the system does not take. -/
def longName : String := String.ofList (List.replicate 256 'n')

theorem utf8ByteSize_replicate (k : Nat) : (String.ofList (List.replicate k 'n')).utf8ByteSize = k := by
  induction k with
  | zero => rfl
  | succ k ih =>
    have hsize : 'n'.utf8Size = 1 := by decide
    rw [List.replicate_succ, String.ofList_cons, String.utf8ByteSize_append, String.utf8ByteSize_singleton, ih]
    omega

theorem isNameable_replicate (k : Nat) : isNameable (String.ofList (List.replicate k 'n')) = true := by
  rw [isNameable_iff, String.toList_ofList, List.mem_replicate]
  exact fun hmem => absurd hmem.2 (by decide)

/-- A path of that name. -/
def longFolder : Path := ⟨.relative, [longName]⟩

theorem stat_longFolder {target : String} :
    (linkDisk target).stat longFolder = .error (.system .nameTooLong longName) := by
  have htext : longFolder.toString = longName := by simp [longFolder, Path.toString, Anchor.text]
  have hsize : longName.utf8ByteSize = 256 := utf8ByteSize_replicate 256
  have hother : ∀ name : String, name.utf8ByteSize < 256 → longName ≠ name := by
    rintro name hname rfl
    omega
  have hnameable : longFolder.isNameable = true := by
    have hname : isNameable longName = true := isNameable_replicate 256
    simp [longFolder, Path.isNameable, hname]
  have hshort : ¬ maxPathBytes < longName.utf8ByteSize := by
    rw [hsize]
    decide
  have hlong : maxNameBytes < longName.utf8ByteSize := by
    rw [hsize]
    decide
  have hstay : isStay longName = false := by
    simp [isStay, hother "." (by decide), hother "" (by decide)]
  have hup : longName ≠ ".." := hother ".." (by decide)
  have hroot : (linkDisk target).tree.entry? [] = some .folder := rfl
  have hparts : longFolder.parts = [longName] := rfl
  have hlocate : (linkDisk target).tree.locate .target maxLinks [] [longName] = .error .nameTooLong := by
    rw [FileTree.locate, hroot]
    simp [hstay, hup, hlong]
  rw [Disk.stat, Disk.locate, hnameable, htext, if_neg (by simp), if_neg hshort, base_linkDisk, hparts, hlocate]
  rfl

/-- A path that leads nowhere ends the search instead of being passed over, if its name is too long. -/
theorem search_stops_at_long_name :
    (∀ found, (linkDisk "a.wgsl").stat longFolder ≠ .ok found) ∧
    (∃ found, ((linkDisk "a.wgsl").findShaders [searchFolder .relative]).1 = .ok found ∧
      ["s", "a.wgsl"] ∈ found) ∧
    (linkDisk "a.wgsl").findShaders [longFolder, searchFolder .relative] =
      (.error (.system .nameTooLong longName), []) := by
  refine ⟨fun found => by simp [stat_longFolder], ?_, ?_⟩
  · obtain ⟨found, hfound⟩ := (@Disk.exists_findShaders_iff (linkDisk "a.wgsl") linkDisk_standing.closed
      [searchFolder .relative]).mpr (by simp [searchable_linkDisk])
    obtain ⟨paths, hmatches, rfl⟩ := Disk.files_of_findShaders linkDisk_standing.closed hfound
    have hfile : (linkDisk "a.wgsl").tree.HasBelow ["s"] ["a.wgsl"] :=
      .entry entry?_linkDisk.1 (by simp [entry?_linkDisk])
    exact ⟨_, hfound, List.mem_eraseDups.mpr <| (Disk.mem_files_iff hmatches).mpr
      ⟨_, List.mem_singleton_self _, _, _, stat_searchFolder, hfile, by decide, resolve?_linkDisk_file,
        isFile_linkDisk⟩⟩
  · have hfolder : (linkDisk "a.wgsl").matchesBelow? longFolder = .error (.system .nameTooLong longName) := by
      rw [Disk.matchesBelow?, Disk.isFolder_of_stat stat_longFolder rfl]
      rfl
    rw [Disk.findShaders, Disk.findShadersFrom, hfolder]

end ShaderFlatten
