import ShaderFlatten.Proofs.Delivery

/-!
# Places that stand

A resolution in which every step must exist goes from one place that stands to the next: something is there,
and it is no link.  Whatever stands in a closed tree has only folders above it, so the names of such a place
lead straight to it, and the place can be resolved even if its steps need not exist:

    canonical? path = ok place  →  entry? place = some entry, which is no link
    canonical? path = ok place  →  resolve? path = ok place

A path that ends in a double dot leads to a folder.
-/

namespace ShaderFlatten

namespace FileTree

section
variable {tree : FileTree} {purpose : Purpose} {n m : Nat} {p q : Place} {s t steps : List String}
  {entry : Entry}

/-! ## Straight ways -/

/-- The system follows the front of a path in one way, whatever the path is followed for. -/
theorem Leads.locate_append (h : tree.Leads n p s m q) (hne : t ≠ []) (hslash : purpose = .creation → t ≠ [""]) :
    tree.locate purpose n p (s ++ t) = tree.locate purpose m q t := by
  have hrest : ∀ rest : List String, rest ++ t ≠ [] ∧ ¬ (purpose = .creation ∧ rest ++ t = [""]) := by
    intro rest
    cases rest with
    | nil => exact ⟨hne, fun ⟨hpurpose, ht⟩ => hslash hpurpose ht⟩
    | cons step rest => simp [hne]
  induction h with
  | done => rfl
  | stay hfolder hstay _ ih => rw [List.cons_append, locate_stay hfolder hstay, ih]
  | up hfolder _ ih => rw [List.cons_append, locate_up hfolder, ih]
  | down hfolder hstep hlink _ ih =>
    rw [List.cons_append, locate_down hfolder hstep (hrest _).2 hlink, ih]
  | link hfolder hstep hlink _ ih =>
    rw [List.cons_append, locate_link hfolder hstep (hrest _).2 (fun h => (hrest _).1 h.1) hlink,
      ← List.append_assoc, ih]

theorem Descends.leads (h : tree.Descends p steps) : tree.Leads n p steps n (p ++ steps) := by
  induction steps generalizing p with
  | nil =>
    rw [List.append_nil]
    exact .done
  | cons step rest ih =>
    obtain ⟨hfolder, hstep, hrest⟩ := h
    have hleads := @ih (p ++ [step]) hrest
    rw [List.append_assoc, List.singleton_append] at hleads
    exact .down hfolder hstep hrest.not_link hleads

/-- Double dots lead up through folders. -/
theorem Closed.leads_up (h : tree.Closed) (hp : tree.entry? p = some .folder) (k : Nat) :
    tree.Leads n p (List.replicate k "..") n (p.up k) := by
  induction k generalizing p with
  | zero =>
    rw [Place.up, Nat.sub_zero, List.take_length]
    exact .done
  | succ k ih =>
    have hup : p.up (k + 1) = Place.up p.dropLast k := by
      rw [Place.up, Place.up, List.dropLast_eq_take, List.take_take, List.length_take]
      congr 1
      omega
    rw [List.replicate_succ, hup]
    exact .up hp (ih (h.parent (by simp [hp])))

/-- What stands above something is a folder. -/
theorem Closed.above (h : tree.Closed) {step : String} (hentry : tree.entry? (p ++ step :: steps) = some entry) :
    tree.entry? p = some .folder := by
  induction steps generalizing p step with
  | nil => exact h p step (by simp [hentry])
  | cons next steps ih =>
    have hnext : tree.entry? (p ++ [step]) = some .folder := ih (by simpa using hentry)
    exact h p step (by simp [hnext])

/-- Short names lead straight to whatever stands in a closed tree. -/
theorem Closed.descends (h : tree.Closed) (hsteps : ∀ step ∈ steps, IsStep step)
    (hentry : tree.entry? (p ++ steps) = some entry) (hlink : ∀ target, entry ≠ .link target) :
    tree.Descends p steps := by
  induction steps generalizing p with
  | nil =>
    rw [List.append_nil] at hentry
    simpa [Descends, hentry] using hlink
  | cons step steps ih =>
    obtain ⟨hstep, hrest⟩ := List.forall_mem_cons.mp hsteps
    exact ⟨h.above hentry, hstep, ih hrest (by simpa using hentry)⟩

/-- On the way to what stands in a closed tree the system meets no link. -/
theorem Closed.locate_ne_linkLoop (h : tree.Closed) (hplain : ∀ step ∈ steps, IsPlainStep step)
    (hentry : tree.entry? (p ++ steps) = some entry) (hlink : ∀ target, entry ≠ .link target) :
    tree.locate .target n p steps ≠ .error .linkLoop := by
  induction steps generalizing p with
  | nil => simp [locate_nil]
  | cons step steps ih =>
    obtain ⟨hstep, hrest⟩ := List.forall_mem_cons.mp hplain
    have hfolder : tree.entry? p = some .folder := h.above hentry
    have hnext : tree.entry? ((p ++ [step]) ++ steps) = some entry := by simpa using hentry
    have hplain : ∀ target, tree.entry? (p ++ [step]) ≠ some (.link target) := by
      intro target htarget
      cases steps with
      | nil =>
        rw [List.append_nil, htarget] at hnext
        exact hlink target (Option.some.inj hnext).symm
      | cons next steps =>
        rw [h.above hnext] at htarget
        cases htarget
    by_cases hshort : step.utf8ByteSize ≤ maxNameBytes
    · rw [locate_down hfolder ⟨hstep.1, hstep.2, hshort⟩ (by simp) hplain]
      exact ih hrest hnext
    · rw [locate, hfolder]
      simp [hstep.1, hstep.2, Nat.lt_of_not_le hshort]

/-- Plain names lead nowhere but to their own place, if something stands there that is no link. -/
theorem Leads.straight_of_entry (h : tree.Leads n p steps m q) (hclosed : tree.Closed)
    (hplain : ∀ step ∈ steps, IsPlainStep step) (hentry : tree.entry? (p ++ steps) = some entry)
    (hlink : ∀ target, entry ≠ .link target) : q = p ++ steps := by
  refine h.straight hplain fun step rest target hprefix htarget => ?_
  obtain ⟨more, rfl⟩ := hprefix
  cases more with
  | nil =>
    rw [List.append_nil, htarget] at hentry
    exact hlink target (Option.some.inj hentry).symm
  | cons next more =>
    have hfolder : tree.entry? (p ++ step :: rest) = some .folder :=
      hclosed.above (by rwa [List.append_assoc])
    rw [hfolder] at htarget
    cases htarget

end

end FileTree

/-! ## Trails that stand -/

namespace Disk

/-- What a trail leads to stands there: something is there, and it is no link. -/
structure Stands (disk : Disk) (t : Trail) : Prop where
  ups : t.anchored = true → t.ups = 0
  steps : ∀ name ∈ t.names, IsStep name
  entry : ∃ entry, disk.tree.entry? (disk.place t) = some entry ∧ ∀ target, entry ≠ .link target

/-- Where a trail starts. -/
def start (disk : Disk) (t : Trail) : Place := if t.anchored then [] else disk.cwd

section
variable {disk : Disk} {t : Trail} {name : String} {entry : Entry} {n : Nat}

theorem place_child : disk.place (t.child name) = disk.place t ++ [name] := by
  unfold place Trail.child
  cases t.anchored <;> simp

theorem place_eq (disk : Disk) (t : Trail) : disk.place t = (disk.start t).up t.ups ++ t.names := by
  unfold place start
  cases hanchored : t.anchored with
  | true => simp [Place.up]
  | false => rfl

theorem Standing.start (h : disk.Standing) (t : Trail) : disk.tree.entry? (disk.start t) = some .folder := by
  unfold Disk.start
  split
  · rfl
  · exact h.cwd

theorem stands_root (disk : Disk) : disk.Stands .root :=
  ⟨fun _ => rfl, by simp [Trail.root], .folder, rfl, by simp⟩

theorem Standing.stands_here (h : disk.Standing) : disk.Stands .here := by
  have hplace : disk.place .here = disk.cwd := by simp [place, Trail.here, Place.up]
  exact ⟨fun _ => rfl, by simp [Trail.here], .folder, by rw [hplace, h.cwd], by simp⟩

/-- The steps of a trail that stands lead to its place. -/
theorem Stands.leads (h : disk.Stands t) (hdisk : disk.Standing) :
    disk.tree.Leads n (disk.start t) t.steps n (disk.place t) := by
  obtain ⟨entry, hentry, hlink⟩ := h.entry
  rw [disk.place_eq t] at hentry ⊢
  exact (hdisk.closed.leads_up (hdisk.start t) t.ups).append (hdisk.closed.descends h.steps hentry hlink).leads

/-- A name that is seen behind a trail stands in a folder. -/
theorem Stands.entry?_child (h : disk.Stands t) (hdisk : disk.Standing) (hplain : FileTree.IsPlainStep name)
    (hentry : disk.entryAt (t.child name) = .ok entry) :
    disk.tree.entry? (disk.place t) = some .folder ∧ IsStep name ∧
      disk.tree.entry? (disk.place t ++ [name]) = some entry := by
  have hsteps : (t.child name).steps = t.steps ++ [name] := by simp [Trail.steps, Trail.child]
  have hstart : (if (t.child name).anchored then [] else disk.cwd) = disk.start t := rfl
  have hpurpose : Purpose.entry = .creation → [name] ≠ [""] := fun h => absurd h (by decide)
  unfold entryAt at hentry
  split at hentry
  · cases hentry
  · rw [hsteps, hstart, FileTree.walk, (h.leads hdisk).locate_append (by simp) hpurpose] at hentry
    cases hlocate : disk.tree.locate .entry maxLinks (disk.place t) [name] with
    | error errno =>
      rw [hlocate] at hentry
      cases hentry
    | ok found =>
      obtain ⟨hfolder, ⟨hstay, -⟩ | ⟨hup, -⟩ | ⟨hstep, -⟩⟩ := FileTree.locate_cons_ok hlocate
      · rw [hplain.1] at hstay
        cases hstay
      · exact absurd hup hplain.2
      · rw [FileTree.locate_last hfolder hstep] at hlocate
        cases hlocate
        rw [FileTree.locate_last hfolder hstep] at hentry
        refine ⟨hfolder, hstep, ?_⟩
        split at hentry
        · next place found heq =>
          cases hentry
          exact (Prod.mk.inj (Except.ok.inj heq)).2
        all_goals cases hentry

theorem Stands.child (h : disk.Stands t) (hdisk : disk.Standing) (hplain : FileTree.IsPlainStep name)
    (hentry : disk.entryAt (t.child name) = .ok entry) (hlink : ∀ target, entry ≠ .link target) :
    disk.Stands (t.child name) := by
  obtain ⟨-, hstep, hfound⟩ := h.entry?_child hdisk hplain hentry
  refine ⟨h.ups, fun step hs => ?_, entry, ?_, hlink⟩
  · rcases List.mem_append.mp hs with hs | hs
    · exact h.steps step hs
    · rwa [List.mem_singleton.mp hs]
  · rw [place_child, hfound]

theorem place_parent (disk : Disk) (t : Trail) : disk.place t.parent = (disk.place t).dropLast := by
  unfold Trail.parent
  split
  · next hne =>
    rw [place_eq, place_eq, List.dropLast_append_of_ne_nil hne]
    rfl
  · next hnil =>
    have hnames : t.names = [] := by simpa using hnil
    split
    · next hanchored => simp [place, hanchored, hnames]
    · next hanchored =>
      simp only [place, hanchored, hnames, Place.up, List.append_nil, Bool.false_eq_true, if_false]
      rw [List.dropLast_eq_take, List.take_take, List.length_take]
      congr 1
      omega

theorem Stands.parent (h : disk.Stands t) (hdisk : disk.Standing) : disk.Stands t.parent := by
  obtain ⟨entry, hentry, -⟩ := h.entry
  have hfolder : disk.tree.entry? (disk.place t.parent) = some .folder := by
    rw [place_parent]
    exact hdisk.closed.parent (by simp [hentry])
  refine ⟨?_, ?_, .folder, hfolder, by simp⟩
  · unfold Trail.parent
    split
    · exact h.ups
    · split
      · exact h.ups
      · next hanchored => exact fun h => absurd h hanchored
  · unfold Trail.parent
    split
    · exact fun name hn => h.steps name (List.dropLast_subset _ hn)
    · split <;> exact h.steps

/-- **A resolution in which every step must exist goes through trails that stand.** -/
theorem Stands.follow (h : disk.Stands t) (hdisk : disk.Standing) {depth : Nat} {pending : List Trail}
    {reached : Trail} {steps : List String} (hsteps : ∀ step ∈ steps, isStay step = false)
    (hfollow : disk.follow true depth pending t steps = .ok reached) : disk.Stands reached :=
  follow_keeps (fun s => (Path.readable_ofString s).not_stay) (stands_root disk)
    (fun _ ht => ht.parent hdisk)
    (fun _ _ _ ht hstay hup hentry hlink => ht.child hdisk ⟨hstay, hup⟩ hentry hlink) hfollow h hsteps

/-- One step that is followed leads to a trail from which every rest is followed. -/
theorem follow_cons {depth : Nat} {pending : List Trail} {reached : Trail} {step : String} {rest : List String}
    (h : disk.follow true depth pending t (step :: rest) = .ok reached) :
    ∃ next, ∀ rest, disk.follow true depth pending t (step :: rest) =
      disk.follow true depth pending next rest := by
  by_cases hup : step = ".."
  · subst hup
    exact ⟨t.parent, fun rest => follow_up⟩
  by_cases hnamed : (!isNameable step) = true
  · cases (follow_unnameable hup hnamed).symm.trans h
  cases hentry : disk.entryAt (t.child step) with
  | error errno =>
    rw [follow_missing hup hnamed hentry] at h
    cases h
  | ok entry =>
    by_cases hlink : ∃ target, entry = .link target
    · obtain ⟨target, rfl⟩ := hlink
      by_cases hpending : t.child step ∈ pending
      · cases (follow_pending hup hnamed hentry hpending).symm.trans h
      cases depth with
      | zero => cases (follow_exhausted hup hnamed hentry).symm.trans h
      | succ depth =>
        rw [follow_link hup hnamed hentry hpending rfl] at h
        split at h
        · next between htarget =>
          exact ⟨between, fun rest => follow_link hup hnamed hentry hpending htarget⟩
        · cases h
        · cases h
    · exact ⟨_, fun rest => follow_entry hup hnamed hentry fun target heq => hlink ⟨target, heq⟩⟩

/-- A path in two parts is followed in two parts. -/
theorem follow_append {depth : Nat} {pending : List Trail} {reached : Trail} {front back : List String}
    (h : disk.follow true depth pending t (front ++ back) = .ok reached) :
    ∃ between, disk.follow true depth pending t front = .ok between ∧
      disk.follow true depth pending between back = .ok reached := by
  induction front generalizing t with
  | nil => exact ⟨t, follow_nil, h⟩
  | cons step front ih =>
    rw [List.cons_append] at h
    obtain ⟨next, hnext⟩ := follow_cons h
    rw [hnext] at h
    obtain ⟨between, hfront, hback⟩ := ih h
    exact ⟨between, by rw [hnext, hfront], hback⟩

/-! ## Canonical places -/

/-- The names of a path that the engine follows for a readable one: its own, or those of the home directory in
place of the tilde. -/
theorem expandHome_parts {path expanded : Path} (h : path.Readable)
    (hexpand : disk.expandHome path.toString = .ok expanded) :
    expanded.parts = path.parts ∨
      ∃ first rest, path.parts = first :: rest ∧ first = "~" ∧ expanded.parts = disk.home ++ rest := by
  rw [expandHome, h.ofString_toString] at hexpand
  split at hexpand
  · next first rest _ hparts =>
    split at hexpand
    · split at hexpand
      · next htilde =>
        cases hexpand
        exact .inr ⟨first, rest, hparts, htilde, rfl⟩
      · split at hexpand <;> cases hexpand
    · cases hexpand
      exact .inl rfl
  · cases hexpand
    exact .inl rfl

theorem expandHome_not_stay (hhome : ∀ name ∈ disk.home, isStay name = false) {path expanded : Path}
    (h : path.Readable) (hexpand : disk.expandHome path.toString = .ok expanded) :
    ∀ name ∈ expanded.parts, isStay name = false := by
  rcases expandHome_parts h hexpand with hparts | ⟨first, rest, hparts, -, hexpanded⟩
  · rw [hparts]
    exact h.not_stay
  · rw [hexpanded]
    refine List.forall_mem_append.mpr ⟨hhome, fun name hn => h.not_stay name ?_⟩
    rw [hparts]
    exact List.mem_cons_of_mem _ hn

theorem stands_start (hdisk : disk.Standing) (path : Path) :
    disk.Stands (if path.isAbsolute then .root else .here) := by
  split
  · exact stands_root disk
  · exact hdisk.stands_here

/-- **A canonical place stands.** -/
theorem canonical?_stands (hdisk : disk.Standing) (hhome : ∀ name ∈ disk.home, isStay name = false) {path : Path}
    (h : path.Readable) {place : Place} (hplace : disk.canonical? path.toString = .ok place) :
    ∃ trail, disk.Stands trail ∧ place = disk.place trail := by
  obtain ⟨expanded, trail, hexpand, htrail, rfl⟩ := canonical?_ok hplace
  exact ⟨trail, (stands_start hdisk expanded).follow hdisk (expandHome_not_stay hhome h hexpand) htrail, rfl⟩

theorem Stands.place_plain (h : disk.Stands t) (hdisk : disk.Standing) :
    ∀ name ∈ disk.place t, FileTree.IsPlainStep name :=
  Disk.place_plain hdisk.plain fun name hn => ⟨(h.steps name hn).stay, (h.steps name hn).up⟩

/-- The system does not lose itself on the way to a place that stands. -/
theorem Stands.stat_ne_linkLoop (h : disk.Stands t) (hdisk : disk.Standing) (text : String) :
    disk.stat (disk.place t).path ≠ .error (.system .linkLoop text) := by
  obtain ⟨entry, hentry, hlink⟩ := h.entry
  have hlocate : disk.tree.locate .target maxLinks [] (disk.place t) ≠ .error .linkLoop :=
    hdisk.closed.locate_ne_linkLoop (h.place_plain hdisk) hentry hlink
  have hbase : disk.base (disk.place t).path = [] := rfl
  have hparts : (disk.place t).path.parts = disk.place t := rfl
  intro hstat
  unfold stat locate at hstat
  rw [hbase, hparts] at hstat
  split at hstat
  · cases hstat
  · cases hstat
  · next fault heq =>
    cases hstat
    split at heq
    · cases heq
    · split at heq
      · cases heq
      · cases hfound : disk.tree.locate .target maxLinks [] (disk.place t) with
        | ok found =>
          rw [hfound] at heq
          cases heq
        | error errno =>
          rw [hfound] at heq hlocate
          cases heq
          exact hlocate rfl

/-- **A place that can be read is a file.** -/
theorem Stands.entry?_of_readBytes (h : disk.Stands t) (hdisk : disk.Standing) {content : ByteArray}
    (hread : disk.readBytes (disk.place t).path = .ok content) :
    disk.tree.entry? (disk.place t) = some (.file content) := by
  obtain ⟨entry, hentry, hlink⟩ := h.entry
  obtain ⟨-, m, q, hleads, hfile⟩ := readBytes_eq_ok.mp hread
  have hq : q = [] ++ disk.place t :=
    FileTree.Leads.straight_of_entry hleads hdisk.closed (h.place_plain hdisk) hentry hlink
  rwa [hq] at hfile

/-- **What has a canonical place resolves to it**, if it does not start with a tilde. -/
theorem resolve?_of_canonical? (hdisk : disk.Standing) {path : Path} (h : path.Readable)
    (htilde : ¬ path.StartsAtHome) {place : Place} (hplace : disk.canonical? path.toString = .ok place) :
    disk.resolve? path = .ok place := by
  obtain ⟨expanded, trail, hexpand, htrail, rfl⟩ := canonical?_ok hplace
  rw [expandHome_of_readable h htilde] at hexpand
  cases hexpand
  have hstands : disk.Stands trail := (stands_start hdisk path).follow hdisk h.not_stay htrail
  have hfollow : disk.followPath false path = .ok trail := follow_of_strict htrail (by simp)
  simp only [resolve?, reached?, hfollow, pure, Except.pure, bind, Except.bind]
  split
  · next text hstat => exact absurd hstat (hstands.stat_ne_linkLoop hdisk text)
  · rfl

/-- **A path that ends in a double dot leads to a folder.** -/
theorem canonical?_up (hdisk : disk.Standing) (hhome : ∀ name ∈ disk.home, isStay name = false) {path : Path}
    (h : path.Readable) {front : List String} (hparts : path.parts = front ++ [".."]) {place : Place}
    (hplace : disk.canonical? path.toString = .ok place) : disk.tree.entry? place = some .folder := by
  obtain ⟨expanded, trail, hexpand, htrail, rfl⟩ := canonical?_ok hplace
  obtain ⟨front', hexpanded⟩ : ∃ front', expanded.parts = front' ++ [".."] := by
    rcases expandHome_parts h hexpand with heq | ⟨first, rest, hfirst, htilde, heq⟩
    · exact ⟨front, heq.trans hparts⟩
    · -- the tilde is not the double dot at the end
      rcases List.eq_nil_or_concat rest with rfl | ⟨init, last, rfl⟩
      · rw [hparts] at hfirst
        have hlast := congrArg List.getLast? hfirst
        simp [htilde] at hlast
      · rw [List.concat_eq_append] at hfirst heq
        rw [hparts, ← List.cons_append] at hfirst
        obtain ⟨-, rfl⟩ := List.append_singleton_inj.mp hfirst
        exact ⟨disk.home ++ init, by rw [heq, List.append_assoc]⟩
  unfold followPath at htrail
  rw [hexpanded] at htrail
  obtain ⟨between, hfront, hback⟩ := follow_append htrail
  rw [follow_up, follow_nil] at hback
  cases hback
  have hstands : disk.Stands between := by
    refine (stands_start hdisk expanded).follow hdisk (fun name hn => ?_) hfront
    exact expandHome_not_stay hhome h hexpand name (by rw [hexpanded]; exact List.mem_append_left _ hn)
  obtain ⟨entry, hentry, -⟩ := hstands.entry
  rw [place_parent]
  exact hdisk.closed.parent (by simp [hentry])

/-- A path without names leads to a folder. -/
theorem canonical?_nil (hdisk : disk.Standing) {path : Path} (h : path.Readable) (hparts : path.parts = [])
    {place : Place} (hplace : disk.canonical? path.toString = .ok place) :
    disk.tree.entry? place = some .folder := by
  obtain ⟨expanded, trail, hexpand, htrail, rfl⟩ := canonical?_ok hplace
  have hexpanded : expanded.parts = [] := by
    rcases expandHome_parts h hexpand with heq | ⟨first, rest, hfirst, -⟩
    · rw [heq, hparts]
    · rw [hparts] at hfirst
      cases hfirst
  rw [followPath, hexpanded, follow_nil] at htrail
  cases htrail
  split
  · rfl
  · have hplace : disk.place .here = disk.cwd := by simp [place, Trail.here, Place.up]
    rw [hplace, hdisk.cwd]

theorem isFolder_eq_true {path : Path} :
    disk.isFolder path = .ok true ↔ ∃ base, disk.stat path = .ok (base, .folder) := by
  unfold isFolder leadsTo
  constructor
  · intro h
    split at h
    · next base entry hstat =>
      cases entry with
      | folder => exact ⟨base, hstat⟩
      | file content => cases h
      | link target => cases h
    · cases h
    · split at h <;> cases h
    · cases h
  · rintro ⟨base, hstat⟩
    rw [hstat]

/-! ## Straight resolutions -/

theorem utf8ByteSize_intercalate_le (front back : List String) :
    ("/".intercalate front).utf8ByteSize ≤ ("/".intercalate (front ++ back)).utf8ByteSize := by
  by_cases hfront : front = []
  · simp [hfront]
  by_cases hback : back = []
  · simp [hback]
  rw [String.intercalate_append_of_ne_nil hfront hback]
  simp only [String.utf8ByteSize_append]
  omega

theorem utf8ByteSize_text_child_le (t : Trail) (name : String) (names : List String) :
    (t.child name).text.utf8ByteSize ≤
      ({ t with names := t.names ++ name :: names } : Trail).text.utf8ByteSize := by
  have hsteps : ({ t with names := t.names ++ name :: names } : Trail).steps = (t.child name).steps ++ names := by
    simp [Trail.steps, Trail.child]
  have hanchored : (t.child name).anchored = t.anchored := rfl
  have hle := utf8ByteSize_intercalate_le (t.child name).steps names
  unfold Trail.text
  rw [hsteps, hanchored]
  simp only [String.utf8ByteSize_append]
  omega

/-- What stands in a folder is seen behind the folder's trail. -/
theorem Stands.entryAt_child (h : disk.Stands t) (hdisk : disk.Standing) (hname : IsStep name)
    (hfolder : disk.tree.entry? (disk.place t) = some .folder)
    (hentry : disk.tree.entry? (disk.place t ++ [name]) = some entry)
    (hshort : (t.child name).text.utf8ByteSize ≤ maxPathBytes) : disk.entryAt (t.child name) = .ok entry := by
  have hsteps : (t.child name).steps = t.steps ++ [name] := by simp [Trail.steps, Trail.child]
  have hstart : (if (t.child name).anchored then [] else disk.cwd) = disk.start t := rfl
  have hpurpose : Purpose.entry = .creation → [name] ≠ [""] := fun h => absurd h (by decide)
  rw [entryAt, if_neg (Nat.not_lt.mpr hshort), hsteps, hstart, FileTree.walk,
    (h.leads hdisk).locate_append (by simp) hpurpose, FileTree.locate_last hfolder hname, hentry]
  rfl

/-- **Names that lead straight to something are followed as they are.** -/
theorem Stands.follow_straight (h : disk.Stands t) (hdisk : disk.Standing) {strict : Bool} {depth : Nat}
    {pending : List Trail} {names : List String} (hnames : ∀ name ∈ names, IsStep name ∧ isNameable name = true)
    (hentry : disk.tree.entry? (disk.place t ++ names) = some entry) (hlink : ∀ target, entry ≠ .link target)
    (hshort : ({ t with names := t.names ++ names } : Trail).text.utf8ByteSize ≤ maxPathBytes) :
    disk.follow strict depth pending t names = .ok { t with names := t.names ++ names } := by
  induction names generalizing t with
  | nil => rw [follow_nil, List.append_nil]
  | cons name names ih =>
    obtain ⟨⟨hname, hnameable⟩, hrest⟩ := List.forall_mem_cons.mp hnames
    have hplain : FileTree.IsPlainStep name := ⟨hname.stay, hname.up⟩
    have hfolder : disk.tree.entry? (disk.place t) = some .folder := hdisk.closed.above hentry
    have hchild : disk.tree.entry? (disk.place (t.child name) ++ names) = some entry := by
      rw [place_child, List.append_assoc]
      exact hentry
    have hbelow : ∃ found, disk.tree.entry? (disk.place t ++ [name]) = some found ∧
        ∀ target, found ≠ .link target := by
      rw [place_child] at hchild
      cases names with
      | nil => exact ⟨entry, by rwa [List.append_nil] at hchild, hlink⟩
      | cons next names => exact ⟨.folder, hdisk.closed.above hchild, by simp⟩
    obtain ⟨found, hfound, hfoundLink⟩ := hbelow
    have hseen : disk.entryAt (t.child name) = .ok found :=
      h.entryAt_child hdisk hname hfolder hfound (Nat.le_trans (utf8ByteSize_text_child_le t name names) hshort)
    have hnext := @ih (t.child name) (h.child hdisk hplain hseen hfoundLink) hrest hchild (by
      have hnames : (t.child name).names ++ names = t.names ++ name :: names := by simp [Trail.child]
      rw [hnames]
      exact hshort)
    rw [follow_entry hname.up (by simp [hnameable]) hseen hfoundLink]
    simpa [Trail.child] using hnext

/-- The trail of a path that is taken as it is written. -/
def trailOf (path : Path) : Trail := ⟨path.isAbsolute, 0, path.parts⟩

theorem place_trailOf (path : Path) : disk.place (trailOf path) = disk.base path ++ path.parts := by
  rw [place_eq]
  unfold start base trailOf
  cases path.isAbsolute <;> simp [Place.up]

theorem Takes.short_trailOf {path : Path} (h : Takes path) : (trailOf path).text.utf8ByteSize ≤ maxPathBytes := by
  refine Nat.le_trans ?_ h.short
  obtain ⟨anchor, parts⟩ := path
  cases anchor with
  | relative =>
    cases parts with
    | nil => decide
    | cons name names => simp [trailOf, Trail.text, Trail.steps, Path.isAbsolute, Path.toString, Anchor.text]
  | root => simp [trailOf, Trail.text, Trail.steps, Path.isAbsolute, Path.toString, Anchor.text]
  | doubleRoot =>
    have hslash : "/".utf8ByteSize ≤ "//".utf8ByteSize := by decide
    simpa [trailOf, Trail.text, Trail.steps, Path.isAbsolute, Path.toString, Anchor.text] using hslash

/-- **A path that leads straight to something resolves to its place.** -/
theorem followPath_straight (hdisk : disk.Standing) {path : Path} (htakes : Takes path)
    (hparts : ∀ name ∈ path.parts, IsStep name)
    (hentry : disk.tree.entry? (disk.base path ++ path.parts) = some entry)
    (hlink : ∀ target, entry ≠ .link target) (strict : Bool) :
    disk.followPath strict path = .ok (trailOf path) ∧ disk.Stands (trailOf path) := by
  have hstart : (if path.isAbsolute then Trail.root else .here) = ⟨path.isAbsolute, 0, []⟩ := by
    cases path.isAbsolute <;> rfl
  have hstands := stands_start hdisk path
  rw [hstart] at hstands
  have hplace : disk.place ⟨path.isAbsolute, 0, []⟩ = disk.base path := by
    unfold place base
    cases path.isAbsolute <;> simp [Place.up]
  refine ⟨?_, fun _ => rfl, hparts, entry, by rw [place_trailOf, hentry], hlink⟩
  rw [followPath, hstart]
  refine hstands.follow_straight hdisk (fun name hn => ⟨hparts name hn, ?_⟩) (by rw [hplace, hentry]) hlink ?_
  · exact List.all_eq_true.mp htakes.nameable name hn
  · exact htakes.short_trailOf

theorem resolve?_straight (hdisk : disk.Standing) {path : Path} (htakes : Takes path)
    (hparts : ∀ name ∈ path.parts, IsStep name)
    (hentry : disk.tree.entry? (disk.base path ++ path.parts) = some entry)
    (hlink : ∀ target, entry ≠ .link target) : disk.resolve? path = .ok (disk.base path ++ path.parts) := by
  obtain ⟨hfollow, hstands⟩ := followPath_straight hdisk htakes hparts hentry hlink false
  simp only [resolve?, reached?, hfollow, pure, Except.pure, bind, Except.bind]
  split
  · next text hstat => exact absurd hstat (hstands.stat_ne_linkLoop hdisk text)
  · rw [place_trailOf]

theorem canonical?_straight (hdisk : disk.Standing) {path : Path} (h : path.Readable)
    (htilde : ¬ path.StartsAtHome) (htakes : Takes path) (hparts : ∀ name ∈ path.parts, IsStep name)
    (hentry : disk.tree.entry? (disk.base path ++ path.parts) = some entry)
    (hlink : ∀ target, entry ≠ .link target) :
    disk.canonical? path.toString = .ok (disk.base path ++ path.parts) := by
  obtain ⟨hfollow, -⟩ := followPath_straight hdisk htakes hparts hentry hlink true
  simp only [canonical?, expandHome_of_readable h htilde, hfollow, place_trailOf, pure, Except.pure, bind,
    Except.bind]

end

end Disk

end ShaderFlatten
