import Mathlib.Data.List.Forall2
import ShaderFlatten.Engine.Flatten

/-!
# Canonical places

Where `Disk.canonical?` can lead.

* The names of a canonical place are not empty and hold no slash (`canonical?_named`), so that the text
  of a canonical place determines it (`Place.text_injective`).
* A canonical place that an absolute request leads to is reached without following a link, so something
  stands there (`canonical?_solid`).  An import is always an absolute request.

Following steps is one equation for each thing that can stand at the first of them: `Disk.follow_missing`,
`Disk.follow_entry` and, for a link, `Disk.follow_pending`, `Disk.follow_exhausted` and `Disk.follow_link`.
-/

namespace ShaderFlatten

/-! ## Computations that may fail -/

section
variable {ε α β : Type}

/-- One computation after the other succeeds exactly if each of them does. -/
theorem bind_eq_ok {x : Except ε α} {f : α → Except ε β} {b : β} :
    (x >>= f) = .ok b ↔ ∃ a, x = .ok a ∧ f a = .ok b := by
  cases x <;> simp [bind, Except.bind]

theorem pure_eq_ok {a b : α} : (pure a : Except ε α) = .ok b ↔ a = b := by
  simp [pure, Except.pure]

theorem throw_ne_ok {e : ε} {a : α} : (throw e : Except ε α) ≠ .ok a := by
  simp [throw, throwThe, MonadExceptOf.throw]

variable {f : α → Except ε β}

theorem mapM_eq_ok {l : List α} {bs : List β} :
    l.mapM f = .ok bs ↔ List.Forall₂ (fun a b => f a = .ok b) l bs := by
  induction l generalizing bs with
  | nil => cases bs <;> simp [pure, Except.pure]
  | cons a l ih =>
    rw [List.mapM_cons, bind_eq_ok, List.forall₂_cons_left_iff]
    constructor
    · rintro ⟨b, hb, hrest⟩
      obtain ⟨bs', hbs', hpure⟩ := bind_eq_ok.mp hrest
      exact ⟨b, bs', hb, ih.mp hbs', (pure_eq_ok.mp hpure).symm⟩
    · rintro ⟨b, bs', hb, hbs', rfl⟩
      exact ⟨b, hb, bind_eq_ok.mpr ⟨bs', ih.mpr hbs', rfl⟩⟩

/-- A list of computations fails as one of them does. -/
theorem exists_of_mapM_error {l : List α} {e : ε} (h : l.mapM f = .error e) : ∃ a ∈ l, f a = .error e := by
  induction l with
  | nil => cases h
  | cons a l ih =>
    rw [List.mapM_cons] at h
    cases ha : f a with
    | error e' =>
      rw [ha] at h
      cases h
      exact ⟨a, List.mem_cons_self, ha⟩
    | ok b =>
      rw [ha] at h
      cases hrest : l.mapM f with
      | error e' =>
        rw [hrest] at h
        cases h
        obtain ⟨a', ha', hfa'⟩ := ih hrest
        exact ⟨a', List.mem_cons_of_mem _ ha', hfa'⟩
      | ok bs =>
        rw [hrest] at h
        cases h

theorem exists_of_forall₂ {R : α → β → Prop} {l : List α} {bs : List β} (h : List.Forall₂ R l bs) :
    ∀ a ∈ l, ∃ b ∈ bs, R a b := by
  induction h with
  | nil => simp
  | cons hab _ ih =>
    refine List.forall_mem_cons.mpr ⟨⟨_, List.mem_cons_self, hab⟩, fun a ha => ?_⟩
    obtain ⟨b, hb, hR⟩ := ih a ha
    exact ⟨b, List.mem_cons_of_mem _ hb, hR⟩

theorem exists_mapM_ok_iff {l : List α} : (∃ bs, l.mapM f = .ok bs) ↔ ∀ a ∈ l, ∃ b, f a = .ok b := by
  constructor
  · rintro ⟨bs, hbs⟩ a ha
    obtain ⟨b, -, hb⟩ := exists_of_forall₂ (mapM_eq_ok.mp hbs) a ha
    exact ⟨b, hb⟩
  · intro h
    cases hl : l.mapM f with
    | ok bs => exact ⟨bs, rfl⟩
    | error e =>
      obtain ⟨a, ha, hfa⟩ := exists_of_mapM_error hl
      obtain ⟨b, hb⟩ := h a ha
      cases hfa.symm.trans hb

end

/-! ## Names -/

/-- A name as a folder can hold it: not empty and without a slash. -/
def IsName (name : String) : Prop := name ≠ "" ∧ '/' ∉ name.toList

instance (name : String) : Decidable (IsName name) := inferInstanceAs (Decidable (_ ∧ _))

/-- The names that lead to the working directory and to the home directory are names. -/
structure Disk.WellNamed (disk : Disk) : Prop where
  cwd : ∀ name ∈ disk.cwd, IsName name
  home : ∀ name ∈ disk.home, IsName name

theorem Text.split_ne_nil (mark : Char) (t : Text) : Text.split mark t ≠ [] := by
  cases t with
  | nil => exact List.cons_ne_nil _ _
  | cons c t =>
    have hsplit : Text.split mark (c :: t) = consPart mark c (Text.split mark t) := rfl
    rw [hsplit]
    unfold consPart
    split
    · exact List.cons_ne_nil _ _
    · split <;> exact List.cons_ne_nil _ _

theorem Text.not_mem_of_mem_split {mark : Char} {t part : Text} (h : part ∈ Text.split mark t) :
    mark ∉ part := by
  induction t generalizing part with
  | nil =>
    rw [List.mem_singleton.mp h]
    exact List.not_mem_nil
  | cons c t ih =>
    have hsplit : Text.split mark (c :: t) = consPart mark c (Text.split mark t) := rfl
    rw [hsplit] at h
    cases hparts : Text.split mark t with
    | nil => exact absurd hparts (Text.split_ne_nil mark t)
    | cons first rest =>
      rw [hparts] at h ih
      have hfirst : mark ∉ first := ih List.mem_cons_self
      by_cases hc : c = mark
      · rw [consPart, if_pos hc] at h
        rcases List.mem_cons.mp h with rfl | h
        · exact List.not_mem_nil
        · exact ih h
      · rw [consPart, if_neg hc] at h
        rcases List.mem_cons.mp h with rfl | h
        · simp [Ne.symm hc, hfirst]
        · exact ih (List.mem_cons_of_mem _ h)

theorem Path.isName_of_mem_splitNames {s name : String} (h : name ∈ Path.splitNames s) :
    IsName name ∧ name ≠ "." := by
  unfold Path.splitNames at h
  rw [List.mem_filter, List.mem_map] at h
  obtain ⟨⟨part, hpart, rfl⟩, hname⟩ := h
  simp only [Bool.and_eq_true, bne_iff_ne] at hname
  refine ⟨⟨hname.1, ?_⟩, hname.2⟩
  rw [String.toList_ofList]
  exact Text.not_mem_of_mem_split hpart

theorem Place.text_toList (p : Place) :
    p.text.toList = '/' :: ['/'].intercalate (p.map String.toList) := by
  simp [Place.text]

/-- **Places are told apart by their texts**, as long as their names are names. -/
theorem Place.text_injective {p q : Place} (hp : ∀ name ∈ p, IsName name)
    (hq : ∀ name ∈ q, IsName name) (h : p.text = q.text) : p = q := by
  have hcut : ∀ r : Place, (∀ name ∈ r, IsName name) → ∀ l ∈ r.map String.toList, '/' ∉ l := by
    intro r hr l hl
    obtain ⟨name, hname, rfl⟩ := List.mem_map.mp hl
    exact (hr name hname).2
  have hne : ∀ r : Place, (∀ name ∈ r, IsName name) →
      ['/'].intercalate (r.map String.toList) = [] → r = [] := by
    intro r hr h
    cases r with
    | nil => rfl
    | cons n r =>
      have hsplit := List.splitOn_intercalate '/' (hcut _ hr) (by simp)
      rw [h] at hsplit
      have hn : n = "" ∧ r = [] := by simpa using hsplit.symm
      exact absurd hn.1 (hr n List.mem_cons_self).1
  have htexts := congrArg String.toList h
  rw [Place.text_toList, Place.text_toList, List.cons.injEq] at htexts
  cases p with
  | nil => exact (hne q hq (by simpa using htexts.2.symm)).symm
  | cons n p =>
    cases q with
    | nil => exact hne _ hp (by simpa using htexts.2)
    | cons m q =>
      have hs := congrArg (List.splitOn '/') htexts.2
      rw [List.splitOn_intercalate '/' (hcut _ hp) (by simp),
        List.splitOn_intercalate '/' (hcut _ hq) (by simp)] at hs
      exact List.map_inj_right (fun a b => String.toList_inj.mp) |>.mp hs

/-! ## One step of a resolution -/

namespace Disk

section
variable {disk : Disk} {strict : Bool} {depth : Nat} {pending : List Trail} {trail : Trail} {step : String}
  {rest : List String} {entry : Entry} {target : String}

@[simp] theorem follow_nil : disk.follow strict depth pending trail [] = .ok trail := by
  rw [follow]

theorem follow_up : disk.follow strict depth pending trail (".." :: rest) =
    disk.follow strict depth pending trail.parent rest := by
  rw [follow, if_pos rfl]

theorem follow_unnameable (hup : step ≠ "..") (hrefused : (!isNameable step) = true) :
    disk.follow strict depth pending trail (step :: rest) = .error .unnameable := by
  rw [follow, if_neg hup, if_pos hrefused]

theorem follow_missing {errno : Errno} (hup : step ≠ "..") (hnamed : ¬(!isNameable step) = true)
    (hentry : disk.entryAt (trail.child step) = .error errno) :
    disk.follow strict depth pending trail (step :: rest) =
      if strict then .error (.missing errno (trail.child step))
      else disk.follow strict depth pending (trail.child step) rest := by
  rw [follow, if_neg hup, if_neg hnamed]
  simp only [hentry]

/-- What is no link is entered. -/
theorem follow_entry (hup : step ≠ "..") (hnamed : ¬(!isNameable step) = true)
    (hentry : disk.entryAt (trail.child step) = .ok entry) (hlink : ∀ target, entry ≠ .link target) :
    disk.follow strict depth pending trail (step :: rest) =
      disk.follow strict depth pending (trail.child step) rest := by
  rw [follow, if_neg hup, if_neg hnamed]
  simp only [hentry]

theorem follow_pending (hup : step ≠ "..") (hnamed : ¬(!isNameable step) = true)
    (hentry : disk.entryAt (trail.child step) = .ok (.link target)) (hpending : trail.child step ∈ pending) :
    disk.follow strict depth pending trail (step :: rest) = .error (.cyclic (trail.child step) rest) := by
  rw [follow, if_neg hup, if_neg hnamed]
  simp only [hentry, if_pos hpending]

theorem follow_exhausted (hup : step ≠ "..") (hnamed : ¬(!isNameable step) = true)
    (hentry : disk.entryAt (trail.child step) = .ok (.link target)) :
    disk.follow strict 0 pending trail (step :: rest) = .error (.cyclic (trail.child step) rest) := by
  rw [follow, if_neg hup, if_neg hnamed]
  simp only [hentry, ite_self]

/-- The target of a link is followed first, from the root or from the folder of the link. -/
theorem follow_link {result : Except Unresolved Trail} (hup : step ≠ "..") (hnamed : ¬(!isNameable step) = true)
    (hentry : disk.entryAt (trail.child step) = .ok (.link target)) (hnew : trail.child step ∉ pending) :
    disk.follow strict depth (trail.child step :: pending)
        (if isAbsoluteText target then .root else trail) (Path.splitNames target) = result →
      disk.follow strict (depth + 1) pending trail (step :: rest) =
        match result with
        | .ok reached => disk.follow strict (depth + 1) pending reached rest
        | .error (.cyclic link left) => .error (.cyclic link (left ++ rest))
        | .error stop => .error stop := by
  intro htarget
  rw [follow, if_neg hup, if_neg hnamed]
  cases result with
  | ok reached => simp only [hentry, if_neg hnew, htarget]
  | error stop => cases stop <;> simp only [hentry, if_neg hnew, htarget]

end

/-! ## What following a path keeps -/

/-- A property of trails that the root has and that steps up and steps to existing entries keep holds
where a path leads.  The steps of a path and of every link on the way satisfy `Q`. -/
theorem follow_keeps {disk : Disk} {P : Trail → Prop} {Q : String → Prop}
    (hsplit : ∀ s, ∀ name ∈ Path.splitNames s, Q name) (hroot : P .root)
    (hparent : ∀ t, P t → P t.parent)
    (hchild : ∀ t name entry, P t → Q name → name ≠ ".." → disk.entryAt (t.child name) = .ok entry →
      (∀ target, entry ≠ .link target) → P (t.child name))
    {depth : Nat} {pending : List Trail} {trail reached : Trail} {steps : List String}
    (h : disk.follow true depth pending trail steps = .ok reached)
    (htrail : P trail) (hsteps : ∀ step ∈ steps, Q step) : P reached := by
  fun_induction follow disk true depth pending trail steps generalizing reached with
  | case1 =>
    cases h
    exact htrail
  | case2 depth pending trail rest ih =>
    exact ih h (hparent _ htrail) fun step hs => hsteps step (List.mem_cons_of_mem _ hs)
  | case5 => exact absurd rfl ‹¬true = true›
  | case8 pending trail step rest _ _ _ target _ _ depth reached' hlink ihLink =>
    rename_i ihRest
    -- the steps of the link come first, from the root or from the folder of the link
    have hstart : P (if isAbsoluteText target then .root else trail) := by
      split
      · exact hroot
      · exact htrail
    exact ihRest h (ihLink hlink hstart (hsplit target))
      fun step hs => hsteps step (List.mem_cons_of_mem _ hs)
  | case11 depth pending trail step rest hup _ _ entry hlink hentry =>
    rename_i ih
    have hnext : P (trail.child step) :=
      hchild trail step entry htrail (hsteps step List.mem_cons_self) hup hentry hlink
    exact ih h hnext fun step hs => hsteps step (List.mem_cons_of_mem _ hs)
  | _ => cases h

theorem canonical?_ok {disk : Disk} {request : String} {place : Place}
    (h : disk.canonical? request = .ok place) :
    ∃ path trail, disk.expandHome request = .ok path ∧ disk.followPath true path = .ok trail ∧
      place = disk.place trail := by
  unfold canonical? at h
  cases hpath : disk.expandHome request with
  | error fault =>
    rw [hpath] at h
    cases h
  | ok path =>
    rw [hpath] at h
    simp only [bind, Except.bind] at h
    split at h
    · next trail htrail =>
      cases h
      exact ⟨path, trail, rfl, htrail, rfl⟩
    all_goals cases h

theorem expandHome_named {disk : Disk} (hd : disk.WellNamed) {request : String} {path : Path}
    (h : disk.expandHome request = .ok path) : ∀ name ∈ path.parts, IsName name := by
  have hparts : ∀ name ∈ (Path.ofString request).parts, IsName name :=
    fun name hn => (Path.isName_of_mem_splitNames hn).1
  unfold expandHome at h
  simp only at h
  split at h
  · next first rest _ heq =>
    rw [heq] at hparts
    split at h
    · split at h
      · cases h
        intro name hn
        rcases List.mem_append.mp hn with hn | hn
        · exact hd.home name hn
        · exact hparts name (List.mem_cons_of_mem _ hn)
      · split at h <;> cases h
    · cases h
      rw [heq]
      exact hparts
  · cases h
    exact hparts

/-- A disk whose two directories are known by their texts is well named. -/
theorem WellNamed.of_texts {disk : Disk} {cwd home : String} (hcwd : disk.cwd = (Path.ofString cwd).parts)
    (hhome : disk.home = (Path.ofString home).parts) : disk.WellNamed where
  cwd := by
    rw [hcwd]
    exact fun name hn => (Path.isName_of_mem_splitNames hn).1
  home := by
    rw [hhome]
    exact fun name hn => (Path.isName_of_mem_splitNames hn).1

/-- **The names of a canonical place are names.** -/
theorem canonical?_named {disk : Disk} (hd : disk.WellNamed) {request : String} {place : Place}
    (h : disk.canonical? request = .ok place) : ∀ name ∈ place, IsName name := by
  obtain ⟨path, trail, hpath, htrail, rfl⟩ := canonical?_ok h
  have hnames : ∀ name ∈ trail.names, IsName name := by
    refine follow_keeps (P := fun t => ∀ name ∈ t.names, IsName name) (Q := IsName)
      (fun s name hn => (Path.isName_of_mem_splitNames hn).1) ?_ ?_ ?_ htrail ?_
      (expandHome_named hd hpath)
    · simp [Trail.root]
    · intro t ht
      unfold Trail.parent
      split
      · exact fun name hn => ht name (List.dropLast_subset _ hn)
      · split <;> exact ht
    · intro t name entry ht hname _ _ _ n hn
      rcases List.mem_append.mp hn with hn | hn
      · exact ht n hn
      · rw [List.mem_singleton.mp hn]
        exact hname
    · split <;> simp [Trail.root, Trail.here]
  intro name hn
  unfold place at hn
  split at hn
  · exact hnames name hn
  · rcases List.mem_append.mp hn with hn | hn
    · exact hd.cwd name (List.mem_of_mem_take hn)
    · exact hnames name hn

end Disk

/-! ## Places that are reached without links -/

/-- Every name on the way to a place leads to an entry that is no link. -/
def FileTree.Solid (tree : FileTree) (place : Place) : Prop :=
  ∀ p name, p ++ [name] <+: place → isStay name = false ∧ name ≠ ".." ∧
    ∃ entry, tree.entry? (p ++ [name]) = some entry ∧ ∀ target, entry ≠ .link target

namespace FileTree

variable {tree : FileTree}

theorem Solid.nil : tree.Solid [] := by
  intro p name h
  simp at h

theorem Solid.of_prefix {p q : Place} (h : tree.Solid q) (hp : p <+: q) : tree.Solid p :=
  fun r name hr => h r name (hr.trans hp)

theorem Solid.snoc {place : Place} {name : String} {entry : Entry} (h : tree.Solid place)
    (hstay : isStay name = false) (hup : name ≠ "..") (hentry : tree.entry? (place ++ [name]) = some entry)
    (hlink : ∀ target, entry ≠ .link target) : tree.Solid (place ++ [name]) := by
  intro p n hp
  rcases List.prefix_concat_iff.mp hp with heq | hp
  · obtain ⟨rfl, rfl⟩ := List.append_singleton_inj.mp heq
    exact ⟨hstay, hup, entry, hentry, hlink⟩
  · exact h p n hp

/-- The system goes down a solid place name by name. -/
theorem locate_of_solid {budget : Nat} {step : String} {r : Place × Option Entry} (p q : Place)
    (hsolid : tree.Solid (p ++ q)) (h : tree.locate .entry budget p (q ++ [step]) = .ok r) :
    tree.locate .entry budget (p ++ q) [step] = .ok r := by
  induction q generalizing p with
  | nil => rwa [List.append_nil]
  | cons name q ih =>
    have hpq : p ++ name :: q = (p ++ [name]) ++ q := by simp
    obtain ⟨hstay, hup, entry, hentry, hlink⟩ := hsolid p name (by rw [hpq]; exact List.prefix_append _ _)
    rw [hpq] at hsolid ⊢
    refine ih (p ++ [name]) hsolid ?_
    rw [List.cons_append, locate] at h
    cases hp : tree.entry? p with
    | none => simp [hp] at h
    | some e =>
      cases e with
      | file content => simp [hp] at h
      | link target => simp [hp] at h
      | folder =>
        simp only [hp, hstay, hup, hentry, if_false, Bool.false_eq_true, reduceCtorEq, false_and] at h
        split at h
        · cases h
        · cases entry with
          | link target => exact absurd rfl (hlink target)
          | file content => exact h
          | folder => exact h

theorem entry?_of_locate {budget : Nat} {place reached : Place} {step : String} {entry : Option Entry}
    (hstay : isStay step = false) (hup : step ≠ "..")
    (h : tree.locate .entry budget place [step] = .ok (reached, entry)) :
    tree.entry? (place ++ [step]) = entry := by
  rw [locate] at h
  cases hp : tree.entry? place with
  | none => simp [hp] at h
  | some e =>
    cases e with
    | file content => simp [hp] at h
    | link target => simp [hp] at h
    | folder =>
      simp only [hp, hstay, hup, if_false, Bool.false_eq_true, reduceCtorEq, false_and] at h
      split at h
      · cases h
      · split at h
        · next target hlink =>
          simp only [and_self, if_true, Except.ok.injEq, Prod.mk.injEq] at h
          rw [hlink, h.2]
        · rw [locate] at h
          simp only [Except.ok.injEq, Prod.mk.injEq] at h
          exact h.2

/-- A path that is followed to its end reaches what stands there. -/
theorem entry?_of_located {purpose : Purpose} {budget : Nat} {place reached : Place}
    {steps : List String} {entry : Option Entry}
    (h : tree.locate purpose budget place steps = .ok (reached, entry)) :
    tree.entry? reached = entry := by
  fun_induction locate tree purpose budget place steps
  case case1 =>
    cases h
    rfl
  all_goals simp_all

end FileTree

theorem Path.anchor_ofString_ne {s : String} (h : s.toList.head? = some '/') :
    (Path.ofString s).anchor ≠ .relative := by
  cases hs : s.toList with
  | nil => simp [hs] at h
  | cons c cs =>
    obtain rfl : c = '/' := by simpa [hs] using h
    simp only [Path.ofString, hs, Path.anchorOf, List.takeWhile_cons, beq_self_eq_true, if_true,
      List.length_cons]
    split
    · omega
    · split <;> simp

theorem Path.head?_toString {p : Path} (h : p.anchor ≠ .relative) :
    p.toString.toList.head? = some '/' := by
  cases ha : p.anchor with
  | relative => exact absurd ha h
  | root => simp [Path.toString, ha, Anchor.text]
  | doubleRoot => simp [Path.toString, ha, Anchor.text]

/-- An import is an absolute request. -/
theorem Flatten.head?_importRequest (place : Place) (path : Text) :
    (Flatten.importRequest place path).toList.head? = some '/' := by
  refine Path.head?_toString ?_
  unfold Path.join
  split
  · next h => exact bne_iff_ne.mp h
  · simp [Path.parent, Place.path]

namespace Disk

/-- The entry at the end of a trail from the root whose names so far are solid. -/
theorem entry?_of_entryAt {disk : Disk} {t : Trail} {name : String} {entry : Entry}
    (hanchored : t.anchored = true) (hups : t.ups = 0) (hsolid : disk.tree.Solid t.names)
    (hstay : isStay name = false) (hup : name ≠ "..") (h : disk.entryAt (t.child name) = .ok entry) :
    disk.tree.entry? (t.names ++ [name]) = some entry := by
  have hsteps : (t.child name).steps = t.names ++ [name] := by simp [Trail.steps, Trail.child, hups]
  have hchild : (t.child name).anchored = true := hanchored
  rw [entryAt, hsteps, hchild, if_pos rfl] at h
  split at h
  · cases h
  · unfold FileTree.walk at h
    split at h
    · next place e hlocate =>
      cases h
      exact FileTree.entry?_of_locate hstay hup
        (FileTree.locate_of_solid [] t.names (by simpa using hsolid) hlocate)
    all_goals cases h

/-- **An absolute request leads to a solid place.** -/
theorem canonical?_solid {disk : Disk} {request : String} {place : Place}
    (habs : request.toList.head? = some '/') (h : disk.canonical? request = .ok place) :
    disk.tree.Solid place := by
  obtain ⟨path, trail, hpath, htrail, rfl⟩ := canonical?_ok h
  have hanchor := Path.anchor_ofString_ne habs
  have hpath' : path = Path.ofString request := by
    unfold expandHome at hpath
    simp only at hpath
    split at hpath
    · next ha _ => exact absurd ha hanchor
    · cases hpath
      rfl
  have hkept : trail.anchored = true ∧ trail.ups = 0 ∧ disk.tree.Solid trail.names := by
    refine follow_keeps (P := fun t => t.anchored = true ∧ t.ups = 0 ∧ disk.tree.Solid t.names)
      (Q := fun name => IsName name ∧ name ≠ ".")
      (fun s name hn => Path.isName_of_mem_splitNames hn) ⟨rfl, rfl, .nil⟩ ?_ ?_ htrail ?_ ?_
    · rintro t ⟨hanchored, hups, hsolid⟩
      unfold Trail.parent
      split
      · exact ⟨hanchored, hups, hsolid.of_prefix (List.dropLast_prefix _)⟩
      · simp [hanchored, hups, hsolid]
    · rintro t name entry ⟨hanchored, hups, hsolid⟩ hname hup hentry hlink
      have hstay : isStay name = false := by simp [isStay, hname.2, hname.1.1]
      exact ⟨hanchored, hups, hsolid.snoc hstay hup
        (entry?_of_entryAt hanchored hups hsolid hstay hup hentry) hlink⟩
    · rw [if_pos (by rw [hpath']; exact bne_iff_ne.mpr hanchor)]
      exact ⟨rfl, rfl, .nil⟩
    · rw [hpath']
      exact fun name hn => Path.isName_of_mem_splitNames hn
  rw [place, if_pos hkept.1]
  exact hkept.2.2

/-- The root is a folder and cannot be read. -/
theorem readBytes_root (disk : Disk) (content : ByteArray) :
    disk.readBytes (Place.path []) ≠ .ok content := by
  have hlocate : disk.tree.locate .target maxLinks [] [] = .ok ([], some .folder) := by
    rw [FileTree.locate]
    rfl
  have hlength : ¬ maxPathBytes < (Place.path []).toString.utf8ByteSize := by decide
  have hstat : disk.stat (Place.path []) = .ok ([], .folder) := by
    have hbase : disk.base (Place.path []) = [] := rfl
    have hparts : (Place.path []).parts = [] := rfl
    have hnameable : (Place.path []).isNameable = true := rfl
    rw [stat, locate, hnameable, if_neg (by simp), if_neg hlength, hbase, hparts, hlocate]
    rfl
  simp [readBytes, hstat]

/-- **A file that an import leads to is an entry of the tree.** -/
theorem mem_entries_of_import {disk : Disk} {place target : Place} {path : Text} {content : ByteArray}
    (h : disk.canonical? (Flatten.importRequest place path) = .ok target)
    (hread : disk.readBytes target.path = .ok content) : target ∈ disk.tree.entries.map (·.1) := by
  have hsolid := canonical?_solid (Flatten.head?_importRequest place path) h
  rcases List.eq_nil_or_concat target with rfl | ⟨p, name, rfl⟩
  · exact absurd hread (readBytes_root disk content)
  · rw [List.concat_eq_append] at hsolid ⊢
    obtain ⟨-, -, entry, hentry, -⟩ := hsolid p name (List.prefix_refl _)
    rw [FileTree.entry?, if_neg (by simp), Option.map_eq_some_iff] at hentry
    obtain ⟨⟨q, e⟩, hfind, -⟩ := hentry
    have hq : q = p ++ [name] := by simpa using List.find?_some hfind
    rw [← hq]
    exact List.mem_map.mpr ⟨(q, e), List.mem_of_find?_eq_some hfind, rfl⟩

end Disk

/-! ## Files in the root folder -/

/-- A name that the system takes as it is. -/
structure IsPlainName (name : String) : Prop where
  stay : isStay name = false
  up : name ≠ ".."
  nameable : isNameable name = true
  short : name.utf8ByteSize ≤ maxNameBytes

theorem IsPlainName.length_le {name : String} (h : IsPlainName name) :
    ¬ maxPathBytes < ("/" ++ name).utf8ByteSize := by
  have hshort : name.utf8ByteSize ≤ 255 := h.short
  have hslash : "/".utf8ByteSize = 1 := by decide
  have hmax : maxPathBytes = 4095 := rfl
  rw [String.utf8ByteSize_append, hslash, hmax]
  omega

section
variable {disk : Disk} {name : String} {content : ByteArray}

theorem FileTree.locate_root {tree : FileTree} {purpose : Purpose} (hname : IsPlainName name)
    (hpurpose : purpose ≠ .creation) (hentry : tree.entry? [name] = some (.file content)) (budget : Nat) :
    tree.locate purpose budget [] [name] = .ok ([name], some (.file content)) := by
  have hroot : tree.entry? [] = some .folder := rfl
  have hshort : ¬ maxNameBytes < name.utf8ByteSize := Nat.not_lt.mpr hname.short
  rw [locate]
  simp only [hroot, hname.stay, hname.up, hpurpose, hshort, List.nil_append, hentry, if_false,
    Bool.false_eq_true, false_and]
  rw [locate, hentry]

theorem Disk.stat_root (hname : IsPlainName name)
    (hentry : disk.tree.entry? [name] = some (.file content)) :
    disk.stat (Place.path [name]) = .ok ([name], .file content) := by
  have hnameable : (Place.path [name]).isNameable = true := by
    simp [Place.path, Path.isNameable, hname.nameable]
  have htext : (Place.path [name]).toString = "/" ++ name := by
    simp [Place.path, Path.toString, Anchor.text]
  have hbase : disk.base (Place.path [name]) = [] := rfl
  have hparts : (Place.path [name]).parts = [name] := rfl
  have hlocate : disk.locate .target (Place.path [name]) = .ok ([name], some (.file content)) := by
    rw [locate, hnameable, if_neg (by simp), htext, if_neg hname.length_le, hbase, hparts,
      FileTree.locate_root hname (by simp) hentry]
    rfl
  rw [stat, hlocate]

theorem Disk.canonical?_root {request : String} (hname : IsPlainName name)
    (hrequest : Path.ofString request = Place.path [name])
    (hentry : disk.tree.entry? [name] = some (.file content)) :
    disk.canonical? request = .ok [name] := by
  have hpath : disk.expandHome request = .ok (Place.path [name]) := by
    rw [expandHome, hrequest]
    rfl
  have hentryAt : disk.entryAt (Trail.root.child name) = .ok (.file content) := by
    have htext : (Trail.root.child name).text = "/" ++ name := by
      simp [Trail.text, Trail.root, Trail.child, Trail.steps]
    have hsteps : (Trail.root.child name).steps = [name] := rfl
    have hanchored : (Trail.root.child name).anchored = true := rfl
    rw [entryAt, htext, if_neg hname.length_le, hsteps, hanchored, if_pos rfl, FileTree.walk,
      FileTree.locate_root hname (by simp) hentry]
    rfl
  have hfollow : disk.followPath true (Place.path [name]) = .ok (Trail.root.child name) := by
    have hstart : disk.followPath true (Place.path [name]) =
        disk.follow true disk.linkDepth [] .root [name] := rfl
    rw [hstart, follow, if_neg hname.up, hname.nameable, if_neg (by simp)]
    simp only [hentryAt]
    rw [follow]
  rw [canonical?, hpath]
  simp only [bind, Except.bind, hfollow]
  rfl

end

/-! ## A disk with two files -/

namespace Disk

/-- Two files in the root folder: a shader, and a part that it may import. -/
def pair (shader part : ByteArray) : Disk :=
  ⟨⟨[(["a"], .file shader), (["b.wgsl"], .file part)]⟩, [], []⟩

theorem isPlainName_shader : IsPlainName "a" := ⟨by decide, by decide, by decide, by decide⟩
theorem isPlainName_part : IsPlainName "b.wgsl" := ⟨by decide, by decide, by decide, by decide⟩

section
variable (shader part : ByteArray)

theorem wellNamed_pair : (pair shader part).WellNamed := by
  have hroot : (Path.ofString "/").parts = [] := by decide
  exact .of_texts hroot.symm hroot.symm

theorem entry?_pair_shader : (pair shader part).tree.entry? ["a"] = some (.file shader) := by
  simp [pair, FileTree.entry?]

theorem entry?_pair_part : (pair shader part).tree.entry? ["b.wgsl"] = some (.file part) := by
  simp [pair, FileTree.entry?]

/-- The pair is all that the disk has. -/
theorem content_pair {shader part content : ByteArray} {place : Place}
    (h : (pair shader part).tree.entry? place = some (.file content)) :
    content = shader ∨ content = part := by
  simp only [pair, FileTree.entry?, List.find?_cons, List.find?_nil] at h
  split at h
  · cases h
  · split at h
    · cases h
      exact .inl rfl
    · split at h <;> cases h
      exact .inr rfl

theorem canonical?_pair_shader : (pair shader part).canonical? "/a" = .ok ["a"] :=
  canonical?_root isPlainName_shader (by decide) (entry?_pair_shader shader part)

theorem canonical?_pair_part : (pair shader part).canonical? "/b.wgsl" = .ok ["b.wgsl"] :=
  canonical?_root isPlainName_part (by decide) (entry?_pair_part shader part)

theorem readBytes_pair_shader : (pair shader part).readBytes (Place.path ["a"]) = .ok shader := by
  rw [readBytes, stat_root isPlainName_shader (entry?_pair_shader shader part)]

theorem readBytes_pair_part : (pair shader part).readBytes (Place.path ["b.wgsl"]) = .ok part := by
  rw [readBytes, stat_root isPlainName_part (entry?_pair_part shader part)]

end

end Disk

end ShaderFlatten
