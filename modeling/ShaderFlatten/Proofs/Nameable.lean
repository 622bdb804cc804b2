import Mathlib.Data.List.TakeWhile
import ShaderFlatten.Proofs.Canonical

/-!
# Names that can be written

A name with a zero character cannot be written, and a path with such a name is refused before anything is
looked at.  The grammar admits only letters, digits, underscores, dots and slashes in the path of an import
line, so on a disk whose own names can be written only a requested path is ever refused for that:

    isNameable request → disk.canonical? request ≠ .error .unnameable
-/

namespace ShaderFlatten

/-! ## Import paths -/

/-- A character that the path of an import line may have. -/
def IsPathChar (c : Char) : Prop := c = '.' ∨ c = '/' ∨ c = '_' ∨ Text.isWord c = true

theorem IsPathChar.ne_zero {c : Char} (h : IsPathChar c) : c ≠ Char.ofNat 0 := by
  rintro rfl
  rcases h with h | h | h | h <;> exact absurd h (by decide)

/-- A rule takes a text from the front of another one, made of characters that a path may have. -/
structure Takes (taken s : Text) : Prop where
  front : taken <+: s
  chars : ∀ c ∈ taken, IsPathChar c

namespace Takes

variable {a b s : Text}

theorem nil : Takes [] s := ⟨List.nil_prefix, by simp⟩

theorem append (ha : Takes a s) (hb : Takes b (s.drop a.length)) : Takes (a ++ b) s where
  front := by
    obtain ⟨rest, rfl⟩ := ha.front
    rw [List.drop_left] at hb
    exact (List.prefix_append_right_inj a).mpr hb.front
  chars := fun c hc => (List.mem_append.mp hc).elim (ha.chars c) (hb.chars c)

theorem takeWhile {p : Char → Bool} (h : ∀ c, p c = true → IsPathChar c) : Takes (s.takeWhile p) s where
  front := List.takeWhile_prefix p
  chars := fun c hc => h c (List.mem_takeWhile_imp hc)

theorem word : Takes (s.takeWhile Text.isWord) s := .takeWhile fun _ h => .inr (.inr (.inr h))

end Takes

theorem drop_takeWhile (p : Char → Bool) (s : Text) :
    s.drop (s.takeWhile p).length = s.dropWhile p := by
  induction s with
  | nil => rfl
  | cons c s ih => by_cases h : p c = true <;> simp [h, ih]

namespace Rule

section
variable (s : Text)

theorem takes_slash : Takes (slash s) s := by
  unfold slash
  split
  · exact ⟨⟨_, rfl⟩, by simp [IsPathChar]⟩
  · exact .nil

theorem takes_dotsSlash : Takes (dotsSlash s) s := by
  have hdots : Takes (s.takeWhile (· == '.')) s := .takeWhile fun c hc => .inl (by simpa using hc)
  unfold dotsSlash
  split
  · exact .nil
  · next hrest _ =>
    refine hdots.append ?_
    rw [drop_takeWhile, hrest]
    exact ⟨⟨_, rfl⟩, by simp [IsPathChar]⟩
  · exact .nil

theorem takes_segmentLead : Takes (segmentLead s) s :=
  (takes_dotsSlash s).append (.takeWhile fun c hc => .inr (.inr (.inl (by simpa using hc))))

theorem takes_segment : Takes (segment s) s := by
  unfold segment
  simp only
  split
  · exact .nil
  · refine ((takes_segmentLead s).append .word).append ?_
    rw [List.length_append, ← List.drop_drop, drop_takeWhile]
    exact takes_slash _

theorem takes_segments (n : Nat) : Takes (segments n s) s := by
  induction n generalizing s with
  | zero => exact .nil
  | succ n ih =>
    have hunfold : segments (n + 1) s =
        if (segment s).isEmpty then [] else segment s ++ segments n (s.drop (segment s).length) := rfl
    rw [hunfold]
    split
    · exact .nil
    · exact (takes_segment s).append (ih _)

theorem takes_pathStem : Takes (pathStem s) s :=
  ((takes_slash s).append (takes_segments _ maxRepeat)).append .word

theorem extension_chars : ∀ c ∈ extension, IsPathChar c := by
  have hall : (extension.all fun c => c = '.' ∨ Text.isWord c) = true := by decide
  intro c hc
  have hchar : c = '.' ∨ Text.isWord c = true := by simpa using List.all_eq_true.mp hall c hc
  rcases hchar with h | h
  · exact .inl h
  · exact .inr (.inr (.inr h))

/-- **What an import path is made of.** -/
theorem importPath_chars {line path : Text} {offset stop : Nat}
    (h : importPath line offset = .ok (path, stop)) : ∀ c ∈ path, IsPathChar c := by
  have hstem := takes_pathStem (line.drop offset)
  simp only [importPath, literal, bind, Except.bind, pure, Except.pure] at h
  generalize pathStem (line.drop offset) = stem at h hstem
  obtain ⟨rest, hrest⟩ := hstem.front
  split at h
  · cases h
  · next found hliteral =>
    split at hliteral
    · next hfound =>
      cases hliteral
      simp only [Except.ok.injEq, Prod.mk.injEq] at h
      obtain ⟨rfl, -⟩ := h
      rcases Nat.lt_or_ge line.length offset with hpast | hwithin
      · simp [List.drop_eq_nil_of_le hpast.le]
      · -- the path is the stem and the extension behind it
        have hlength : stem.length ≤ line.length - offset := by
          rw [← List.length_drop]
          exact hstem.front.length_le
        have hmin : min (offset + stem.length) line.length = offset + stem.length := by omega
        rw [hmin, ← List.drop_drop, ← hrest, List.drop_left] at hfound
        obtain ⟨behind, hbehind⟩ := List.isPrefixOf_iff_prefix.mp hfound.2
        have hcount : min (offset + stem.length) line.length + extension.length - offset =
            (stem ++ extension).length := by
          rw [hmin, List.length_append]
          omega
        rw [hcount, ← hrest, ← hbehind, ← List.append_assoc, List.take_left]
        intro c hc
        rcases List.mem_append.mp hc with hc | hc
        · exact hstem.chars c hc
        · exact extension_chars c hc
    · cases hliteral

end

end Rule

theorem Line.importPath?_chars {line path : Text} (h : importPath? line = .ok path) :
    ∀ c ∈ path, IsPathChar c := by
  simp only [importPath?, bind, Except.bind] at h
  split at h
  · cases h
  · split at h
    · cases h
    · split at h
      · cases h
      · next found hpath =>
        split at h
        · cases h
        · split at h
          · cases h
          · cases h
            exact Rule.importPath_chars hpath

/-! ## Paths -/

theorem isNameable_iff {name : String} : isNameable name = true ↔ Char.ofNat 0 ∉ name.toList := by
  simp [isNameable]

theorem Text.mem_of_mem_split {mark c : Char} {t part : Text} (hpart : part ∈ Text.split mark t)
    (hc : c ∈ part) : c ∈ t := by
  induction t generalizing part with
  | nil =>
    rw [List.mem_singleton.mp hpart] at hc
    exact hc
  | cons d t ih =>
    have hsplit : Text.split mark (d :: t) = consPart mark d (Text.split mark t) := rfl
    rw [hsplit] at hpart
    cases hparts : Text.split mark t with
    | nil => exact absurd hparts (Text.split_ne_nil mark t)
    | cons first rest =>
      rw [hparts] at hpart ih
      by_cases hd : d = mark
      · rw [consPart, if_pos hd] at hpart
        rcases List.mem_cons.mp hpart with rfl | hpart
        · exact absurd hc List.not_mem_nil
        · exact List.mem_cons_of_mem _ (ih hpart hc)
      · rw [consPart, if_neg hd] at hpart
        rcases List.mem_cons.mp hpart with rfl | hpart
        · rcases List.mem_cons.mp hc with rfl | hc
          · exact List.mem_cons_self
          · exact List.mem_cons_of_mem _ (ih List.mem_cons_self hc)
        · exact List.mem_cons_of_mem _ (ih (List.mem_cons_of_mem _ hpart) hc)

namespace Path

/-- The names of a text that can be written can be written. -/
theorem isNameable_splitNames {s name : String} (h : ShaderFlatten.isNameable s = true)
    (hname : name ∈ splitNames s) : ShaderFlatten.isNameable name = true := by
  rw [isNameable_iff] at h ⊢
  unfold splitNames at hname
  obtain ⟨part, hpart, rfl⟩ := List.mem_map.mp (List.mem_filter.mp hname).1
  rw [String.toList_ofList]
  exact fun hzero => h (Text.mem_of_mem_split hpart hzero)

/-- A path whose names can be written has a text that can be written. -/
theorem isNameable_toString {p : Path} (h : p.isNameable = true) :
    ShaderFlatten.isNameable p.toString = true := by
  rw [isNameable_iff]
  have hparts : ∀ name ∈ p.parts, Char.ofNat 0 ∉ name.toList :=
    fun name hname => isNameable_iff.mp (List.all_eq_true.mp h name hname)
  have hjoin : ∀ parts : List String, (∀ name ∈ parts, Char.ofNat 0 ∉ name.toList) →
      Char.ofNat 0 ∉ ("/".intercalate parts).toList := by
    intro parts hparts
    induction parts with
    | nil => simp
    | cons name rest ih =>
      have hname := hparts name List.mem_cons_self
      have hrest := ih fun other hother => hparts other (List.mem_cons_of_mem _ hother)
      cases rest with
      | nil => simpa using hname
      | cons other rest => simp_all
  unfold Path.toString
  split
  · decide
  · rw [String.toList_append, List.mem_append, not_or]
    refine ⟨?_, hjoin p.parts hparts⟩
    cases p.anchor <;> decide

end Path

/-! ## Disks -/

/-- The names that a disk has of its own can be written: those of its two directories, and those that its
links lead to. -/
structure Disk.Nameable (disk : Disk) : Prop where
  cwd : ∀ name ∈ disk.cwd, isNameable name = true
  home : ∀ name ∈ disk.home, isNameable name = true
  links : ∀ place target, disk.tree.entry? place = some (.link target) → isNameable target = true

namespace Disk

variable {disk : Disk}

theorem Nameable.link (hd : disk.Nameable) {t : Trail} {target : String}
    (h : disk.entryAt t = .ok (.link target)) : isNameable target = true := by
  unfold entryAt at h
  split at h
  · cases h
  · cases hwalk : disk.tree.walk .entry maxLinks (if t.anchored then [] else disk.cwd) t.steps with
    | error errno =>
      rw [hwalk] at h
      cases h
    | ok found =>
      rw [hwalk] at h
      obtain ⟨place, entry⟩ := found
      have hentry : entry = .link target := Except.ok.inj h
      unfold FileTree.walk at hwalk
      split at hwalk
      · next hlocate =>
        cases hwalk
        exact hd.links _ target (hentry ▸ FileTree.entry?_of_located hlocate)
      · cases hwalk
      · cases hwalk

/-- Following a path has led to names that can be written, or has ended for another reason. -/
def Written : Except Unresolved Trail → Prop
  | .ok trail => ∀ name ∈ trail.names, isNameable name = true
  | .error stop => stop ≠ .unnameable

/-- **Steps that can be written lead to names that can be written.** -/
theorem Nameable.follow (hd : disk.Nameable) {depth : Nat} {pending : List Trail} {trail : Trail}
    {steps : List String} (htrail : ∀ name ∈ trail.names, isNameable name = true)
    (hsteps : ∀ step ∈ steps, isNameable step = true) :
    Written (disk.follow true depth pending trail steps) := by
  have hrest : ∀ {step rest}, (∀ name ∈ step :: rest, isNameable name = true) →
      ∀ name ∈ rest, isNameable name = true :=
    fun hsteps name hname => hsteps name (List.mem_cons_of_mem _ hname)
  have hchild : ∀ {t : Trail} {step : String}, (∀ name ∈ t.names, isNameable name = true) →
      isNameable step = true → ∀ name ∈ (t.child step).names, isNameable name = true := by
    intro t step ht hstep name hname
    rcases List.mem_append.mp hname with hname | hname
    · exact ht name hname
    · rwa [List.mem_singleton.mp hname]
  -- a link starts at the root or in its own folder
  have hstart : ∀ {t : Trail} {target : String}, (∀ name ∈ t.names, isNameable name = true) →
      ∀ name ∈ (if isAbsoluteText target then Trail.root else t).names, isNameable name = true := by
    intro t target ht
    split
    · simp [Trail.root]
    · exact ht
  fun_induction Disk.follow disk true depth pending trail steps with
  | case1 => exact htrail
  | case2 depth pending trail rest ih =>
    refine ih ?_ (hrest hsteps)
    unfold Trail.parent
    split
    · exact fun name hname => htrail name (List.dropLast_subset _ hname)
    · split <;> exact htrail
  | case3 depth pending trail step rest hup hrefused =>
    rw [hsteps step List.mem_cons_self] at hrefused
    cases hrefused
  | case4 => simp [Written]
  | case5 => exact absurd rfl ‹¬true = true›
  | case6 => simp [Written]
  | case7 => simp [Written]
  | case8 pending trail step rest hup hnamed next target hentry hnew depth reached hlink ihLink ihRest =>
    have hreached := ihLink (hstart htrail) fun name => Path.isNameable_splitNames (hd.link hentry)
    rw [hlink] at hreached
    exact ihRest hreached (hrest hsteps)
  | case9 => simp [Written]
  | case10 pending trail step rest hup hnamed next target hentry hnew depth stop hother hlink ihLink =>
    have hstop := ihLink (hstart htrail) fun name => Path.isNameable_splitNames (hd.link hentry)
    rw [hlink] at hstop
    exact hstop
  | case11 depth pending trail step rest hup hnamed next entry hother hentry ih =>
    exact ih (hchild htrail (hsteps step List.mem_cons_self)) (hrest hsteps)

theorem Nameable.expandHome (hd : disk.Nameable) {request : String} (h : isNameable request = true) :
    disk.expandHome request ≠ .error .unnameable ∧
      ∀ path, disk.expandHome request = .ok path → ∀ name ∈ path.parts, isNameable name = true := by
  have hparts : ∀ name ∈ (Path.ofString request).parts, isNameable name = true :=
    fun name => Path.isNameable_splitNames h
  unfold Disk.expandHome
  simp only
  split
  · next first rest _ heq =>
    rw [heq] at hparts
    split
    · split
      · refine ⟨by simp, ?_⟩
        rintro path ⟨⟩ name hname
        rcases List.mem_append.mp hname with hname | hname
        · exact hd.home name hname
        · exact hparts name (List.mem_cons_of_mem _ hname)
      · rw [if_pos (hparts first List.mem_cons_self)]
        simp
    · refine ⟨by simp, ?_⟩
      rintro path ⟨⟩
      rwa [heq]
  · refine ⟨by simp, ?_⟩
    rintro path ⟨⟩
    exact hparts

theorem Nameable.followPath (hd : disk.Nameable) {path : Path}
    (hparts : ∀ name ∈ path.parts, isNameable name = true) : Written (disk.followPath true path) := by
  refine hd.follow ?_ hparts
  split <;> simp [Trail.root, Trail.here]

/-- A path that leads somewhere has only names that can be written. -/
theorem follow_nameable {strict : Bool} {depth : Nat} {pending : List Trail} {trail reached : Trail}
    {steps : List String} (h : disk.follow strict depth pending trail steps = .ok reached) :
    ∀ step ∈ steps, isNameable step = true := by
  have hcons : ∀ {step rest}, (!isNameable step) ≠ true → (∀ name ∈ rest, isNameable name = true) →
      ∀ name ∈ step :: rest, isNameable name = true := by
    intro step rest hstep hrest name hname
    rcases List.mem_cons.mp hname with rfl | hname
    · simpa using hstep
    · exact hrest name hname
  fun_induction Disk.follow disk strict depth pending trail steps generalizing reached with
  | case1 => simp
  | case2 depth pending trail rest ih => exact hcons (by decide) (ih h)
  | case5 depth pending trail step rest hup hnamed next errno hentry hstrict =>
    rename_i ih
    exact hcons hnamed (ih h)
  | case8 pending trail step rest hup hnamed next target hentry hnew depth reached hlink ihLink =>
    rename_i ihRest
    exact hcons hnamed (ihRest h)
  | case11 depth pending trail step rest hup hnamed next entry hother hentry =>
    rename_i ih
    exact hcons hnamed (ih h)
  | _ => cases h

/-- **A place that a request leads to can be written**, whatever the request is. -/
theorem Nameable.place (hd : disk.Nameable) {request : String} {place : Place}
    (h : disk.canonical? request = .ok place) : ∀ name ∈ place, isNameable name = true := by
  obtain ⟨path, trail, -, hfollow, rfl⟩ := canonical?_ok h
  have hwritten := hd.followPath (follow_nameable hfollow)
  rw [hfollow] at hwritten
  intro name hname
  unfold Disk.place at hname
  split at hname
  · exact hwritten name hname
  · rcases List.mem_append.mp hname with hname | hname
    · exact hd.cwd name (List.mem_of_mem_take hname)
    · exact hwritten name hname

/-- **A request that can be written is not refused.** -/
theorem Nameable.canonical?_ne (hd : disk.Nameable) {request : String} (h : isNameable request = true) :
    disk.canonical? request ≠ .error .unnameable := by
  obtain ⟨hexpands, hparts⟩ := hd.expandHome h
  unfold Disk.canonical?
  cases hexpand : disk.expandHome request with
  | error fault =>
    have hfault : fault ≠ .unnameable := by
      rintro rfl
      exact hexpands hexpand
    simpa [bind, Except.bind] using hfault
  | ok path =>
    have hwritten := hd.followPath (hparts path hexpand)
    simp only [bind, Except.bind]
    cases hfollow : disk.followPath true path with
    | error stop =>
      rw [hfollow] at hwritten
      cases stop with
      | missing errno trail => simp [throw, throwThe, MonadExceptOf.throw]
      | cyclic link rest => simp [throw, throwThe, MonadExceptOf.throw]
      | unnameable => exact absurd rfl hwritten
    | ok trail => simp [pure, Except.pure]

end Disk

end ShaderFlatten
