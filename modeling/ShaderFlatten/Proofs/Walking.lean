import ShaderFlatten.Proofs.Canonical
import ShaderFlatten.Tree.Edit

/-!
# Ways through a tree

How the system follows a path, as a relation that also counts the links that may still be followed:

    tree.Leads n p steps m q      from `p` the steps lead to `q`, with `n` links allowed before and `m` after

It is what `FileTree.locate` computes, but ways can be cut in two and put together, and a tree that grows
keeps them:

    Leads n p (s ++ t) k r  ↔  ∃ m q, Leads n p s m q ∧ Leads m q t k r
    old.Grows new  →  old.Leads n p steps m q  →  new.Leads n p steps m q

A tree is closed if whatever it has stands in a folder.  Then nothing stands below a place that is empty.
-/

namespace ShaderFlatten

/-- A step down: a name that is no dot or double dot and that is not too long. -/
structure IsStep (step : String) : Prop where
  stay : isStay step = false
  up : step ≠ ".."
  short : step.utf8ByteSize ≤ maxNameBytes

namespace FileTree

/-- Steps lead from a place to another.  Every place that is stepped from is a folder, and every link is
followed. -/
inductive Leads (tree : FileTree) : Nat → Place → List String → Nat → Place → Prop
  | done {n p} : Leads tree n p [] n p
  | stay {n p step rest m q} : tree.entry? p = some .folder → isStay step = true →
      Leads tree n p rest m q → Leads tree n p (step :: rest) m q
  | up {n p rest m q} : tree.entry? p = some .folder → Leads tree n p.dropLast rest m q →
      Leads tree n p (".." :: rest) m q
  | down {n p step rest m q} : tree.entry? p = some .folder → IsStep step →
      (∀ target, tree.entry? (p ++ [step]) ≠ some (.link target)) →
      Leads tree n (p ++ [step]) rest m q → Leads tree n p (step :: rest) m q
  | link {n p step rest m q target} : tree.entry? p = some .folder → IsStep step →
      tree.entry? (p ++ [step]) = some (.link target) →
      Leads tree n (if isAbsoluteText target then [] else p) (linkSteps target ++ rest) m q →
      Leads tree (n + 1) p (step :: rest) m q

section
variable {tree : FileTree} {purpose : Purpose} {n m k : Nat} {p q r : Place} {s t steps : List String}
  {step : String}

/-! ## Steps of the system -/

theorem locate_nil : tree.locate purpose n p [] = .ok (p, tree.entry? p) := by
  rw [locate]

theorem locate_stay (hfolder : tree.entry? p = some .folder) (hstay : isStay step = true) :
    tree.locate purpose n p (step :: steps) = tree.locate purpose n p steps := by
  rw [locate, hfolder]
  simp only [hstay, if_true]

theorem locate_up (hfolder : tree.entry? p = some .folder) :
    tree.locate purpose n p (".." :: steps) = tree.locate purpose n p.dropLast steps := by
  have hstay : isStay ".." = false := by decide
  rw [locate, hfolder]
  simp only [hstay, Bool.false_eq_true, if_false, if_true]

theorem locate_down (hfolder : tree.entry? p = some .folder) (hstep : IsStep step)
    (hslash : ¬ (purpose = .creation ∧ steps = [""]))
    (hlink : ∀ target, tree.entry? (p ++ [step]) ≠ some (.link target)) :
    tree.locate purpose n p (step :: steps) = tree.locate purpose n (p ++ [step]) steps := by
  rw [locate, hfolder]
  simp only [hstep.stay, hstep.up, hslash, Nat.not_lt.mpr hstep.short, Bool.false_eq_true, if_false]

theorem locate_link {target : String} (hfolder : tree.entry? p = some .folder) (hstep : IsStep step)
    (hslash : ¬ (purpose = .creation ∧ steps = [""])) (hlast : ¬ (steps = [] ∧ purpose = .entry))
    (hlink : tree.entry? (p ++ [step]) = some (.link target)) :
    tree.locate purpose (n + 1) p (step :: steps) =
      tree.locate purpose n (if isAbsoluteText target then [] else p) (linkSteps target ++ steps) := by
  rw [locate, hfolder]
  simp only [hstep.stay, hstep.up, hslash, Nat.not_lt.mpr hstep.short, Bool.false_eq_true, if_false, hlink,
    hlast]

theorem locate_last (hfolder : tree.entry? p = some .folder) (hstep : IsStep step) :
    tree.locate .entry n p [step] = .ok (p ++ [step], tree.entry? (p ++ [step])) := by
  by_cases hlink : ∃ target, tree.entry? (p ++ [step]) = some (.link target)
  · obtain ⟨target, hlink⟩ := hlink
    rw [locate, hfolder]
    simp [hstep.stay, hstep.up, Nat.not_lt.mpr hstep.short, hlink]
  · rw [locate_down hfolder hstep (by simp) (by simpa using hlink), locate_nil]

/-- Steps go down through folders, and not to a link. -/
def Descends (tree : FileTree) : Place → List String → Prop
  | p, [] => ∀ target, tree.entry? p ≠ some (.link target)
  | p, step :: rest => tree.entry? p = some .folder ∧ IsStep step ∧ Descends tree (p ++ [step]) rest

theorem Descends.not_link (h : tree.Descends p steps) (target : String) :
    tree.entry? p ≠ some (.link target) := by
  cases steps with
  | nil => exact h target
  | cons step rest => simp [h.1]

/-- The system goes down all the way. -/
theorem Descends.locate (h : tree.Descends p steps) :
    tree.locate purpose n p steps = .ok (p ++ steps, tree.entry? (p ++ steps)) := by
  induction steps generalizing p with
  | nil => rw [locate_nil, List.append_nil]
  | cons step rest ih =>
    obtain ⟨hfolder, hstep, hrest⟩ := h
    have hslash : ¬ (purpose = .creation ∧ rest = [""]) := by
      rintro ⟨-, rfl⟩
      exact absurd hrest.2.1.stay (by decide)
    rw [locate_down hfolder hstep hslash hrest.not_link, ih hrest, List.append_assoc, List.singleton_append]

/-! ## Ways and the system -/

/-- What the first step of a successful walk can be: a stay, a step up, a step down, or a link that is
followed, unless an entry is asked for and the step is the last one. -/
theorem locate_cons_ok {x : Place × Option Entry} (h : tree.locate purpose n p (step :: steps) = .ok x) :
    tree.entry? p = some .folder ∧
    ((isStay step = true ∧ tree.locate purpose n p steps = .ok x) ∨
      (step = ".." ∧ tree.locate purpose n p.dropLast steps = .ok x) ∨
      (IsStep step ∧
        ((steps = [] ∧ purpose = .entry) ∨
          ((∀ target, tree.entry? (p ++ [step]) ≠ some (.link target)) ∧
            tree.locate purpose n (p ++ [step]) steps = .ok x) ∨
          ∃ k target, n = k + 1 ∧ tree.entry? (p ++ [step]) = some (.link target) ∧
            tree.locate purpose k (if isAbsoluteText target then [] else p) (linkSteps target ++ steps) =
              .ok x))) := by
  have hfolder : tree.entry? p = some .folder := by
    rw [locate] at h
    split at h
    · cases h
    · assumption
    · cases h
  refine ⟨hfolder, ?_⟩
  by_cases hstay : isStay step = true
  · exact .inl ⟨hstay, by rwa [locate_stay hfolder hstay] at h⟩
  by_cases hup : step = ".."
  · subst hup
    exact .inr (.inl ⟨rfl, by rwa [locate_up hfolder] at h⟩)
  by_cases hslash : purpose = .creation ∧ steps = [""]
  · rw [locate, hfolder] at h
    simp [hstay, hup, hslash] at h
  by_cases hlong : maxNameBytes < step.utf8ByteSize
  · rw [locate, hfolder] at h
    simp [hstay, hup, hslash, hlong] at h
  have hstep : IsStep step := ⟨by simpa using hstay, hup, Nat.not_lt.mp hlong⟩
  refine .inr (.inr ⟨hstep, ?_⟩)
  by_cases hlast : steps = [] ∧ purpose = .entry
  · exact .inl hlast
  by_cases hlink : ∃ target, tree.entry? (p ++ [step]) = some (.link target)
  · obtain ⟨target, hlink⟩ := hlink
    cases n with
    | zero =>
      rw [locate, hfolder] at h
      simp [hstay, hup, hslash, hlong, hlink, hlast] at h
    | succ k =>
      rw [locate_link hfolder hstep hslash hlast hlink] at h
      exact .inr (.inr ⟨k, target, rfl, hlink, h⟩)
  · have hplain : ∀ target, tree.entry? (p ++ [step]) ≠ some (.link target) := by simpa using hlink
    exact .inr (.inl ⟨hplain, by rwa [locate_down hfolder hstep hslash hplain] at h⟩)

/-- **Where the system comes to an end, a way leads**, and the system goes on from every place on it. -/
theorem leads_of_locate {n : Nat} {p : Place} {s : List String} {x : Place × Option Entry}
    (h : tree.locate purpose n p (s ++ t) = .ok x) (hlast : t ≠ [] ∨ purpose ≠ .entry) :
    ∃ m q, tree.Leads n p s m q ∧ tree.locate purpose m q t = .ok x := by
  cases s with
  | nil => exact ⟨n, p, .done, h⟩
  | cons step s =>
    rw [List.cons_append] at h
    obtain ⟨hfolder, ⟨hstay, hrest⟩ | ⟨rfl, hrest⟩ |
      ⟨hstep, ⟨hnil, hentry⟩ | ⟨hlink, hrest⟩ | ⟨k, target, rfl, hlink, hrest⟩⟩⟩ := locate_cons_ok h
    · obtain ⟨m, q, hleads, hend⟩ := leads_of_locate hrest hlast
      exact ⟨m, q, .stay hfolder hstay hleads, hend⟩
    · obtain ⟨m, q, hleads, hend⟩ := leads_of_locate hrest hlast
      exact ⟨m, q, .up hfolder hleads, hend⟩
    · -- the last step is not followed, so nothing has been cut off
      obtain ⟨-, rfl⟩ := List.append_eq_nil_iff.mp hnil
      exact absurd rfl (hlast.resolve_right fun hne => hne hentry)
    · obtain ⟨m, q, hleads, hend⟩ := leads_of_locate hrest hlast
      exact ⟨m, q, .down hfolder hstep hlink hleads, hend⟩
    · rw [← List.append_assoc] at hrest
      obtain ⟨m, q, hleads, hend⟩ := leads_of_locate hrest hlast
      exact ⟨m, q, .link hfolder hstep hlink hleads, hend⟩
termination_by (n, s.length)

theorem leads_of_located {e : Option Entry} (h : tree.locate purpose n p steps = .ok (q, e))
    (hpurpose : purpose ≠ .entry) : e = tree.entry? q ∧ ∃ m, tree.Leads n p steps m q := by
  rw [← List.append_nil steps] at h
  obtain ⟨m, q', hleads, hend⟩ := leads_of_locate h (.inr hpurpose)
  rw [locate_nil] at hend
  cases hend
  exact ⟨rfl, m, hleads⟩

/-- The system comes to the end of every way. -/
theorem Leads.locate (h : tree.Leads n p steps m q) :
    tree.locate .target n p steps = .ok (q, tree.entry? q) := by
  induction h with
  | done => exact locate_nil
  | stay hfolder hstay _ ih => rw [locate_stay hfolder hstay, ih]
  | up hfolder _ ih => rw [locate_up hfolder, ih]
  | down hfolder hstep hlink _ ih => rw [locate_down hfolder hstep (by simp) hlink, ih]
  | link hfolder hstep hlink _ ih => rw [locate_link hfolder hstep (by simp) (by simp) hlink, ih]

theorem Leads.unique {m' : Nat} {q' : Place} (h : tree.Leads n p steps m q)
    (h' : tree.Leads n p steps m' q') : q = q' := by
  have heq := h.locate.symm.trans h'.locate
  cases heq
  rfl

/-! ## Cutting ways and putting them together -/

theorem Leads.append (h : tree.Leads n p s m q) (h' : tree.Leads m q t k r) :
    tree.Leads n p (s ++ t) k r := by
  induction h with
  | done => exact h'
  | stay hfolder hstay _ ih => exact .stay hfolder hstay (ih h')
  | up hfolder _ ih => exact .up hfolder (ih h')
  | down hfolder hstep hlink _ ih => exact .down hfolder hstep hlink (ih h')
  | link hfolder hstep hlink _ ih =>
    have hrest := ih h'
    rw [List.append_assoc] at hrest
    exact .link hfolder hstep hlink hrest

theorem Leads.split (h : tree.Leads n p (s ++ t) k r) :
    ∃ m q l, tree.Leads n p s m q ∧ tree.Leads m q t l r := by
  obtain ⟨m, q, hfirst, hrest⟩ := leads_of_locate h.locate (.inr (by simp))
  obtain ⟨-, l, hsecond⟩ := leads_of_located hrest (by simp)
  exact ⟨m, q, l, hfirst, hsecond⟩

/-- What is stepped from is a folder. -/
theorem Leads.folder (h : tree.Leads n p (step :: steps) m q) : tree.entry? p = some .folder := by
  cases h <;> assumption

/-- No link stands at a place or below it. -/
def Linkless (tree : FileTree) (p : Place) : Prop :=
  ∀ q target, tree.entry? (p ++ q) ≠ some (.link target)

/-- A name that is no dot or double dot. -/
def IsPlainStep (step : String) : Prop := isStay step = false ∧ step ≠ ".."

/-- A way by a name that is missing ends there. -/
theorem Leads.missing (h : tree.Leads n p (step :: steps) m q) (hplain : IsPlainStep step)
    (hempty : tree.entry? (p ++ [step]) = none) : q = p ++ [step] := by
  cases h with
  | stay _ hstay => simp [hplain.1] at hstay
  | up => exact absurd rfl hplain.2
  | link _ _ hlink => simp [hempty] at hlink
  | down _ _ _ hrest =>
    cases steps with
    | nil =>
      cases hrest
      rfl
    | cons next steps =>
      rw [hrest.folder] at hempty
      cases hempty

/-- Where no link is met, plain names lead straight down. -/
theorem Leads.straight (h : tree.Leads n p steps m q) (hplain : ∀ step ∈ steps, IsPlainStep step)
    (hlink : ∀ step rest target, step :: rest <+: steps →
      tree.entry? (p ++ step :: rest) ≠ some (.link target)) : q = p ++ steps := by
  induction h with
  | done => rw [List.append_nil]
  | stay _ hstay =>
    have hstep := (hplain _ List.mem_cons_self).1
    rw [hstay] at hstep
    cases hstep
  | up => exact absurd rfl (hplain _ List.mem_cons_self).2
  | @down n p step rest m q _ _ _ _ ih =>
    have hq : q = (p ++ [step]) ++ rest := by
      refine ih (fun s hs => hplain s (List.mem_cons_of_mem _ hs)) fun next rest' target hprefix => ?_
      rw [List.append_assoc, List.singleton_append]
      exact hlink step (next :: rest') target (List.cons_prefix_cons.mpr ⟨rfl, hprefix⟩)
    rw [hq, List.append_assoc, List.singleton_append]
  | @link n p step rest m q target _ _ hentry =>
    exact absurd hentry (hlink step [] target (List.cons_prefix_cons.mpr ⟨rfl, List.nil_prefix⟩))

theorem Leads.straight_of_linkless (h : tree.Leads n p steps m q) (hlinkless : tree.Linkless p)
    (hplain : ∀ step ∈ steps, IsPlainStep step) : q = p ++ steps :=
  h.straight hplain fun step rest target _ => hlinkless (step :: rest) target

/-! ## Closed trees -/

theorem mem_of_entry? (h : tree.entry? p ≠ none) : p = [] ∨ p ∈ tree.entries.map (·.1) := by
  unfold entry? at h
  split at h
  · next hp => exact .inl hp
  · obtain ⟨entry, hentry⟩ := Option.ne_none_iff_exists'.mp h
    obtain ⟨found, hfind, -⟩ := Option.map_eq_some_iff.mp hentry
    have hfound : found.1 = p := by simpa using List.find?_some hfind
    exact .inr (hfound ▸ List.mem_map_of_mem (List.mem_of_find?_eq_some hfind))

/-- Whatever a tree has stands in a folder. -/
def Closed (tree : FileTree) : Prop :=
  ∀ p name, tree.entry? (p ++ [name]) ≠ none → tree.entry? p = some .folder

theorem closed_of_forall (h : ∀ p ∈ tree.entries.map (·.1), tree.entry? p.dropLast = some .folder) :
    tree.Closed := by
  intro p name hentry
  have hplace := mem_of_entry? hentry
  have hmem : p ++ [name] ∈ tree.entries.map (·.1) := hplace.resolve_left (by simp)
  simpa using h _ hmem

theorem Closed.below (h : tree.Closed) (hempty : tree.entry? p = none) (q : Place) :
    tree.entry? (p ++ q) = none := by
  induction q generalizing p with
  | nil => rwa [List.append_nil]
  | cons name q ih =>
    have hnext : tree.entry? (p ++ [name]) = none := by
      cases hentry : tree.entry? (p ++ [name]) with
      | none => rfl
      | some e =>
        rw [h p name (by simp [hentry])] at hempty
        cases hempty
    have hbelow := ih hnext
    rwa [List.append_assoc, List.singleton_append] at hbelow

theorem Closed.parent (h : tree.Closed) (hp : tree.entry? p ≠ none) :
    tree.entry? p.dropLast = some .folder := by
  rcases List.eq_nil_or_concat p with rfl | ⟨r, name, rfl⟩
  · rfl
  · rw [List.concat_eq_append] at hp ⊢
    rw [List.dropLast_concat]
    exact h r name hp

/-- In a closed tree the system comes to nothing only by a name within a folder. -/
theorem Closed.locate_none (h : tree.Closed) (hlocate : tree.locate .entry n p [step] = .ok (q, none)) :
    tree.entry? p = some .folder ∧ IsStep step ∧ q = p ++ [step] := by
  have hfolder : tree.entry? p = some .folder := by
    rw [locate] at hlocate
    split at hlocate
    · cases hlocate
    · assumption
    · cases hlocate
  by_cases hstay : isStay step = true
  · rw [locate_stay hfolder hstay, locate_nil, hfolder] at hlocate
    cases hlocate
  by_cases hup : step = ".."
  · subst hup
    rw [locate_up hfolder, locate_nil, h.parent (by simp [hfolder])] at hlocate
    cases hlocate
  by_cases hshort : step.utf8ByteSize ≤ maxNameBytes
  · have hstep : IsStep step := ⟨by simpa using hstay, hup, hshort⟩
    rw [locate_last hfolder hstep, Except.ok.injEq, Prod.mk.injEq] at hlocate
    exact ⟨hfolder, hstep, hlocate.1.symm⟩
  · rw [locate, hfolder] at hlocate
    simp [hstay, hup, Nat.lt_of_not_le hshort] at hlocate

/-- A place at which a way may end: no link, and empty only within a folder. -/
structure IsEnd (tree : FileTree) (p : Place) : Prop where
  link : ∀ target, tree.entry? p ≠ some (.link target)
  parent : tree.entry? p = none → ∃ r name, p = r ++ [name] ∧ tree.entry? r = some .folder

theorem isEnd_of_folder (h : tree.entry? p = some .folder) : tree.IsEnd p where
  link := by simp [h]
  parent := by simp [h]

theorem Leads.isEnd (hclosed : tree.Closed) (h : tree.Leads n p steps m q) (hp : tree.IsEnd p) :
    tree.IsEnd q := by
  induction h with
  | done => exact hp
  | stay _ _ _ ih => exact ih hp
  | up hfolder _ ih => exact ih (isEnd_of_folder (hclosed.parent (by simp [hfolder])))
  | @down n p step rest m q hfolder _ hlink _ ih => exact ih ⟨hlink, fun _ => ⟨p, step, rfl, hfolder⟩⟩
  | link hfolder _ _ _ ih =>
    refine ih (isEnd_of_folder ?_)
    split
    · rfl
    · exact hfolder

end

/-! ## Trees that grow -/

/-- One tree grows into another: folders stay folders, and the links are the same. -/
structure Grows (old new : FileTree) : Prop where
  folder : ∀ p, old.entry? p = some .folder → new.entry? p = some .folder
  link : ∀ p target, new.entry? p = some (.link target) ↔ old.entry? p = some (.link target)

section
variable {old new tree : FileTree} {n m : Nat} {p q place : Place} {steps : List String} {entry : Entry}

theorem Grows.refl (tree : FileTree) : tree.Grows tree := ⟨fun _ h => h, fun _ _ => .rfl⟩

theorem Grows.trans {newer : FileTree} (h : old.Grows new) (h' : new.Grows newer) : old.Grows newer where
  folder := fun p hp => h'.folder p (h.folder p hp)
  link := fun p target => (h'.link p target).trans (h.link p target)

/-- **A tree that grows keeps its ways.** -/
theorem Leads.grow (hgrows : old.Grows new) (h : old.Leads n p steps m q) : new.Leads n p steps m q := by
  induction h with
  | done => exact .done
  | stay hfolder hstay _ ih => exact .stay (hgrows.folder _ hfolder) hstay ih
  | up hfolder _ ih => exact .up (hgrows.folder _ hfolder) ih
  | down hfolder hstep hlink _ ih =>
    exact .down (hgrows.folder _ hfolder) hstep (fun target h => hlink target ((hgrows.link _ _).mp h)) ih
  | link hfolder hstep hlink _ ih =>
    exact .link (hgrows.folder _ hfolder) hstep ((hgrows.link _ _).mpr hlink) ih

theorem Linkless.grow (hgrows : old.Grows new) (h : old.Linkless p) : new.Linkless p :=
  fun q target hlink => h q target ((hgrows.link _ _).mp hlink)

theorem entry?_put (hplace : place ≠ []) (q : Place) :
    FileTree.entry? (tree.put place entry) q = if q = place then some entry else tree.entry? q := by
  by_cases hq : q = []
  · subst hq
    rw [if_neg (Ne.symm hplace)]
    rfl
  simp only [FileTree.entry?, hq, if_false, put]
  split
  · next hany =>
    -- the entry of the place is changed where it stands
    have hkeys : ((fun x : Place × Entry => decide (x.1 = q)) ∘
        fun x : Place × Entry => if x.1 = place then (x.1, entry) else (x.1, x.2)) =
        fun x => decide (x.1 = q) := by
      funext x
      simp only [Function.comp_apply]
      split <;> rfl
    rw [List.find?_map, hkeys]
    cases hfind : tree.entries.find? (fun x => decide (x.1 = q)) with
    | none =>
      have hne : q ≠ place := by
        rintro rfl
        rw [List.any_eq_true] at hany
        obtain ⟨x, hx, hxq⟩ := hany
        exact List.find?_eq_none.mp hfind x hx hxq
      simp [hne]
    | some x =>
      have hxq : x.1 = q := by simpa using List.find?_some hfind
      subst hxq
      by_cases hx : x.1 = place <;> simp [hx]
  · next hany =>
    rw [List.find?_append]
    by_cases heq : q = place
    · subst heq
      have hnone : tree.entries.find? (fun x => decide (x.1 = q)) = none := by
        rw [List.find?_eq_none]
        intro x hx hxq
        exact hany (List.any_eq_true.mpr ⟨x, hx, hxq⟩)
      simp [hnone]
    · simp [heq, Ne.symm heq]

/-- Nothing or a file stands at a place. -/
def Free (tree : FileTree) (p : Place) : Prop := ∀ e, tree.entry? p = some e → ∃ content, e = .file content

theorem Free.ne_nil (h : tree.Free place) : place ≠ [] := by
  rintro rfl
  obtain ⟨content, hcontent⟩ := h .folder rfl
  cases hcontent

theorem Free.grows (h : tree.Free place) (hentry : ∀ target, entry ≠ .link target) :
    tree.Grows (tree.put place entry) where
  folder := fun p hp => by
    rw [entry?_put h.ne_nil]
    split
    · next heq =>
      subst heq
      obtain ⟨content, hcontent⟩ := h _ hp
      cases hcontent
    · exact hp
  link := fun p target => by
    rw [entry?_put h.ne_nil]
    split
    · next heq =>
      subst heq
      refine iff_of_false (fun hlink => ?_) fun hlink => ?_
      · exact hentry target (Option.some.inj hlink)
      · obtain ⟨content, hcontent⟩ := h _ hlink
        cases hcontent
    · rfl

theorem Free.closed (h : tree.Free place) (hclosed : tree.Closed) (hend : tree.IsEnd place)
    (hentry : ∀ target, entry ≠ .link target) : (tree.put place entry).Closed := by
  have hgrows := h.grows hentry
  intro p name hne
  refine hgrows.folder p ?_
  rw [entry?_put h.ne_nil] at hne
  split at hne
  · next heq =>
    cases hold : tree.entry? place with
    | some e => exact hclosed p name (by rw [heq, hold]; simp)
    | none =>
      obtain ⟨r, n, rfl, hr⟩ := hend.parent hold
      obtain ⟨rfl, -⟩ := List.append_singleton_inj.mp heq
      exact hr
  · exact hclosed p name hne

end

end FileTree

end ShaderFlatten
