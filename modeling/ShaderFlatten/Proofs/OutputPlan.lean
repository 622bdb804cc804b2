import ShaderFlatten.OutputPlan
import ShaderFlatten.Proofs.Walking

/-!
# What a plan tells apart

A plan knows an input by the place that its path resolves to, and the engine by its canonical place.  For
an input that leads to a file and does not start with a tilde they are one place, although a plan takes
what does not exist as it is written:

    canonical? path = ok place  →  resolve? path = ok source  →  place = source

A plan gives two inputs one target only if they have one place, and every target is the folder with plain
names behind it, or with a double dot.
-/

namespace ShaderFlatten

/-! ## Paths that are read back -/

namespace Text

variable {mark : Char}

theorem split_mark (t : Text) : split mark (mark :: t) = [] :: split mark t := by
  have hcons : split mark (mark :: t) = consPart mark mark (split mark t) := rfl
  rw [hcons, consPart.eq_def]
  cases hsplit : split mark t with
  | nil => exact absurd hsplit (split_ne_nil mark t)
  | cons first rest => simp

theorem split_append {s : Text} (h : mark ∉ s) (t : Text) :
    split mark (s ++ mark :: t) = s :: split mark t := by
  induction s with
  | nil => exact split_mark t
  | cons c s ih =>
    have hc := List.ne_of_not_mem_cons h
    have hs := List.not_mem_of_not_mem_cons h
    have hcons : split mark (c :: (s ++ mark :: t)) = consPart mark c (split mark (s ++ mark :: t)) := rfl
    rw [List.cons_append, hcons, ih hs, consPart, if_neg (Ne.symm hc)]

theorem split_of_not_mem {s : Text} (h : mark ∉ s) : split mark s = [s] := by
  induction s with
  | nil => rfl
  | cons c s ih =>
    have hc := List.ne_of_not_mem_cons h
    have hs := List.not_mem_of_not_mem_cons h
    have hcons : split mark (c :: s) = consPart mark c (split mark s) := rfl
    rw [hcons, ih hs, consPart, if_neg (Ne.symm hc)]

theorem split_intercalate {parts : List Text} (hne : parts ≠ []) (h : ∀ part ∈ parts, mark ∉ part) :
    split mark ([mark].intercalate parts) = parts := by
  induction parts with
  | nil => exact absurd rfl hne
  | cons part parts ih =>
    obtain ⟨hpart, hparts⟩ := List.forall_mem_cons.mp h
    cases parts with
    | nil => simpa using split_of_not_mem hpart
    | cons next parts =>
      rw [List.intercalate_cons_cons, List.append_assoc, List.singleton_append, split_append hpart,
        ih (by simp) hparts]

end Text

namespace Path

/-- The names of a path that has been read: names, and no single dot. -/
def Readable (p : Path) : Prop := ∀ name ∈ p.parts, IsName name ∧ name ≠ "."

theorem readable_ofString (s : String) : (ofString s).Readable := fun _ hn => isName_of_mem_splitNames hn

theorem Readable.not_stay {p : Path} (h : p.Readable) : ∀ name ∈ p.parts, isStay name = false := by
  intro name hn
  simp [isStay, (h name hn).1.1, (h name hn).2]

theorem splitNames_intercalate {names : List String} (h : ∀ name ∈ names, IsName name ∧ name ≠ ".") :
    splitNames ("/".intercalate names) = names := by
  have hkeep : names.filter (fun name => name != "" && name != ".") = names := by
    rw [List.filter_eq_self]
    intro name hn
    simp [(h name hn).1.1, (h name hn).2]
  cases names with
  | nil => decide
  | cons name names =>
    have hslash : ∀ part ∈ (name :: names).map String.toList, '/' ∉ part := by
      intro part hpart
      obtain ⟨n, hn, rfl⟩ := List.mem_map.mp hpart
      exact (h n hn).1.2
    have htext : ("/".intercalate (name :: names)).toList =
        ['/'].intercalate ((name :: names).map String.toList) := by
      simp
    rw [splitNames, htext, Text.split_intercalate (by simp) hslash, List.map_map]
    simpa using hkeep

theorem splitNames_slash (s : String) : splitNames ("/" ++ s) = splitNames s := by
  have htext : ("/" ++ s).toList = '/' :: s.toList := by simp
  rw [splitNames, htext, Text.split_mark, splitNames]
  simp

/-- The text of names does not begin with a slash. -/
theorem takeWhile_intercalate {names : List String} (h : ∀ name ∈ names, IsName name) :
    ("/".intercalate names).toList.takeWhile (· == '/') = [] := by
  cases names with
  | nil => rfl
  | cons name names =>
    obtain ⟨hne, hslash⟩ := h name List.mem_cons_self
    have hhead : ∃ rest, ("/".intercalate (name :: names)).toList = name.toList ++ rest := by
      cases names with
      | nil => exact ⟨[], by simp⟩
      | cons next names => exact ⟨'/' :: ("/".intercalate (next :: names)).toList, by simp⟩
    obtain ⟨rest, hrest⟩ := hhead
    cases hchars : name.toList with
    | nil => exact absurd (String.toList_eq_nil_iff.mp hchars) hne
    | cons c cs =>
      rw [hchars] at hslash hrest
      rw [hrest, List.cons_append, List.takeWhile_cons_of_neg]
      simpa using (List.ne_of_not_mem_cons hslash).symm

/-- **A path is read back as it was.** -/
theorem Readable.ofString_toString {p : Path} (h : p.Readable) : ofString p.toString = p := by
  have hnames : ∀ name ∈ p.parts, IsName name := fun name hn => (h name hn).1
  obtain ⟨anchor, parts⟩ := p
  cases anchor with
  | relative =>
    cases parts with
    | nil => decide
    | cons name parts =>
      have htext : toString ⟨.relative, name :: parts⟩ = "/".intercalate (name :: parts) := by
        simp [toString, Anchor.text]
      rw [htext, ofString, takeWhile_intercalate hnames, splitNames_intercalate h]
      rfl
  | root =>
    have htext : toString ⟨.root, parts⟩ = "/" ++ "/".intercalate parts := by simp [toString, Anchor.text]
    have hchars : ("/" ++ "/".intercalate parts).toList = '/' :: ("/".intercalate parts).toList := by simp
    rw [htext, ofString, splitNames_slash, splitNames_intercalate h, hchars, List.takeWhile_cons_of_pos rfl,
      takeWhile_intercalate hnames]
    rfl
  | doubleRoot =>
    have htext : toString ⟨.doubleRoot, parts⟩ = "/" ++ ("/" ++ "/".intercalate parts) := by
      simp [toString, Anchor.text, ← String.append_assoc]
    have hchars : ("/" ++ ("/" ++ "/".intercalate parts)).toList =
        '/' :: '/' :: ("/".intercalate parts).toList := by simp
    rw [htext, ofString, splitNames_slash, splitNames_slash, splitNames_intercalate h, hchars,
      List.takeWhile_cons_of_pos rfl, List.takeWhile_cons_of_pos rfl, takeWhile_intercalate hnames]
    rfl

/-- A name by itself is read as a path of one name. -/
theorem ofString_name {name : String} (h : IsName name) (hdot : name ≠ ".") :
    ofString name = ⟨.relative, [name]⟩ := by
  have hreadable : Readable ⟨.relative, [name]⟩ := by
    intro n hn
    rw [List.mem_singleton.mp hn]
    exact ⟨h, hdot⟩
  have htext : toString ⟨.relative, [name]⟩ = name := by simp [toString, Anchor.text]
  rw [← hreadable.ofString_toString, htext]

end Path

/-! ## One place for the plan and the engine -/

/-- A path that starts with a tilde.  The engine takes it to start at a home directory, a plan at a folder
of that name. -/
def Path.StartsAtHome (p : Path) : Prop :=
  p.anchor = .relative ∧ ∃ first rest, p.parts = first :: rest ∧ first.toList.head? = some '~'

namespace Disk

variable {disk : Disk}

/-- A path that is followed to its end, or stops at something else than a missing step, is followed alike if
steps may be missing. -/
theorem follow_of_strict {depth : Nat} {pending : List Trail} {trail : Trail} {steps : List String}
    {result : Except Unresolved Trail} (h : disk.follow true depth pending trail steps = result)
    (hfound : ∀ errno reached, result ≠ .error (.missing errno reached)) :
    disk.follow false depth pending trail steps = result := by
  fun_induction follow disk true depth pending trail steps generalizing result with
  | case1 => exact follow_nil.trans h
  | case2 depth pending trail rest ih =>
    rw [follow_up]
    exact ih h hfound
  | case3 depth pending trail step rest hup hrefused => exact (follow_unnameable hup hrefused).trans h
  | case4 => exact absurd h.symm (hfound _ _)
  | case5 => exact absurd rfl ‹¬true = true›
  | case6 depth pending trail step rest hup hnamed next target hentry =>
    rename_i hpending
    exact (follow_pending hup hnamed hentry hpending).trans h
  | case7 pending trail step rest hup hnamed next target hentry =>
    rename_i hnew
    exact (follow_exhausted hup hnamed hentry).trans h
  | case8 pending trail step rest hup hnamed next target hentry hnew depth reached hlink ihLink =>
    rename_i ihRest
    rw [follow_link hup hnamed hentry hnew (ihLink hlink (by simp))]
    exact ihRest h hfound
  | case9 pending trail step rest hup hnamed next target hentry hnew depth link left hlink =>
    rename_i ihLink
    rw [follow_link hup hnamed hentry hnew (ihLink hlink (by simp))]
    exact h
  | case10 pending trail step rest hup hnamed next target hentry hnew depth stop hother hlink =>
    rename_i ihLink
    subst h
    rw [follow_link hup hnamed hentry hnew (ihLink hlink hfound)]
    cases stop with
    | cyclic link left => exact absurd rfl (hother link left)
    | missing errno reached => rfl
    | unnameable => rfl
  | case11 depth pending trail step rest hup hnamed next entry hother hentry =>
    rename_i ih
    rw [follow_entry hup hnamed hentry hother]
    exact ih h hfound

theorem expandHome_of_readable {path : Path} (h : path.Readable) (htilde : ¬ path.StartsAtHome) :
    disk.expandHome path.toString = .ok path := by
  rw [expandHome, h.ofString_toString]
  split
  · next first rest hanchor hparts =>
    rw [if_neg fun hhead => htilde ⟨hanchor, first, rest, hparts, hhead⟩]
  · rfl

/-- **The plan and the engine know an input by one place**, if it leads to something and does not start
with a tilde. -/
theorem canonical?_eq_resolve? {path : Path} (h : path.Readable) (htilde : ¬ path.StartsAtHome)
    {place source : Place} (hplace : disk.canonical? path.toString = .ok place)
    (hsource : disk.resolve? path = .ok source) : place = source := by
  obtain ⟨path', trail, hpath, htrail, rfl⟩ := canonical?_ok hplace
  rw [expandHome_of_readable h htilde] at hpath
  cases hpath
  have hfollow : disk.followPath false path = .ok trail := follow_of_strict htrail (by simp)
  simp only [resolve?, reached?, hfollow, pure, Except.pure, bind, Except.bind] at hsource
  split at hsource
  · cases hsource
  · cases hsource
    rfl

end Disk

/-! ## Plain names -/

/-- The names of a trail are plain. -/
def Trail.Plain (t : Trail) : Prop := ∀ name ∈ t.names, FileTree.IsPlainStep name

theorem Trail.Plain.parent {t : Trail} (h : t.Plain) : t.parent.Plain := by
  unfold Trail.parent
  split
  · exact fun name hn => h name (List.dropLast_subset _ hn)
  · split <;> exact h

theorem Trail.Plain.child {t : Trail} (h : t.Plain) {step : String} (hstep : FileTree.IsPlainStep step) :
    (t.child step).Plain := by
  intro name hn
  rcases List.mem_append.mp hn with hn | hn
  · exact h name hn
  · rwa [List.mem_singleton.mp hn]

/-- A resolution tells plain names, whether it comes to an end or stops on its way.  Double dots may still
be to be followed then. -/
def EndsPlain : Except Unresolved Trail → Prop
  | .ok trail => trail.Plain
  | .error (.missing _ trail) => trail.Plain
  | .error (.cyclic link rest) => link.Plain ∧ ∀ step ∈ rest, isStay step = false
  | .error .unnameable => True

theorem Place.follow_plain {place : Place} {steps : List String}
    (hplace : ∀ name ∈ place, FileTree.IsPlainStep name) (hsteps : ∀ step ∈ steps, isStay step = false) :
    ∀ name ∈ place.follow steps, FileTree.IsPlainStep name := by
  induction steps generalizing place with
  | nil => exact hplace
  | cons step steps ih =>
    obtain ⟨hstep, hrest⟩ := List.forall_mem_cons.mp hsteps
    refine ih ?_ hrest
    dsimp only
    split
    · exact fun name hn => hplace name (List.dropLast_subset _ hn)
    · next hup =>
      intro name hn
      rcases List.mem_append.mp hn with hn | hn
      · exact hplace name hn
      · rw [List.mem_singleton.mp hn]
        exact ⟨hstep, hup⟩

namespace Disk

variable {disk : Disk}

theorem follow_endsPlain {strict : Bool} {depth : Nat} {pending : List Trail} {trail : Trail}
    {steps : List String} (htrail : trail.Plain) (hsteps : ∀ step ∈ steps, isStay step = false) :
    EndsPlain (disk.follow strict depth pending trail steps) := by
  have hlinked : ∀ {trail : Trail} (target : String), trail.Plain →
      (if _ : isAbsoluteText target = true then Trail.root else trail).Plain := by
    intro trail target h
    split
    · simp [Trail.Plain, Trail.root]
    · exact h
  have hnames : ∀ target, ∀ step ∈ Path.splitNames target, isStay step = false :=
    fun target => (Path.readable_ofString target).not_stay
  fun_induction follow disk strict depth pending trail steps with
  | case1 => exact htrail
  | case2 depth pending trail rest ih => exact ih htrail.parent (List.forall_mem_cons.mp hsteps).2
  | case3 => trivial
  | case4 _ _ trail step rest hup =>
    exact htrail.child ⟨hsteps step List.mem_cons_self, hup⟩
  | case5 _ _ trail step rest hup _ _ _ _ _ ih =>
    exact ih (htrail.child ⟨hsteps step List.mem_cons_self, hup⟩) (List.forall_mem_cons.mp hsteps).2
  | case6 _ _ trail step rest hup =>
    exact ⟨htrail.child ⟨hsteps step List.mem_cons_self, hup⟩, (List.forall_mem_cons.mp hsteps).2⟩
  | case7 _ trail step rest hup =>
    exact ⟨htrail.child ⟨hsteps step List.mem_cons_self, hup⟩, (List.forall_mem_cons.mp hsteps).2⟩
  | case8 _ trail step rest _ _ _ target _ _ _ reached hlink ihLink =>
    rename_i ihRest
    have hreached := ihLink (hlinked target htrail) (hnames target)
    rw [hlink] at hreached
    exact ihRest hreached (List.forall_mem_cons.mp hsteps).2
  | case9 _ trail step rest _ _ _ target _ _ _ link left hlink ihLink =>
    have hstopped := ihLink (hlinked target htrail) (hnames target)
    rw [hlink] at hstopped
    exact ⟨hstopped.1, List.forall_mem_append.mpr ⟨hstopped.2, (List.forall_mem_cons.mp hsteps).2⟩⟩
  | case10 _ trail step rest _ _ _ target _ _ _ stop _ hlink ihLink =>
    have hstopped := ihLink (hlinked target htrail) (hnames target)
    rwa [hlink] at hstopped
  | case11 _ _ trail step rest hup =>
    rename_i ih
    exact ih (htrail.child ⟨hsteps step List.mem_cons_self, hup⟩) (List.forall_mem_cons.mp hsteps).2

theorem place_plain (hcwd : ∀ name ∈ disk.cwd, FileTree.IsPlainStep name) {trail : Trail}
    (h : trail.Plain) : ∀ name ∈ disk.place trail, FileTree.IsPlainStep name := by
  intro name hn
  unfold Disk.place at hn
  split at hn
  · exact h name hn
  · rcases List.mem_append.mp hn with hn | hn
    · exact hcwd name (List.mem_of_mem_take hn)
    · exact h name hn

/-- **The names of a place that a path resolves to are plain**, if those of the working directory are. -/
theorem resolve?_plain (hcwd : ∀ name ∈ disk.cwd, FileTree.IsPlainStep name) {path : Path}
    (h : path.Readable) {source : Place} (hsource : disk.resolve? path = .ok source) :
    ∀ name ∈ source, FileTree.IsPlainStep name := by
  have hends : EndsPlain (disk.followPath false path) := by
    refine follow_endsPlain ?_ h.not_stay
    split <;> simp [Trail.Plain, Trail.root, Trail.here]
  obtain ⟨place, hplace, hstat⟩ := bind_eq_ok.mp hsource
  have hplain : ∀ name ∈ place, FileTree.IsPlainStep name := by
    unfold reached? at hplace
    cases hfollow : disk.followPath false path with
    | ok trail =>
      rw [hfollow] at hends hplace
      cases hplace
      exact place_plain hcwd hends
    | error stop =>
      rw [hfollow] at hends hplace
      cases stop with
      | missing errno trail =>
        cases hplace
        exact place_plain hcwd hends
      | cyclic link rest =>
        dsimp only at hplace
        split at hplace <;> cases hplace
        exact Place.follow_plain (place_plain hcwd hends.1) hends.2
      | unnameable => cases hplace
  split at hstat <;> cases hstat
  exact hplain

end Disk

/-! ## Plans -/

namespace OutputPlan

section
variable {disk : Disk} {folder input : Path} {places : List Place} {source : Place}

/-- The first root that contains a source. -/
def firstRoot (places : List Place) (source : Place) : Option Place := places.find? (·.isPrefixOf source)

theorem firstRoot_prefix {root : Place} (h : firstRoot places source = some root) : root <+: source := by
  unfold firstRoot at h
  simpa using List.find?_some h

theorem findSome?_relativeTo? (places : List Place) (source : Place) :
    (places.findSome? fun root => relativeTo? root source) =
      (firstRoot places source).map fun root => source.drop root.length := by
  unfold firstRoot
  induction places with
  | nil => rfl
  | cons root places ih =>
    rw [List.findSome?_cons, List.find?_cons, ih]
    unfold relativeTo?
    cases root.isPrefixOf source <;> rfl

/-- **An input is named** by the rest of its source behind the first root that contains it, or by its own last
name if no root does. -/
theorem relativePath_cases (hinput : input.Readable) :
    ∃ names, relativePath places input source = ⟨.relative, names⟩ ∧
      ((∃ root, firstRoot places source = some root ∧ source = root ++ names) ∨
        firstRoot places source = none ∧
          (input.parts = [] ∧ names = [] ∨ ∃ front name, input.parts = front ++ [name] ∧ names = [name])) := by
  unfold relativePath
  rw [findSome?_relativeTo?]
  cases hroot : firstRoot places source with
  | some root =>
    obtain ⟨names, rfl⟩ := firstRoot_prefix hroot
    exact ⟨names, by simp, .inl ⟨root, rfl, rfl⟩⟩
  | none =>
    rcases List.eq_nil_or_concat input.parts with hnil | ⟨front, name, hparts⟩
    · have hname : input.name = "" := by simp [Path.name, hnil]
      have hempty : Path.ofString "" = ⟨.relative, []⟩ := by decide
      exact ⟨[], by simp [hname, hempty], .inr ⟨rfl, .inl ⟨hnil, rfl⟩⟩⟩
    · rw [List.concat_eq_append] at hparts
      have hname : input.name = name := by simp [Path.name, hparts]
      obtain ⟨hisName, hdot⟩ := hinput name (by simp [hparts])
      exact ⟨[name], by simp [hname, Path.ofString_name hisName hdot], .inr ⟨rfl, .inr ⟨front, name, hparts, rfl⟩⟩⟩

/-- **A target is the folder with plain names behind it**, or with a double dot. -/
theorem target_eq (hinput : input.Readable) (hsource : ∀ name ∈ source, FileTree.IsPlainStep name) :
    ∃ names, target folder places input source = folder.join ⟨.relative, names⟩ ∧
      ((∀ name ∈ names, FileTree.IsPlainStep name) ∨ names = [".."]) := by
  obtain ⟨names, hnames, hcases⟩ := @relativePath_cases input places source hinput
  refine ⟨names, by rw [target, hnames], ?_⟩
  rcases hcases with ⟨root, -, rfl⟩ | ⟨-, ⟨-, rfl⟩ | ⟨front, name, hparts, rfl⟩⟩
  · exact .inl fun name hn => hsource name (List.mem_append_right _ hn)
  · exact .inl (by simp)
  · by_cases hup : name = ".."
    · exact .inr (by rw [hup])
    · refine .inl fun n hn => ?_
      rw [List.mem_singleton.mp hn]
      exact ⟨hinput.not_stay name (by simp [hparts]), hup⟩

/-- The target of an input in a plan. -/
def lookup (plan : OutputPlan) (input : Path) : Option Path := (plan.find? (·.1 = input)).map (·.2)

theorem lookup_put (plan : OutputPlan) (input goal path : Path) :
    (plan.put input goal).lookup path = if input = path then some goal else plan.lookup path := by
  fun_induction put plan input goal with
  | case1 => by_cases h : input = path <;> simp [lookup, h]
  | case2 t rest => by_cases h : input = path <;> simp [lookup, h]
  | case3 p t rest hp ih =>
    unfold lookup at ih ⊢
    by_cases h : p = path
    · subst h
      simp [Ne.symm hp]
    · simpa [h] using ih

/-- What a plan and the sources behind it say: each target is the one of its input's place, and that place
was the first to claim it. -/
def Sound (disk : Disk) (folder : Path) (places : List Place) (plan : OutputPlan)
    (sources : List (Path × Place)) : Prop :=
  ∀ input goal, plan.lookup input = some goal → ∃ source, disk.resolve? input = .ok source ∧
    goal = target folder places input source ∧ claimed? sources goal = some source

theorem Sound.put {plan : OutputPlan} {sources : List (Path × Place)}
    (h : Sound disk folder places plan sources) (hsource : disk.resolve? input = .ok source)
    {added : List (Path × Place)}
    (hclaimed : claimed? (sources ++ added) (target folder places input source) = some source) :
    Sound disk folder places (plan.put input (target folder places input source)) (sources ++ added) := by
  intro path goal hlookup
  rw [lookup_put] at hlookup
  split at hlookup
  · next heq =>
    subst heq
    cases hlookup
    exact ⟨source, hsource, rfl, hclaimed⟩
  · obtain ⟨source', hsource', hgoal, hfirst⟩ := h path goal hlookup
    refine ⟨source', hsource', hgoal, ?_⟩
    unfold claimed? at hfirst ⊢
    obtain ⟨entry, hentry, hplace⟩ := Option.map_eq_some_iff.mp hfirst
    rw [List.find?_append, hentry]
    simpa using hplace

/-- One step of a plan: the input is given its target, which its source claims or has claimed before. -/
theorem extend_cons_ok {input : Path} {rest : List Path} {plan plan' : OutputPlan}
    {sources : List (Path × Place)}
    (h : extend disk folder places plan sources (input :: rest) = .ok plan') :
    ∃ source added, disk.resolve? input = .ok source ∧
      claimed? (sources ++ added) (target folder places input source) = some source ∧
      extend disk folder places (plan.put input (target folder places input source)) (sources ++ added)
        rest = .ok plan' := by
  rw [extend] at h
  cases hsource : disk.resolve? input with
  | error fault => simp [hsource] at h
  | ok source =>
    simp only [hsource] at h
    cases hclaimed : claimed? sources (target folder places input source) with
    | some first =>
      simp only [hclaimed] at h
      split at h
      · next heq =>
        subst heq
        exact ⟨first, [], rfl, by rwa [List.append_nil], by rwa [List.append_nil]⟩
      · cases h
    | none =>
      simp only [hclaimed] at h
      refine ⟨source, [(target folder places input source, source)], rfl, ?_, h⟩
      unfold claimed? at hclaimed ⊢
      rw [List.find?_append, Option.map_eq_none_iff.mp hclaimed]
      simp

/-- **Every plan is sound and has a target for each input.** -/
theorem extend_sound {inputs : List Path} {plan plan' : OutputPlan} {sources : List (Path × Place)}
    (hplan : extend disk folder places plan sources inputs = .ok plan')
    (h : Sound disk folder places plan sources) :
    (∃ sources', Sound disk folder places plan' sources') ∧
      (∀ input ∈ inputs, plan'.lookup input ≠ none) ∧
      ∀ input, plan.lookup input ≠ none → plan'.lookup input ≠ none := by
  induction inputs generalizing plan sources with
  | nil =>
    cases hplan
    exact ⟨⟨sources, h⟩, by simp, fun _ hlookup => hlookup⟩
  | cons input rest ih =>
    obtain ⟨source, added, hsource, hclaimed, hrest⟩ := extend_cons_ok hplan
    have hput : ∀ path, plan.lookup path ≠ none ∨ input = path →
        (plan.put input (target folder places input source)).lookup path ≠ none := by
      intro path hpath
      rw [lookup_put]
      split
      · simp
      · next hne => exact hpath.resolve_right hne
    obtain ⟨hsound, hinputs, hkept⟩ := ih hrest (h.put hsource hclaimed)
    refine ⟨hsound, List.forall_mem_cons.mpr ⟨?_, hinputs⟩, fun path hpath => ?_⟩
    · exact hkept input (hput input (.inr rfl))
    · exact hkept path (hput path (.inl hpath))

theorem make_sound {roots inputs : List Path} {plan : OutputPlan}
    (h : make disk folder roots inputs = .ok plan) :
    ∃ places sources, Sound disk folder places plan sources ∧ ∀ input ∈ inputs, plan.lookup input ≠ none := by
  unfold make at h
  split at h
  · cases h
  · next places _ =>
    obtain ⟨⟨sources, hsound⟩, hinputs, -⟩ := extend_sound h fun _ _ hlookup => by simp [lookup] at hlookup
    exact ⟨places, sources, hsound, hinputs⟩

end

end OutputPlan

end ShaderFlatten
