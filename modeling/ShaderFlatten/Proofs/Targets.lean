import ShaderFlatten.Proofs.Delivery

/-!
# Targets and conflicts

An input is named below the output folder by the rest of its place behind the first root that contains it,
and by its file name if no root does.  What it is named by depends on the input and the roots alone, and a
plan is the table of these targets:

    plan.lookup input = some goal  ↔  input ∈ inputs ∧ goal is the target of input

There is a plan exactly if every root and every input resolves and no two inputs clash, in whatever order
they are given.  A clash is two inputs with one target whose places differ; several spellings of one source
do not clash.
-/

namespace ShaderFlatten

namespace OutputPlan

/-! ## Names below the output folder -/

/-- What an input with a source is named by: the rest of the source behind the first root that contains it,
or the file name of the input if no root does. -/
inductive NamedBy (disk : Disk) (input : Path) (source : Place) : List Path → Path → Prop
  | within {root : Path} {roots : List Path} {base : Place} {names : List String}
      (hbase : disk.resolve? root = .ok base) (hsource : source = base ++ names) :
      NamedBy disk input source (root :: roots) ⟨.relative, names⟩
  | beyond {root : Path} {roots : List Path} {base : Place} {name : Path}
      (hbase : disk.resolve? root = .ok base) (hsource : ¬ base <+: source)
      (hrest : NamedBy disk input source roots name) : NamedBy disk input source (root :: roots) name
  | outside : NamedBy disk input source [] (.ofString input.name)

/-- The target of an input: what its source is named by, below the output folder. -/
def IsTarget (disk : Disk) (folder : Path) (roots : List Path) (input goal : Path) : Prop :=
  ∃ source name, disk.resolve? input = .ok source ∧ NamedBy disk input source roots name ∧
    goal = folder.join name

/-- Two inputs have one target, but their sources differ. -/
def Clash (disk : Disk) (folder : Path) (roots inputs : List Path) : Prop :=
  ∃ first ∈ inputs, ∃ second ∈ inputs, disk.resolve? first ≠ disk.resolve? second ∧
    ∃ goal, IsTarget disk folder roots first goal ∧ IsTarget disk folder roots second goal

section
variable {disk : Disk} {folder : Path} {roots : List Path} {places : List Place} {input goal : Path}
  {source : Place}

/-- **The plan names inputs so.** -/
theorem namedBy_iff (hroots : List.Forall₂ (fun root place => disk.resolve? root = .ok place) roots places)
    {name : Path} : NamedBy disk input source roots name ↔ name = relativePath places input source := by
  induction hroots with
  | nil =>
    constructor
    · rintro ⟨⟩
      rfl
    · rintro rfl
      exact .outside
  | @cons root base roots places hbase _ ih =>
    by_cases hprefix : base <+: source
    · have hname : relativePath (base :: places) input source = ⟨.relative, source.drop base.length⟩ := by
        simp [relativePath, relativeTo?, hprefix]
      rw [hname]
      constructor
      · intro h
        cases h with
        | within hbase' hsource =>
          cases hbase.symm.trans hbase'
          rw [hsource, List.drop_left]
        | beyond hbase' hsource =>
          cases hbase.symm.trans hbase'
          exact absurd hprefix hsource
      · rintro rfl
        obtain ⟨names, rfl⟩ := hprefix
        rw [List.drop_left]
        exact .within hbase rfl
    · have hname : relativePath (base :: places) input source = relativePath places input source := by
        simp [relativePath, relativeTo?, hprefix]
      rw [hname, ← ih]
      constructor
      · intro h
        cases h with
        | within hbase' hsource =>
          cases hbase.symm.trans hbase'
          exact absurd ⟨_, hsource.symm⟩ hprefix
        | beyond _ _ hrest => exact hrest
      · exact .beyond hbase hprefix

theorem isTarget_iff (hroots : List.Forall₂ (fun root place => disk.resolve? root = .ok place) roots places) :
    IsTarget disk folder roots input goal ↔
      ∃ source, disk.resolve? input = .ok source ∧ goal = target folder places input source := by
  simp only [IsTarget, namedBy_iff hroots, target]
  constructor
  · rintro ⟨source, _, hsource, rfl, rfl⟩
    exact ⟨source, hsource, rfl⟩
  · rintro ⟨source, hsource, rfl⟩
    exact ⟨source, _, hsource, rfl, rfl⟩

/-! ## Why there is no plan -/

/-- Every claim to a target was made by one of the inputs so far. -/
def Claims (disk : Disk) (folder : Path) (places : List Place) (done : List Path)
    (sources : List (Path × Place)) : Prop :=
  ∀ goal first, claimed? sources goal = some first →
    ∃ input ∈ done, disk.resolve? input = .ok first ∧ goal = target folder places input first

/-- What keeps inputs from having a plan. -/
inductive Obstructs (disk : Disk) (folder : Path) (places : List Place) (inputs : List Path) :
    PlanError → Prop
  | unresolved {input : Path} {fault : Fault} (hinput : input ∈ inputs)
      (hfault : disk.resolve? input = .error fault) : Obstructs disk folder places inputs (.unresolved fault)
  | conflict {first second : Path} {place place' : Place} (hfirst : first ∈ inputs) (hsecond : second ∈ inputs)
      (hplace : disk.resolve? first = .ok place) (hplace' : disk.resolve? second = .ok place')
      (hne : place ≠ place') (htarget : target folder places first place = target folder places second place') :
      Obstructs disk folder places inputs (.conflict place place' (target folder places second place'))

theorem Claims.mono {done more : List Path} {sources : List (Path × Place)}
    (h : Claims disk folder places done sources) (hsub : ∀ path ∈ done, path ∈ more) :
    Claims disk folder places more sources := by
  intro goal first hclaimed
  obtain ⟨input, hinput, hfirst⟩ := h goal first hclaimed
  exact ⟨input, hsub input hinput, hfirst⟩

theorem Claims.add {done : List Path} {sources : List (Path × Place)}
    (h : Claims disk folder places done sources) (hinput : input ∈ done)
    (hsource : disk.resolve? input = .ok source) :
    Claims disk folder places done (sources ++ [(target folder places input source, source)]) := by
  intro goal first hclaimed
  obtain ⟨entry, hentry, hplace⟩ := Option.map_eq_some_iff.mp hclaimed
  rw [List.find?_append] at hentry
  cases hfind : sources.find? (·.1 = goal) with
  | some found =>
    rw [hfind] at hentry
    cases hentry
    exact h goal first (Option.map_eq_some_iff.mpr ⟨_, hfind, hplace⟩)
  | none =>
    rw [hfind] at hentry
    obtain ⟨heq, rfl⟩ : target folder places input source = goal ∧
        (target folder places input source, source) = entry := by simpa using hentry
    cases hplace
    exact ⟨input, hinput, hsource, heq.symm⟩

/-- **A plan is refused for a reason**: an input does not resolve, or it clashes with one before it, with
however many others between them. -/
theorem extend_error {done rest : List Path} {plan : OutputPlan} {sources : List (Path × Place)}
    {e : PlanError} (h : extend disk folder places plan sources rest = .error e)
    (hclaims : Claims disk folder places done sources) : Obstructs disk folder places (done ++ rest) e := by
  -- what is kept from input to input: whoever claims a target is an input that has been planned
  induction rest generalizing done plan sources with
  | nil => cases h
  | cons input rest ih =>
    have hmem : input ∈ done ++ input :: rest := by simp
    have hsplit : done ++ input :: rest = (done ++ [input]) ++ rest := by simp
    have hlater : Claims disk folder places (done ++ [input]) sources :=
      hclaims.mono fun path hpath => List.mem_append_left _ hpath
    rw [extend] at h
    cases hsource : disk.resolve? input with
    | error fault =>
      rw [hsource] at h
      cases h
      exact .unresolved hmem hsource
    | ok source =>
      simp only [hsource] at h
      cases hclaimed : claimed? sources (target folder places input source) with
      | none =>
        simp only [hclaimed] at h
        rw [hsplit]
        exact ih h (hlater.add (by simp) hsource)
      | some first =>
        simp only [hclaimed] at h
        split at h
        · rw [hsplit]
          exact ih h hlater
        · next hne =>
          cases h
          obtain ⟨earlier, hearlier, hplace, hgoal⟩ := hclaims _ first hclaimed
          exact .conflict (List.mem_append_left _ hearlier) hmem hplace hsource hne hgoal.symm

theorem make_error {inputs : List Path} {e : PlanError} (h : make disk folder roots inputs = .error e) :
    (∃ fault, e = .unresolved fault ∧ ∃ root ∈ roots, disk.resolve? root = .error fault) ∨
      ∃ places, List.Forall₂ (fun root place => disk.resolve? root = .ok place) roots places ∧
        Obstructs disk folder places inputs e := by
  unfold make at h
  split at h
  · next fault hroots =>
    cases h
    exact .inl ⟨fault, rfl, exists_of_mapM_error hroots⟩
  · next places hroots =>
    have hclaims : Claims disk folder places [] [] := fun _ _ hclaimed => by simp [claimed?] at hclaimed
    exact .inr ⟨places, mapM_eq_ok.mp hroots, extend_error h hclaims⟩

/-! ## What a plan says -/

theorem lookup_extend {inputs : List Path} {plan plan' : OutputPlan} {sources : List (Path × Place)}
    (h : extend disk folder places plan sources inputs = .ok plan') {path : Path}
    (hlookup : plan'.lookup path ≠ none) : plan.lookup path ≠ none ∨ path ∈ inputs := by
  induction inputs generalizing plan sources with
  | nil =>
    cases h
    exact .inl hlookup
  | cons input rest ih =>
    obtain ⟨source, added, -, -, hrest⟩ := extend_cons_ok h
    rcases ih hrest with hput | hmem
    · rw [lookup_put] at hput
      split at hput
      · next heq => exact .inr (heq ▸ List.mem_cons_self)
      · exact .inl hput
    · exact .inr (List.mem_cons_of_mem _ hmem)

/-- What a plan is made of: the places of the roots, and a sound table of the targets of the inputs. -/
theorem make_eq_ok {inputs : List Path} {plan : OutputPlan} (h : make disk folder roots inputs = .ok plan) :
    ∃ places sources, List.Forall₂ (fun root place => disk.resolve? root = .ok place) roots places ∧
      Sound disk folder places plan sources ∧ ∀ input, plan.lookup input ≠ none ↔ input ∈ inputs := by
  unfold make at h
  split at h
  · cases h
  · next places hroots =>
    obtain ⟨⟨sources, hsound⟩, hinputs, -⟩ := extend_sound h fun _ _ hlookup => by simp [lookup] at hlookup
    refine ⟨places, sources, mapM_eq_ok.mp hroots, hsound, fun input => ⟨fun hlookup => ?_, hinputs input⟩⟩
    exact (lookup_extend h hlookup).resolve_left (by simp [lookup])

/-- **A plan is the table of the targets of its inputs.** -/
theorem lookup_make {inputs : List Path} {plan : OutputPlan} (h : make disk folder roots inputs = .ok plan) :
    plan.lookup input = some goal ↔ input ∈ inputs ∧ IsTarget disk folder roots input goal := by
  obtain ⟨places, sources, hroots, hsound, hinputs⟩ := make_eq_ok h
  rw [isTarget_iff hroots]
  constructor
  · intro hlookup
    obtain ⟨source, hsource, hgoal, -⟩ := hsound input goal hlookup
    exact ⟨(hinputs input).mp (by simp [hlookup]), source, hsource, hgoal⟩
  · rintro ⟨hinput, source, hsource, rfl⟩
    obtain ⟨goal, hgoal⟩ := Option.ne_none_iff_exists'.mp ((hinputs input).mpr hinput)
    obtain ⟨source', hsource', rfl, -⟩ := hsound input goal hgoal
    cases hsource.symm.trans hsource'
    exact hgoal

/-- In a plan inputs with one target have one source. -/
theorem resolve?_eq_of_lookup_eq {inputs : List Path} {plan : OutputPlan}
    (h : make disk folder roots inputs = .ok plan) {input' : Path} (hgoal : plan.lookup input = some goal)
    (hgoal' : plan.lookup input' = some goal) : disk.resolve? input = disk.resolve? input' := by
  obtain ⟨places, sources, -, hsound, -⟩ := make_eq_ok h
  obtain ⟨source, hsource, -, hfirst⟩ := hsound input goal hgoal
  obtain ⟨source', hsource', -, hfirst'⟩ := hsound input' goal hgoal'
  cases hfirst.symm.trans hfirst'
  rw [hsource, hsource']

/-- Roots and inputs that have a plan resolve. -/
theorem resolves_of_make {inputs : List Path} {plan : OutputPlan}
    (h : make disk folder roots inputs = .ok plan) :
    ∀ path ∈ roots ++ inputs, ∃ place, disk.resolve? path = .ok place := by
  obtain ⟨places, sources, hroots, -, -⟩ := make_eq_ok h
  refine List.forall_mem_append.mpr ⟨fun root hroot => ?_, fun input hinput => ?_⟩
  · obtain ⟨place, -, hplace⟩ := exists_of_forall₂ hroots root hroot
    exact ⟨place, hplace⟩
  · obtain ⟨goal, hgoal⟩ := Option.ne_none_iff_exists'.mp <| by
      intro hnone
      obtain ⟨places, sources, -, -, hinputs⟩ := make_eq_ok h
      exact (hinputs input).mpr hinput hnone
    obtain ⟨-, source, -, hsource, -⟩ := (lookup_make h).mp hgoal
    exact ⟨source, hsource⟩

theorem not_clash_of_make {inputs : List Path} {plan : OutputPlan}
    (h : make disk folder roots inputs = .ok plan) : ¬ Clash disk folder roots inputs := by
  rintro ⟨first, hfirst, second, hsecond, hne, goal, htarget, htarget'⟩
  exact hne (resolve?_eq_of_lookup_eq h ((lookup_make h).mpr ⟨hfirst, htarget⟩)
    ((lookup_make h).mpr ⟨hsecond, htarget'⟩))

/-- Inputs that are in each other's way clash. -/
theorem clash_of_conflict {inputs : List Path}
    (hroots : List.Forall₂ (fun root place => disk.resolve? root = .ok place) roots places)
    {first second : Place} (h : Obstructs disk folder places inputs (.conflict first second goal)) :
    first ≠ second ∧ Clash disk folder roots inputs := by
  cases h with
  | conflict hfirst hsecond hplace hplace' hne htarget =>
    refine ⟨hne, _, hfirst, _, hsecond, ?_, _, (isTarget_iff hroots).mpr ⟨_, hplace, rfl⟩,
      (isTarget_iff hroots).mpr ⟨_, hplace', htarget⟩⟩
    rw [hplace, hplace']
    simpa using hne

end

end OutputPlan

/-! ## Resolutions that fail -/

/-- A path resolves unless the system loses itself in the links of its place, or a name on its way cannot be
written. -/
theorem Disk.resolve?_error {disk : Disk} {path : Path} {fault : Fault} (h : disk.resolve? path = .error fault) :
    fault = .unnameable ∨ ∃ place : Place, fault = .endlessLinks place.text ∧
      ∃ text, disk.stat place.path = .error (.system .linkLoop text) := by
  unfold resolve? at h
  cases hreached : disk.reached? path with
  | error e =>
    rw [hreached] at h
    cases h
    unfold reached? at hreached
    split at hreached
    · cases hreached
    · cases hreached
    · dsimp only at hreached
      split at hreached <;> cases hreached
      exact .inl rfl
    · cases hreached
      exact .inl rfl
  | ok place =>
    -- whatever place the path leads to, the system is asked to follow it
    simp only [hreached, bind, Except.bind] at h
    split at h
    · next text hstat =>
      cases h
      exact .inr ⟨place, rfl, text, hstat⟩
    · cases h

open OutputPlan

/-- **There is a plan unless two inputs clash.**  Take any disk, output folder, roots and inputs, none of
which leads into endless links.  There is no plan exactly if a root or an input has a name that cannot be
written, or two inputs with different sources have one target; the refusal says so.  A plan has every input
and nothing else, each with its own target, so that an input has the same target in every other plan under
the same roots, whatever other inputs there are and in whatever order; and inputs with different sources
have different targets. -/
theorem plans_tell_sources_apart {disk : Disk} {folder : Path} {roots inputs : List Path}
    (hloops : ∀ path ∈ roots ++ inputs, ∀ text, disk.resolve? path ≠ .error (.endlessLinks text)) :
    ((∃ e, make disk folder roots inputs = .error e) ↔
      (∃ path ∈ roots ++ inputs, disk.resolve? path = .error .unnameable) ∨
        Clash disk folder roots inputs) ∧
    (∀ e, make disk folder roots inputs = .error e →
      e = .unresolved .unnameable ∨ ∃ first second goal, e = .conflict first second goal ∧ first ≠ second) ∧
    ∀ plan, make disk folder roots inputs = .ok plan →
      (∀ input goal, plan.lookup input = some goal ↔
        input ∈ inputs ∧ IsTarget disk folder roots input goal) ∧
      (∀ input ∈ inputs, ∃ goal, plan.lookup input = some goal) ∧
      (∀ input ∈ inputs, ∀ input' ∈ inputs, disk.resolve? input ≠ disk.resolve? input' →
        plan.lookup input ≠ plan.lookup input') ∧
      ∀ others plan', make disk folder roots others = .ok plan' →
        ∀ input ∈ inputs, input ∈ others → plan'.lookup input = plan.lookup input := by
  have hunresolved : ∀ path ∈ roots ++ inputs, ∀ fault, disk.resolve? path = .error fault →
      fault = .unnameable := by
    intro path hpath fault hfault
    rcases Disk.resolve?_error hfault with rfl | ⟨place, rfl, -⟩
    · rfl
    · exact absurd hfault (hloops path hpath _)
  have hrefused : ∀ e, make disk folder roots inputs = .error e →
      (e = .unresolved .unnameable ∧ ∃ path ∈ roots ++ inputs, disk.resolve? path = .error .unnameable) ∨
        (∃ first second goal, e = .conflict first second goal ∧ first ≠ second) ∧
          Clash disk folder roots inputs := by
    intro e he
    rcases make_error he with ⟨fault, rfl, root, hroot, hfault⟩ | ⟨places, hroots, hobstructs⟩
    · cases hunresolved root (List.mem_append_left _ hroot) fault hfault
      exact .inl ⟨rfl, root, List.mem_append_left _ hroot, hfault⟩
    · cases hobstructs with
      | @unresolved input fault hinput hfault =>
        cases hunresolved input (List.mem_append_right _ hinput) fault hfault
        exact .inl ⟨rfl, input, List.mem_append_right _ hinput, hfault⟩
      | conflict hfirst hsecond hplace hplace' hne htarget =>
        have hclash := clash_of_conflict hroots (.conflict hfirst hsecond hplace hplace' hne htarget)
        exact .inr ⟨⟨_, _, _, rfl, hclash.1⟩, hclash.2⟩
  refine ⟨⟨?_, ?_⟩, ?_, fun plan hplan => ⟨fun input goal => lookup_make hplan, ?_, ?_, ?_⟩⟩
  · rintro ⟨e, he⟩
    exact (hrefused e he).imp And.right And.right
  · intro hreason
    cases hmake : make disk folder roots inputs with
    | error e => exact ⟨e, rfl⟩
    | ok plan =>
      rcases hreason with ⟨path, hpath, hfault⟩ | hclash
      · obtain ⟨place, hplace⟩ := resolves_of_make hmake path hpath
        cases hplace.symm.trans hfault
      · exact absurd hclash (not_clash_of_make hmake)
  · exact fun e he => (hrefused e he).imp And.left And.left
  · intro input hinput
    obtain ⟨places, sources, -, -, hinputs⟩ := make_eq_ok hplan
    exact Option.ne_none_iff_exists'.mp ((hinputs input).mpr hinput)
  · intro input hinput input' hinput' hne heq
    obtain ⟨places, sources, -, -, hinputs⟩ := make_eq_ok hplan
    obtain ⟨goal, hgoal⟩ := Option.ne_none_iff_exists'.mp ((hinputs input).mpr hinput)
    exact hne (resolve?_eq_of_lookup_eq hplan hgoal (heq ▸ hgoal))
  · intro others plan' hplan' input hinput hother
    obtain ⟨places, sources, -, -, hinputs⟩ := make_eq_ok hplan
    obtain ⟨goal, hgoal⟩ := Option.ne_none_iff_exists'.mp ((hinputs input).mpr hinput)
    rw [hgoal]
    exact (lookup_make hplan').mpr ⟨hother, ((lookup_make hplan).mp hgoal).2⟩

/-- Three paths of two files of one name, two of which name the same file: a clash. -/
theorem plans_tell_sources_apart_home :
    (∃ e, make homeDisk outFolder [] [homePath .relative "home", homePath .root "home", homePath .root "~"] =
      .error e) ∧
    ¬ Clash homeDisk outFolder [] [homePath .relative "home", homePath .root "home"] := by
  have hresolves : ∀ path ∈ [homePath .relative "home", homePath .root "home", homePath .root "~"],
      ∃ name, homeDisk.resolve? path = .ok [name, "a"] := by
    simp [resolve?_homeDisk]
  have hloops : ∀ path ∈ [] ++ [homePath .relative "home", homePath .root "home", homePath .root "~"],
      ∀ text, homeDisk.resolve? path ≠ .error (.endlessLinks text) := by
    intro path hpath text
    obtain ⟨name, hname⟩ := hresolves path hpath
    simp [hname]
  refine ⟨(plans_tell_sources_apart hloops).1.mpr (.inr ?_), ?_⟩
  · refine ⟨homePath .relative "home", by simp, homePath .root "~", by simp, ?_, outFile, ?_, ?_⟩
    · simp [resolve?_homeDisk]
    · exact ⟨_, _, resolve?_homeDisk (.inl rfl), .outside, by decide⟩
    · exact ⟨_, _, resolve?_homeDisk (.inr rfl), .outside, by decide⟩
  · exact not_clash_of_make (make_homeDisk (by simp [homePath]) (resolve?_homeDisk (.inl rfl))
      (resolve?_homeDisk (.inl rfl)) rfl rfl)

/-- An input whose name cannot be written has no plan, although it clashes with nothing. -/
theorem plan_refuses_zero :
    make homeDisk outFolder [] [zeroPath] = .error (.unresolved .unnameable) ∧
    ¬ Clash homeDisk outFolder [] [zeroPath] := by
  have hresolve : homeDisk.resolve? zeroPath = .error .unnameable := by
    simp only [Disk.resolve?, Disk.reached?, Disk.followPath_zero]
    rfl
  refine ⟨?_, ?_⟩
  · simp [make, extend, hresolve, pure, Except.pure]
  · rintro ⟨first, hfirst, -, -, -, -, ⟨source, -, hsource, -⟩, -⟩
    rw [List.mem_singleton.mp hfirst, hresolve] at hsource
    cases hsource

end ShaderFlatten
