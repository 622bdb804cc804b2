import ShaderFlatten.Proofs.ImportGraph

/-!
# Warmer caches

A run with a fuller cache does what the run with an emptier one does, or less.  The two are compared step
by step of the run with the emptier cache, the cold one:

* at first both are alike (`alike`);
* the cold run may enter a file that the warm one has cached.  While it is inside, the warm run waits with
  the text of that file (`ahead`).  All files that the cold run meets there are cached by the warm one, so
  it adds nothing to its cache that the warm run lacks, and it comes to the same text;
* only the cold run can find that its imports nest too deeply (`tooDeep`), because all that the limit
  counts is open files.

So a fuller cache changes no result but a failure that comes from the depth of imports.
-/

namespace ShaderFlatten

/-! ## What the plain recursion does next -/

/-- The file behind its next line, which leaves these blocks open. -/
def Frame.turn : Frame → OpenBlocks → Frame
  | ⟨place, passed, line :: rest, _, done⟩, blocks => ⟨place, passed ++ [line], rest, blocks, done⟩
  | f, _ => f

namespace Uncached

section
variable {s : Setting} {chain : List String} {place : Place} {passed rest done : List Text} {line : Text}
  {blocks : OpenBlocks} {f : Frame} {text : Text} {r r' : Except Halt Text}

theorem Gives.unique (h : Gives s chain place r) (h' : Gives s chain place r') : r = r' := by
  obtain ⟨n, hn⟩ := h
  obtain ⟨m, hm⟩ := h'
  have hleft := file_mono (Nat.le_max_left n m) hn
  have hright := file_mono (Nat.le_max_right n m) hm
  exact Option.some.inj (hleft.symm.trans hright)

/-- A file that comes to a text can be read, and its lines come to that text. -/
theorem Gives.source (h : Gives s chain place (.ok text)) :
    ∃ source, Flatten.sourceAt s place = .ok source ∧ Scans s chain (.start place source) (.ok text) := by
  obtain ⟨levels, hfile⟩ := h
  cases levels with
  | zero => cases hfile
  | succ levels =>
    rw [file, fileWith] at hfile
    cases hsource : Flatten.sourceAt s place with
    | error cause =>
      rw [hsource] at hfile
      cases hfile
    | ok source =>
      rw [hsource] at hfile
      exact ⟨source, rfl, levels, hfile⟩

/-- A file that comes to a text has closed all blocks at its end. -/
theorem Scans.finish (h : Scans s chain ⟨place, passed, [], blocks, done⟩ (.ok text)) :
    blocks.finish = .ok () ∧ text = done.reverse.flatten := by
  obtain ⟨levels, hlines⟩ := h
  rw [lines] at hlines
  cases hfinish : blocks.finish with
  | error cause =>
    rw [hfinish] at hlines
    cases hlines
  | ok _ =>
    rw [hfinish] at hlines
    cases hlines
    exact ⟨rfl, rfl⟩

/-- What a file that comes to a text does at its next line. -/
def Goes (s : Setting) (chain : List String) (f : Frame) (text : Text) : Move → Prop
  | .turn blocks => Scans s chain (f.turn blocks) (.ok text)
  | .settle (.error _) => False
  | .settle (.ok emitted) => Scans s chain (f.emit emitted) (.ok text)
  | .fetch _ target =>
    ∃ emitted, Gives s (chain ++ [f.key]) target (.ok emitted) ∧
      Scans s chain (f.emit emitted) (.ok text)

theorem Scans.next (h : Scans s chain ⟨place, passed, line :: rest, blocks, done⟩ (.ok text)) :
    Goes s chain ⟨place, passed, line :: rest, blocks, done⟩ text
      (Move.ofLine s (chain ++ [place.text]) place blocks line) := by
  obtain ⟨levels, hlines⟩ := h
  rw [lines] at hlines
  cases hmove : Move.ofLine s (chain ++ [place.text]) place blocks line with
  | turn blocks' =>
    simp only [hmove] at hlines
    exact ⟨levels, hlines⟩
  | settle result =>
    simp only [hmove] at hlines
    cases result with
    | error halt => cases hlines
    | ok emitted => exact ⟨levels, hlines⟩
  | fetch path target =>
    simp only [hmove] at hlines
    cases hvisit : file s levels (chain ++ [place.text]) target with
    | none =>
      rw [hvisit] at hlines
      cases hlines
    | some result =>
      rw [hvisit] at hlines
      cases result with
      | error halt => cases hlines
      | ok emitted => exact ⟨emitted, ⟨levels, hvisit⟩, levels, hlines⟩

end

end Uncached

/-! ## The cold run inside a file that the warm run has cached -/

/-- Handed a text, the open files `inner` come to the text `final` by the plain recursion, each handing its
own text to the next one. -/
def Handed (s : Setting) (base : List Frame) (final : Text) : (inner : List Frame) → Text → Prop
  | [], text => text = final
  | f :: inner, text => ∃ text', Uncached.Scans s (chainOf (inner ++ base)) (f.emit text) (.ok text') ∧
      Handed s base final inner text'

/-- From where the open files `inner` are, they come to the text `final` by the plain recursion. -/
def Comes (s : Setting) (base : List Frame) (final : Text) : Phase → (inner : List Frame) → Prop
  | .enter place, inner => ∃ text, Uncached.Gives s (chainOf (inner ++ base)) place (.ok text) ∧
      Handed s base final inner text
  | .scan, f :: inner => ∃ text, Uncached.Scans s (chainOf (inner ++ base)) f (.ok text) ∧
      Handed s base final inner text
  | .scan, [] => False
  | .deliver (.ok text), inner => Handed s base final inner text
  | .deliver (.error _), _ => False

/-- What one cache holds, the other one holds too. -/
def Covers (warm cold : Table Text) : Prop := ∀ place, Cached cold place → Cached warm place

/-- A cold run and a warm run. -/
inductive Warmed (s : Setting) : (cold warm : State) → Prop
  | alike {phase frames l l'} : Covers l'.cache l.cache →
      Warmed s ⟨phase, frames, l⟩ ⟨phase, frames, l'⟩
  | ahead (inner : List Frame) {phase base text l l'} : Covers l'.cache l.cache →
      Comes s base text phase inner →
      (∀ f ∈ inner, Cached l'.cache f.place) →
      (∀ place, phase = .enter place → Cached l'.cache place) →
      Warmed s ⟨phase, inner ++ base, l⟩ ⟨.deliver (.ok text), base, l'⟩
  | tooDeep {halt frames l warm} : halt.OfDepth →
      Warmed s ⟨.deliver (.error halt), frames, l⟩ warm

/-- What is known of every moment of a run that began with a sound and grounded cache. -/
structure Kept (s : Setting) (limit : Option Nat) (root : Place) (σ : State) : Prop where
  run : RunInv s limit root σ
  mirrored : Mirrored s root σ
  backed : Backed s root σ

section
variable {s : Setting} {limit : Option Nat} {root : Place} {σ τ : State}

theorem Covers.insert {warm cold : Table Text} (h : Covers warm cold) (key : String) (text text' : Text) :
    Covers (warm.insert key text) (cold.insert key text') := by
  intro place hcold
  rw [Cached, Table.get?_insert] at hcold ⊢
  split
  · simp
  · next hne =>
    rw [if_neg hne] at hcold
    exact h place hcold

/-- A file that the warm run has cached may be cached by the cold one. -/
theorem Covers.insert_cold {warm cold : Table Text} (h : Covers warm cold) {place : Place}
    (hplace : Cached warm place) (text : Text) : Covers warm (cold.insert place.text text) := by
  intro place' hcold
  rw [Cached, Table.get?_insert] at hcold
  split at hcold
  · next heq =>
    rw [Cached, ← heq]
    exact hplace
  · exact h place' hcold

/-- Sound caches agree on the files that both of them hold. -/
theorem Sound.text_unique {cache cache' : Table Text} {place : Place} {text text' : Text}
    (hnamed : ∀ name ∈ place, IsName name) (h : Sound s cache) (h' : Sound s cache')
    (hget : cache.get? place.text = some text) (hget' : cache'.get? place.text = some text') :
    text = text' := by
  have hgives := h place text hnamed hget [] (by simp [Clear])
  have hgives' := h' place text' hnamed hget' [] (by simp [Clear])
  exact Except.ok.inj (hgives.unique hgives')

theorem Step.kept (hdisk : s.disk.WellNamed) (hroot : ∀ name ∈ root, IsName name)
    (h : Step s limit σ τ) (hσ : Kept s limit root σ) : Kept s limit root τ where
  run := h.runInv hσ.run
  mirrored := h.mirrored hdisk hroot hσ.run hσ.mirrored
  backed := h.backed hdisk hroot hσ.run hσ.backed

/-- Reading a file has nothing to do with what is known already. -/
theorem Flatten.readText_other {place : Place} {l l₁ : Ledger} {result : Except Halt Text}
    (h : readText s place l = (result, l₁)) (l' : Ledger) :
    l₁.cache = l.cache ∧ ∃ l₂, readText s place l' = (result, l₂) ∧ l₂.cache = l'.cache := by
  rw [readText_eq] at h ⊢
  cases hsource : sourceAt s place with
  | error cause =>
    simp only [hsource, failFile, Prod.mk.injEq] at h
    obtain ⟨rfl, rfl⟩ := h
    exact ⟨by simp, _, rfl, by simp⟩
  | ok text =>
    simp only [hsource, Prod.mk.injEq] at h
    obtain ⟨rfl, rfl⟩ := h
    exact ⟨by simp, _, rfl, by simp⟩

/-! ## Steps -/

/-- **A step of two runs that are alike.** -/
theorem Warmed.step_alike {phase : Phase} {frames : List Frame} {l l' : Ledger}
    (hdisk : s.disk.WellNamed) (hcovers : Covers l'.cache l.cache)
    (hcold : Kept s limit root ⟨phase, frames, l⟩) (hwarm : Kept s limit root ⟨phase, frames, l'⟩)
    (h : Step s limit ⟨phase, frames, l⟩ σ) :
    ∃ τ, Run s limit ⟨phase, frames, l'⟩ τ ∧ Warmed s σ τ := by
  cases h with
  | refuse hread =>
    obtain ⟨hcache, l₂, hread', hcache'⟩ := Flatten.readText_other hread l'
    exact ⟨_, .single (.refuse hread'), .alike (by rwa [hcache, hcache'])⟩
  | begin hread =>
    obtain ⟨hcache, l₂, hread', hcache'⟩ := Flatten.readText_other hread l'
    exact ⟨_, .single (.begin hread'), .alike (by rwa [hcache, hcache'])⟩
  | turn hm => exact ⟨_, .single (.turn hm), .alike hcovers⟩
  | settle hm => exact ⟨_, .single (.settle hm), .alike hcovers⟩
  | @reuse place passed line rest blocks done outer l path target text hm hget =>
    have hnamed := Disk.canonical?_named hdisk (Move.ofLine_eq_fetch.mp hm).1.resolved
    have hcached : Cached l'.cache target := hcovers target (by simp [Cached, hget])
    obtain ⟨text', hget'⟩ := Option.ne_none_iff_exists'.mp hcached
    obtain rfl : text = text' :=
      Sound.text_unique hnamed hcold.mirrored.sound hwarm.mirrored.sound hget hget'
    exact ⟨_, .single (.reuse hm hget'), .alike hcovers⟩
  | @descend place passed line rest blocks done outer l path target hm hget hroom =>
    cases hget' : l'.cache.get? target.text with
    | none => exact ⟨_, .single (.descend hm hget' hroom), .alike hcovers⟩
    | some text =>
      -- the warm run has the text of the file that the cold one enters
      have hnamed := Disk.canonical?_named hdisk (Move.ofLine_eq_fetch.mp hm).1.resolved
      have hgives := hwarm.mirrored.sound target text hnamed hget'
        (chainOf (⟨place, passed, line :: rest, blocks, done⟩ :: outer)) hwarm.run.chain.open_uncached
      refine ⟨_, .single (.reuse hm hget'), .ahead [] hcovers ⟨text, hgives, rfl⟩ (by simp) ?_⟩
      rintro place ⟨⟩
      simp [Cached, hget']
  | tooDeep hm hget hn hle => exact ⟨_, .refl, .tooDeep (Halt.ofDepth_depthHalt _ _)⟩
  | emit => exact ⟨_, .single .emit, .alike hcovers⟩
  | fail => exact ⟨_, .single .fail, .alike hcovers⟩
  | giveUp => exact ⟨_, .single .giveUp, .alike hcovers⟩
  | unclosed hfinish => exact ⟨_, .single (.unclosed hfinish), .alike hcovers⟩
  | close hfinish hstore =>
    have hstore' := hwarm.run.chain.store_eq
    cases (hcold.run.chain.store_eq _).symm.trans hstore
    exact ⟨_, .single (.close hfinish (hstore' _)), .alike (hcovers.insert _ _ _)⟩
  | conflict hfinish hstore => cases (hcold.run.chain.store_eq _).symm.trans hstore

/-- **A step of the cold run inside a file that the warm run has cached.** -/
theorem Warmed.step_inside {f : Frame} {inner base : List Frame} {text : Text} {l l' : Ledger}
    (hdisk : s.disk.WellNamed) (hroot : ∀ name ∈ root, IsName name) (hcovers : Covers l'.cache l.cache)
    (hcomes : Comes s base text .scan (f :: inner)) (hinner : ∀ g ∈ f :: inner, Cached l'.cache g.place)
    (hcold : Kept s limit root ⟨.scan, f :: (inner ++ base), l⟩)
    (hwarm : Kept s limit root ⟨.deliver (.ok text), base, l'⟩)
    (h : Step s limit ⟨.scan, f :: (inner ++ base), l⟩ σ) :
    Warmed s σ ⟨.deliver (.ok text), base, l'⟩ := by
  obtain ⟨result, hscans, hhanded⟩ := hcomes
  have hstack := hcold.run.linked.stack
  have hinner' : ∀ g ∈ inner, Cached l'.cache g.place := fun g hg => hinner g (List.mem_cons_of_mem _ hg)
  -- the same files are open behind a line that the cold run passes or waits at
  have hsame : ∀ (g : Frame), g.place = f.place → ∀ g' ∈ g :: inner, Cached l'.cache g'.place := by
    intro g hplace g' hg'
    rcases List.mem_cons.mp hg' with rfl | hg'
    · rw [hplace]
      exact hinner f List.mem_cons_self
    · exact hinner' g' hg'
  cases h with
  | turn hm =>
    have hgoes := hscans.next
    rw [hm] at hgoes
    exact .ahead (_ :: inner) hcovers ⟨result, hgoes, hhanded⟩ (hsame _ rfl) (by simp)
  | @settle place passed line rest blocks done outer l settled hm =>
    have hgoes := hscans.next
    rw [hm] at hgoes
    cases settled with
    | error halt => exact hgoes.elim
    | ok emitted => exact .ahead (_ :: inner) hcovers ⟨result, hgoes, hhanded⟩ hinner (by simp)
  | @reuse place passed line rest blocks done outer l path target emitted hm hget =>
    have hgoes := hscans.next
    rw [hm] at hgoes
    obtain ⟨emitted', hgives', hgoes⟩ := hgoes
    -- what the cold run has cached is what the plain recursion comes to
    have hnamed := Disk.canonical?_named hdisk (Move.ofLine_eq_fetch.mp hm).1.resolved
    have hgives := hcold.mirrored.sound target emitted hnamed hget _ hcold.run.chain.open_uncached
    rw [chainOf_cons] at hgives
    obtain rfl : emitted = emitted' := Except.ok.inj (hgives.unique hgives')
    exact .ahead (_ :: inner) hcovers ⟨result, hgoes, hhanded⟩ hinner (by simp)
  | @descend place passed line rest blocks done outer l path target hm hget hroom =>
    have hgoes := hscans.next
    rw [hm] at hgoes
    obtain ⟨emitted, hgives, hgoes⟩ := hgoes
    -- what a cached file imports is cached
    have hawaits : Frame.Awaits s ⟨place, passed, line :: rest, blocks, done⟩ target :=
      ⟨line, rest, path, rfl, (Move.ofLine_eq_fetch.mp hm).1⟩
    have hnamed : ∀ name ∈ place, IsName name := hstack.2.1.named hdisk hroot
    have hcached : Cached l'.cache target := hwarm.backed.grounded.closed place target hnamed
      (hinner _ List.mem_cons_self) (hawaits.visibleImport hstack.1)
    rw [← chainOf_cons] at hgives
    refine .ahead (_ :: inner) hcovers ⟨emitted, hgives, result, hgoes, hhanded⟩ hinner ?_
    rintro _ ⟨⟩
    exact hcached
  | tooDeep hm hget hn hle => exact .tooDeep (Halt.ofDepth_depthHalt _ _)
  | unclosed hfinish =>
    rw [hscans.finish.1] at hfinish
    cases hfinish
  | @close place passed blocks done outer l l₁ hfinish hstore =>
    obtain ⟨-, rfl⟩ := hscans.finish
    have hplace : Cached l'.cache place := hinner _ List.mem_cons_self
    cases (hcold.run.chain.store_eq _).symm.trans hstore
    exact .ahead inner (hcovers.insert_cold hplace _) hhanded hinner' (by simp)
  | conflict hfinish hstore => cases (hcold.run.chain.store_eq _).symm.trans hstore

/-- **A step of the cold run while the warm one is ahead.** -/
theorem Warmed.step_ahead {phase : Phase} {inner base : List Frame} {text : Text} {l l' : Ledger}
    (hdisk : s.disk.WellNamed) (hroot : ∀ name ∈ root, IsName name) (hcovers : Covers l'.cache l.cache)
    (hcomes : Comes s base text phase inner) (hinner : ∀ f ∈ inner, Cached l'.cache f.place)
    (hentered : ∀ place, phase = .enter place → Cached l'.cache place)
    (hcold : Kept s limit root ⟨phase, inner ++ base, l⟩)
    (hwarm : Kept s limit root ⟨.deliver (.ok text), base, l'⟩)
    (h : Step s limit ⟨phase, inner ++ base, l⟩ σ) :
    ∃ τ, Run s limit ⟨.deliver (.ok text), base, l'⟩ τ ∧ Warmed s σ τ := by
  cases phase with
  | enter place =>
    obtain ⟨result, hgives, hhanded⟩ := hcomes
    obtain ⟨source, hsource, hscans⟩ := hgives.source
    refine ⟨_, .refl, ?_⟩
    cases h with
    | refuse hread =>
      obtain ⟨cause, hcause, -⟩ := Flatten.readText_error hread
      rw [hsource] at hcause
      cases hcause
    | begin hread =>
      obtain ⟨hsource', rfl⟩ := Flatten.readText_ok hread
      cases hsource.symm.trans hsource'
      refine .ahead (.start place source :: inner) (by simpa using hcovers) ⟨result, hscans, hhanded⟩ ?_
        (by simp)
      intro f hf
      rcases List.mem_cons.mp hf with rfl | hf
      · exact hentered place rfl
      · exact hinner f hf
  | scan =>
    cases inner with
    | nil => exact hcomes.elim
    | cons f inner =>
      exact ⟨_, .refl, Warmed.step_inside hdisk hroot hcovers hcomes hinner hcold hwarm h⟩
  | deliver result =>
    cases result with
    | error halt => exact hcomes.elim
    | ok text' =>
      cases inner with
      | nil =>
        -- the cold run has caught up
        obtain rfl : text' = text := hcomes
        exact Warmed.step_alike hdisk hcovers hcold hwarm h
      | cons f inner =>
        obtain ⟨result, hscans, hhanded⟩ := hcomes
        have hplace := hinner f List.mem_cons_self
        refine ⟨_, .refl, ?_⟩
        cases h with
        | emit =>
          refine .ahead (_ :: inner) hcovers ⟨result, hscans, hhanded⟩ ?_ (by simp)
          intro g hg
          rcases List.mem_cons.mp hg with rfl | hg
          · exact hplace
          · exact hinner g (List.mem_cons_of_mem _ hg)

/-- **A step of the cold run** is one step of the warm run or none. -/
theorem Warmed.step (hdisk : s.disk.WellNamed) (hroot : ∀ name ∈ root, IsName name) {σ' : State}
    (hwarmed : Warmed s σ τ) (hcold : Kept s limit root σ) (hwarm : Kept s limit root τ)
    (h : Step s limit σ σ') : ∃ τ', Run s limit τ τ' ∧ Warmed s σ' τ' := by
  cases hwarmed with
  | alike hcovers => exact Warmed.step_alike hdisk hcovers hcold hwarm h
  | ahead inner hcovers hcomes hinner hentered =>
    exact Warmed.step_ahead hdisk hroot hcovers hcomes hinner hentered hcold hwarm h
  | tooDeep hdepth =>
    refine ⟨_, .refl, ?_⟩
    cases h with
    | fail => exact .tooDeep ((Halt.ofDepth_leave ⟨_, some (_, _)⟩ _).mpr hdepth)
    | giveUp => exact .tooDeep hdepth

/-! ## Runs -/

theorem Run.kept (hdisk : s.disk.WellNamed) (hroot : ∀ name ∈ root, IsName name)
    (h : Run s limit σ τ) (hσ : Kept s limit root σ) : Kept s limit root τ :=
  h.preserves (fun _ _ hstep hσ => hstep.kept hdisk hroot hσ) hσ

theorem Kept.start {cache : Table Text} (hget : cache.get? root.text = none) (hsound : Sound s cache)
    (hgrounded : Grounded s cache) : Kept s limit root (.start root cache) where
  run := .start hget
  mirrored := .start hsound
  backed := .start hgrounded

theorem Run.warmed (hdisk : s.disk.WellNamed) (hroot : ∀ name ∈ root, IsName name) {σ' : State}
    (hwarmed : Warmed s σ τ) (hcold : Kept s limit root σ) (hwarm : Kept s limit root τ)
    (h : Run s limit σ σ') : ∃ τ', Run s limit τ τ' ∧ Warmed s σ' τ' := by
  induction h with
  | refl => exact ⟨τ, .refl, hwarmed⟩
  | tail hrun hstep ih =>
    obtain ⟨τ₁, hrun₁, hwarmed₁⟩ := ih
    obtain ⟨τ₂, hrun₂, hwarmed₂⟩ := hwarmed₁.step hdisk hroot (Run.kept hdisk hroot hrun hcold)
      (Run.kept hdisk hroot hrun₁ hwarm) hstep
    exact ⟨τ₂, hrun₁.trans hrun₂, hwarmed₂⟩

/-- At the end of the cold run the warm one has the same result, unless the cold one has ended because of
the depth of its imports. -/
theorem Warmed.at_end {result : Except Halt Text} {l : Ledger}
    (h : Warmed s ⟨.deliver result, [], l⟩ τ) :
    (∃ halt, result = .error halt ∧ halt.OfDepth) ∨ ∃ l', τ = ⟨.deliver result, [], l'⟩ := by
  generalize hσ : State.mk (.deliver result) [] l = σ at h
  cases h with
  | @alike phase frames l₁ l' hcovers =>
    cases hσ
    exact .inr ⟨l', rfl⟩
  | @ahead inner phase base text l₁ l' hcovers hcomes hinner hentered =>
    obtain ⟨rfl, hframes, rfl⟩ := State.mk.inj hσ
    obtain ⟨rfl, rfl⟩ := List.append_eq_nil_iff.mp hframes.symm
    cases result with
    | error halt => exact hcomes.elim
    | ok text' =>
      obtain rfl : text' = text := hcomes
      exact .inr ⟨l', rfl⟩
  | tooDeep hdepth =>
    cases hσ
    exact .inl ⟨_, rfl, hdepth⟩

/-- **A fuller cache changes no result** but one that comes from the depth of imports. -/
theorem Run.warm {cold warm : Table Text} {result : Except Halt Text} {l : Ledger}
    (hdisk : s.disk.WellNamed) (hroot : ∀ name ∈ root, IsName name) (hcovers : Covers warm cold)
    (hcold : Kept s limit root (.start root cold)) (hwarm : Kept s limit root (.start root warm))
    (h : Run s limit (.start root cold) ⟨.deliver result, [], l⟩) :
    (∃ halt, result = .error halt ∧ halt.OfDepth) ∨
      ∃ l', Run s limit (.start root warm) ⟨.deliver result, [], l'⟩ := by
  have hstart : Warmed s (.start root cold) (.start root warm) := .alike hcovers
  obtain ⟨τ, hrun, hwarmed⟩ := h.warmed hdisk hroot hstart hcold hwarm
  rcases hwarmed.at_end with hdepth | ⟨l', rfl⟩
  · exact .inl hdepth
  · exact .inr ⟨l', hrun⟩

end

/-! ## Calls -/

/-- What is known of the cache of an engine that has served requests with one tree and one set of
bindings. -/
structure Engine.Filled (engine : Engine) (s : Setting) : Prop where
  sound : Sound s engine.cache
  grounded : Grounded s engine.cache

theorem Engine.Filled.create (limits : Limits) (s : Setting) : (Engine.create limits).Filled s where
  sound := .nil s
  grounded := .nil s

theorem Engine.Filled.afterAll {engine : Engine} {disk : Disk} {bindings : Bindings}
    (hdisk : disk.WellNamed) (h : engine.Filled (engine.setting disk bindings)) (requests : List String) :
    (engine.afterAll disk bindings requests).Filled (engine.setting disk bindings) := by
  refine ⟨(afterAll_sound hdisk h.sound requests).2, ?_⟩
  induction requests generalizing engine with
  | nil => exact h.grounded
  | cons request requests ih =>
    exact ih ⟨(process_mirrored hdisk h.sound request).1, process_grounded hdisk h.grounded request⟩

/-- **A fuller cache changes no outcome** of a call but one that comes from the depth of imports. -/
theorem Engine.process_warm {cold warm : Engine} {disk : Disk} {bindings : Bindings}
    (hdisk : disk.WellNamed) (hsetting : warm.setting disk bindings = cold.setting disk bindings)
    (hcovers : Covers warm.cache cold.cache) (hcold : cold.Filled (cold.setting disk bindings))
    (hwarm : warm.Filled (warm.setting disk bindings)) (request : String)
    (hdepth : ∀ halt, (cold.process disk bindings request).1.1 = .error halt → ¬ halt.OfDepth) :
    (warm.process disk bindings request).1.1 = (cold.process disk bindings request).1.1 := by
  by_cases hdeep : ∃ halt, (warm.process disk bindings request).1.1 = .error halt ∧ halt.OfDepth
  · -- only a file that neither of them has cached can lead to imports
    obtain ⟨halt, hhalt, hof⟩ := hdeep
    rcases process_error hhalt with rfl | ⟨fault, rfl⟩ | ⟨place, hplace, hget, -⟩
    · exact hof.elim
    · cases hof
    · have hget' : cold.cache.get? place.text = none := by
        by_contra hcached
        exact hcovers place hcached hget
      have hlimits : warm.limits = cold.limits := congrArg Setting.limits hsetting
      rw [hsetting] at hwarm
      rcases (process_run bindings hplace hget').warm hdisk (Disk.canonical?_named hdisk hplace) hcovers
        (.start hget' hcold.sound hcold.grounded) (.start hget hwarm.sound hwarm.grounded) with
        ⟨halt', hhalt', hof'⟩ | ⟨l, hrun⟩
      · exact absurd hof' (hdepth halt' hhalt')
      · rw [← hsetting, ← hlimits] at hrun
        rw [process_of_run hplace hget hrun]
  · -- both come to what the plain recursion comes to
    obtain ⟨n, hplain⟩ := (process_mirrored hdisk hcold.sound request).2 hdepth
    obtain ⟨m, hplain'⟩ := (process_mirrored hdisk hwarm.sound request).2
      fun halt hhalt hof => hdeep ⟨halt, hhalt, hof⟩
    have hleft := hplain _ (Nat.le_max_left n m)
    have hright := hplain' _ (Nat.le_max_right n m)
    rw [hsetting] at hright
    exact Option.some.inj (hright.symm.trans hleft)

end ShaderFlatten
