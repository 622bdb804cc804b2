import Mathlib.Data.Finset.Card
import ShaderFlatten.Proofs.Canonical
import ShaderFlatten.Proofs.Stack

/-!
# The recursion of a call

At every moment of a call the files that are being processed are distinct, none of them is in the cache,
and there are no more of them than the limit allows.  So nothing is ever stored twice, and a call cannot
fail because of the cache.

The limit is not what makes a call end.  Every open file but the outermost one is an entry of the tree,
so with each of them fewer entries are left outside the chain, and a machine without a limit halts:

    tree.entries.length < levels →
      Run s none (.start place cache) ⟨deliver r, [], l⟩   with  (r, l) = Flatten.file s levels [] place _
-/

namespace ShaderFlatten

/-! ## No failure comes from the cache -/

/-- A failure that is handed on has arisen in a file. -/
def LocalFailure (σ : State) : Prop :=
  ∀ failure, σ.phase = .deliver (.error (.failed failure)) →
    failure.kind ≠ .invalidPath ∧ failure.kind ≠ .cacheConflict

section
variable {s : Setting} {limit : Option Nat} {root : Place} {σ τ : State}

theorem Step.localFailure (h : Step s limit σ τ) (hchain : ChainInv limit σ) (hσ : LocalFailure σ) :
    LocalFailure τ := by
  intro failure hphase
  obtain ⟨phase, frames, l⟩ := τ
  cases hphase
  rcases h.halt_cases hchain with harises | ⟨refusal, hhalt, -⟩ | ⟨failure', path, line, hhalt, hbefore⟩
  · cases harises with
    | unread hunread =>
      have horigin := Flatten.sourceAt_origin hunread
      simpa using Cause.kind_ne_of_origin (by simp [horigin]) (by simp [horigin])
    | line hm =>
      obtain ⟨⟨cause, rfl, horigin⟩, -⟩ := Move.ofLine_halt hm
      exact Cause.kind_ne_of_origin (by simp [horigin]) (by simp [horigin])
    | tooDeep hm hcache hn hle hhalt =>
      obtain ⟨cause, rfl, horigin⟩ := depthHalt_origin hhalt
      exact Cause.kind_ne_of_origin (by simp [horigin]) (by simp [horigin])
    | unclosed hfinish =>
      have horigin := finish_origin hfinish
      simpa using Cause.kind_ne_of_origin (by simp [horigin]) (by simp [horigin])
  · cases hhalt
  · cases hhalt
    simpa using hσ failure' hbefore

theorem Run.localFailure {cache : Table Text} (h : Run s limit (.start root cache) σ)
    (hroot : cache.get? root.text = none) : LocalFailure σ := by
  refine h.keeps hroot ?_ fun _ _ hstep hσ => hstep.localFailure hσ.chain
  intro failure hphase
  cases hphase

/-! ## Files outside the chain -/

/-- The names of the entries of a tree. -/
def FileTree.keys (tree : FileTree) : Finset String := (tree.entries.map (·.1.text)).toFinset

theorem FileTree.card_keys_le (tree : FileTree) : tree.keys.card ≤ tree.entries.length := by
  have h := (tree.entries.map (·.1.text)).toFinset_card_le
  rwa [List.length_map] at h

/-- An open file that another one has asked for is an entry of the tree. -/
theorem key_mem_of_import {g : Frame} {text : Text} {target : Place}
    (hg : g.Awaits s target) (hsource : Flatten.sourceAt s target = .ok text) :
    target.text ∈ s.disk.tree.keys := by
  obtain ⟨line, rest, path, -, himport⟩ := hg
  obtain ⟨content, hread⟩ := Flatten.readBytes_of_sourceAt hsource
  obtain ⟨entry, hentry, heq⟩ := List.mem_map.mp (Disk.mem_entries_of_import himport.resolved hread)
  rw [← heq]
  exact List.mem_toFinset.mpr (List.mem_map.mpr ⟨entry, hentry, rfl⟩)

/-- **Opening an imported file takes one more entry into the chain.** -/
theorem Step.outside_ssubset (h : Step s limit σ τ) (hσ : RunInv s limit root σ)
    (hopened : τ.frames.length = σ.frames.length + 1) (hframes : σ.frames ≠ []) :
    s.disk.tree.keys \ (chainOf τ.frames).toFinset ⊂ s.disk.tree.keys \ (chainOf σ.frames).toFinset := by
  cases h with
  | @begin place frames l text l' hread =>
    obtain ⟨hsource, -⟩ := Flatten.readText_ok hread
    have hkey : place.text ∈ s.disk.tree.keys := by
      cases frames with
      | nil => exact absurd rfl hframes
      | cons g outer => exact key_mem_of_import (hσ.linked.entered place rfl) hsource
    have hnew : place.text ∉ chainOf frames := hσ.chain.entered.1
    have hchain : chainOf (Frame.start place text :: frames) = chainOf frames ++ [place.text] :=
      chainOf_cons _ _
    simp only [hchain, List.toFinset_append]
    refine (Finset.ssubset_iff_of_subset ?_).mpr ⟨place.text, ?_, ?_⟩
    · exact Finset.sdiff_subset_sdiff (Finset.Subset.refl _) Finset.subset_union_left
    · simp [hkey, hnew]
    · simp
  | _ =>
    simp only [List.length_cons] at hopened
    omega

theorem Stacked.key_mem {frames : List Frame} (h : Stacked s root frames) :
    ∀ f ∈ frames.dropLast, f.key ∈ s.disk.tree.keys := by
  induction frames with
  | nil => simp
  | cons f outer ih =>
    obtain ⟨⟨text, hsource, -⟩, hasked, hrest⟩ := h
    cases outer with
    | nil => simp
    | cons g outer =>
      intro x hx
      rw [List.dropLast_cons_cons] at hx
      rcases List.mem_cons.mp hx with rfl | hx
      · exact key_mem_of_import hasked hsource
      · exact ih hrest x hx

/-- The outermost file and the entries of the tree are all that can be open. -/
theorem RunInv.frames_length_le (hσ : RunInv s limit root σ) :
    σ.frames.length ≤ s.disk.tree.entries.length + 1 := by
  have hnodup : (σ.frames.dropLast.map Frame.key).Nodup := by
    have h : (σ.frames.map Frame.key).Nodup := List.nodup_reverse.mp hσ.chain.open_nodup
    exact h.sublist ((List.dropLast_sublist _).map _)
  have hsubset : (σ.frames.dropLast.map Frame.key).toFinset ⊆ s.disk.tree.keys := by
    intro key hkey
    obtain ⟨f, hf, rfl⟩ := List.mem_map.mp (List.mem_toFinset.mp hkey)
    exact hσ.linked.stack.key_mem f hf
  have hcard := Finset.card_le_card hsubset
  rw [List.toFinset_card_of_nodup hnodup, List.length_map, List.length_dropLast] at hcard
  have := s.disk.tree.card_keys_le
  omega

/-! ## Without a limit -/

/-- A limit that the stack has not reached makes no difference. -/
theorem Step.unlimited {n : Nat} (h : Step s (some n) σ τ) (hlength : σ.frames.length ≤ n) :
    Step s none σ τ := by
  cases h with
  | refuse hread => exact .refuse hread
  | begin hread => exact .begin hread
  | turn hm => exact .turn hm
  | settle hm => exact .settle hm
  | reuse hm hcache => exact .reuse hm hcache
  | descend hm hcache hroom => exact .descend hm hcache (by simp)
  | tooDeep hm hcache hn hle =>
    cases hn
    simp only [List.length_cons] at hlength
    omega
  | emit => exact .emit
  | fail => exact .fail
  | giveUp => exact .giveUp
  | unclosed hfinish => exact .unclosed hfinish
  | close hfinish hstore => exact .close hfinish hstore
  | conflict hfinish hstore => exact .conflict hfinish hstore

/-- **More levels than entries are as good as no limit.** -/
theorem run_unlimited {cache : Table Text} {levels : Nat} (hroot : cache.get? root.text = none)
    (hlevels : s.disk.tree.entries.length < levels) :
    Run s none (.start root cache)
      ⟨.deliver (Flatten.file s levels [] root (.ofCache cache)).1, [],
        (Flatten.file s levels [] root (.ofCache cache)).2⟩ := by
  have hrun := run_file (s := s) levels root [] (.ofCache cache)
  have hlift : ∀ σ, Run s (some levels) (.start root cache) σ → Run s none (.start root cache) σ := by
    intro σ h
    induction h with
    | refl => exact .refl
    | tail hrun hstep ih =>
      have hbound := (Run.runInv hrun hroot).frames_length_le
      exact ih.tail (hstep.unlimited (by omega))
  exact hlift _ hrun

/-- A machine without a choice that reaches an end has no infinite run. -/
theorem acc_of_run (h : Run s limit σ τ) (hend : ∀ υ, ¬ Step s limit τ υ) :
    Acc (fun υ σ => Step s limit σ υ) σ := by
  induction h using Relation.ReflTransGen.head_induction_on with
  | refl => exact ⟨_, fun υ hυ => absurd hυ (hend υ)⟩
  | head hstep _ ih =>
    refine ⟨_, fun υ hυ => ?_⟩
    rwa [Step.unique hυ hstep]

end

/-! ## The theorem -/

/-- **The recursion invariant**, for any engine and so for every one that a session leads to.  At every
moment of a call the chain has distinct files, none of them cached, and at most one more than the limit
allows levels; a call that enters a file goes from moment to moment until its outcome; no call fails
because of the cache.  Without a limit the machine has no infinite run either: with every imported file
that it opens fewer files of the tree are left outside the chain, and it ends as `Flatten.file` does
with more levels than the tree has entries. -/
theorem process_recursion (engine : Engine) (disk : Disk) (bindings : Bindings) (request : String) :
    (∀ σ, engine.Moment disk bindings request σ →
      σ.chain.Nodup ∧ (∀ key ∈ σ.chain, σ.ledger.cache.get? key = none) ∧
      ∀ n, engine.limits.importDepth = .levels n →
        (σ.chain.length : Int) ≤ max (engine.limits.depthInForce n) 0 + 1) ∧
    (∀ place, disk.canonical? request = .ok place → engine.cache.get? place.text = none →
      engine.Moment disk bindings request (.start place engine.cache) ∧
      engine.Moment disk bindings request ⟨.deliver (engine.process disk bindings request).1.1, [],
        (engine.process disk bindings request).1.2⟩) ∧
    (∀ failure, (engine.process disk bindings request).1.1 = .error (.failed failure) →
      failure.kind ≠ .cacheConflict) ∧
    ∀ place, disk.canonical? request = .ok place → engine.cache.get? place.text = none →
      Acc (fun τ σ => Step (engine.setting disk bindings) none σ τ) (.start place engine.cache) ∧
      (∀ σ τ, Run (engine.setting disk bindings) none (.start place engine.cache) σ →
        Step (engine.setting disk bindings) none σ τ → τ.frames.length = σ.frames.length + 1 →
        σ.frames ≠ [] →
        disk.tree.keys \ (chainOf τ.frames).toFinset ⊂ disk.tree.keys \ (chainOf σ.frames).toFinset) ∧
      ∀ levels, disk.tree.entries.length < levels →
        Run (engine.setting disk bindings) none (.start place engine.cache)
          ⟨.deliver (Flatten.file (engine.setting disk bindings) levels [] place
              (.ofCache engine.cache)).1, [],
            (Flatten.file (engine.setting disk bindings) levels [] place (.ofCache engine.cache)).2⟩ := by
  refine ⟨?_, ?_, ?_, ?_⟩
  · rintro σ ⟨place, hplace, hcache, hrun⟩
    have hinv := (Run.runInv hrun hcache).chain
    refine ⟨hinv.nodup, hinv.uncached, fun n hn => ?_⟩
    have hlength := hinv.length_le _ rfl
    simp only [Limits.levels, hn] at hlength
    omega
  · intro place hplace hcache
    exact ⟨⟨place, hplace, hcache, .refl⟩,
      ⟨place, hplace, hcache, Engine.process_run bindings hplace hcache⟩⟩
  · intro failure hfailure
    rcases Engine.process_error hfailure with h | ⟨fault, h⟩ | ⟨place, -, hcache, hrun⟩
    · cases h
    · cases h
      simp [Cause.kind]
    · exact (Run.localFailure hrun hcache failure rfl).2
  · intro place hplace hcache
    have hrun := run_unlimited (s := engine.setting disk bindings) hcache
      (Nat.lt_succ_self disk.tree.entries.length)
    refine ⟨acc_of_run hrun fun _ => Step.not_of_end, ?_,
      fun levels hlevels => run_unlimited hcache hlevels⟩
    intro σ τ hσ hstep hopened hframes
    exact hstep.outside_ssubset (Run.runInv hσ hcache) hopened hframes

end ShaderFlatten
