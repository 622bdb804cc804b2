import ShaderFlatten.Proofs.Canonical
import ShaderFlatten.Proofs.Stack

/-!
# The cache is transparent

`Uncached.file s levels` flattens a file by the plain recursion: every import reads and flattens its file
again, there is no cache, and a file is refused only while it is open.  The levels are no limit of its
own: the recursion has no result as long as they do not suffice, and its result does not depend on them.

    Uncached.request s levels request = some result        from some number of levels on

for every call of a session that begins with an empty cache, unless the call ends because of the depth of
its imports.

A cached text is what the plain recursion makes of its file below any files that are not cached
(`Sound`), because every file that it imports has been cached before it.  The files that are open are not
cached, so none of them can be met again below a cached file.
-/

namespace ShaderFlatten

/-! ## Without a cache -/

namespace Uncached

/-- Flatten the file at a place that a chain of open files leads to, if it can be done. -/
abbrev Visit := List String → Place → Option (Except Halt Text)

/-- A halt leaves a file at a position; a failure is reported there. -/
def leave (p : Position) : Halt → Halt
  | .failed failure => .failed (failure.report p.place.text p.line)
  | .refused refusal => .refused refusal

/-- Flatten the lines that are left of a file. -/
def lines (s : Setting) (visit : Visit) (chain : List String) (place : Place) (passed : List Text)
    (blocks : OpenBlocks) (done : List Text) : List Text → Option (Except Halt Text)
  | [] =>
    match blocks.finish with
    | .error cause =>
      some (.error (.failed ((Failure.ofCause cause).report place.text
        (some (passed.length, passed.getLast?.getD [])))))
    | .ok () => some (.ok done.reverse.flatten)
  | line :: rest =>
    match Move.ofLine s (chain ++ [place.text]) place blocks line with
    | .turn blocks => lines s visit chain place (passed ++ [line]) blocks done rest
    | .settle (.error halt) => some (.error (leave ⟨place, some (passed.length + 1, line)⟩ halt))
    | .settle (.ok text) =>
      lines s visit chain place (passed ++ [line]) blocks (Flatten.emitted text rest :: done) rest
    | .fetch _ target =>
      match visit (chain ++ [place.text]) target with
      | none => none
      | some (.error halt) => some (.error (leave ⟨place, some (passed.length + 1, line)⟩ halt))
      | some (.ok text) =>
        lines s visit chain place (passed ++ [line]) blocks (Flatten.emitted text rest :: done) rest

/-- Flatten a file, given how the files that it imports are flattened. -/
def fileWith (s : Setting) (visit : Visit) : Visit := fun chain place =>
  match Flatten.sourceAt s place with
  | .error cause => some (.error (.failed ((Failure.ofCause cause).report place.text none)))
  | .ok text => lines s visit chain place [] .none [] (Text.lines text)

/-- Flatten a file with so many levels of files, itself included. -/
def file (s : Setting) : (levels : Nat) → Visit
  | 0 => fun _ _ => none
  | levels + 1 => fileWith s (file s levels)

/-- Flatten the file that a request denotes. -/
def request (s : Setting) (levels : Nat) (request : String) : Option (Except Halt Text) :=
  match s.disk.canonical? request with
  | .error .unnameable => some (.error (.refused .unnameable))
  | .error fault =>
    some (.error (.failed ((Failure.ofCause (.unresolvedPath request fault)).report request none)))
  | .ok place => file s levels [] place

/-! More levels do not change a result. -/

section
variable {s : Setting} {visit visit' : Visit}

theorem lines_mono (h : ∀ chain place r, visit chain place = some r → visit' chain place = some r)
    {chain : List String} {place : Place} {rest passed done : List Text} {blocks : OpenBlocks}
    {r : Except Halt Text} (hlines : lines s visit chain place passed blocks done rest = some r) :
    lines s visit' chain place passed blocks done rest = some r := by
  induction rest generalizing passed blocks done with
  | nil => exact hlines
  | cons line rest ih =>
    rw [lines] at hlines ⊢
    cases hmove : Move.ofLine s (chain ++ [place.text]) place blocks line with
    | turn blocks' =>
      simp only [hmove] at hlines ⊢
      exact ih hlines
    | settle result =>
      cases result with
      | error halt =>
        simp only [hmove] at hlines ⊢
        exact hlines
      | ok text =>
        simp only [hmove] at hlines ⊢
        exact ih hlines
    | fetch path target =>
      simp only [hmove] at hlines ⊢
      cases hvisit : visit (chain ++ [place.text]) target with
      | none =>
        rw [hvisit] at hlines
        cases hlines
      | some result =>
        rw [hvisit] at hlines
        rw [h _ _ _ hvisit]
        cases result with
        | error halt => exact hlines
        | ok text => exact ih hlines

theorem fileWith_mono (h : ∀ chain place r, visit chain place = some r → visit' chain place = some r)
    {chain : List String} {place : Place} {r : Except Halt Text}
    (hfile : fileWith s visit chain place = some r) : fileWith s visit' chain place = some r := by
  unfold fileWith at hfile ⊢
  cases hsource : Flatten.sourceAt s place with
  | error cause =>
    rw [hsource] at hfile
    exact hfile
  | ok text =>
    simp only [hsource] at hfile ⊢
    exact lines_mono h hfile

theorem file_succ {levels : Nat} {chain : List String} {place : Place} {r : Except Halt Text}
    (h : file s levels chain place = some r) : file s (levels + 1) chain place = some r := by
  induction levels generalizing chain place r with
  | zero => cases h
  | succ levels ih => exact fileWith_mono (fun _ _ _ => ih) h

theorem file_mono {levels more : Nat} (hle : levels ≤ more) {chain : List String} {place : Place}
    {r : Except Halt Text} (h : file s levels chain place = some r) :
    file s more chain place = some r := by
  induction hle with
  | refl => exact h
  | step _ ih => exact file_succ ih

end

/-! ## Rules -/

/-- The plain recursion comes to a result for a file. -/
def Gives (s : Setting) (chain : List String) (place : Place) (r : Except Halt Text) : Prop :=
  ∃ levels, file s levels chain place = some r

/-- The plain recursion comes to a result from where an open file is. -/
def Scans (s : Setting) (chain : List String) (f : Frame) (r : Except Halt Text) : Prop :=
  ∃ levels, lines s (file s levels) chain f.place f.passed f.blocks f.done f.rest = some r

section
variable {s : Setting} {chain : List String} {place : Place} {passed rest done : List Text} {line : Text}
  {blocks : OpenBlocks} {r : Except Halt Text}

theorem Gives.of_error {cause : Cause} (h : Flatten.sourceAt s place = .error cause) :
    Gives s chain place (.error (.failed ((Failure.ofCause cause).report place.text none))) := by
  refine ⟨1, ?_⟩
  rw [file, fileWith, h]

theorem Gives.of_start {text : Text} (h : Flatten.sourceAt s place = .ok text)
    (hscans : Scans s chain (.start place text) r) : Gives s chain place r := by
  obtain ⟨levels, hlines⟩ := hscans
  refine ⟨levels + 1, ?_⟩
  rw [file, fileWith, h]
  exact hlines

theorem Scans.of_finish (h : blocks.finish = .ok ()) :
    Scans s chain ⟨place, passed, [], blocks, done⟩ (.ok done.reverse.flatten) := by
  refine ⟨0, ?_⟩
  rw [lines, h]

theorem Scans.of_unclosed {cause : Cause} (h : blocks.finish = .error cause) :
    Scans s chain ⟨place, passed, [], blocks, done⟩
      (.error (.failed ((Failure.ofCause cause).report place.text
        (some (passed.length, passed.getLast?.getD []))))) := by
  refine ⟨0, ?_⟩
  rw [lines, h]

theorem Scans.of_turn {blocks' : OpenBlocks}
    (h : Move.ofLine s (chain ++ [place.text]) place blocks line = .turn blocks')
    (hscans : Scans s chain ⟨place, passed ++ [line], rest, blocks', done⟩ r) :
    Scans s chain ⟨place, passed, line :: rest, blocks, done⟩ r := by
  obtain ⟨levels, hlines⟩ := hscans
  refine ⟨levels, ?_⟩
  rw [lines]
  simp only [h]
  exact hlines

theorem Scans.of_text {text : Text}
    (h : Move.ofLine s (chain ++ [place.text]) place blocks line = .settle (.ok text))
    (hscans : Scans s chain
      ⟨place, passed ++ [line], rest, blocks, Flatten.emitted text rest :: done⟩ r) :
    Scans s chain ⟨place, passed, line :: rest, blocks, done⟩ r := by
  obtain ⟨levels, hlines⟩ := hscans
  refine ⟨levels, ?_⟩
  rw [lines]
  simp only [h]
  exact hlines

theorem Scans.of_halt {halt : Halt}
    (h : Move.ofLine s (chain ++ [place.text]) place blocks line = .settle (.error halt)) :
    Scans s chain ⟨place, passed, line :: rest, blocks, done⟩
      (.error (leave ⟨place, some (passed.length + 1, line)⟩ halt)) := by
  refine ⟨0, ?_⟩
  rw [lines]
  simp only [h]

theorem Scans.of_import_text {path text : Text} {target : Place}
    (h : Move.ofLine s (chain ++ [place.text]) place blocks line = .fetch path target)
    (hgives : Gives s (chain ++ [place.text]) target (.ok text))
    (hscans : Scans s chain
      ⟨place, passed ++ [line], rest, blocks, Flatten.emitted text rest :: done⟩ r) :
    Scans s chain ⟨place, passed, line :: rest, blocks, done⟩ r := by
  obtain ⟨n, hfile⟩ := hgives
  obtain ⟨m, hlines⟩ := hscans
  refine ⟨max n m, ?_⟩
  rw [lines]
  simp only [h, file_mono (Nat.le_max_left n m) hfile]
  exact lines_mono (fun _ _ _ => file_mono (Nat.le_max_right n m)) hlines

theorem Scans.of_import_halt {path : Text} {target : Place} {halt : Halt}
    (h : Move.ofLine s (chain ++ [place.text]) place blocks line = .fetch path target)
    (hgives : Gives s (chain ++ [place.text]) target (.error halt)) :
    Scans s chain ⟨place, passed, line :: rest, blocks, done⟩
      (.error (leave ⟨place, some (passed.length + 1, line)⟩ halt)) := by
  obtain ⟨levels, hfile⟩ := hgives
  refine ⟨levels, ?_⟩
  rw [lines]
  simp only [h, hfile]

end

end Uncached

/-! ## What the cache holds -/

/-- The file behind its next line, which stands for a text. -/
def Frame.emit : Frame → Text → Frame
  | ⟨place, passed, line :: rest, blocks, done⟩, text =>
    ⟨place, passed ++ [line], rest, blocks, Flatten.emitted text rest :: done⟩
  | f, _ => f

/-- No file of a chain is cached. -/
def Clear (cache : Table Text) (chain : List String) : Prop := ∀ key ∈ chain, cache.get? key = none

/-- Below any files that are not cached, a cached text is what the plain recursion comes to. -/
def Sound (s : Setting) (cache : Table Text) : Prop :=
  ∀ (place : Place) (text : Text), (∀ name ∈ place, IsName name) → cache.get? place.text = some text →
    ∀ chain, Clear cache chain → Uncached.Gives s chain place (.ok text)

/-- Below any other files that are not cached, what the plain recursion comes to from where the file is, it
comes to for the file. -/
def Replays (s : Setting) (cache : Table Text) (f : Frame) : Prop :=
  ∀ chain, Clear cache chain → f.key ∉ chain →
    ∀ r, Uncached.Scans s chain f r → Uncached.Gives s chain f.place r

section
variable {s : Setting} {cache : Table Text}

theorem Clear.of_insert {key : String} {text : Text} {chain : List String}
    (h : Clear (cache.insert key text) chain) : Clear cache chain ∧ key ∉ chain := by
  have hne : ∀ k ∈ chain, key ≠ k := by
    rintro k hk rfl
    have := h key hk
    rw [Table.get?_insert, if_pos rfl] at this
    cases this
  refine ⟨fun k hk => ?_, fun hk => hne key hk rfl⟩
  have := h k hk
  rwa [Table.get?_insert, if_neg (hne k hk)] at this

theorem Clear.snoc {key : String} {chain : List String} (h : Clear cache chain)
    (hkey : cache.get? key = none) : Clear cache (chain ++ [key]) := by
  intro k hk
  rcases List.mem_append.mp hk with hk | hk
  · exact h k hk
  · rw [List.mem_singleton.mp hk]
    exact hkey

/-- No file that is open is cached, and the innermost one is open only once. -/
theorem ChainInv.clear_outer {limit : Option Nat} {phase : Phase} {f : Frame} {outer : List Frame}
    {l : Ledger} (h : ChainInv limit ⟨phase, f :: outer, l⟩) :
    Clear l.cache (chainOf outer) ∧ f.key ∉ chainOf outer :=
  ⟨fun key hk => h.open_uncached key (by simp [hk]), h.innermost.1⟩

theorem Replays.insert {f : Frame} {key : String} {text : Text} (h : Replays s cache f) :
    Replays s (cache.insert key text) f :=
  fun chain hclear hkey => h chain hclear.of_insert.1 hkey

/-- **A file that is finished may be cached.** -/
theorem Sound.insert {f : Frame} {text : Text} (h : Sound s cache) (hnamed : ∀ name ∈ f.place, IsName name)
    (hreplays : Replays s cache f)
    (hscans : ∀ chain, Uncached.Scans s chain f (.ok text)) :
    Sound s (cache.insert f.key text) := by
  intro place text' hplace hget chain hclear
  obtain ⟨hclear', hkey⟩ := hclear.of_insert
  rw [Table.get?_insert] at hget
  split at hget
  · next heq =>
    -- the names are names, so it is the same file
    cases hget
    obtain rfl : f.place = place := Place.text_injective hnamed hplace heq
    exact hreplays chain hclear' hkey _ (hscans chain)
  · exact h place text' hplace hget chain hclear'

end

/-! ## Steps -/

theorem Halt.ofDepth_leave (p : Position) (halt : Halt) :
    (Uncached.leave p halt).OfDepth ↔ halt.OfDepth := by
  cases halt with
  | failed failure => simp [Uncached.leave, OfDepth]
  | refused refusal => rfl

/-- A result is the one of the plain recursion: for the request if no file is open, and otherwise for the
line that the innermost file is at.  A text is that below any files that are not cached. -/
def Answered (s : Setting) (root : Place) (cache : Table Text) :
    List Frame → Except Halt Text → Prop
  | [], .ok text => Uncached.Gives s [] root (.ok text)
  | [], .error halt => ¬ halt.OfDepth → Uncached.Gives s [] root (.error halt)
  | f :: _, .ok text => ∀ chain, Clear cache chain → f.key ∉ chain →
      ∀ r, Uncached.Scans s chain (f.emit text) r → Uncached.Scans s chain f r
  | f :: outer, .error halt => ¬ halt.OfDepth →
      Uncached.Scans s (chainOf outer) f (.error (Uncached.leave f.position halt))

/-- The machine and the plain recursion agree. -/
structure Mirrored (s : Setting) (root : Place) (σ : State) : Prop where
  sound : Sound s σ.ledger.cache
  replays : ∀ f ∈ σ.frames, Replays s σ.ledger.cache f
  answered : ∀ result, σ.phase = .deliver result → Answered s root σ.ledger.cache σ.frames result

section
variable {s : Setting} {limit : Option Nat} {root : Place} {σ τ : State}

theorem Asked.named (hdisk : s.disk.WellNamed) (hroot : ∀ name ∈ root, IsName name) {frames : List Frame}
    {target : Place} (h : Asked s root frames target) : ∀ name ∈ target, IsName name := by
  cases frames with
  | nil =>
    have heq : target = root := h
    rw [heq]
    exact hroot
  | cons f outer =>
    obtain ⟨line, rest, path, -, himports⟩ := h
    exact Disk.canonical?_named hdisk himports.resolved

/-- A cached text answers the line that asks for its file. -/
theorem Answered.of_text {cache : Table Text} {frames : List Frame} {target : Place} {text : Text}
    (hasked : Asked s root frames target) (hsound : Sound s cache)
    (hnamed : ∀ name ∈ target, IsName name) (hget : cache.get? target.text = some text)
    (hopen : ∀ f ∈ frames, cache.get? f.key = none) : Answered s root cache frames (.ok text) := by
  cases frames with
  | nil =>
    obtain rfl : target = root := hasked
    exact hsound target text hnamed hget [] (by simp [Clear])
  | cons f outer =>
    intro chain hclear hkey r hscans
    have hclear' : Clear cache (chain ++ [f.key]) := hclear.snoc (hopen f List.mem_cons_self)
    have hclosed : target.text ∉ chain ++ [f.key] := by
      intro hmem
      rw [hclear' _ hmem] at hget
      cases hget
    obtain ⟨place, passed, _, blocks, done⟩ := f
    obtain ⟨line, rest, path, rfl, himports⟩ := hasked
    exact .of_import_text (Move.ofLine_eq_fetch.mpr ⟨himports, hclosed⟩)
      (hsound target text hnamed hget _ hclear') hscans

/-- A halt of a file answers the line that asks for it. -/
theorem Answered.of_halt {cache : Table Text} {frames : List Frame} {target : Place} {halt : Halt}
    (hasked : Asked s root frames target) (hclosed : target.text ∉ chainOf frames)
    (hgives : ¬ halt.OfDepth → Uncached.Gives s (chainOf frames) target (.error halt)) :
    Answered s root cache frames (.error halt) := by
  cases frames with
  | nil =>
    obtain rfl : target = root := hasked
    exact hgives
  | cons f outer =>
    intro hdepth
    rw [chainOf_cons] at hclosed hgives
    obtain ⟨place, passed, _, blocks, done⟩ := f
    obtain ⟨line, rest, path, rfl, himports⟩ := hasked
    exact .of_import_halt (Move.ofLine_eq_fetch.mpr ⟨himports, hclosed⟩) (hgives hdepth)

/-- **A halt leaves a file**: the plain recursion comes to it at the same line. -/
theorem Mirrored.leave {f : Frame} {outer : List Frame} {l : Ledger} {halt : Halt}
    (hrun : RunInv s limit root ⟨.deliver (.error halt), f :: outer, l⟩)
    (hσ : Mirrored s root ⟨.deliver (.error halt), f :: outer, l⟩) :
    Answered s root l.cache outer (.error (Uncached.leave f.position halt)) := by
  obtain ⟨hclear, hclosed⟩ := hrun.chain.clear_outer
  refine .of_halt hrun.linked.stack.2.1 hclosed fun hdepth => ?_
  have hscans := hσ.answered _ rfl (mt (Halt.ofDepth_leave f.position halt).mpr hdepth)
  exact hσ.replays f List.mem_cons_self _ hclear hclosed _ hscans

/-- A file that goes on as the plain recursion does. -/
theorem Replays.trans {cache : Table Text} {f g : Frame} (h : Replays s cache f)
    (hplace : g.place = f.place)
    (hscans : ∀ chain, Clear cache chain → f.key ∉ chain →
      ∀ r, Uncached.Scans s chain g r → Uncached.Scans s chain f r) : Replays s cache g := by
  intro chain hclear hkey r hr
  have hkey' : f.key ∉ chain := by rwa [Frame.key, ← hplace]
  rw [hplace]
  exact h chain hclear hkey' r (hscans chain hclear hkey' r hr)

theorem Step.mirrored (hdisk : s.disk.WellNamed) (hroot : ∀ name ∈ root, IsName name)
    (h : Step s limit σ τ) (hrun : RunInv s limit root σ) (hσ : Mirrored s root σ) :
    Mirrored s root τ := by
  have hchain := h.chainInv hrun.chain
  have hsound := hσ.sound
  have hreplays := hσ.replays
  cases h with
  | @refuse place frames l halt l' hread =>
    obtain ⟨cause, hcause, rfl, rfl⟩ := Flatten.readText_error hread
    refine ⟨by simpa using hsound, by simpa using hreplays, ?_⟩
    rintro result ⟨⟩
    exact .of_halt (hrun.linked.entered place rfl) hrun.chain.entered.1
      fun _ => .of_error hcause
  | @begin place frames l text l' hread =>
    obtain ⟨hsource, rfl⟩ := Flatten.readText_ok hread
    refine ⟨by simpa using hsound, ?_, by simp⟩
    intro f hf
    rcases List.mem_cons.mp hf with rfl | hf
    · exact fun chain _ _ r hr => .of_start hsource hr
    · simpa using hreplays f hf
  | @turn place passed line rest blocks done outer l blocks' hm =>
    refine ⟨hsound, ?_, by simp⟩
    intro f hf
    rcases List.mem_cons.mp hf with rfl | hf
    · refine (hreplays _ List.mem_cons_self).trans rfl fun chain _ _ r hr => ?_
      exact .of_turn (Move.ofLine_turn_chain hm _) hr
    · exact hreplays f (List.mem_cons_of_mem _ hf)
  | @settle place passed line rest blocks done outer l result hm =>
    refine ⟨hsound, hreplays, ?_⟩
    rintro _ ⟨⟩
    cases result with
    | ok text =>
      intro chain _ _ r hr
      exact .of_text (Move.ofLine_text_chain hm _) hr
    | error halt => exact fun _ => .of_halt hm
  | @reuse place passed line rest blocks done outer l path target text hm hcache =>
    have himports := (Move.ofLine_eq_fetch.mp hm).1
    refine ⟨hsound, hreplays, ?_⟩
    rintro _ ⟨⟩
    refine .of_text ⟨line, rest, path, rfl, himports⟩ hsound
      (Disk.canonical?_named hdisk himports.resolved) hcache fun f hf => ?_
    exact hrun.chain.open_uncached f.key (key_mem_chainOf hf)
  | descend hm hcache hroom => exact ⟨hsound, hreplays, by simp⟩
  | tooDeep hm hcache hn hle =>
    refine ⟨hsound, hreplays, ?_⟩
    rintro _ ⟨⟩
    exact fun hdepth => absurd (Halt.ofDepth_depthHalt _ _) hdepth
  | @emit place passed line rest blocks done outer l text =>
    refine ⟨hsound, ?_, by simp⟩
    intro f hf
    rcases List.mem_cons.mp hf with rfl | hf
    · exact (hreplays _ List.mem_cons_self).trans rfl fun chain hclear hkey r hr =>
        hσ.answered _ rfl chain hclear hkey r hr
    · exact hreplays f (List.mem_cons_of_mem _ hf)
  | fail =>
    refine ⟨hsound, fun f hf => hreplays f (List.mem_cons_of_mem _ hf), ?_⟩
    rintro _ ⟨⟩
    exact Mirrored.leave hrun hσ
  | giveUp =>
    refine ⟨hsound, fun f hf => hreplays f (List.mem_cons_of_mem _ hf), ?_⟩
    rintro _ ⟨⟩
    exact Mirrored.leave hrun hσ
  | @unclosed place passed blocks done outer l cause hfinish =>
    obtain ⟨hclear, hclosed⟩ := hrun.chain.clear_outer
    refine ⟨hsound, fun f hf => hreplays f (List.mem_cons_of_mem _ hf), ?_⟩
    rintro _ ⟨⟩
    exact .of_halt hrun.linked.stack.2.1 hclosed fun _ =>
      hreplays _ List.mem_cons_self _ hclear hclosed _ (.of_unclosed hfinish)
  | @close place passed blocks done outer l l' hfinish hstore =>
    have hasked : Asked s root outer place := hrun.linked.stack.2.1
    have hnamed := hasked.named hdisk hroot
    have hinsert : Sound s (l.cache.insert place.text done.reverse.flatten) :=
      hsound.insert hnamed (hreplays _ List.mem_cons_self) fun chain => .of_finish hfinish
    cases (hrun.chain.store_eq _).symm.trans hstore
    refine ⟨hinsert, fun f hf => (hreplays f (List.mem_cons_of_mem _ hf)).insert, ?_⟩
    rintro _ ⟨⟩
    refine .of_text hasked hinsert hnamed (by simp [Table.get?_insert]) fun f hf => ?_
    exact hchain.open_uncached f.key (key_mem_chainOf hf)
  | conflict hfinish hstore => cases (hrun.chain.store_eq _).symm.trans hstore

/-- A refusal because of the depth says that the depth is no number. -/
def DepthRefused (s : Setting) (σ : State) : Prop :=
  ∀ found, σ.phase = .deliver (.error (.refused (.depth found))) →
    s.limits.importDepth = found ∧ ∀ n, found ≠ .levels n

theorem Step.depthRefused (h : Step s limit σ τ) (hchain : ChainInv limit σ) (hσ : DepthRefused s σ) :
    DepthRefused s τ := by
  intro found hphase
  obtain ⟨phase, frames, l⟩ := τ
  cases hphase
  rcases h.halt_cases hchain with harises | ⟨_, hhalt, hbefore⟩ | ⟨failure, path, line, hhalt, -⟩
  · cases harises with
    | line hm => exact absurd rfl ((Move.ofLine_halt hm).1 found)
    | tooDeep hm hcache hn hle hhalt =>
      obtain ⟨hfound, hunset⟩ := depthHalt_refused hhalt
      cases hfound
      exact ⟨rfl, hunset⟩
  · cases hhalt
    exact hσ found hbefore
  · cases hhalt

theorem Mirrored.start {cache : Table Text} (h : Sound s cache) : Mirrored s root (.start root cache) where
  sound := h
  replays := by simp [State.start]
  answered := by simp [State.start]

end

/-! ## Calls -/

theorem Sound.nil (s : Setting) : Sound s [] := by
  intro place text _ hget
  cases hget

theorem Uncached.Gives.request {s : Setting} {request : String} {place : Place} {r : Except Halt Text}
    (h : Gives s [] place r) (hplace : s.disk.canonical? request = .ok place) :
    ∃ levels, ∀ more, levels ≤ more → Uncached.request s more request = some r := by
  obtain ⟨levels, hfile⟩ := h
  refine ⟨levels, fun more hle => ?_⟩
  rw [Uncached.request, hplace]
  exact file_mono hle hfile

/-- **A call on a sound cache** comes to what the plain recursion comes to, unless the depth of its imports
ends it, and leaves a sound cache. -/
theorem Engine.process_mirrored {engine : Engine} {disk : Disk} {bindings : Bindings}
    (hdisk : disk.WellNamed) (hsound : Sound (engine.setting disk bindings) engine.cache)
    (request : String) :
    Sound (engine.setting disk bindings) (engine.process disk bindings request).2.cache ∧
      ((∀ halt, (engine.process disk bindings request).1.1 = .error halt → ¬ halt.OfDepth) →
        ∃ levels, ∀ more, levels ≤ more →
          Uncached.request (engine.setting disk bindings) more request =
            some (engine.process disk bindings request).1.1) := by
  have hdisk' : (engine.setting disk bindings).disk = disk := rfl
  rw [Engine.process_engine]
  rcases engine.process_cases disk bindings request with ⟨hplace, h⟩ | ⟨fault, hplace, hfault, h⟩ |
    ⟨place, text, hplace, hget, h⟩ | ⟨place, hplace, hget, hrun⟩
  · rw [h]
    refine ⟨hsound, fun _ => ⟨0, fun more _ => ?_⟩⟩
    rw [Uncached.request, hdisk', hplace]
  · rw [h]
    refine ⟨hsound, fun _ => ⟨0, fun more _ => ?_⟩⟩
    rw [Uncached.request, hdisk', hplace]
    cases fault with
    | unnameable => exact absurd rfl hfault
    | _ => rfl
  · rw [h]
    have hgives := hsound place text (Disk.canonical?_named hdisk hplace) hget [] (by simp [Clear])
    exact ⟨hsound, fun _ => hgives.request hplace⟩
  · have hmirrored := hrun.keeps hget (.start hsound)
      fun _ _ hstep hσ => hstep.mirrored hdisk (Disk.canonical?_named hdisk hplace) hσ
    refine ⟨hmirrored.sound, fun hdepth => Uncached.Gives.request ?_ hplace⟩
    have hanswered := hmirrored.answered _ rfl
    cases hresult : (engine.process disk bindings request).1.1 with
    | ok text =>
      rw [hresult] at hanswered
      exact hanswered
    | error halt =>
      rw [hresult] at hanswered
      exact hanswered (hdepth halt hresult)

/-- The engine that has served some requests, one after the other. -/
def Engine.afterAll (engine : Engine) (disk : Disk) (bindings : Bindings) (requests : List String) :
    Engine :=
  requests.foldl (fun engine request => (engine.process disk bindings request).2) engine

theorem Engine.afterAll_sound {engine : Engine} {disk : Disk} {bindings : Bindings}
    (hdisk : disk.WellNamed) (hsound : Sound (engine.setting disk bindings) engine.cache)
    (requests : List String) :
    (engine.afterAll disk bindings requests).setting disk bindings = engine.setting disk bindings ∧
      Sound (engine.setting disk bindings) (engine.afterAll disk bindings requests).cache := by
  induction requests generalizing engine with
  | nil => exact ⟨rfl, hsound⟩
  | cons request requests ih => exact ih (process_mirrored hdisk hsound request).1

theorem Engine.process_depthRefused {engine : Engine} {disk : Disk} {bindings : Bindings}
    {request : String} {found : Depth}
    (h : (engine.process disk bindings request).1.1 = .error (.refused (.depth found))) :
    engine.limits.importDepth = found ∧ ∀ n, found ≠ .levels n := by
  rcases Engine.process_error h with hhalt | ⟨fault, hhalt⟩ | ⟨place, -, hget, hrun⟩
  · cases hhalt
  · cases hhalt
  · have hrefused := hrun.keeps hget (P := DepthRefused (engine.setting disk bindings))
      (fun _ hphase => by cases hphase) fun _ _ hstep hσ => hstep.depthRefused hσ.chain
    exact hrefused found rfl

/-- **The cache is transparent.**  After any requests, whatever they came to, the next one comes to exactly
what the plain recursion comes to, unless it ends in a failure of the kind `importDepth`: the same text,
or the same failure with the same kind, message, location and trace.  (Where the depth of imports is not
set to a number, a call may be refused for that instead.) -/
theorem process_transparent {disk : Disk} (hdisk : disk.WellNamed) (limits : Limits) (bindings : Bindings)
    (earlier : List String) (request : String) {result : Except Halt Text}
    (hresult : (((Engine.create limits).afterAll disk bindings earlier).process disk bindings
      request).1.1 = result)
    (hdepth : ∀ failure, result = .error (.failed failure) → failure.kind ≠ .importDepth) :
    (∃ levels, ∀ more, levels ≤ more →
      Uncached.request ((Engine.create limits).setting disk bindings) more request = some result) ∨
      (∀ n, limits.importDepth ≠ .levels n) ∧
        result = .error (.refused (.depth limits.importDepth)) := by
  obtain ⟨hsetting, hsound⟩ :=
    Engine.afterAll_sound hdisk (Sound.nil ((Engine.create limits).setting disk bindings)) earlier
  have hlimits : ((Engine.create limits).afterAll disk bindings earlier).limits = limits :=
    congrArg Setting.limits hsetting
  by_cases hrefused : ∃ found, result = .error (.refused (.depth found))
  · obtain ⟨found, rfl⟩ := hrefused
    obtain ⟨hfound, hnumber⟩ := Engine.process_depthRefused hresult
    rw [hlimits] at hfound
    subst hfound
    exact .inr ⟨hnumber, rfl⟩
  · left
    rw [← hsetting] at hsound ⊢
    subst hresult
    refine (Engine.process_mirrored hdisk hsound request).2 fun halt hhalt => ?_
    cases halt with
    | failed failure => exact hdepth failure hhalt
    | refused refusal =>
      cases refusal with
      | depth found => exact absurd ⟨found, hhalt⟩ hrefused
      | digits limit => exact id
      | unnameable => exact id

/-! A part that has been requested answers the import of a shader. -/

/-- The disk with a shader that imports a part. -/
def importDisk : Disk := .pair (Utf8.ascii importLine) (Utf8.ascii ['x'])

section
variable {s : Setting} {limit : Option Nat}

/-- A file of one line stands for what the line stands for. -/
theorem run_of_line {place : Place} {text line t : Text} {l l₁ l₂ : Ledger}
    (hread : Flatten.readText s place l = (.ok text, l₁)) (hlines : Text.lines text = [line])
    (hline : Step s limit ⟨.scan, [⟨place, [], [line], .none, []⟩], l₁⟩
      ⟨.deliver (.ok t), [⟨place, [], [line], .none, []⟩], l₂⟩)
    (hcache : l₂.cache.get? place.text = none) :
    Run s limit ⟨.enter place, [], l⟩
      ⟨.deliver (.ok t), [], { l₂ with cache := l₂.cache.insert place.text t }⟩ := by
  have hdone : [Flatten.emitted t []].reverse.flatten = t := by simp [Flatten.emitted, Flatten.hasText]
  have hclose : Step s limit ⟨.scan, [⟨place, [line], [], .none, [Flatten.emitted t []]⟩], l₂⟩
      ⟨.deliver (.ok [Flatten.emitted t []].reverse.flatten), [], _⟩ :=
    .close rfl (Flatten.store_new hcache)
  rw [hdone] at hclose
  refine .head (.begin hread) ?_
  rw [Frame.start, hlines]
  exact .head hline (.head .emit (.head hclose .refl))

theorem run_part (hdisk : s.disk = importDisk) (hlimit : s.readLimit = none)
    (hconditions : s.bindings.conditions = []) :
    ∃ l, Run s limit (.start ["b.wgsl"] []) ⟨.deliver (.ok ['x']), [], l⟩ ∧
      l.cache = [("/b.wgsl", ['x'])] := by
  have hmove : Move.ofLine s ["/b.wgsl"] ["b.wgsl"] .none ['x'] = .settle (.ok ['x']) := by
    have hcontent : Flatten.turnBlocks [] .none ['x'] = none := by rfl
    rw [Move.ofLine, hconditions, hcontent]
    rfl
  have hget : (Flatten.askedFor s ["b.wgsl"] (.ofCache [])).cache.get? "/b.wgsl" = none := by
    simp [Table.get?]
  refine ⟨_, run_of_line (readText_pair_part hdisk hlimit (by decide) _) rfl (.settle hmove) hget, ?_⟩
  simp only [Flatten.cache_askedFor]
  rfl

theorem run_shader (hdisk : s.disk = importDisk) (hlimit : s.readLimit = none) :
    ∃ l, Run s limit (.start ["a"] [("/b.wgsl", ['x'])]) ⟨.deliver (.ok ['x']), [], l⟩ := by
  have himport : Move.ofLine s ["/a"] ["a"] .none importLine = .fetch "b.wgsl".toList ["b.wgsl"] :=
    ofLine_pair_import hdisk (by decide)
  have hget : (Flatten.askedFor s ["a"] (.ofCache [("/b.wgsl", ['x'])])).cache.get? "/b.wgsl" =
      some ['x'] := by
    simp [Table.get?]
  refine ⟨_, run_of_line (readText_pair_shader hdisk hlimit (by decide) _) lines_importLine
    (.reuse himport hget) ?_⟩
  simp only [Ledger.cache_note, Flatten.cache_askedFor]
  rfl

end

theorem process_transparent_import :
    (((Engine.create .oneLevel).afterAll importDisk ⟨[], []⟩ ["/b.wgsl"]).process importDisk ⟨[], []⟩
      "/a").1.1 = .ok ['x'] ∧
    ∃ levels, ∀ more, levels ≤ more →
      Uncached.request ((Engine.create .oneLevel).setting importDisk ⟨[], []⟩) more "/a" =
        some (.ok ['x']) := by
  obtain ⟨l, hpart, hcache⟩ :=
    run_part (s := (Engine.create .oneLevel).setting importDisk ⟨[], []⟩) rfl rfl rfl
  obtain ⟨l', hshader⟩ :=
    run_shader (s := (Engine.create .oneLevel).setting importDisk ⟨[], []⟩) rfl rfl
  have hfirst : ((Engine.create .oneLevel).process importDisk ⟨[], []⟩ "/b.wgsl").1 = (.ok ['x'], l) :=
    Engine.process_of_run (Disk.canonical?_pair_part _ _) rfl hpart
  have hsecond : (Engine.process ⟨.oneLevel, none, [("/b.wgsl", ['x'])]⟩ importDisk ⟨[], []⟩ "/a").1 =
      (.ok ['x'], l') :=
    Engine.process_of_run (Disk.canonical?_pair_shader _ _) rfl hshader
  have hafter : (Engine.create .oneLevel).afterAll importDisk ⟨[], []⟩ ["/b.wgsl"] =
      ⟨.oneLevel, none, [("/b.wgsl", ['x'])]⟩ := by
    rw [Engine.afterAll, List.foldl_cons, List.foldl_nil, Engine.process_engine, hfirst, hcache]
    rfl
  have hresult : (((Engine.create .oneLevel).afterAll importDisk ⟨[], []⟩ ["/b.wgsl"]).process importDisk
      ⟨[], []⟩ "/a").1.1 = .ok ['x'] := by
    rw [hafter, hsecond]
  refine ⟨hresult, ?_⟩
  rcases process_transparent (Disk.wellNamed_pair _ _) _ _ _ _ hresult (by simp) with h | ⟨-, h⟩
  · exact h
  · cases h

end ShaderFlatten
