import Mathlib.Algebra.Ring.Parity
import ShaderFlatten.Proofs.Visible

/-!
# Block trees

The lines of a source without imports form a tree: content lines, and blocks that hold all between an `#if` and
its `#endif`.  The `#else` lines of a block divide it into segments.  `Body depth` is such a tree that stands in
`depth` blocks.

Lines form a tree if their directives parse and match, and it is the only one:

    WellNested 0 lines → ∃! tree : Body 0, tree.lines = numbered 1 lines    (WellNested.existsUnique_body)

Segment number `j` of a block is selected if the condition holds and `j` is even, or does not hold and `j` is
odd.  A run over a body keeps for every block around it whether the current segment of that block is selected,
and so it shows the content lines all of whose segments are:

    shown conditions (truths conditions around) (body.lines ++ t) =
      body.selected conditions around ++ shown conditions (truths conditions (body.behind around)) t
                                                                                   (Body.shown_lines)
-/

namespace ShaderFlatten

open Flatten

/-! ## Trees -/

/-- A line divides a block. -/
def DividesBlock (line : Text) : Prop :=
  Line.kind line = .elseLine ∧ Line.bare? Line.elseMark line = .ok ()

/-- A line closes a block. -/
def ClosesBlock (line : Text) : Prop :=
  Line.kind line = .endifLine ∧ Line.bare? Line.endifMark line = .ok ()

/-- The lines of a body that stands in so many blocks.  Only a body that stands in a block is divided. -/
inductive Body : (depth : Nat) → Type
  | nil {depth} : Body depth
  | content {depth} (line : NumberedLine) (h : Line.kind line.2 = .content) (rest : Body depth) : Body depth
  | divide {depth} (line : NumberedLine) (h : DividesBlock line.2) (rest : Body (depth + 1)) : Body (depth + 1)
  | block {depth} (opening : NumberedLine) (name : Text) (h : Outline.AsksCondition opening.2 name)
      (inside : Body (depth + 1)) (closing : NumberedLine) (hc : ClosesBlock closing.2) (rest : Body depth) :
      Body depth

/-- A segment of a block: the condition of the block, and how many lines divide it before the segment. -/
structure Segment where
  condition : Text
  number : Nat

namespace Body

/-- The lines of a body in order. -/
def lines {depth : Nat} : Body depth → List NumberedLine
  | nil => []
  | content line _ rest => line :: rest.lines
  | divide line _ rest => line :: rest.lines
  | block opening _ _ inside closing _ rest => opening :: (inside.lines ++ closing :: rest.lines)

/-- The segments behind a line that divides the innermost block. -/
def nextSegment : List Segment → List Segment
  | [] => []
  | segment :: around => ⟨segment.condition, segment.number + 1⟩ :: around

/-- The content lines of a body, each with the segments that hold it, innermost first. -/
def contents {depth : Nat} : (around : List Segment) → Body depth → List (NumberedLine × List Segment)
  | _, nil => []
  | around, content line _ rest => (line, around) :: rest.contents around
  | around, divide _ _ rest => rest.contents (nextSegment around)
  | around, block _ name _ inside _ _ rest => inside.contents (⟨name, 0⟩ :: around) ++ rest.contents around

/-- The segments around what stands behind a body. -/
def behind {depth : Nat} : (around : List Segment) → Body depth → List Segment
  | around, nil => around
  | around, content _ _ rest => rest.behind around
  | around, divide _ _ rest => rest.behind (nextSegment around)
  | around, block _ _ _ _ _ _ rest => rest.behind around

end Body

/-- A condition is defined and true. -/
def Table.holds (conditions : Table Value) (name : Text) : Bool :=
  (conditions.get? (String.ofList name)).any Value.isTrue

/-- A segment is selected: the condition holds and its number is even, or neither. -/
def Segment.Selected (conditions : Table Value) (segment : Segment) : Prop :=
  conditions.holds segment.condition = true ∧ Even segment.number ∨
    conditions.holds segment.condition = false ∧ Odd segment.number

instance (conditions : Table Value) (segment : Segment) : Decidable (segment.Selected conditions) :=
  inferInstanceAs (Decidable (_ ∨ _))

/-- The content lines of a body all of whose segments are selected. -/
def Body.selected {depth : Nat} (conditions : Table Value) (around : List Segment) (body : Body depth) :
    List NumberedLine :=
  ((body.contents around).filter fun c => ∀ segment ∈ c.2, segment.Selected conditions).map Prod.fst

/-! ## Lines that form a tree -/

/-- The directives of some lines match, from where so many blocks are open: each of them parses, a block is
divided or closed only where one is open, and all blocks are closed in the end. -/
structure WellNested (depth : Nat) (lines : List Text) : Prop where
  parses : ∀ line ∈ lines, ¬ IsPlain line → ¬ Outline.Malformed line
  matched : ∀ passed line rest, lines = passed ++ line :: rest →
    ¬ Outline.Stray (passed.foldl Outline.depthBehind depth) line
  closed : lines.foldl Outline.depthBehind depth = 0

theorem WellNested.tail {depth : Nat} {line : Text} {rest : List Text} (h : WellNested depth (line :: rest)) :
    WellNested (Outline.depthBehind depth line) rest where
  parses := fun line' hmem => h.parses line' (List.mem_cons_of_mem _ hmem)
  matched := fun passed line' rest' hsplit => h.matched (line :: passed) line' rest' (by rw [hsplit]; rfl)
  closed := h.closed

/-- The directives of a valid source match. -/
theorem wellNested_of_isValid {source : Text} (h : (Outline.ofSource source).isValid = true) :
    WellNested 0 (Text.lines source) := by
  obtain ⟨hwell, hclosed⟩ := Outline.isValid_ofSource h
  refine ⟨fun line hmem _ => ?_, fun passed line rest hlines => (hwell passed line rest hlines).2, hclosed⟩
  obtain ⟨passed, rest, hlines⟩ := List.append_of_mem hmem
  exact (hwell passed line rest hlines).1

/-- **The first of lines whose directives match** is content, or opens, divides or closes a block. -/
theorem WellNested.first {depth : Nat} {line : Text} {rest : List Text} (h : WellNested depth (line :: rest))
    (himport : Line.kind line ≠ .importLine) :
    (Line.kind line = .content ∧ WellNested depth rest) ∨
    (∃ name, Outline.AsksCondition line name ∧ WellNested (depth + 1) rest) ∨
    ∃ below, depth = below + 1 ∧
      (DividesBlock line ∧ WellNested (below + 1) rest ∨ ClosesBlock line ∧ WellNested below rest) := by
  have hparses := h.parses line List.mem_cons_self
  have hopen (hkind : Line.kind line = .elseLine ∨ Line.kind line = .endifLine) :
      ∃ below, depth = below + 1 :=
    Nat.exists_eq_succ_of_ne_zero fun hzero => h.matched [] line rest rfl ⟨hzero, hkind⟩
  have hrest := h.tail
  unfold Outline.depthBehind at hrest
  unfold Outline.Malformed IsPlain at hparses
  cases hkind : Line.kind line with
  | importLine => exact absurd hkind himport
  | content =>
    simp only [hkind] at hrest
    exact .inl ⟨rfl, hrest⟩
  | ifLine =>
    cases hname : Line.condition? line with
    | error mismatch => simp [hkind, hname] at hparses
    | ok name =>
      simp only [hkind, hname] at hrest
      exact .inr (.inl ⟨name, ⟨hkind, hname⟩, hrest⟩)
  | elseLine =>
    cases hbare : Line.bare? Line.elseMark line with
    | error mismatch => simp [hkind, hbare] at hparses
    | ok _ =>
      obtain ⟨below, rfl⟩ := hopen (.inl hkind)
      simp only [hkind] at hrest
      exact .inr (.inr ⟨below, rfl, .inl ⟨⟨hkind, hbare⟩, hrest⟩⟩)
  | endifLine =>
    cases hbare : Line.bare? Line.endifMark line with
    | error mismatch => simp [hkind, hbare] at hparses
    | ok _ =>
      obtain ⟨below, rfl⟩ := hopen (.inr hkind)
      simp only [hkind, hbare, Nat.add_sub_cancel] at hrest
      exact .inr (.inr ⟨below, rfl, .inr ⟨⟨hkind, hbare⟩, hrest⟩⟩)

/-- What stands behind the innermost of so many open blocks: a line that closes it, the rest of the body
around it, and so on. -/
inductive Behind : (depth : Nat) → Type
  | nil : Behind 0
  | close {depth} (closing : NumberedLine) (h : ClosesBlock closing.2) (body : Body depth)
      (outer : Behind depth) : Behind (depth + 1)

/-- The lines behind an open block in order. -/
def Behind.lines {depth : Nat} : Behind depth → List NumberedLine
  | nil => []
  | close closing _ body outer => closing :: (body.lines ++ outer.lines)

/-- **Lines whose directives match form a tree**, by induction on the lines.  A line that opens a block turns the
two innermost bodies into one. -/
theorem exists_body {depth : Nat} {lines : List Text} (h : WellNested depth lines)
    (himports : ∀ line ∈ lines, Line.kind line ≠ .importLine) (number : Nat) :
    ∃ (body : Body depth) (outer : Behind depth),
      body.lines ++ outer.lines = numbered number lines := by
  induction lines generalizing depth number with
  | nil =>
    obtain rfl : depth = 0 := h.closed
    exact ⟨.nil, .nil, rfl⟩
  | cons line rest ih =>
    rw [numbered]
    have ih {depth : Nat} (hrest : WellNested depth rest) :=
      ih hrest (fun line' hmem => himports line' (List.mem_cons_of_mem _ hmem)) (number + 1)
    rcases h.first (himports line List.mem_cons_self) with ⟨hkind, hrest⟩ | ⟨name, hasks, hrest⟩ |
      ⟨below, rfl, ⟨hdivides, hrest⟩ | ⟨hcloses, hrest⟩⟩
    · obtain ⟨body, outer, hlines⟩ := ih hrest
      exact ⟨.content (number, line) hkind body, outer, by rw [← hlines]; rfl⟩
    · obtain ⟨inside, outer, hlines⟩ := ih hrest
      cases outer with
      | close closing hcloses body outer =>
        refine ⟨.block (number, line) name hasks inside closing hcloses body, outer, ?_⟩
        rw [← hlines]
        simp [Body.lines, Behind.lines]
    · obtain ⟨body, outer, hlines⟩ := ih hrest
      exact ⟨.divide (number, line) hdivides body, outer, by rw [← hlines]; rfl⟩
    · obtain ⟨body, outer, hlines⟩ := ih hrest
      exact ⟨.nil, .close (number, line) hcloses body outer, by rw [← hlines]; rfl⟩

/-- What follows a body ends it: the end of the source, or a line that closes a block. -/
def EndsBody (t : List NumberedLine) : Prop := ∀ line ∈ t.head?, Line.kind line.2 = .endifLine

theorem endsBody_nil : EndsBody [] := by simp [EndsBody]

theorem endsBody_cons {line : NumberedLine} (h : ClosesBlock line.2) (t : List NumberedLine) :
    EndsBody (line :: t) := by simpa [EndsBody] using h.1

/-- The kind of the first line of a body. -/
def Body.firstKind {depth : Nat} : Body depth → Option LineKind
  | nil => none
  | content .. => some .content
  | divide .. => some .elseLine
  | block .. => some .ifLine

/-- The first line tells how a body begins: a line that closes a block is none of its own. -/
theorem Body.firstKind_eq {depth : Nat} (body : Body depth) {t : List NumberedLine} (ht : EndsBody t) :
    body.firstKind =
      ((body.lines ++ t).head?.map fun line => Line.kind line.2).filter (· ≠ .endifLine) := by
  cases body with
  | nil =>
    cases t with
    | nil => rfl
    | cons line t =>
      have hkind : Line.kind line.2 = .endifLine := ht line rfl
      simp [lines, firstKind, hkind, Option.filter_some]
  | content line hkind rest => simp [lines, firstKind, hkind, Option.filter_some]
  | divide line hdivides rest => simp [lines, firstKind, hdivides.1, Option.filter_some]
  | block opening name hasks inside closing hcloses rest =>
    simp [lines, firstKind, hasks.1, Option.filter_some]

theorem Body.firstKind_congr {depth : Nat} {body body' : Body depth} {t t' : List NumberedLine}
    (ht : EndsBody t) (ht' : EndsBody t') (h : body.lines ++ t = body'.lines ++ t') :
    body.firstKind = body'.firstKind := by
  rw [body.firstKind_eq ht, h, body'.firstKind_eq ht']

/-- **Lines form one tree only**, and it ends at one place. -/
theorem Body.unique {depth : Nat} {body body' : Body depth} {t t' : List NumberedLine} (ht : EndsBody t)
    (ht' : EndsBody t') (h : body.lines ++ t = body'.lines ++ t') : body = body' ∧ t = t' := by
  induction body generalizing t t' with
  | nil =>
    have hfirst := firstKind_congr ht ht' h
    cases body' with
    | nil => exact ⟨rfl, h⟩
    | _ => cases hfirst
  | content line hkind rest ih =>
    have hfirst := firstKind_congr ht ht' h
    cases body' with
    | content line' hkind' rest' =>
      obtain ⟨rfl, hrest⟩ := List.cons.inj h
      obtain ⟨rfl, rfl⟩ := ih ht ht' hrest
      exact ⟨rfl, rfl⟩
    | _ => cases hfirst
  | divide line hdivides rest ih =>
    have hfirst := firstKind_congr ht ht' h
    cases body' with
    | divide line' hdivides' rest' =>
      obtain ⟨rfl, hrest⟩ := List.cons.inj h
      obtain ⟨rfl, rfl⟩ := ih ht ht' hrest
      exact ⟨rfl, rfl⟩
    | _ => cases hfirst
  | block opening name hasks inside closing hcloses rest ih ih' =>
    have hfirst := firstKind_congr ht ht' h
    cases body' with
    | block opening' name' hasks' inside' closing' hcloses' rest' =>
      simp only [lines, List.append_assoc, List.cons_append] at h
      obtain ⟨rfl, hinside⟩ := List.cons.inj h
      obtain ⟨rfl, hclosing⟩ := ih (endsBody_cons hcloses _) (endsBody_cons hcloses' _) hinside
      obtain ⟨rfl, hrest⟩ := List.cons.inj hclosing
      obtain ⟨rfl, rfl⟩ := ih' ht ht' hrest
      obtain rfl : name = name' := Except.ok.inj (hasks.2.symm.trans hasks'.2)
      exact ⟨rfl, rfl⟩
    | _ => cases hfirst

/-- **A source whose directives match has one tree.** -/
theorem WellNested.existsUnique_body {lines : List Text} (h : WellNested 0 lines)
    (himports : ∀ line ∈ lines, Line.kind line ≠ .importLine) (number : Nat) :
    ∃! tree : Body 0, tree.lines = numbered number lines := by
  obtain ⟨tree, outer, hlines⟩ := exists_body h himports number
  cases outer with
  | nil =>
    rw [Behind.lines, List.append_nil] at hlines
    refine ⟨tree, hlines, fun tree' hlines' => ?_⟩
    refine (Body.unique endsBody_nil endsBody_nil ?_).1
    rw [hlines', hlines]

/-! ## Trees and runs -/

section
variable {conditions : Table Value} {around : List Segment} {segment : Segment} {line name : Text}

theorem Segment.selected_zero : Selected conditions ⟨name, 0⟩ ↔ conditions.holds name = true := by
  simp [Selected]

theorem Segment.selected_succ {number : Nat} :
    Selected conditions ⟨name, number + 1⟩ ↔ ¬ Selected conditions ⟨name, number⟩ := by
  cases h : conditions.holds name <;> simp [Selected, h, Nat.even_add_one, Nat.odd_add_one]

/-- The blocks around a body, each with whether its current segment is selected. -/
def truths (conditions : Table Value) (around : List Segment) : OpenBlocks :=
  ⟨around.map fun segment => decide (segment.Selected conditions)⟩

theorem visible_truths :
    (truths conditions around).visible = true ↔ ∀ segment ∈ around, segment.Selected conditions := by
  simp [truths, OpenBlocks.visible]

/-- **A line that opens a block** puts its first segment around what follows. -/
theorem passBlocks_opens (h : Outline.AsksCondition line name)
    (hdefined : conditions.get? (String.ofList name) ≠ none) :
    passBlocks conditions (truths conditions around) line =
      some (truths conditions (⟨name, 0⟩ :: around)) := by
  obtain ⟨value, hvalue⟩ := Option.ne_none_iff_exists'.mp hdefined
  have hholds : conditions.holds name = value.isTrue := by simp [Table.holds, hvalue]
  simp only [passBlocks, turnBlocks, h.1, h.2, OpenBlocks.openIf, hvalue, truths, List.map_cons,
    Segment.selected_zero, hholds, Bool.decide_eq_true]

/-- **A line that divides a block** goes to its next segment. -/
theorem passBlocks_divides (h : DividesBlock line) :
    passBlocks conditions (truths conditions (segment :: around)) line =
      some (truths conditions (Body.nextSegment (segment :: around))) := by
  simp only [passBlocks, turnBlocks, h.1, h.2, OpenBlocks.flip, truths, List.map_cons, Body.nextSegment,
    Segment.selected_succ, decide_not]

/-- **A line that closes a block** takes its segment away. -/
theorem passBlocks_closes (h : ClosesBlock line) :
    passBlocks conditions (truths conditions (segment :: around)) line = some (truths conditions around) := by
  simp only [passBlocks, turnBlocks, h.1, h.2, OpenBlocks.close, truths, List.map_cons]

/-- A conditional directive is not shown. -/
theorem shown_directive {blocks blocks' : OpenBlocks} {line : NumberedLine} (h : ¬ IsPlain line.2)
    (hpass : passBlocks conditions blocks line.2 = some blocks') (rest : List NumberedLine) :
    shown conditions blocks (line :: rest) = shown conditions blocks' rest := by
  rw [shown_cons hpass, if_neg fun hshows => h (shows_iff.mp hshows).1]

end

/-- Every condition that some lines ask for is defined. -/
def Defines (conditions : Table Value) (lines : List Text) : Prop :=
  ∀ line ∈ lines, ∀ name, Outline.AsksCondition line name → conditions.get? (String.ofList name) ≠ none

theorem Defines.mono {conditions : Table Value} {lines lines' : List Text} (h : Defines conditions lines)
    (hsub : lines' ⊆ lines) : Defines conditions lines' :=
  fun line hmem => h line (hsub hmem)

namespace Body

section
variable {depth : Nat} {conditions : Table Value} {around : List Segment}

theorem selected_content {line : NumberedLine} (hkind : Line.kind line.2 = .content) (rest : Body depth) :
    (content line hkind rest).selected conditions around =
      if (truths conditions around).visible then line :: rest.selected conditions around
      else rest.selected conditions around := by
  by_cases hvisible : (truths conditions around).visible = true
  · have hall := visible_truths.mp hvisible
    rw [if_pos hvisible, selected, contents, List.filter_cons_of_pos (by simpa using hall)]
    rfl
  · have hnot := mt visible_truths.mpr hvisible
    rw [if_neg hvisible, selected, contents, List.filter_cons_of_neg (by simpa using hnot)]
    rfl

theorem selected_block {opening closing : NumberedLine} {name : Text}
    (hasks : Outline.AsksCondition opening.2 name) (inside : Body (depth + 1))
    (hcloses : ClosesBlock closing.2) (rest : Body depth) :
    (block opening name hasks inside closing hcloses rest).selected conditions around =
      inside.selected conditions (⟨name, 0⟩ :: around) ++ rest.selected conditions around := by
  simp [selected, contents]

/-- Only the innermost segment changes along a body. -/
theorem behind_cons (body : Body depth) (segment : Segment) (around : List Segment) :
    ∃ segment', body.behind (segment :: around) = segment' :: around := by
  induction body generalizing segment with
  | nil => exact ⟨segment, rfl⟩
  | content line hkind rest ih => exact ih segment
  | divide line hdivides rest ih => exact ih _
  | block opening name hasks inside closing hcloses rest _ ih => exact ih segment

/-- **The run over a body** shows the content lines all of whose segments are selected, by induction on the
body.  What carries it is that the blocks that are open hold exactly where the segments around are selected. -/
theorem shown_lines (body : Body depth) (haround : around.length = depth)
    (hdefines : Defines conditions (body.lines.map Prod.snd)) (t : List NumberedLine) :
    shown conditions (truths conditions around) (body.lines ++ t) =
      body.selected conditions around ++ shown conditions (truths conditions (body.behind around)) t := by
  induction body generalizing around t with
  | nil => rfl
  | content line hkind rest ih =>
    have hplain : IsPlain line.2 := .inr hkind
    have hrest : Defines conditions (rest.lines.map Prod.snd) := hdefines.mono (List.subset_cons_self _ _)
    have hshows : shows conditions (truths conditions around) line.2 =
        (truths conditions around).visible := by
      rw [shows, hplain.turnBlocks, Option.isNone_none, Bool.true_and]
    rw [lines, List.cons_append, shown_cons (hplain.passBlocks _ _), hshows, ih haround hrest,
      selected_content]
    split <;> rfl
  | divide line hdivides rest ih =>
    have hrest : Defines conditions (rest.lines.map Prod.snd) := hdefines.mono (List.subset_cons_self _ _)
    have hplain : ¬ IsPlain line.2 := by simp [IsPlain, hdivides.1]
    obtain ⟨segment, outer, rfl⟩ := List.exists_cons_of_length_eq_add_one haround
    rw [lines, List.cons_append, shown_directive hplain (passBlocks_divides hdivides),
      ih (by simpa [nextSegment] using haround) hrest]
    rfl
  | block opening name hasks inside closing hcloses rest ih ih' =>
    have hopening : ¬ IsPlain opening.2 := by simp [IsPlain, hasks.1]
    have hclosing : ¬ IsPlain closing.2 := by simp [IsPlain, hcloses.1]
    have hdefined := hdefines opening.2 List.mem_cons_self name hasks
    rw [lines, List.map_cons, List.map_append, List.map_cons] at hdefines
    have hinside : Defines conditions (inside.lines.map Prod.snd) :=
      hdefines.mono fun line hmem => List.mem_cons_of_mem _ (List.mem_append_left _ hmem)
    have hrest : Defines conditions (rest.lines.map Prod.snd) := hdefines.mono fun line hmem =>
      List.mem_cons_of_mem _ (List.mem_append_right _ (List.mem_cons_of_mem _ hmem))
    obtain ⟨segment, hbehind⟩ := inside.behind_cons ⟨name, 0⟩ around
    rw [lines, List.cons_append, shown_directive hopening (passBlocks_opens hasks hdefined),
      List.append_assoc, ih (by rw [List.length_cons, haround]) hinside, hbehind, List.cons_append,
      shown_directive hclosing (passBlocks_closes hcloses), ih' haround hrest, selected_block,
      List.append_assoc]
    rfl

end

/-- **A source shows** the content lines of its tree all of whose segments are selected. -/
theorem shown_source {tree : Body 0} {conditions : Table Value} {lines : List Text}
    (htree : tree.lines = numbered 1 lines) (hdefines : Defines conditions lines) :
    shown conditions .none (numbered 1 lines) = tree.selected conditions [] := by
  have htexts : tree.lines.map Prod.snd = lines := by rw [htree, map_snd_numbered]
  have hshown : shown conditions (truths conditions []) (tree.lines ++ []) =
      tree.selected conditions [] ++ shown conditions (truths conditions (tree.behind [])) [] :=
    tree.shown_lines rfl (by rwa [htexts]) []
  rw [List.append_nil, htree] at hshown
  exact hshown.trans (List.append_nil _)

end Body

/-! ## Sources -/

section
variable {s : Setting} {visit : Option Visit} {chain : List String} {place : Place} {source : Text}
  {l l' : Ledger}

/-- A directive does not fail exactly if it is not malformed, not stray, and its condition is defined. -/
theorem passBlocks_ne_none_iff {conditions : Table Value} {blocks : OpenBlocks} {line : Text} :
    passBlocks conditions blocks line ≠ none ↔
      (¬ IsPlain line → ¬ Outline.Malformed line) ∧ ¬ Outline.Stray blocks.depth line ∧
      ∀ name, Outline.AsksCondition line name → conditions.get? (String.ofList name) ≠ none := by
  have hfails : passBlocks conditions blocks line = none ↔
      ∃ cause, turnBlocks conditions blocks line = some (.error cause) := by
    unfold passBlocks
    rcases turnBlocks conditions blocks line with - | (cause | turned) <;> simp
  have hdirective : turnBlocks conditions blocks line ≠ none ↔ ¬ IsPlain line :=
    not_congr turnBlocks_eq_none_iff
  rw [ne_eq, hfails, turnBlocks_error_iff, hdirective]
  constructor
  · intro h
    refine ⟨fun hline hmalformed => h (.inl ⟨hline, .inl hmalformed⟩), fun hstray => ?_,
      fun name hasks hnone => h (.inr ⟨name, hasks, hnone⟩)⟩
    have hline : ¬ IsPlain line := by
      rintro (hplain | hplain) <;> simp [Outline.Stray, hplain] at hstray
    exact h (.inl ⟨hline, .inr hstray⟩)
  · rintro ⟨hparses, hmatched, hdefined⟩ (⟨hline, hmalformed | hstray⟩ | ⟨name, hasks, hnone⟩)
    · exact hparses hline hmalformed
    · exact hmatched hstray
    · exact hdefined name hasks hnone

/-- **Lines that go on to an end without open blocks** have directives that match, and their conditions are
defined. -/
theorem wellNested_of_went {done : List Text} {blocks : OpenBlocks}
    (h : Flatten.lines s visit chain place 1 .none [] (Text.lines source) l = (.ok (done, blocks), l'))
    (hfinish : blocks.finish = .ok ()) :
    WellNested 0 (Text.lines source) ∧ Defines s.bindings.conditions (Text.lines source) := by
  obtain ⟨hblocks, heach⟩ := lines_ok h
  have hpasses : ∀ passed line rest, Text.lines source = passed ++ line :: rest →
      ∃ behind, blocksAfter s.bindings.conditions passed = some behind ∧
        passBlocks s.bindings.conditions behind line ≠ none := by
    intro passed line rest hlines
    obtain ⟨behind, l₁, ⟨went, blocks₁⟩, l₂, hbehind, hwent⟩ := heach passed line rest hlines
    exact ⟨behind, hbehind, by simp [(line_ok hwent).1]⟩
  refine ⟨⟨fun line hmem => ?_, fun passed line rest hlines => ?_, ?_⟩, fun line hmem => ?_⟩
  · obtain ⟨passed, rest, hlines⟩ := List.append_of_mem hmem
    obtain ⟨behind, -, hpass⟩ := hpasses passed line rest hlines
    exact (passBlocks_ne_none_iff.mp hpass).1
  · obtain ⟨behind, hbehind, hpass⟩ := hpasses passed line rest hlines
    have hdepth := depth_of_blocksAfter hbehind
    rw [Outline.depthAfter] at hdepth
    rw [← hdepth]
    exact (passBlocks_ne_none_iff.mp hpass).2.1
  · have hdepth := depth_of_blocksAfter hblocks
    rw [Outline.depthAfter] at hdepth
    rw [← hdepth]
    exact OpenBlocks.finish_eq_ok_iff.mp hfinish
  · obtain ⟨passed, rest, hlines⟩ := List.append_of_mem hmem
    obtain ⟨behind, -, hpass⟩ := hpasses passed line rest hlines
    exact (passBlocks_ne_none_iff.mp hpass).2.2

/-- **Lines halt at a line that they show**, if their directives match and ask for defined conditions only. -/
theorem shown_of_halt (hnested : WellNested 0 (Text.lines source))
    (hdefines : Defines s.bindings.conditions (Text.lines source)) {halt : Halt}
    (h : Flatten.lines s visit chain place 1 .none [] (Text.lines source) l = (.error halt, l')) :
    ∃ line ∈ shown s.bindings.conditions .none (numbered 1 (Text.lines source)), ∃ l₁ halt' l₂,
      lineText s visit chain place line.2 l₁ = (.error halt', l₂) := by
  obtain ⟨passed, line, rest, behind, l₁, halt', l₂, hlines, hbehind, hline, -⟩ := lines_error h
  have hmem : line ∈ Text.lines source := by simp [hlines]
  have hdepth := depth_of_blocksAfter hbehind
  rcases line_error hline with ⟨cause, hfails⟩ | ⟨hturn, hvisible, htext⟩
  · have hpass : passBlocks s.bindings.conditions behind line ≠ none :=
      passBlocks_ne_none_iff.mpr ⟨hnested.parses line hmem,
        by rw [hdepth]; exact hnested.matched passed line rest hlines, hdefines line hmem⟩
    simp [passBlocks, hfails] at hpass
  · refine ⟨(passed.length + 1, line), mem_shown_lines.mpr ⟨turnBlocks_eq_none_iff.mp hturn, behind, ?_⟩,
      l₁, halt', l₂, htext⟩
    exact ⟨⟨passed, rest, hlines, rfl, hbehind⟩, hvisible⟩

end

section
variable {engine : Engine} {disk : Disk} {bindings : Bindings} {request : String} {place : Place}
  {source : Text}

/-- **A call that comes to a text** has emitted the texts of the lines that its source shows. -/
theorem Engine.process_emits (hplace : disk.canonical? request = .ok place)
    (hcache : engine.cache.get? place.text = none)
    (hsource : Flatten.sourceAt (engine.setting disk bindings) place = .ok source) {text : Text}
    (h : (engine.process disk bindings request).1.1 = .ok text) :
    WellNested 0 (Text.lines source) ∧ Defines bindings.conditions (Text.lines source) ∧
      ∃ emits : List (NumberedLine × Text),
        emits.map Prod.fst = shown bindings.conditions .none (numbered 1 (Text.lines source)) ∧
        (∀ e ∈ emits, ∃ l₁ l₂, lineText (engine.setting disk bindings)
          (below (engine.setting disk bindings) engine.limits.levels) [place.text] place e.1.2 l₁ =
            (.ok e.2, l₂)) ∧
        text = (emits.map fun e => emitted e.2 ((Text.lines source).drop e.1.1)).flatten := by
  have hprocess := process_source hplace hcache hsource
  generalize (engine.process disk bindings request).1 = outcome at h hprocess
  obtain ⟨result, l'⟩ := outcome
  cases h
  have hwent := hprocess.symm
  obtain ⟨done, blocks, l₁, hlines, hfinish⟩ := source_ok hwent
  obtain ⟨hnested, hdefines⟩ := wellNested_of_went hlines hfinish
  exact ⟨hnested, hdefines, source_emits hwent⟩

/-- **A call whose directives match** comes to a text, or one of the lines that its source shows halts. -/
theorem Engine.process_halts (hplace : disk.canonical? request = .ok place)
    (hcache : engine.cache.get? place.text = none)
    (hsource : Flatten.sourceAt (engine.setting disk bindings) place = .ok source)
    (hnested : WellNested 0 (Text.lines source)) (hdefines : Defines bindings.conditions (Text.lines source))
    {halt : Halt} (h : (engine.process disk bindings request).1.1 = .error halt) :
    ∃ line ∈ shown bindings.conditions .none (numbered 1 (Text.lines source)), ∃ l₁ halt' l₂,
      lineText (engine.setting disk bindings)
        (below (engine.setting disk bindings) engine.limits.levels) [place.text] place line.2 l₁ =
          (.error halt', l₂) := by
  obtain ⟨l', hlines⟩ := lines_of_halt hplace hcache hsource hnested.closed h
  exact shown_of_halt (s := engine.setting disk bindings) hnested hdefines hlines

end

/-- What a source without imports shows is content. -/
theorem kind_of_mem_shown {conditions : Table Value} {source : Text}
    (himports : ∀ line ∈ Text.lines source, Line.kind line ≠ .importLine) {line : NumberedLine}
    (h : line ∈ shown conditions .none (numbered 1 (Text.lines source))) :
    Line.kind line.2 = .content := by
  obtain ⟨hplain, blocks, ⟨passed, rest, hlines, -⟩, -⟩ := mem_shown_lines.mp h
  exact hplain.resolve_left (himports line.2 (by simp [hlines]))

/-- **A call that comes to a text** has written the selected lines of the tree of its source. -/
theorem Engine.process_writes {engine : Engine} {disk : Disk} {bindings : Bindings} {request : String}
    {place : Place} {source text : Text} {tree : Body 0} (hplace : disk.canonical? request = .ok place)
    (hcache : engine.cache.get? place.text = none)
    (hsource : Flatten.sourceAt (engine.setting disk bindings) place = .ok source)
    (himports : ∀ line ∈ Text.lines source, Line.kind line ≠ .importLine)
    (htext : (engine.process disk bindings request).1.1 = .ok text)
    (htree : tree.lines = numbered 1 (Text.lines source)) :
    ∃ emits : List (NumberedLine × Text), emits.map Prod.fst = tree.selected bindings.conditions [] ∧
      (∀ e ∈ emits, Line.substitute e.1.2 bindings.constants engine.limits.lineLength = .ok e.2) ∧
      text = (emits.map fun e => emitted e.2 ((Text.lines source).drop e.1.1)).flatten := by
  obtain ⟨-, hdefines, emits, hshown, htexts, rfl⟩ := process_emits hplace hcache hsource htext
  refine ⟨emits, by rw [hshown, Body.shown_source htree hdefines], fun e he => ?_, rfl⟩
  have hmem : e.1 ∈ shown bindings.conditions .none (numbered 1 (Text.lines source)) := by
    rw [← hshown]
    exact List.mem_map_of_mem he
  obtain ⟨l₁, l₂, htext⟩ := htexts e he
  rw [lineText_of_content (kind_of_mem_shown himports hmem)] at htext
  exact congrArg Prod.fst htext

/-- **Conditional blocks are structured.**  Where the directives of a source without imports match, its lines
form one tree.  A call on the source comes to a text exactly if that is so, every condition that is asked for is
defined, and each content line all of whose segments are selected can be written with its constant.  The text
is then made of those lines in order, and of nothing else; they are the content lines that are visible where
they stand. -/
theorem process_structured {engine : Engine} {disk : Disk} {bindings : Bindings} {request : String}
    {place : Place} {source : Text} (hplace : disk.canonical? request = .ok place)
    (hcache : engine.cache.get? place.text = none)
    (hsource : Flatten.sourceAt (engine.setting disk bindings) place = .ok source)
    (himports : ∀ line ∈ Text.lines source, Line.kind line ≠ .importLine) :
    (WellNested 0 (Text.lines source) →
      ∃! tree : Body 0, tree.lines = numbered 1 (Text.lines source)) ∧
    ((∃ text, (engine.process disk bindings request).1.1 = .ok text) ↔
      WellNested 0 (Text.lines source) ∧ Defines bindings.conditions (Text.lines source) ∧
        ∀ tree : Body 0, tree.lines = numbered 1 (Text.lines source) →
          ∀ line ∈ tree.selected bindings.conditions [], ∃ text,
            Line.substitute line.2 bindings.constants engine.limits.lineLength = .ok text) ∧
    ∀ text, (engine.process disk bindings request).1.1 = .ok text →
      ∀ tree : Body 0, tree.lines = numbered 1 (Text.lines source) →
        (∀ number line, (number, line) ∈ tree.selected bindings.conditions [] ↔
          Line.kind line = .content ∧ ∃ blocks,
            LineAt bindings.conditions source number line blocks ∧ blocks.visible = true) ∧
        ∃ emits : List (NumberedLine × Text), emits.map Prod.fst = tree.selected bindings.conditions [] ∧
          (∀ e ∈ emits, Line.substitute e.1.2 bindings.constants engine.limits.lineLength = .ok e.2) ∧
          text = (emits.map fun e => emitted e.2 ((Text.lines source).drop e.1.1)).flatten := by
  refine ⟨fun hnested => hnested.existsUnique_body himports 1, ⟨?_, ?_⟩, fun text htext tree htree => ?_⟩
  · rintro ⟨text, htext⟩
    obtain ⟨hnested, hdefines, -⟩ := Engine.process_emits hplace hcache hsource htext
    refine ⟨hnested, hdefines, fun tree htree line hline => ?_⟩
    obtain ⟨emits, hselected, htexts, -⟩ :=
      Engine.process_writes hplace hcache hsource himports htext htree
    rw [← hselected] at hline
    obtain ⟨e, he, rfl⟩ := List.mem_map.mp hline
    exact ⟨e.2, htexts e he⟩
  · rintro ⟨hnested, hdefines, hwritten⟩
    cases hresult : (engine.process disk bindings request).1.1 with
    | ok text => exact ⟨text, rfl⟩
    | error halt =>
      obtain ⟨tree, htree, -⟩ := hnested.existsUnique_body himports 1
      obtain ⟨line, hline, l₁, halt', l₂, htext⟩ :=
        Engine.process_halts hplace hcache hsource hnested hdefines hresult
      rw [lineText_of_content (kind_of_mem_shown himports hline)] at htext
      rw [Body.shown_source htree hdefines] at hline
      obtain ⟨text, hwrites⟩ := hwritten tree htree line hline
      exact absurd (hwrites.symm.trans (congrArg Prod.fst htext)) (by simp)
  · refine ⟨fun number line => ?_, Engine.process_writes hplace hcache hsource himports htext htree⟩
    obtain ⟨-, hdefines, -⟩ := Engine.process_emits hplace hcache hsource htext
    rw [← Body.shown_source htree hdefines]
    constructor
    · intro hline
      exact ⟨kind_of_mem_shown himports hline, (mem_shown_lines.mp hline).2⟩
    · rintro ⟨hkind, hvisible⟩
      exact mem_shown_lines.mpr ⟨.inr hkind, hvisible⟩

/-! A block with three segments, the middle one of which holds a block of its own. -/

/-- The source of that shader. -/
def dividedSource : Text := "#if x\na\n#else\n#if y\n#(z)\n#endif\n#else\nc\n#endif\nd".toList

/-- Its tree. -/
def dividedTree : Body 0 :=
  .block (1, "#if x".toList) ['x'] ⟨rfl, rfl⟩
    (.content (2, "a".toList) rfl <| .divide (3, "#else".toList) ⟨rfl, rfl⟩ <|
      .block (4, "#if y".toList) ['y'] ⟨rfl, rfl⟩
        (.content (5, "#(z)".toList) rfl .nil) (6, "#endif".toList) ⟨rfl, rfl⟩ <|
      .divide (7, "#else".toList) ⟨rfl, rfl⟩ <| .content (8, "c".toList) rfl .nil)
    (9, "#endif".toList) ⟨rfl, rfl⟩ <|
  .content (10, "d".toList) rfl .nil

theorem dividedSource_outline : Outline.ofSource dividedSource = Outline.ofSource nestedSource := by decide

theorem dividedTree_lines : dividedTree.lines = numbered 1 (Text.lines dividedSource) := by decide

theorem dividedTree_selected :
    dividedTree.selected nestedBindings.conditions [] = [(5, "#(z)".toList), (10, "d".toList)] := by decide

theorem process_structured_divided :
    (∀ line ∈ Text.lines dividedSource, Line.kind line ≠ .importLine) ∧
    ((Engine.create .oneLevel).process (.pair (Utf8.ascii dividedSource) .empty) nestedBindings
      "/a").1.1 = .ok "3\nd".toList := by
  have hread := Disk.readBytes_pair_shader (Utf8.ascii dividedSource) .empty
  have hsource : Flatten.sourceAt ((Engine.create .oneLevel).setting
      (.pair (Utf8.ascii dividedSource) .empty) nestedBindings) ["a"] = .ok dividedSource :=
    Flatten.sourceAt_ascii rfl hread (by decide)
  have himports : ∀ line ∈ Text.lines dividedSource, Line.kind line ≠ .importLine := by decide
  obtain ⟨hunique, hok, htext⟩ :=
    process_structured (Disk.canonical?_pair_shader _ _) rfl hsource himports
  have hnested : WellNested 0 (Text.lines dividedSource) := wellNested_of_isValid (by decide)
  have hsupplies : nestedBindings.Supplies (.ofSource dividedSource) := by
    rw [dividedSource_outline]
    exact nestedBindings_supplies
  have hdefines : Defines nestedBindings.conditions (Text.lines dividedSource) := fun line hmem name hasks =>
    hsupplies.conditions name (Outline.mem_conditions_ofSource.mpr ⟨line, hmem, hasks⟩)
  have hfirst : Line.substitute "#(z)".toList nestedBindings.constants none = .ok "3".toList := by decide
  have hlast : Line.substitute "d".toList nestedBindings.constants none = .ok "d".toList := by decide
  have hwritten : ∀ tree : Body 0, tree.lines = numbered 1 (Text.lines dividedSource) →
      ∀ line ∈ tree.selected nestedBindings.conditions [], ∃ text,
        Line.substitute line.2 nestedBindings.constants none = .ok text := by
    intro tree htree line hline
    rw [(hunique hnested).unique htree dividedTree_lines, dividedTree_selected] at hline
    simp only [List.mem_cons, List.not_mem_nil, or_false] at hline
    rcases hline with rfl | rfl
    · exact ⟨_, hfirst⟩
    · exact ⟨_, hlast⟩
  obtain ⟨text, hresult⟩ := hok.mpr ⟨hnested, hdefines, hwritten⟩
  obtain ⟨-, emits, hselected, htexts, hemitted⟩ := htext text hresult dividedTree dividedTree_lines
  rw [dividedTree_selected] at hselected
  obtain ⟨⟨_, t⟩, later, rfl, rfl, hlater⟩ := List.map_eq_cons_iff.mp hselected
  obtain ⟨⟨_, t'⟩, nothing, rfl, rfl, hnone⟩ := List.map_eq_cons_iff.mp hlater
  obtain rfl := List.map_eq_nil_iff.mp hnone
  have ht : Line.substitute "#(z)".toList nestedBindings.constants none = .ok t :=
    htexts ((5, "#(z)".toList), t) List.mem_cons_self
  have ht' : Line.substitute "d".toList nestedBindings.constants none = .ok t' :=
    htexts ((10, "d".toList), t') (List.mem_cons_of_mem _ List.mem_cons_self)
  obtain rfl : "3".toList = t := Except.ok.inj (hfirst.symm.trans ht)
  obtain rfl : "d".toList = t' := Except.ok.inj (hlast.symm.trans ht')
  have houtput : text = "3\nd".toList := by
    rw [hemitted]
    decide
  rw [hresult, houtput]
  exact ⟨himports, rfl⟩

end ShaderFlatten
