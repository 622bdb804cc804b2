import ShaderFlatten.Proofs.ImportPaths
import ShaderFlatten.Proofs.Preflight

/-!
# Which parser a line is for

The kind of a line is read off its first token, and the parser of that kind checks the rest of the line.  A
parser looks at the whole line by itself, and it accepts far fewer lines than have its kind, but none of
another kind:

    Accepts line k → Line.kind line = k                                            (kind_of_accepts)

The first `#` of a line decides.  In a directive only blanks stand in front of it, and a letter stands behind
it; behind the first `#` of a line with a reference stands a parenthesis.
-/

namespace ShaderFlatten

namespace Line

open Grammar Rule

/-- The parser for a kind of line accepts a line.  In a content line it has to find a reference. -/
def Accepts (line : Text) : LineKind → Prop
  | .importLine => ∃ path, importPath? line = .ok path
  | .ifLine => ∃ name, condition? line = .ok name
  | .elseLine => bare? elseMark line = .ok ()
  | .endifLine => bare? endifMark line = .ok ()
  | .content => ∃ found, placeholder? line = .ok (some found)

/-! ## Marks -/

section
variable {a b h mark line : Text}

/-- The blanks in front of a line do not matter. -/
theorem kind_append (hh : h ∈ many Text.isHorizontal) (b : Text) : kind (h ++ b) = kind b := by
  unfold kind
  rw [List.dropWhile_append_of_pos hh]

theorem startsWithMark_append (hb : Stops isNameChar b) : startsWithMark mark (mark ++ b) = true := by
  have hfront : mark.isPrefixOf (mark ++ b) = true :=
    List.isPrefixOf_iff_prefix.mpr (List.prefix_append mark b)
  rw [startsWithMark, hfront, List.drop_left]
  cases b with
  | nil => rfl
  | cons c b => simp [stops_cons.mp hb]

theorem kind_importMark (b : Text) : kind (importMark ++ b) = .importLine := rfl

theorem kind_ifMark (hb : Stops isNameChar b) : kind (ifMark ++ b) = .ifLine := by
  have hstart : (ifMark ++ b).dropWhile Text.isHorizontal = ifMark ++ b := rfl
  have himport : importMark.isPrefixOf (ifMark ++ b) = false := rfl
  simp [kind, hstart, himport, startsWithMark_append hb]

theorem kind_elseMark (hb : Stops isNameChar b) : kind (elseMark ++ b) = .elseLine := by
  have hstart : (elseMark ++ b).dropWhile Text.isHorizontal = elseMark ++ b := rfl
  have himport : importMark.isPrefixOf (elseMark ++ b) = false := rfl
  have hif : startsWithMark ifMark (elseMark ++ b) = false := rfl
  simp [kind, hstart, himport, hif, startsWithMark_append hb]

theorem kind_endifMark (hb : Stops isNameChar b) : kind (endifMark ++ b) = .endifLine := by
  have hstart : (endifMark ++ b).dropWhile Text.isHorizontal = endifMark ++ b := rfl
  have himport : importMark.isPrefixOf (endifMark ++ b) = false := rfl
  have hif : startsWithMark ifMark (endifMark ++ b) = false := rfl
  have helse : startsWithMark elseMark (endifMark ++ b) = false := rfl
  simp [kind, hstart, himport, hif, helse, startsWithMark_append hb]

/-- The marks of the directives. -/
def marks : List Text := [importMark, ifMark, elseMark, endifMark]

/-- Behind the `#` of a mark stands a letter. -/
theorem exists_letter (hmark : mark ∈ marks) :
    ∃ c more, Text.isWord c = true ∧ mark = '#' :: c :: more := by
  simp only [marks, List.mem_cons, List.not_mem_nil, or_false] at hmark
  rcases hmark with rfl | rfl | rfl | rfl <;> exact ⟨_, _, rfl, rfl⟩

/-- **A directive starts with a mark**, but for blanks. -/
theorem exists_mark (hkind : kind line ≠ .content) :
    ∃ h ∈ many Text.isHorizontal, ∃ mark ∈ marks, ∃ b, line = h ++ (mark ++ b) := by
  obtain ⟨h, hh, s, hs, rfl⟩ := exists_run Text.isHorizontal line
  by_contra hnone
  have hother : ∀ mark ∈ marks, mark.isPrefixOf s = false := by
    intro mark hmark
    rw [Bool.eq_false_iff]
    intro hfront
    obtain ⟨b, rfl⟩ := List.isPrefixOf_iff_prefix.mp hfront
    exact hnone ⟨h, hh, mark, hmark, b, rfl⟩
  simp only [marks, List.forall_mem_cons] at hother
  have hstart : s.dropWhile Text.isHorizontal = s := dropWhile_append_stops (a := []) nil_mem_many hs
  rw [kind_append hh] at hkind
  simp [kind, hstart, startsWithMark, hother] at hkind

/-- A line without `#` is content. -/
theorem kind_of_not_mem (hline : '#' ∉ line) : kind line = .content := by
  by_contra hkind
  obtain ⟨h, -, mark, hmark, b, rfl⟩ := exists_mark hkind
  obtain ⟨c, more, -, rfl⟩ := exists_letter hmark
  exact hline (by simp)

/-- There is one way to cut a line at its first `#`. -/
theorem cut_unique {a' b' : Text} (ha : '#' ∉ a) (ha' : '#' ∉ a') (heq : a ++ '#' :: b = a' ++ '#' :: b') :
    a = a' ∧ b = b' := by
  have hstops (b : Text) : Stops (· != '#') ('#' :: b) := stops_cons.mpr rfl
  have hsame := congrArg (List.takeWhile (· != '#')) heq
  rw [takeWhile_append_stops (mem_many_of_not_mem ha) (hstops b),
    takeWhile_append_stops (mem_many_of_not_mem ha') (hstops b')] at hsame
  subst hsame
  exact ⟨rfl, (List.cons.inj (List.append_cancel_left heq)).2⟩

end

/-! ## Parsers -/

section
variable {mark line : Text}

/-- **The lines that hold a mark and nothing else** but blanks. -/
theorem bare?_eq_ok (hmark : ∀ b, Stops Text.isHorizontal (mark ++ b)) : bare? mark line = .ok () ↔
    ∃ h ∈ many Text.isHorizontal, ∃ w ∈ many Text.isBlank, line = h ++ mark ++ w := by
  simp only [bare?, bind_eq_ok, Prod.exists]
  constructor
  · rintro ⟨_, _, hliteral, _, _, hend, -⟩
    obtain ⟨h, hh, after, hafter, rfl⟩ := exists_run Text.isHorizontal line
    rw [indent_append hh hafter] at hliteral
    obtain ⟨w, rfl, hr⟩ := literal_at.mp hliteral
    cases hr
    rw [← List.append_assoc] at hend ⊢
    exact ⟨h, hh, w, (endOfLine_at.mp hend).1, rfl⟩
  · rintro ⟨h, hh, w, hw, rfl⟩
    have hliteral := literal_append h mark w
    have hend := (endOfLine_at (a := h ++ mark)).mpr ⟨hw, rfl⟩
    simp only [List.append_assoc] at hend ⊢
    rw [indent_append hh (hmark w)]
    exact ⟨_, _, hliteral, _, _, hend, rfl⟩

/-- **A line that a parser accepts has the kind of that parser.** -/
theorem kind_of_accepts {k : LineKind} (h : Accepts line k) : kind line = k := by
  cases k with
  | importLine =>
    obtain ⟨path, hpath⟩ := h
    obtain ⟨h₁, hh₁, h₂, -, w, -, -, rfl⟩ := importPath?_eq_ok.mp hpath
    simp only [List.append_assoc]
    rw [kind_append hh₁]
    exact kind_importMark _
  | ifLine =>
    obtain ⟨name, hname⟩ := h
    obtain ⟨h₁, hh₁, h₂, hh₂, w, -, -, rfl⟩ := condition?_eq_ok.mp hname
    simp only [List.append_assoc]
    rw [kind_append hh₁]
    exact kind_ifMark (stops_many1 (fun c hc => isNameChar_of_isHorizontal hc) hh₂ _)
  | elseLine =>
    obtain ⟨h₁, hh₁, w, hw, rfl⟩ := (bare?_eq_ok fun b => stops_cons.mpr rfl).mp h
    rw [List.append_assoc, kind_append hh₁]
    exact kind_elseMark (stops_of_blank hw)
  | endifLine =>
    obtain ⟨h₁, hh₁, w, hw, rfl⟩ := (bare?_eq_ok fun b => stops_cons.mpr rfl).mp h
    rw [List.append_assoc, kind_append hh₁]
    exact kind_endifMark (stops_of_blank hw)
  | content =>
    obtain ⟨found, hfound⟩ := h
    obtain ⟨a, b, ha, -, hline, -⟩ := placeholder?_eq_ok.mp hfound
    by_contra hkind
    obtain ⟨h₁, hh₁, mark, hmark, b', hmarked⟩ := exists_mark hkind
    obtain ⟨c, more, hc, rfl⟩ := exists_letter hmark
    have hblank : '#' ∉ h₁ := fun hmem => absurd (hh₁ _ hmem) (by decide)
    have hcut : a ++ '#' :: ('(' :: (found.name ++ (")".toList ++ b))) = h₁ ++ '#' :: (c :: (more ++ b')) := by
      have hopen : "#(".toList = ['#', '('] := rfl
      simpa [hopen] using hline.symm.trans hmarked
    obtain ⟨-, hbehind⟩ := cut_unique ha hblank hcut
    obtain ⟨rfl, -⟩ := List.cons.inj hbehind
    cases hc

/-- At most one parser accepts a line. -/
theorem accepts_unique {k k' : LineKind} (h : Accepts line k) (h' : Accepts line k') : k = k' :=
  (kind_of_accepts h).symm.trans (kind_of_accepts h')

end

end Line

/-! ## Outlines -/

namespace Outline

section
variable {line : Text} (name path : Text)

/-- An outline lists what the parsers accept; that it looks at the kind first makes no difference. -/
theorem importsPath_iff : ImportsPath line path ↔ Line.importPath? line = .ok path :=
  and_iff_right_of_imp fun h => Line.kind_of_accepts (k := .importLine) ⟨path, h⟩

theorem asksCondition_iff : AsksCondition line name ↔ Line.condition? line = .ok name :=
  and_iff_right_of_imp fun h => Line.kind_of_accepts (k := .ifLine) ⟨name, h⟩

theorem asksConstant_iff :
    AsksConstant line name ↔ ∃ found, Line.placeholder? line = .ok (some found) ∧ found.name = name := by
  refine and_iff_right_of_imp ?_
  rintro ⟨found, hfound, -⟩
  exact Line.kind_of_accepts (k := .content) ⟨found, hfound⟩

end

end Outline

/-! ## Handlers -/

namespace Flatten

section
variable {line : Text} (conditions : Table Value) (blocks : OpenBlocks)

theorem turnBlocks_condition {name : Text} (h : Line.condition? line = .ok name) :
    turnBlocks conditions blocks line = some (blocks.openIf name conditions) := by
  have hkind : Line.kind line = .ifLine := Line.kind_of_accepts (k := .ifLine) ⟨name, h⟩
  simp only [turnBlocks, hkind, h]

theorem turnBlocks_else (h : Line.bare? Line.elseMark line = .ok ()) :
    turnBlocks conditions blocks line = some blocks.flip := by
  have hkind : Line.kind line = .elseLine := Line.kind_of_accepts (k := .elseLine) h
  simp only [turnBlocks, hkind, h]

theorem turnBlocks_endif (h : Line.bare? Line.endifMark line = .ok ()) :
    turnBlocks conditions blocks line = some blocks.close := by
  have hkind : Line.kind line = .endifLine := Line.kind_of_accepts (k := .endifLine) h
  simp only [turnBlocks, hkind, h]

end

end Flatten

/-- **The parsers of lines are unambiguous and agree with the kinds.**  A line that one of the five parsers
accepts has the kind of that parser, so that no other one accepts it, and it goes to the handler that the
parser is for: the path of an import is resolved, a condition opens a block, the two bare marks turn and close
one, and a line with a reference is rewritten.  Likewise an outline lists what the parsers accept. -/
theorem parsers_unambiguous (line : Text) :
    (∀ k, Line.Accepts line k → Line.kind line = k) ∧
    (∀ k k', Line.Accepts line k → Line.Accepts line k' → k = k') ∧
    (∀ path, Line.importPath? line = .ok path →
      (∀ conditions blocks, Flatten.turnBlocks conditions blocks line = none) ∧
      ∀ s visit chain place l,
        Flatten.lineText s visit chain place line l = Flatten.importText s visit chain place line l) ∧
    (∀ name, Line.condition? line = .ok name → ∀ conditions blocks,
      Flatten.turnBlocks conditions blocks line = some (blocks.openIf name conditions)) ∧
    (Line.bare? Line.elseMark line = .ok () → ∀ conditions blocks,
      Flatten.turnBlocks conditions blocks line = some blocks.flip) ∧
    (Line.bare? Line.endifMark line = .ok () → ∀ conditions blocks,
      Flatten.turnBlocks conditions blocks line = some blocks.close) ∧
    (∀ found, Line.placeholder? line = .ok (some found) →
      (∀ conditions blocks, Flatten.turnBlocks conditions blocks line = none) ∧
      ∀ s visit chain place l, Flatten.lineText s visit chain place line l =
        (Line.substitute line s.bindings.constants s.limits.lineLength, l)) ∧
    (∀ path, Outline.ImportsPath line path ↔ Line.importPath? line = .ok path) ∧
    (∀ name, Outline.AsksCondition line name ↔ Line.condition? line = .ok name) ∧
    ∀ name, Outline.AsksConstant line name ↔
      ∃ found, Line.placeholder? line = .ok (some found) ∧ found.name = name := by
  refine ⟨fun _ => Line.kind_of_accepts, fun _ _ => Line.accepts_unique, fun path hpath => ?_,
    fun name hname conditions blocks => Flatten.turnBlocks_condition conditions blocks hname,
    fun helse conditions blocks => Flatten.turnBlocks_else conditions blocks helse,
    fun hendif conditions blocks => Flatten.turnBlocks_endif conditions blocks hendif, fun found hfound => ?_,
    Outline.importsPath_iff, Outline.asksCondition_iff, Outline.asksConstant_iff⟩
  · have hkind : Line.kind line = .importLine := Line.kind_of_accepts (k := .importLine) ⟨path, hpath⟩
    exact ⟨fun _ _ => Flatten.turnBlocks_eq_none_iff.mpr (.inl hkind),
      fun _ _ _ _ l => Flatten.lineText_of_import hkind l⟩
  · have hkind : Line.kind line = .content := Line.kind_of_accepts (k := .content) ⟨found, hfound⟩
    exact ⟨fun _ _ => Flatten.turnBlocks_eq_none_iff.mpr (.inr hkind),
      fun _ _ _ _ l => Flatten.lineText_of_content hkind l⟩

end ShaderFlatten
