import Mathlib.Data.List.TakeWhile
import ShaderFlatten.CommandLine.Standard
import ShaderFlatten.Proofs.Canonical

/-!
# Telling

A command tells what it does on a console, line by line, and a line that the console refuses ends it.  Lines
change nothing but the output they are shown on:

    (t.tell console stream lines).1 = ok  ↔  the console shows every line
    (t.tell console stream lines).2.disk = t.disk

The lines about an ignored option and about a written file hold the option and the paths as they are, so tags
in them count.  The plain console shows such a line if it has none but the command's own, and refuses it at a
tag that ends a style which is not open.
-/

namespace ShaderFlatten

/-! ## Lines -/

namespace Transcript

variable {console : Console} {stream : Stream} {t : Transcript} {lines : List String}

@[simp] theorem disk_put (t : Transcript) (stream : Stream) (s : String) : (t.put stream s).disk = t.disk := by
  cases stream <;> rfl

/-- Telling leaves the disk alone. -/
@[simp] theorem disk_tell : (t.tell console stream lines).2.disk = t.disk := by
  induction lines generalizing t with
  | nil => rfl
  | cons line lines ih =>
    rw [tell]
    split
    · rfl
    · rw [ih, disk_put]

@[simp] theorem disk_tellAndExit {code : Nat} : (t.tellAndExit console lines code).2.disk = t.disk := by
  have hdisk := @disk_tell console .err t lines
  unfold tellAndExit
  split
  · next b t₁ htell =>
    rw [htell] at hdisk
    exact hdisk
  · next t₁ htell =>
    rw [htell] at hdisk
    exact hdisk

/-- **Lines are told to the end exactly if the console shows each of them.** -/
theorem tell_eq_ok : (t.tell console stream lines).1 = .ok () ↔ ∀ line ∈ lines, console.Shows stream line := by
  induction lines generalizing t with
  | nil => simp [tell]
  | cons line lines ih =>
    rw [tell, List.forall_mem_cons, Console.Shows]
    cases hline : console.line stream line with
    | error e => simp
    | ok shown => simpa using ih

theorem tellAndExit_exit {code : Nat} (h : ∀ line ∈ lines, console.Shows .err line) :
    (t.tellAndExit console lines code).1 = .exit code := by
  have htold := (@tell_eq_ok console .err t lines).mpr h
  unfold tellAndExit
  split
  · next b t₁ htell =>
    rw [htell] at htold
    cases htold
  · rfl

/-- What ends telling early is a line that the console refuses. -/
theorem tell_eq_error {b : Breakdown} (h : (t.tell console stream lines).1 = .error b) :
    ∃ line ∈ lines, ∃ e, console.line stream line = .error e ∧ b = .markup e := by
  induction lines generalizing t with
  | nil => cases h
  | cons line lines ih =>
    rw [tell] at h
    split at h
    · next e hline =>
      cases h
      exact ⟨line, List.mem_cons_self, e, hline, rfl⟩
    · obtain ⟨line', hmem, hrefused⟩ := ih h
      exact ⟨line', List.mem_cons_of_mem _ hmem, hrefused⟩

end Transcript

/-! ## The plain console -/

namespace Markup

variable {c : Char} {t rest word behind : Text} {position : Nat} {opened : List Text} {pieces : List Markup}

theorem tag?_char (h : c ≠ '[') : tag? (c :: rest) = none := by
  unfold tag?
  split
  · next heq =>
    cases heq
    exact absurd rfl h
  · rfl

/-- What is neither a bracket nor a backslash stands for itself. -/
theorem parse_char (hbracket : c ≠ '[') (hslash : c ≠ '\\') : parse (c :: rest) = .char c :: parse rest := by
  have hslashes : slashes (c :: rest) = 0 := by simp [slashes, hslash]
  rw [parse]
  split
  · next word behind htag =>
    rw [hslashes, List.drop_zero, tag?_char hbracket] at htag
    cases htag
  · rfl

theorem tag?_word {first : Char} {inner : Text} (hfirst : startsTag first = true)
    (hinner : ∀ c ∈ inner, inTag c = true) :
    tag? ('[' :: first :: (inner ++ ']' :: rest)) = some ('[' :: first :: (inner ++ [']']), rest) := by
  have hstop : inTag ']' = false := by decide
  have htake : (inner ++ ']' :: rest).takeWhile inTag = inner := by
    rw [List.takeWhile_append_of_pos hinner, List.takeWhile_cons_of_neg (by simp [hstop]), List.append_nil]
  have hdrop : (inner ++ ']' :: rest).dropWhile inTag = ']' :: rest := by
    rw [List.dropWhile_append_of_pos hinner, List.dropWhile_cons_of_neg (by simp [hstop])]
  simp only [tag?, hfirst, if_true, hdrop, htake, List.cons_append]

/-- A tag without backslashes before it. -/
theorem parse_tag {first : Char} {inner : Text} (hfirst : startsTag first = true)
    (hinner : ∀ c ∈ inner, inTag c = true) :
    parse ('[' :: first :: (inner ++ ']' :: rest)) = .tag 0 ('[' :: first :: (inner ++ [']'])) :: parse rest := by
  have hslashes : slashes ('[' :: first :: (inner ++ ']' :: rest)) = 0 := rfl
  have hword := @tag?_word rest _ _ hfirst hinner
  rw [parse]
  split
  · next word' behind' htag =>
    rw [hslashes, List.drop_zero, hword] at htag
    cases htag
    rw [hslashes]
  · next htag =>
    rw [hslashes, List.drop_zero, hword] at htag
    cases htag

/-- A text without brackets and backslashes. -/
def IsPlain (t : Text) : Prop := '[' ∉ t ∧ '\\' ∉ t

instance : Decidable (IsPlain t) := inferInstanceAs (Decidable (_ ∧ _))

theorem isPlain_append : IsPlain (t ++ rest) ↔ IsPlain t ∧ IsPlain rest := by
  simp only [IsPlain, List.mem_append]
  tauto

/-- A text that can stand in a tag, without an equals sign. -/
def IsWord (t : Text) : Prop := ∀ c ∈ t, inTag c = true ∧ c ≠ '='

instance : Decidable (IsWord t) :=
  decidable_of_iff (t.all fun c => inTag c && c != '=') (by simp [IsWord])

theorem parse_plain (h : IsPlain t) : parse (t ++ rest) = t.map .char ++ parse rest := by
  induction t with
  | nil => rfl
  | cons c t ih =>
    obtain ⟨hbracket, hslash⟩ := h
    simp only [List.mem_cons, not_or] at hbracket hslash
    rw [List.cons_append, parse_char (Ne.symm hbracket.1) (Ne.symm hslash.1), ih ⟨hbracket.2, hslash.2⟩]
    rfl

/-- Plain text leaves open what is open. -/
theorem check_plain (h : IsPlain t) :
    check position opened (parse (t ++ rest)) = check (position + t.length) opened (parse rest) := by
  rw [parse_plain h]
  clear h
  induction t generalizing position with
  | nil => rfl
  | cons c t ih =>
    rw [List.map_cons, List.cons_append, check, ih, List.length_cons]
    congr 1
    omega

theorem check_end (h : IsPlain t) : check position opened (parse t) = .ok () := by
  have hplain := @check_plain t [] position opened h
  rw [List.append_nil, parse] at hplain
  exact hplain

section Tags

variable {first : Char} {inner style : Text} {outer : List Text} {e : MarkupError}

/-- A tag begins or ends a style. -/
theorem check_tag (hfirst : startsTag first = true) (hinner : ∀ c ∈ inner, inTag c = true)
    (hclose : close position ('[' :: first :: (inner ++ [']'])) opened = .ok outer) :
    check position opened (parse ('[' :: first :: (inner ++ ']' :: rest))) =
      check (position + (inner.length + 3)) outer (parse rest) := by
  have hlength : ('[' :: first :: (inner ++ [']'])).length = inner.length + 3 := by simp
  rw [parse_tag hfirst hinner, check, hlength]
  simp only [Nat.zero_mod, Nat.zero_ne_one, if_false, Nat.add_zero, hclose]
  rfl

/-- A tag that ends no style is refused, whatever follows. -/
theorem check_tag_error (hfirst : startsTag first = true) (hinner : ∀ c ∈ inner, inTag c = true)
    (hclose : close position ('[' :: first :: (inner ++ [']'])) opened = .error e) :
    check position opened (parse ('[' :: first :: (inner ++ ']' :: rest))) = .error e := by
  rw [parse_tag hfirst hinner, check]
  simp only [Nat.zero_mod, Nat.zero_ne_one, if_false, Nat.add_zero, hclose]
  rfl

theorem tagName_bracketed (h : ∀ c ∈ t, c ≠ '=') : tagName ('[' :: (t ++ [']'])) = t := by
  rw [tagName, List.drop_one, List.tail_cons, List.dropLast_concat]
  exact List.takeWhile_eq_self_iff.mpr fun c hc => by simpa using h c hc

/-- Behind a tag with a name the style of that name is open. -/
theorem close_begin (hslash : first ≠ '/')
    (hinner : ∀ c ∈ first :: inner, c ≠ '=') :
    close position ('[' :: first :: (inner ++ [']'])) opened = .ok (styleName (first :: inner) :: opened) := by
  have hname := tagName_bracketed hinner
  rw [List.cons_append] at hname
  unfold close
  rw [hname]
  split
  · next heq =>
    cases heq
    exact absurd rfl hslash
  · rfl

/-- A tag that is a slash ends the innermost style. -/
theorem close_last :
    close position ['[', '/', ']'] (style :: outer) = .ok outer := by
  have hname : tagName ['[', '/', ']'] = ['/'] := by decide
  have htrim : Text.trim [] = [] := by decide
  unfold close
  rw [hname]
  simp only [htrim, if_true]

/-- A tag does not end a style that is not open. -/
theorem close_notOpen (hinner : ∀ c ∈ inner, c ≠ '=') (hname : Text.trim inner ≠ [])
    (hopened : styleName inner ∉ opened) :
    close position ('[' :: '/' :: (inner ++ [']'])) opened =
      .error (notOpen ('[' :: '/' :: (inner ++ [']'])) position) := by
  have hword := @tagName_bracketed ('/' :: inner) (by simpa using hinner)
  rw [List.cons_append] at hword
  have hnone : opened.contains (styleName inner) = false := by simpa using hopened
  unfold close
  rw [hword]
  simp only [hname, hnone, if_false, Bool.false_eq_true]

/-- Behind plain text in a style nothing is open. -/
theorem check_styled {text : Text} (hfirst : startsTag first = true) (hslash : first ≠ '/')
    (hinner : IsWord (first :: inner)) (htext : IsPlain text) :
    check 0 [] (parse ('[' :: first :: (inner ++ ']' :: (text ++ '[' :: '/' :: ([] ++ ']' :: rest))))) =
      check (inner.length + text.length + 6) [] (parse rest) := by
  rw [check_tag hfirst (fun c hc => (hinner c (List.mem_cons_of_mem _ hc)).1)
      (close_begin hslash fun c hc => (hinner c hc).2),
    check_plain htext, check_tag (by decide) (by simp) close_last, List.length_nil]
  congr 1
  omega

/-- A tag for a style that is not open is refused, whatever follows. -/
theorem check_notOpen (hinner : IsWord inner) (hname : Text.trim inner ≠ [])
    (hopened : styleName inner ∉ opened) :
    check position opened (parse ('[' :: '/' :: (inner ++ ']' :: rest))) =
      .error (notOpen ('[' :: '/' :: (inner ++ [']'])) position) :=
  check_tag_error (by decide) (fun c hc => (hinner c hc).1)
    (close_notOpen (fun c hc => (hinner c hc).2) hname hopened)

end Tags

end Markup

namespace Console

open Markup

variable {stream : Stream} {line : String}

theorem plain_shows_iff : plain.Shows stream line ↔ check 0 [] (parse line.toList) = .ok () := by
  have hline : plain.line stream line =
      ((check 0 [] (parse line.toList)).map fun _ => layOut (render (parse line.toList))) := by
    have hplain : plain.line stream line = (plain? line.toList).map layOut := rfl
    rw [hplain, plain?]
    cases check 0 [] (parse line.toList) <;> rfl
  rw [Shows, hline]
  cases check 0 [] (parse line.toList) <;> simp [Except.map]

theorem plain_line_eq_error {e : MarkupError} (h : check 0 [] (parse line.toList) = .error e) :
    plain.line stream line = .error e := by
  have hplain : plain.line stream line = (plain? line.toList).map layOut := rfl
  rw [hplain, plain?, h]
  rfl

end Console

namespace Command

open Markup

variable {item : String} {path target : Path} {before name behind : Text}

/-- The line about an option, in its parts. -/
theorem ignoredLine_toList : ∃ yellow front back : Text,
    (yellow.length = 5 ∧ front.length = 28) ∧ styleName ('y' :: yellow) = "yellow".toList ∧
    IsWord ('y' :: yellow) ∧ IsPlain front ∧ IsPlain back ∧
    (ignoredLine item).toList =
      '[' :: 'y' :: (yellow ++ ']' :: (front ++ (item.toList ++ (back ++ '[' :: '/' :: ([] ++ ']' :: []))))) := by
  have hopen : "[yellow]Ignoring malformed --const '".toList =
      '[' :: 'y' :: ("ellow".toList ++ ']' :: "Ignoring malformed --const '".toList) := by decide +kernel
  have hclose : "' (expected NAME=VALUE)[/]".toList =
      "' (expected NAME=VALUE)".toList ++ '[' :: '/' :: ([] ++ ']' :: []) := by decide +kernel
  have hline : ignoredLine item =
      "[yellow]Ignoring malformed --const '" ++ item ++ "' (expected NAME=VALUE)[/]" := rfl
  refine ⟨"ellow".toList, "Ignoring malformed --const '".toList, "' (expected NAME=VALUE)".toList,
    by decide +kernel, by decide +kernel, by decide +kernel, by decide +kernel, by decide +kernel, ?_⟩
  rw [hline, String.toList_append, String.toList_append, hopen, hclose]
  generalize "Ignoring malformed --const '".toList = front
  generalize "' (expected NAME=VALUE)".toList = back
  generalize "ellow".toList = yellow
  simp only [List.cons_append, List.append_assoc]

/-- The plain console shows the line about an option in which no tag stands. -/
theorem plain_shows_ignoredLine (h : IsPlain item.toList) : Console.plain.Shows .err (ignoredLine item) := by
  obtain ⟨yellow, front, back, -, -, hyellow, hfront, hback, hline⟩ := @ignoredLine_toList item
  have hplain : IsPlain (front ++ (item.toList ++ back)) :=
    isPlain_append.mpr ⟨hfront, isPlain_append.mpr ⟨h, hback⟩⟩
  have hstyled := (check_styled (by decide) (by decide) hyellow hplain).trans (check_end (by decide : IsPlain []))
  rw [Console.plain_shows_iff, hline]
  simpa only [List.append_assoc] using hstyled

/-- The plain console refuses the line about an option in which a tag ends a style that is not open. -/
theorem plain_refuses_ignoredLine (hitem : item.toList = before ++ '[' :: '/' :: (name ++ ']' :: behind))
    (hbefore : IsPlain before) (hname : IsWord name) (htrim : Text.trim name ≠ [])
    (hstyle : styleName name ≠ "yellow".toList) :
    Console.plain.line .err (ignoredLine item) =
      .error (notOpen ('[' :: '/' :: (name ++ [']'])) (36 + before.length)) := by
  obtain ⟨yellow, front, back, ⟨hlength, hlength'⟩, hopens, hyellow, hfront, hback, hline⟩ :=
    @ignoredLine_toList item
  apply Console.plain_line_eq_error
  -- the option stands in the line's own style, which is the only one that is open
  rw [hline, hitem, check_tag (by decide) (fun c hc => (hyellow c (List.mem_cons_of_mem _ hc)).1)
      (close_begin (by decide) fun c hc => (hyellow c hc).2), check_plain hfront]
  simp only [List.append_assoc, List.cons_append]
  rw [check_plain hbefore, check_notOpen hname htrim (by simpa [hopens] using hstyle)]
  congr 2
  omega

/-- The line about a text that has been written, in its parts. -/
theorem writtenLine_toList : ∃ green : Text, green.length = 4 ∧ IsWord ('g' :: green) ∧
    (writtenLine path target).toList = '[' :: 'g' :: (green ++ ']' :: (['✓'] ++ '[' :: '/' :: ([] ++ ']' ::
      ([' '] ++ (path.toString.toList ++ ([' ', '→', ' '] ++ target.toString.toList)))))) := by
  have hopen : "[green]✓[/] ".toList =
      '[' :: 'g' :: ("reen".toList ++ ']' :: (['✓'] ++ '[' :: '/' :: ([] ++ ']' :: [' ']))) := by decide +kernel
  have harrow : " → ".toList = [' ', '→', ' '] := by decide +kernel
  have hline : writtenLine path target = "[green]✓[/] " ++ path.toString ++ " → " ++ target.toString := rfl
  refine ⟨"reen".toList, by decide +kernel, by decide +kernel, ?_⟩
  rw [hline, String.toList_append, String.toList_append, String.toList_append, hopen, harrow]
  generalize "reen".toList = green
  simp only [List.cons_append, List.append_assoc, List.nil_append]

/-- The plain console shows the line about a text that has been written, if no tag stands in its paths. -/
theorem plain_shows_writtenLine (hpath : IsPlain path.toString.toList) (htarget : IsPlain target.toString.toList) :
    Console.plain.Shows .err (writtenLine path target) := by
  obtain ⟨green, -, hgreen, hline⟩ := @writtenLine_toList path target
  have hplain : IsPlain ([' '] ++ (path.toString.toList ++ ([' ', '→', ' '] ++ target.toString.toList))) :=
    isPlain_append.mpr ⟨by decide, isPlain_append.mpr ⟨hpath, isPlain_append.mpr ⟨by decide, htarget⟩⟩⟩
  rw [Console.plain_shows_iff, hline, check_styled (by decide) (by decide) hgreen (by decide), check_end hplain]

/-- The plain console refuses the line about a text that has been written, if a tag in its path ends a
style. -/
theorem plain_refuses_writtenLine
    (hpath : path.toString.toList = before ++ '[' :: '/' :: (name ++ ']' :: behind))
    (hbefore : IsPlain before) (hname : IsWord name) (htrim : Text.trim name ≠ []) :
    Console.plain.line .err (writtenLine path target) =
      .error (notOpen ('[' :: '/' :: (name ++ [']'])) (12 + before.length)) := by
  obtain ⟨green, hlength, hgreen, hline⟩ := @writtenLine_toList path target
  apply Console.plain_line_eq_error
  rw [hline, hpath, check_styled (by decide) (by decide) hgreen (by decide), check_plain (by decide)]
  simp only [List.append_assoc, List.cons_append]
  rw [check_plain hbefore, check_notOpen hname htrim (by simp)]
  simp only [hlength, List.length_cons, List.length_nil]

end Command

end ShaderFlatten
