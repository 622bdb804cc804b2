import ShaderFlatten.Console
import ShaderFlatten.Text.Blank
import ShaderFlatten.Text.LetterCase

/-!
# Console markup

A word in brackets is a tag, which sets a style and is not shown.  Backslashes before a tag come in
pairs, each standing for one backslash, and one that is left over makes the tag plain text.  Before any
other bracket a single backslash is dropped.  A tag with a slash ends a style, the last one or that of a
name, and there must be one.

    Markup.escape s    markup that shows `s`
    Markup.plain? t    what markup shows, or why it cannot be shown

Escaping doubles a single backslash at the end as well, so that a tag that follows stays a tag; where no
tag follows, both are shown.
-/

namespace ShaderFlatten

/-- A piece of markup: a character, or a tag with the number of backslashes before it. -/
inductive Markup where
  | char (c : Char)
  | tag (slashes : Nat) (word : Text)
  deriving DecidableEq, Repr

namespace Markup

/-- What may stand first in a tag. -/
def startsTag (c : Char) : Bool := c.isLower || c == '#' || c == '/' || c == '@'

/-- Neither bracket: what a tag consists of. -/
def inTag (c : Char) : Bool := c != ']' && c != '['

/-- A tag at the front of a text, with its brackets, and what follows it. -/
def tag? : Text → Option (Text × Text)
  | '[' :: first :: rest =>
    if startsTag first then
      match rest.dropWhile inTag with
      | ']' :: behind => some ('[' :: first :: rest.takeWhile inTag ++ [']'], behind)
      | _ => none
    else none
  | _ => none

/-- A tag takes at least one character. -/
theorem tag?_length_lt {t word behind : Text} (h : tag? t = some (word, behind)) :
    behind.length < t.length := by
  unfold tag? at h
  split at h
  next first rest =>
    split at h
    next =>
      split at h
      next last heq =>
        have hle := (List.dropWhile_suffix (l := rest) inTag).length_le
        simp only [Option.some.injEq, Prod.mk.injEq] at h
        rw [heq, List.length_cons, h.2] at hle
        simp only [List.length_cons]
        omega
      next => simp at h
    next => simp at h
  next => simp at h

/-- The number of backslashes at the front of a text. -/
def slashes (t : Text) : Nat := (t.takeWhile (· == '\\')).length

/-- The pieces of a text. -/
def parse (t : Text) : List Markup :=
  match t with
  | [] => []
  | c :: rest =>
    match _h : tag? ((c :: rest).drop (slashes (c :: rest))) with
    | some (word, behind) => .tag (slashes (c :: rest)) word :: parse behind
    | none => .char c :: parse rest
termination_by t.length
decreasing_by
  · have := tag?_length_lt _h
    simp only [List.length_drop] at this
    omega
  · simp

/-- What pieces of markup show. -/
def render : List Markup → Text
  | .char '\\' :: .char '[' :: rest => '[' :: render rest
  | .char c :: rest => c :: render rest
  | .tag n word :: rest =>
    List.replicate (n / 2) '\\' ++ (if n % 2 = 1 then word else []) ++ render rest
  | [] => []

/-- What a tag says: its name, up to an equals sign. -/
def tagName (word : Text) : Text := (word.drop 1).dropLast.takeWhile (· != '=')

/-- The name of a style, however a tag writes it. -/
def styleName (name : Text) : Text := Text.lower (Text.trim name)

/-- A tag ends a style, and none is open. -/
def nothingOpen (position : Nat) : MarkupError :=
  ⟨"closing tag '[/]' at position " ++ decimal position ++ " has nothing to close"⟩

/-- A tag ends a style that is not open. -/
def notOpen (word : Text) (position : Nat) : MarkupError :=
  ⟨"closing tag '" ++ String.ofList word ++ "' at position " ++ decimal position
    ++ " doesn't match any open tag"⟩

/-- The styles that are open behind a tag at a position. -/
def close (position : Nat) (word : Text) (opened : List Text) : Except MarkupError (List Text) :=
  match tagName word with
  | '/' :: name =>
    if Text.trim name = [] then
      match opened with
      | [] => .error (nothingOpen position)
      | _ :: outer => .ok outer
    else if opened.contains (styleName name) then .ok (opened.erase (styleName name))
    else .error (notOpen word position)
  | name => .ok (styleName name :: opened)

/-- Check that every tag with a slash ends a style that is open, the innermost first in `opened`. -/
def check (position : Nat) (opened : List Text) : List Markup → Except MarkupError Unit
  | [] => .ok ()
  | .char _ :: rest => check (position + 1) opened rest
  | .tag n word :: rest => do
    let opened ← if n % 2 = 1 then pure opened else close (position + n) word opened
    check (position + n + word.length) opened rest

/-- What markup shows. -/
def plain? (t : Text) : Except MarkupError Text := do
  let pieces := parse t
  check 0 [] pieces
  return render pieces

/-- A piece written so that its tag is plain text. -/
def escapePiece : Markup → Text
  | .char c => [c]
  | .tag n word => List.replicate (2 * n + 1) '\\' ++ word

/-- Markup that shows a text. -/
def escape (s : String) : String :=
  let escaped := (parse s.toList).flatMap escapePiece
  String.ofList (if slashes escaped.reverse = 1 then escaped ++ ['\\'] else escaped)

end Markup

end ShaderFlatten
