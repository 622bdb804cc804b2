import ShaderFlatten.Text.Cell
import ShaderFlatten.Text.Markup

/-!
# The plain console

What markup shows is laid out in cells, and a tab goes on to the next multiple of eight.  Control
characters that would move the cursor are dropped.

    Console.plain    a console without colours, of any width
-/

namespace ShaderFlatten.Console

/-- Bell, backspace, vertical tab, form feed and carriage return are not shown. -/
def isDropped (c : Char) : Bool := [7, 8, 11, 12, 13].contains c.toNat

/-- The width of a tab. -/
def tabWidth : Nat := 8

/-- The parts of a line between its tabs, from a column on, each part but the last filled with spaces up to
the next multiple of the tab width.  The tab itself counts as one space, so that a joiner in front of
it hides that space. -/
def fillParts (column : Nat) : List Text → List Text
  | [] => []
  | [last] => [last]
  | part :: rest =>
    let shown := part ++ [' ']
    let reached := column + cellCount shown
    let missing := (tabWidth - reached % tabWidth) % tabWidth
    (shown ++ List.replicate missing ' ') :: fillParts (reached + missing) rest

/-- A line with its tabs replaced by spaces. -/
def expandLine (t : Text) : Text := (fillParts 0 (Text.split '\t' t)).flatten

/-- A text with its tabs replaced by spaces, line by line. -/
def expandTabs (t : Text) : Text := ['\n'].intercalate ((Text.lines t).map expandLine)

/-- A text as one line of the console. -/
def layOut (t : Text) : String := String.ofList (expandTabs (t.filter (!isDropped ·))) ++ "\n"

/-- The console without colours, on which no line is too long. -/
def plain : Console where
  escape := Markup.escape
  line _ s := (Markup.plain? s.toList).map layOut

end ShaderFlatten.Console
