/-!
# Consoles

A command shows its lines on a console, which reads them as markup: words in brackets set a style.  How it
lays a line out, and which markup it takes, is the console's own; a text is escaped before it is put into a
line, so that its brackets are shown.

    console.escape s          markup for the text `s`
    console.line stream s     what the console shows for the line of markup `s`, or why it cannot
-/

namespace ShaderFlatten

/-- What is wrong with markup that cannot be shown. -/
structure MarkupError where
  message : String
  deriving DecidableEq, Repr

/-- The two outputs of a command. -/
inductive Stream where
  | out
  | err
  deriving DecidableEq, Repr

/-- A console. -/
structure Console where
  escape : String → String
  line : Stream → String → Except MarkupError String

/-- A console takes a line. -/
def Console.Shows (console : Console) (stream : Stream) (line : String) : Prop :=
  ∃ shown, console.line stream line = .ok shown

end ShaderFlatten
