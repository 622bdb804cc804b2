import ShaderFlatten.Directive.Line
import ShaderFlatten.Text.Utf8
import ShaderFlatten.Tree.Fault

/-!
# Failures

A cause says what went wrong; its kind and its wording are functions of it.  A failure is a cause on its
way out: it keeps the innermost location and collects one diagnostic for each file that it leaves.

    Failure.report f path line    record that `f` leaves a file
-/

namespace ShaderFlatten

/-- The kinds of failure. -/
inductive Kind where
  | general
  | invalidPath
  | invalidFile
  | invalidImport
  | cyclicImport
  | invalidCondition
  | invalidConstant
  | malformedLine
  | mismatchedIf
  | cacheConflict
  | resource
  | importDepth
  deriving DecidableEq, Repr

namespace Kind

/-- The name of a kind. -/
def name : Kind → String
  | general => "PreprocessError"
  | invalidPath => "InvalidPath"
  | invalidFile => "InvalidFile"
  | invalidImport => "InvalidImport"
  | cyclicImport => "CyclicImport"
  | invalidCondition => "InvalidCondition"
  | invalidConstant => "InvalidConstant"
  | malformedLine => "SyntaxError"
  | mismatchedIf => "MismatchedIf"
  | cacheConflict => "CacheError"
  | resource => "ResourceError"
  | importDepth => "ImportDepth"

/-- What a failure of a kind says when it has nothing else to say. -/
def description : Kind → String
  | general => "Error occurred during preprocessing!"
  | invalidPath => "Invalid path!"
  | invalidFile => "Could not read file!"
  | invalidImport => "Invalid import!"
  | cyclicImport => "Cycle detected in imports!"
  | invalidCondition => "Unknown condition!"
  | invalidConstant => "Unknown or unrenderable constant!"
  | malformedLine => "Syntax error!"
  | mismatchedIf => "Mismatched #if/#else/#endif!"
  | cacheConflict => "Could not store processed shader in cache!"
  | resource => "Resource limit exceeded!"
  | importDepth => "Maximum import depth exceeded!"

/-- The kinds that stand for an exceeded limit. -/
def isResource : Kind → Bool
  | resource | importDepth => true
  | _ => false

end Kind

/-- What went wrong. -/
inductive Cause where
  | unresolvedPath (request : String) (fault : Fault)
  | tooLarge (path : String) (size : Nat) (limit : Int)
  | unreadable (fault : Fault)
  | notUtf8 (refusal : Utf8.Refusal)
  | malformedImport (mismatch : Mismatch)
  | unresolvedImport (path : Text) (fault : Fault)
  | cyclicImport (path : Text)
  | importTooDeep (path : Text) (limit : Int)
  | malformedDirective (kind : LineKind) (mismatch : Mismatch)
  | unknownCondition (name : Text)
  | strayElse
  | strayEndif
  | unclosedBlocks (count : Nat)
  | malformedPlaceholder (mismatch : Mismatch)
  | unknownConstant (name : Text)
  | unrenderable (typeName : String)
  | lineTooLong (limit : Int) (name : Text)
  | cacheConflict (key : String)
  deriving DecidableEq, Repr

namespace Cause

/-- The kind of failure that a cause leads to. -/
def kind : Cause → Kind
  | unresolvedPath .. => .invalidPath
  | tooLarge .. => .resource
  | unreadable .. | notUtf8 .. => .invalidFile
  | malformedImport .. | unresolvedImport .. => .invalidImport
  | cyclicImport .. => .cyclicImport
  | importTooDeep .. => .importDepth
  | malformedDirective .. | malformedPlaceholder .. | lineTooLong .. => .malformedLine
  | unknownCondition .. => .invalidCondition
  | strayElse | strayEndif | unclosedBlocks .. => .mismatchedIf
  | unknownConstant .. | unrenderable .. => .invalidConstant
  | cacheConflict .. => .cacheConflict

/-- A text between plain single quotes. -/
def inQuotes (t : Text) : String := "'" ++ String.ofList t ++ "'"

/-- The wording of a cause. -/
def message : Cause → String
  | unresolvedPath request fault => "Cannot resolve path '" ++ request ++ "': " ++ fault.message
  | tooLarge path size limit =>
    path ++ " is " ++ grouped size ++ " bytes (limit " ++ grouped limit ++ ")"
  | unreadable fault => "Cannot read file: " ++ fault.message
  | notUtf8 refusal => "File is not valid UTF-8: " ++ refusal.message
  | malformedImport mismatch => "Malformed import (" ++ mismatch.message ++ ")"
  | unresolvedImport path fault =>
    "Cannot resolve import " ++ inQuotes path ++ ": " ++ fault.message
  | cyclicImport path => inQuotes path ++ " is already being processed!"
  | importTooDeep path limit =>
    "Import of " ++ inQuotes path ++ " exceeds the maximum depth of " ++ decimal limit ++ "!"
  | malformedDirective kind mismatch =>
    "Malformed #" ++ kind.word ++ " directive (" ++ mismatch.message ++ ")"
  | unknownCondition name => "Unknown condition " ++ inQuotes name ++ "!"
  | strayElse => "#else without a matching #if!"
  | strayEndif => "#endif without a matching #if!"
  | unclosedBlocks count => decimal count ++ " #if block(s) not closed before end of file!"
  | malformedPlaceholder mismatch => "Malformed constant reference (" ++ mismatch.message ++ ")"
  | unknownConstant name => "Unknown constant " ++ inQuotes name ++ "!"
  | unrenderable typeName => "Cannot render constant of type " ++ typeName ++ "!"
  | lineTooLong limit name =>
    "Line exceeds " ++ decimal limit ++ " characters after substituting " ++ inQuotes name ++ "!"
  | cacheConflict key => "A different result is already cached for " ++ key ++ "!"

end Cause

/-- One report of a failure, with the position that it crossed. -/
structure Diagnostic where
  severity : String
  kind : String
  message : String
  path : String
  lineNumber : Option Nat
  lineText : Option Text
  deriving DecidableEq, Repr

/-- A diagnostic for a reader: the message, and where it arose on a line of its own. -/
def Diagnostic.format (d : Diagnostic) : String :=
  let place :=
    match d.lineNumber with
    | none => d.path
    | some n => d.path ++ " (line " ++ decimal n ++ ")"
  d.message ++ "\n" ++ place ++
    match d.lineText with
    | none => ""
    | some t => ": " ++ String.ofList t

/-- A failure with its innermost location and its reports so far, innermost first. -/
structure Failure where
  kind : Kind
  message : String
  path : Option String
  lineNumber : Option Nat
  lineText : Option Text
  trace : List Diagnostic
  deriving DecidableEq, Repr

namespace Failure

/-- A failure of a kind that has not been located; without a message it describes its kind. -/
def ofKind (kind : Kind) (message : String) : Failure :=
  ⟨kind, if message = "" then kind.description else message, none, none, none, []⟩

/-- A cause as a failure. -/
def ofCause (cause : Cause) : Failure := ofKind cause.kind cause.message

/-- Record where a failure arose, unless it is recorded already. -/
def locate (f : Failure) (path : String) (lineNumber : Option Nat) (lineText : Option Text) :
    Failure :=
  match f.path with
  | some _ => f
  | none => { f with path := some path, lineNumber, lineText }

/-- The report of a failure at a position. -/
def diagnostic (f : Failure) (path : String) (line : Option NumberedLine) : Diagnostic :=
  ⟨"error", f.kind.name, f.message, path, line.map (·.1), line.map (·.2)⟩

/-- Record that a failure leaves a file. -/
def report (f : Failure) (path : String) (line : Option NumberedLine) : Failure :=
  let located := f.locate path (line.map (·.1)) (line.map (·.2))
  { located with trace := located.trace ++ [f.diagnostic path line] }

end Failure

end ShaderFlatten
