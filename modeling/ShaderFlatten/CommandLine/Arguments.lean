import ShaderFlatten.Engine.Limits
import ShaderFlatten.Number.Numeral
import ShaderFlatten.Text.Quoted
import ShaderFlatten.Tree.Path

/-!
# Arguments

Words of the command line are options, values of options, or shaders.  A long option may be shortened as
long as it is told apart; a value may follow in the next word, behind an equals sign, or directly behind
a short option; short options without values may be written together.  After `--` all words are shaders.
Only one group of shaders is taken.  An option whose attached value is `--` is given without a value.

    Arguments.parse words    what the words ask for, or why they are refused
-/

namespace ShaderFlatten

/-- The options. -/
inductive Switch where
  | help
  | dir
  | cond
  | const
  | optionsFile
  | maxDepth
  | output
  | outDir
  | format
  | scan
  | env
  | verbose
  deriving DecidableEq, Repr

namespace Switch

/-- Every spelling of an option, in the order in which messages list them. -/
def spellings : List (String × Switch) :=
  [("-h", help), ("--help", help), ("--dir", dir), ("--cond", cond), ("--const", const),
    ("--options-file", optionsFile), ("--max-depth", maxDepth), ("-o", output), ("--output", output),
    ("--out-dir", outDir), ("--format", format), ("--scan", scan), ("--env", env), ("-v", verbose),
    ("--verbose", verbose)]

/-- The option of a spelling. -/
def ofSpelling? (word : String) : Option Switch := spellings.lookup word

/-- An option as messages name it: all its spellings. -/
def name (s : Switch) : String :=
  "/".intercalate ((spellings.filter (·.2 = s)).map (·.1))

/-- The option takes a value. -/
def takesValue : Switch → Bool
  | help | scan | env | verbose => false
  | _ => true

end Switch

/-- How results are written; an option without a value asks for no format. -/
inductive Format where
  | text
  | json
  | unset
  deriving DecidableEq, Repr

/-- What the command line asks for.  Nothing in a list stands for an option without a value. -/
structure Arguments where
  shaders : List Path
  dirs : List (Option Path)
  conds : List (Option String)
  consts : List (Option String)
  optionsFile : Option Path
  maxDepth : Option Depth
  output : Option Path
  outDir : Option Path
  format : Format
  scan : Bool
  env : Bool
  verbose : Bool
  deriving DecidableEq, Repr

/-- Why the words are not carried out. -/
inductive ArgumentStop where
  /-- they ask for help -/
  | help
  /-- they are refused with a message -/
  | refused (message : String)
  deriving DecidableEq, Repr

namespace Arguments

/-- Nothing is asked for. -/
def none : Arguments :=
  ⟨[], [], [], [], .none, .none, .none, .none, .text, false, false, false⟩

/-- Results are written as JSON. -/
def json (a : Arguments) : Bool := a.format = .json

/-- A message about an option. -/
def refuse {α : Type} (s : Switch) (message : String) : Except ArgumentStop α :=
  .error (.refused ("argument " ++ s.name ++ ": " ++ message))

/-- Set an option that takes a value to a word. -/
def setWord (a : Arguments) (s : Switch) (word : String) : Except ArgumentStop Arguments :=
  match s with
  | .dir => .ok { a with dirs := a.dirs ++ [some (.ofString word)] }
  | .cond => .ok { a with conds := a.conds ++ [some word] }
  | .const => .ok { a with consts := a.consts ++ [some word] }
  | .optionsFile => .ok { a with optionsFile := some (.ofString word) }
  | .maxDepth =>
    match Numeral.int? word.toList with
    | some n => .ok { a with maxDepth := some (.levels n) }
    | .none => refuse s ("invalid int value: " ++ quoted word)
  | .output => .ok { a with output := some (.ofString word) }
  | .outDir => .ok { a with outDir := some (.ofString word) }
  | .format =>
    if word = "text" then .ok { a with format := .text }
    else if word = "json" then .ok { a with format := .json }
    else refuse s ("invalid choice: " ++ quoted word ++ " (choose from 'text', 'json')")
  | .help | .scan | .env | .verbose => .ok a

/-- Set an option that takes a value to none. -/
def setNothing (a : Arguments) (s : Switch) : Arguments :=
  match s with
  | .dir => { a with dirs := a.dirs ++ [.none] }
  | .cond => { a with conds := a.conds ++ [.none] }
  | .const => { a with consts := a.consts ++ [.none] }
  | .optionsFile => { a with optionsFile := .none }
  | .maxDepth => { a with maxDepth := some .emptied }
  | .output => { a with output := .none }
  | .outDir => { a with outDir := .none }
  | .format => { a with format := .unset }
  | .help | .scan | .env | .verbose => a

/-- The mark after which all words are shaders. -/
def dividerWord : String := "--"

/-- Set an option that takes a value. -/
def setValue (a : Arguments) (s : Switch) (word : String) : Except ArgumentStop Arguments :=
  if word = dividerWord then .ok (a.setNothing s) else a.setWord s word

/-- Set an option that takes no value; the one for help ends everything. -/
def setFlag (a : Arguments) (s : Switch) : Except ArgumentStop Arguments :=
  match s with
  | .help => .error .help
  | .scan => .ok { a with scan := true }
  | .env => .ok { a with env := true }
  | .verbose => .ok { a with verbose := true }
  | _ => .ok a

/-! ## Words -/

/-- How a word of the command line is read. -/
inductive Word where
  /-- a shader, or the value of an option -/
  | plain (word : String)
  /-- the mark after which all words are plain -/
  | divider
  /-- an option, spelled with one dash or with two; `attached` is what stands behind it in the word -/
  | option (word : String) (s : Switch) (short : Bool) (attached : Option String)
  /-- what looks like an option but is none -/
  | unknown (word : String)
  deriving DecidableEq, Repr

/-- The parts of a word before and behind its first equals sign. -/
def splitEquals (word : String) : String × Option String :=
  let chars := word.toList
  let front := chars.takeWhile (· != '=')
  match chars.drop front.length with
  | [] => (word, .none)
  | _ :: behind => (String.ofList front, some (String.ofList behind))

/-- A short option has a single dash. -/
def isShort (spelling : String) : Bool := spelling.toList.getD 1 '-' != '-'

/-- A decimal digit of any script. -/
def isAnyDigit (c : Char) : Bool := (Text.digitValue? c).isSome

/-- A negative number: a minus sign, digits, and perhaps a point with digits behind it. -/
def isNegativeNumber (word : String) : Bool :=
  let chars := word.toList
  let chars := if chars.getLast? = some '\n' then chars.dropLast else chars
  match chars with
  | '-' :: rest =>
    match rest.dropWhile isAnyDigit with
    | [] => !rest.isEmpty
    | '.' :: fraction => !fraction.isEmpty && fraction.all isAnyDigit
    | _ => false
  | _ => false

/-- The options that a word of two dashes shortens, by their spellings. -/
def shortened (front : String) : List (String × Switch) :=
  Switch.spellings.filter fun (spelling, _) => front.toList.isPrefixOf spelling.toList

/-- Read a word that starts with a dash and is no exact spelling of an option. -/
def readLoose (word : String) : Except ArgumentStop Word :=
  let other : Word :=
    if isNegativeNumber word || word.toList.contains ' ' then .plain word else .unknown word
  match word.toList with
  | '-' :: '-' :: _ =>
    let (front, attached) := splitEquals word
    match shortened front with
    | [] => .ok other
    | [(spelling, s)] => .ok (.option word s (isShort spelling) attached)
    | several =>
      .error (.refused ("ambiguous option: " ++ word ++ " could match "
        ++ ", ".intercalate (several.map (·.1))))
  | '-' :: letter :: rest =>
    match Switch.ofSpelling? (String.ofList ['-', letter]) with
    | some s => .ok (.option word s true (some (String.ofList rest)))
    | .none => .ok other
  | _ => .ok (.plain word)

/-- Read a word on its own. -/
def readWord (word : String) : Except ArgumentStop Word :=
  if word.toList.head? != some '-' then .ok (.plain word)
  else
    match Switch.ofSpelling? word with
    | some s => .ok (.option word s (isShort word) .none)
    | .none =>
      if word = "-" then .ok (.plain word)
      else
        match splitEquals word with
        | (front, some value) =>
          match Switch.ofSpelling? front with
          | some s => .ok (.option word s (isShort front) (some value))
          | .none => readLoose word
        | (_, .none) => readLoose word

/-- Read all words; those after the divider are plain. -/
def readWords : List String → Except ArgumentStop (List Word)
  | [] => .ok []
  | word :: rest =>
    if word = dividerWord then .ok (.divider :: rest.map .plain)
    else do
      let first ← readWord word
      return first :: (← readWords rest)

/-! ## Meaning -/

/-- The state of the reader: what is asked for so far, whether the shaders have been taken, and the
words that nothing takes. -/
structure State where
  result : Arguments
  taken : Bool
  extras : List String

/-- A word that is no option. -/
def isPlain : Word → Bool
  | .plain _ | .divider => true
  | _ => false

/-- The text of a word. -/
def Word.text : Word → String
  | .plain word | .unknown word => word
  | .divider => dividerWord
  | .option word .. => word

/-- The shaders of a group of words: the first divider is none. -/
def groupShaders (group : List Word) : List Path :=
  ((group.map Word.text).erase dividerWord).map Path.ofString

/-- Take a group of words that are no options: the first group are the shaders. -/
def takeGroup (st : State) (group : List Word) : State :=
  if st.taken then { st with extras := st.extras ++ group.map Word.text }
  else { st with taken := true, result := { st.result with shaders := groupShaders group } }

/-- A refused value of an option that takes none. -/
def ignoredValue {α : Type} (s : Switch) (value : String) : Except ArgumentStop α :=
  refuse s ("ignored explicit argument " ++ quoted value)

/-- Short options written together: the options without values in front, and the last one with what stands
behind it.  A letter that is no option cannot stand behind an option without a value. -/
def unfold (fuel : Nat) (s : Switch) (short : Bool) (attached : Option String) (done : List Switch) :
    Except ArgumentStop (List Switch × Switch × Option String) :=
  match fuel, attached with
  | fuel + 1, some value =>
    if s.takesValue then .ok (done, s, some value)
    else
      match short, value.toList with
      | true, letter :: rest =>
        match Switch.ofSpelling? (String.ofList ['-', letter]) with
        | some next =>
          let behind := if rest.isEmpty then .none else some (String.ofList rest)
          unfold fuel next true behind (done ++ [s])
        | .none => ignoredValue s value
      | _, _ => ignoredValue s value
  | _, _ => .ok (done, s, attached)

/-- Set options without values, one after the other. -/
def setFlags (a : Arguments) (flags : List Switch) : Except ArgumentStop Arguments :=
  flags.foldlM setFlag a

/-- Take an option with the value attached to it or, if there is none, with the next word, and give the words
behind. -/
def takeOption (a : Arguments) (s : Switch) (short : Bool) (attached : Option String)
    (rest : List Word) : Except ArgumentStop (Arguments × List Word) := do
  let (flags, s, attached) ← unfold ((attached.getD "").length + 1) s short attached []
  if s.takesValue then
    match attached, rest with
    | some value, _ => return (← setValue (← setFlags a flags) s value, rest)
    | .none, .plain value :: rest => return (← setValue (← setFlags a flags) s value, rest)
    | .none, _ => refuse s "expected one argument"
  else return (← setFlag (← setFlags a flags) s, rest)

/-- Take all words; `fuel` exceeds their number. -/
def takeWords (fuel : Nat) (st : State) (words : List Word) : Except ArgumentStop State :=
  match fuel, words with
  | fuel + 1, first :: rest =>
    match first with
    | .option _ s short attached => do
      let (result, rest) ← takeOption st.result s short attached rest
      takeWords fuel { st with result } rest
    | .unknown word => takeWords fuel { st with extras := st.extras ++ [word] } rest
    | _ =>
      takeWords fuel (takeGroup st (words.takeWhile isPlain)) (words.dropWhile isPlain)
  | _, _ => .ok st

/-- What the words of a command line ask for. -/
def parse (words : List String) : Except ArgumentStop Arguments := do
  let words ← readWords words
  let st ← takeWords (words.length + 1) ⟨none, false, []⟩ words
  if st.extras.isEmpty then return st.result
  else throw (.refused ("unrecognized arguments: " ++ " ".intercalate st.extras))

end Arguments

end ShaderFlatten
