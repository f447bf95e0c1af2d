import BoardWiring.Log.Level
import BoardWiring.Text.DecimalDigit
import BoardWiring.Text.Pieces
import BoardWiring.Text.Quoted

/-!
# Command line arguments

The command takes the path of a description, and options for the output and the log level.  A
long option may be cut short as long as it stays unique, a value may be attached to its option,
and all words behind a double dash are no options.

* `Arguments.read` reads the words of a command line; `Complaint.text` says what is wrong with
  them.
-/

namespace BoardWiring

namespace Command

/-- An option. -/
inductive Flag where
  | help
  | output
  | logLevel
  deriving DecidableEq, Inhabited

/-- What a command line asks for. -/
structure Request where
  /-- Path of the description. -/
  input : String
  /-- Path of the output, standard output if missing or empty. -/
  output : Option String
  /-- Name of the log level, nothing if the option has lost its value. -/
  level : Option String
  deriving DecidableEq, Inhabited

/-- What is wrong with a command line. -/
inductive Complaint where
  | ambiguous (word : String) (matching : List String)
  | noValue (flag : Flag)
  | needlessValue (flag : Flag) (value : String)
  | noInput
  | unrecognized (words : List String)
  deriving Inhabited

/-- Why a command line is not carried out. -/
inductive Refusal where
  | help
  | complaint (c : Complaint)
  deriving Inhabited

namespace Flag

/-- The options by their spellings, in the order in which they are compared. -/
def spellings : List (String × Flag) :=
  [("-h", .help), ("--help", .help), ("-o", .output), ("--output", .output),
   ("--log-level", .logLevel)]

/-- All spellings of an option. -/
def name (f : Flag) : String :=
  String.intercalate "/" ((spellings.filter fun s => s.2 == f).map Prod.fst)

/-- The option with a spelling. -/
def ofSpelling? (s : String) : Option Flag := spellings.lookup s

end Flag

/-- What is wrong, in words. -/
def Complaint.text : Complaint → String
  | .ambiguous word matching =>
    "ambiguous option: " ++ word ++ " could match " ++ String.intercalate ", " matching
  | .noValue flag => "argument " ++ flag.name ++ ": expected one argument"
  | .needlessValue flag value =>
    "argument " ++ flag.name ++ ": ignored explicit argument " ++ Quoted.text value
  | .noInput => "the following arguments are required: yaml"
  | .unrecognized words => "unrecognized arguments: " ++ String.intercalate " " words

/-! ### Words -/

/-- How an option is spelled. -/
inductive Spelling where
  | short
  | long
  deriving DecidableEq, Inhabited

/-- A word of a command line; a value may be attached to an option. -/
inductive Word where
  | plain (text : String)
  | separator
  | option (flag : Flag) (spelling : Spelling) (attached : Option String) (text : String)
  | unknown (text : String)
  deriving Inhabited

namespace Word

/-- The word as it was written. -/
def text : Word → String
  | .plain s => s
  | .separator => "--"
  | .option _ _ _ s => s
  | .unknown s => s

/-- The word is an option, known or not. -/
def isOption : Word → Bool
  | .option .. | .unknown _ => true
  | _ => false

/-- A negative number, which is no option. -/
def isNegative (cs : List Char) : Bool :=
  let cs := if cs.getLast? = some '\n' then cs.dropLast else cs
  match cs with
  | '-' :: ds =>
    let whole := ds.takeWhile Text.isDecimalDigit
    match ds.dropWhile Text.isDecimalDigit with
    | [] => !whole.isEmpty
    | '.' :: fs => !fs.isEmpty && fs.all Text.isDecimalDigit
    | _ => false
  | _ => false

/-- What stands before and behind the first equals sign. -/
def cutAtEquals? (cs : List Char) : Option (List Char × List Char) :=
  if '=' ∈ cs then some (cs.takeWhile (· != '='), (cs.dropWhile (· != '=')).drop 1) else none

/-- The spelling of an option that begins with a dash. -/
def spellingOf : List Char → Spelling
  | _ :: '-' :: _ => .long
  | _ => .short

/-- The options that a word which begins with a dash may stand for: their spellings, and the value
attached. -/
def matching (cs : List Char) : List (String × Flag × Option String) :=
  match spellingOf cs with
  | .long =>
    let stem := ((cutAtEquals? cs).map Prod.fst).getD cs
    let value := (cutAtEquals? cs).map fun p => String.ofList p.2
    (Flag.spellings.filter fun s => stem.isPrefixOf s.1.toList).map fun s => (s.1, s.2, value)
  | .short =>
    (Flag.spellings.filter fun s => s.1.toList == cs.take 2).map fun s =>
      (s.1, s.2, some (String.ofList (cs.drop 2)))

/-- The option that a word is, its value attached by an equals sign. -/
def withEquals? (s : String) : Option Word := do
  let (stem, value) ← cutAtEquals? s.toList
  let flag ← Flag.ofSpelling? (String.ofList stem)
  some (.option flag (spellingOf stem) (some (String.ofList value)) s)

/-- A word that is not behind a double dash and is none itself. -/
def ofText (s : String) : Except Complaint Word :=
  let cs := s.toList
  match cs with
  | '-' :: _ :: _ =>
    match Flag.ofSpelling? s, withEquals? s with
    | some flag, _ => .ok (.option flag (spellingOf cs) none s)
    | none, some w => .ok w
    | none, none =>
      match matching cs with
      | [(_, flag, value)] => .ok (.option flag (spellingOf cs) value s)
      | [] =>
        if isNegative cs || cs.contains ' ' then .ok (.plain s) else .ok (.unknown s)
      | found => .error (.ambiguous s (found.map Prod.fst))
  | _ => .ok (.plain s)

/-- The words of a command line. -/
def ofTexts : List String → Except Complaint (List Word)
  | [] => .ok []
  | s :: ss =>
    if s = "--" then .ok (.separator :: ss.map Word.plain)
    else do
      let w ← ofText s
      let ws ← ofTexts ss
      pure (w :: ws)

end Word

/-! ### Reading -/

namespace Arguments

/-- What has been read. -/
structure Found where
  /-- Path of the description. -/
  input : Option String
  /-- Path of the output. -/
  output : Option String
  /-- Name of the log level. -/
  level : Option String
  /-- Words that are not understood. -/
  unread : List String

/-- Nothing has been read. -/
def Found.none : Found := ⟨.none, .none, some Log.Level.defaultName, []⟩

/-- Gives an option its value. -/
def Found.withValue (f : Found) (flag : Flag) (value : Option String) : Found :=
  match flag with
  | .output => { f with output := value }
  | .logLevel => { f with level := value }
  | .help => f

/-- The value that an attached text is.  A double dash is dropped and leaves none, as it was in
earlier releases of such parsers; later ones keep it. -/
def attachedValue (s : String) : Option String := if s = "--" then none else some s

/-- Adds words that are not understood. -/
def Found.withUnread (f : Found) (ws : List Word) : Found :=
  { f with unread := f.unread ++ ws.map Word.text }

/-- Takes the path of the description, with a double dash before or behind it. -/
def takeInput (f : Found) (ws : List Word) : Found × List Word :=
  match f.input, ws with
  | .none, .plain s :: .separator :: ws => ({ f with input := some s }, ws)
  | .none, .plain s :: ws => ({ f with input := some s }, ws)
  | .none, .separator :: .plain s :: ws => ({ f with input := some s }, ws)
  | _, ws => (f, ws)

/-- Asks for help.  Further short options may be attached to a short one, and they are looked at
first. -/
def help (next : List Word) : Nat → Spelling → Option String → Refusal
  | 0, _, _ => .help
  | fuel + 1, spelling, attached =>
    match attached with
    | none => .help
    | some value =>
      match spelling, value.toList with
      | .short, c :: cs =>
        let more := if cs.isEmpty then none else some (String.ofList cs)
        match Flag.ofSpelling? (String.ofList ['-', c]), more, next with
        | some .help, _, _ => help next fuel .short more
        | some _, none, .plain _ :: _ => .help
        | some flag, none, _ => .complaint (.noValue flag)
        | some _, some _, _ => .help
        | none, _, _ => .complaint (.needlessValue .help value)
      | _, _ => .complaint (.needlessValue .help value)

/-- Reads an option, and the word behind it if that is its value. -/
def takeOption (f : Found) (w : Word) (ws : List Word) : Except Refusal (Found × List Word) :=
  match w with
  | .option .help spelling attached s => .error (help ws (s.length + 1) spelling attached)
  | .option flag _ (some value) _ => .ok (f.withValue flag (attachedValue value), ws)
  | .option flag _ none _ =>
    match ws with
    | .plain value :: ws => .ok (f.withValue flag (some value), ws)
    | _ => .error (.complaint (.noValue flag))
  | w => .ok (f.withUnread [w], ws)

/-- Reads words, `fuel` steps at most. -/
def readWords : Nat → Found → List Word → Except Refusal Found
  | 0, f, _ => .ok f
  | fuel + 1, f, ws =>
    if ws.any Word.isOption then
      match ws with
      | [] => .ok f
      | w :: rest =>
        if w.isOption then do
          let (f, ws) ← takeOption f w rest
          readWords fuel f ws
        else
          let (g, left) := takeInput f ws
          if left.length < ws.length then readWords fuel g left
          else
            readWords fuel (f.withUnread (ws.takeWhile fun w => !w.isOption))
              (ws.dropWhile fun w => !w.isOption)
    else
      let (f, left) := takeInput f ws
      .ok (f.withUnread left)

/-- What a command line asks for. -/
def read (argv : List String) : Except Refusal Request :=
  match Word.ofTexts argv with
  | .error c => .error (.complaint c)
  | .ok ws => do
    let f ← readWords (ws.length + 1) .none ws
    match f.input with
    | none => .error (.complaint .noInput)
    | some input =>
      if f.unread.isEmpty then pure ⟨input, f.output, f.level⟩
      else .error (.complaint (.unrecognized f.unread))

end Arguments

/-! ### Texts -/

/-- The line that says how the command is used. -/
def usage : String :=
  "usage: __main__.py [-h] [-o OUTPUT] [--log-level LOG_LEVEL] yaml\n"

/-- The text that explains the command. -/
def helpText : String :=
  usage ++
    "\nkeyboard board configuration compiler\n" ++
    "\npositional arguments:\n" ++
    "  yaml                  Input board .yaml file\n" ++
    "\noptions:\n" ++
    "  -h, --help            show this help message and exit\n" ++
    "  -o OUTPUT, --output OUTPUT\n" ++
    "                        Output .rs file (default: stdout)\n" ++
    "  --log-level LOG_LEVEL\n" ++
    "                        Log level (DEBUG, INFO, WARNING, ERROR)\n"

/-- The text that says what is wrong with a command line. -/
def complaintText (c : Complaint) : String := usage ++ "__main__.py: error: " ++ c.text ++ "\n"

end Command

end BoardWiring
