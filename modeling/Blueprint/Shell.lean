import Blueprint.FileSystem
import Blueprint.Path

/-!
# Shell scripts

A small shell for scripts that print a state: simple commands, one after the other or depending on
the success of the one before, with quotation marks and parameters. A script that uses anything else
is not understood. Commands print and read, but never change a file.
-/

namespace Blueprint.Shell

/-- A part of a word. -/
inductive Part where
  | char (c : Char)
  /-- A parameter, by the character after the dollar sign. -/
  | parameter (name : Char)
deriving DecidableEq, Repr

/-- A word of a command. -/
structure Word where
  parts : List Part := []
  /-- Whether any part of it was quoted; a word without quotes vanishes when it is empty. -/
  quoted : Bool := false
deriving DecidableEq, Repr, Inhabited

/-- How a command depends on the one before it. -/
inductive Link where
  | always
  | onSuccess
  | onFailure
deriving DecidableEq, Repr

/-- A piece of a script. -/
inductive Token where
  | word (w : Word)
  /-- The output of the command goes where errors go, which nobody reads. -/
  | silence
  | link (l : Link)
deriving DecidableEq, Repr

/-- A command of a script. -/
structure Command where
  link : Link
  words : List Word := []
  silent : Bool := false
deriving DecidableEq, Repr

/-- What surrounds a character of a script. -/
inductive Mode where
  | bare
  | single
  | double
  | comment
deriving DecidableEq, Repr

/-- The pieces that end with a word, if one has begun. -/
def close (word? : Option Word) (tokens : List Token) : List Token :=
  match word? with
  | some word => .word word :: tokens
  | none => tokens

/-- A word with one more part. -/
def extend (word? : Option Word) (part : Part) : Option Word :=
  let word := word?.getD {}
  some { word with parts := word.parts ++ [part] }

/-- A word that goes on with a quotation mark. -/
def quote (word? : Option Word) : Option Word :=
  some { word?.getD {} with quoted := true }

/-- Whether a character after a dollar sign names a parameter. -/
def isParameter (c : Char) : Bool :=
  c.isDigit || c ∈ ['#', '@', '*', '?']

/-- Characters that stand for parts of a shell that are missing here. -/
def isForeign (c : Char) : Bool :=
  c ∈ ['&', '|', '<', '>', '(', ')', '`']

/-- The pieces of a script; none where it is not understood. -/
def tokens? (mode : Mode) (word? : Option Word) : List Char → Option (List Token)
  | [] => if mode = .bare ∨ mode = .comment then some (close word? []) else none
  | c :: rest =>
    match mode with
    | .comment =>
      if c = '\n' then (tokens? .bare none rest).map (.link .always :: ·)
      else tokens? .comment none rest
    | .single =>
      if c = '\'' then tokens? .bare word? rest
      else tokens? .single (extend word? (.char c)) rest
    | .double =>
      match c, rest with
      | '"', rest => tokens? .bare word? rest
      | '\\', d :: rest =>
        -- A backslash stays unless what follows it has a meaning inside double quotes.
        if d ∈ ['$', '`', '"', '\\'] then tokens? .double (extend word? (.char d)) rest
        else tokens? .double (extend (extend word? (.char '\\')) (.char d)) rest
      | '$', d :: rest =>
        if isParameter d then tokens? .double (extend word? (.parameter d)) rest
        -- Variables and substitutions are not known here.
        else if d = '\x7b' ∨ d = '(' ∨ d.isAlpha ∨ d = '"' then none
        else tokens? .double (extend (extend word? (.char '$')) (.char d)) rest
      | '`', _ => none
      | c, rest => tokens? .double (extend word? (.char c)) rest
    | .bare =>
      match c, rest with
      | '\'', rest => tokens? .single (quote word?) rest
      | '"', rest => tokens? .double (quote word?) rest
      | '\\', d :: rest => tokens? .bare (extend (quote word?) (.char d)) rest
      | '$', d :: rest =>
        if isParameter d then tokens? .bare (extend word? (.parameter d)) rest else none
      | '>', '&' :: '2' :: rest => (tokens? .bare none rest).map (close word? <| .silence :: ·)
      | '&', '&' :: rest => (tokens? .bare none rest).map (close word? <| .link .onSuccess :: ·)
      | '|', '|' :: rest => (tokens? .bare none rest).map (close word? <| .link .onFailure :: ·)
      | c, rest =>
        if c = '\n' ∨ c = ';' then
          (tokens? .bare none rest).map (close word? <| .link .always :: ·)
        else if c = ' ' ∨ c = '\t' then (tokens? .bare none rest).map (close word?)
        -- Inside a word a hash starts no comment.
        else if c = '#' ∧ word?.isNone then tokens? .comment none rest
        else if isForeign c then none
        else tokens? .bare (extend word? (.char c)) rest

/-- The commands of a script after one that was begun. -/
def commands (current : Command) : List Token → List Command
  | [] => if current.words.isEmpty then [] else [current]
  | .word word :: rest => commands { current with words := current.words ++ [word] } rest
  | .silence :: rest => commands { current with silent := true } rest
  | .link link :: rest =>
    if current.words.isEmpty then commands current rest else current :: commands { link } rest

/-- Where a script runs, and how. -/
structure Context where
  files : FileSystem
  directory : String
  script : String
  arguments : List String

/-- What a script has done so far. -/
structure Progress where
  status : Nat := 0
  output : ByteArray := .empty
  /-- Whether the script has ended itself. -/
  ended : Bool := false

def parameter (context : Context) (status : Nat) (name : Char) : String :=
  if name = '#' then toString context.arguments.length
  else if name = '?' then toString status
  else if name = '@' ∨ name = '*' then String.intercalate " " context.arguments
  else if name = '0' then context.script
  else context.arguments.getD (name.toNat - '1'.toNat) ""

/-- A word with its parameters replaced; none where it vanishes. -/
def expand? (context : Context) (status : Nat) (word : Word) : Option String :=
  let text := String.join (word.parts.map fun
    | .char c => c.toString
    | .parameter name => parameter context status name)
  if text.isEmpty && !word.quoted then none else some text

/-- The character that a letter after a backslash stands for. -/
def escape? (c : Char) : Option Char :=
  [('\\', '\\'), ('n', '\n'), ('t', '\t'), ('r', '\r'), ('a', '\x07'), ('b', '\x08'),
    ('f', '\x0c'), ('v', '\x0b')].lookup c

def unescape : List Char → List Char
  | [] => []
  | '\\' :: c :: rest =>
    match escape? c with
    | some d => d :: unescape rest
    | none => '\\' :: c :: unescape rest
  | c :: rest => c :: unescape rest

/-- What is printed for the arguments of `echo`. -/
def echoText (arguments : List String) : String :=
  let (words, line) := match arguments with
    | "-n" :: words => (words, "")
    | words => (words, "\n")
  String.ofList (unescape (String.intercalate " " words).toList) ++ line

/-- What is printed for the format and the arguments of `printf`, and the arguments that are
left. -/
def formatOnce : List Char → List String → List Char × List String
  | [], arguments => ([], arguments)
  | '%' :: 's' :: rest, arguments =>
    let (text, left) := formatOnce rest arguments.tail
    ((arguments.head?.getD "").toList ++ text, left)
  | '%' :: '%' :: rest, arguments =>
    let (text, left) := formatOnce rest arguments
    ('%' :: text, left)
  | c :: rest, arguments =>
    let (text, left) := formatOnce rest arguments
    (c :: text, left)

/-- What is printed for a format that is used again while arguments are left. -/
def formatAll (format : List Char) : (rounds : Nat) → List String → List Char
  | 0, _ => []
  | rounds + 1, arguments =>
    let (text, left) := formatOnce format arguments
    -- A format that takes no argument would be used for ever.
    if left.isEmpty ∨ left.length = arguments.length then text
    else text ++ formatAll format rounds left

/-- The answer of `test` to its arguments: none where there is none. -/
def test? (context : Context) : List String → Option Bool
  | [] => some false
  | ["!"] => some true
  | "!" :: rest => (test? context rest).map (!·)
  | [text] => some (!text.isEmpty)
  | ["-n", text] => some (!text.isEmpty)
  | ["-z", text] => some text.isEmpty
  | ["-e", path] => some (context.files.contains (Path.join context.directory path))
  | ["-f", path] => some (context.files.isFile (Path.join context.directory path))
  | ["-d", path] => some (context.files.directory? (Path.join context.directory path)).isSome
  | [a, "=", b] => some (a == b)
  | [a, "!=", b] => some (a != b)
  | _ => none

/-- The status that an answer of `test` ends with. -/
def testStatus (answer? : Option Bool) : Nat :=
  match answer? with
  | some true => 0
  | some false => 1
  | none => 2

/-- The contents of the files that `cat` is given, and its status. -/
def concatenate (context : Context) : List String → ByteArray × Nat
  | [] => (.empty, 0)
  | path :: rest =>
    let (later, status) := concatenate context rest
    match context.files.read (Path.join context.directory path) with
    | .ok bytes => (bytes ++ later, status)
    | .error _ => (later, 1)

/-- Does a command with the given words. -/
def step (context : Context) (progress : Progress) (words : List String) : Progress :=
  match words with
  | [] => { progress with status := 0 }
  | command :: arguments =>
    match command with
    | "exit" =>
      let status := match arguments with
        | [] => progress.status
        | text :: _ => ((Text.natOfDigits? 10 text.toList).map (· % 256)).getD 2
      { progress with status, ended := true }
    | "true" | ":" => { progress with status := 0 }
    | "false" => { progress with status := 1 }
    | "echo" =>
      { progress with status := 0, output := progress.output ++ (echoText arguments).toUTF8 }
    | "printf" =>
      let text := formatAll (unescape (arguments.headD "").toList) (arguments.length + 1)
        arguments.tail
      { progress with
        status := if arguments.isEmpty then 2 else 0
        output := progress.output ++ (String.ofList text).toUTF8 }
    | "cat" =>
      let (bytes, status) := concatenate context arguments
      { progress with status, output := progress.output ++ bytes }
    | "test" => { progress with status := testStatus (test? context arguments) }
    | "[" =>
      let status :=
        if arguments.getLast? = some "]" then testStatus (test? context arguments.dropLast) else 2
      { progress with status }
    | _ => { progress with status := 127 }

/-- Whether a command is done after one that ended with a status. -/
def Link.holds (status : Nat) : Link → Bool
  | always => true
  | onSuccess => status == 0
  | onFailure => status != 0

/-- Does commands one after the other, until the script ends. -/
def runAll (context : Context) (progress : Progress) : List Command → Progress
  | [] => progress
  | command :: rest =>
    if progress.ended then progress
    else if command.link.holds progress.status then
      let words := command.words.filterMap (expand? context progress.status)
      let after := step context progress words
      runAll context (if command.silent then { after with output := progress.output } else after) rest
    else runAll context progress rest

/-- What a script prints, if it is there, is understood and succeeds. -/
def run? (files : FileSystem) (directory script : String) (arguments : List String) :
    Option ByteArray := do
  let text ← (files.readText (Path.join directory script)).toOption
  let tokens ← tokens? .bare none text.toList
  let context : Context := { files, directory, script, arguments }
  let progress := runAll context {} (commands { link := .always } tokens)
  if progress.status = 0 then some progress.output else none

end Blueprint.Shell
