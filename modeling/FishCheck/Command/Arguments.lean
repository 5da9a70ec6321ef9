import FishCheck.Text.Basic

/-!
# Command lines

A command line names one command, with options of its own and options that all commands
share; the shared ones may stand on either side of the command's name, and the later
side wins. On each side an option comes at most once. A command line that does not fit
is a usage error.
-/

namespace FishCheck

/-- Options that all commands share. -/
structure SharedOptions where
  config : Option Text := none
  checker : Option Text := none
  formatter : Option Text := none
  timeout : Option Nat := none
  verbose : Bool := false
deriving DecidableEq, Repr

/-- What a command line asks for. -/
inductive Request
  | check (paths : List Text) (quiet : Bool)
  | format (paths : List Text) (check fromInput : Bool)
  | serve (port : Option Nat) (stdio : Bool)
  | version
  /-- Only the version of this program is asked for. -/
  | ownVersion
  /-- Only help is asked for. -/
  | help
deriving DecidableEq, Repr

namespace Arguments

/-! ## Options -/

/-- An option by its names, and whether it takes a value. -/
structure Choice where
  long : Text
  short : Option Char
  takesValue : Bool
deriving DecidableEq, Repr

/-- Makes an option. -/
def option (long : String) (short : Option Char) (takesValue : Bool) : Choice :=
  ⟨long.toList, short, takesValue⟩

/-- The options that all commands share. -/
def shared : List Choice :=
  [option "config" (some 'c') true, option "checker" none true, option "formatter" none true,
    option "timeout" none true, option "verbose" (some 'v') false, option "help" (some 'h') false]

/-- The options in front of the command's name. -/
def frontOptions : List Choice := shared ++ [option "version" (some 'V') false]

/-- The options of a command and whether it takes paths; nothing for an unknown name. -/
def commandOptions? (name : Text) : Option (List Choice × Bool) :=
  match String.ofList name with
  | "check" => some (shared ++ [option "quiet" (some 'q') false], true)
  | "fmt" => some (shared ++ [option "check" none false, option "stdin" none false], true)
  | "server" => some (shared ++ [option "port" none true, option "stdio" none false], false)
  | "version" => some (shared, false)
  | _ => none

/-! ## Words -/

/-- What was read on one side of the command's name. -/
structure Side where
  /-- The options given, with their values. -/
  given : List (Text × Text) := []
  /-- The words that are no options. -/
  words : List Text := []
deriving DecidableEq, Repr

/-- Whether a word is an option or ends the options; a lone hyphen does not. -/
def isFlag (w : Text) : Bool := w.head? == some '-' && w != ['-']

/-- Reads a whole number up to a bound; a plus sign may precede it. -/
def boundedNumber? (bound : Nat) (t : Text) : Option Nat :=
  let digits := if t.head? = some '+' then t.drop 1 else t
  (Text.natural? digits).filter (· ≤ bound)

/-- Whether a value fits an option. -/
def fits (name value : Text) : Bool :=
  if name = "timeout" then (boundedNumber? 18446744073709551615 value).isSome
  else if name = "port" then (boundedNumber? 65535 value).isSome
  else true

/-- Adds an option to a side; it has to be new there and its value has to fit. -/
def Side.add (s : Side) (name value : Text) : Option Side :=
  if (s.given.lookup name).isSome || !fits name value then none
  else some { s with given := s.given ++ [(name, value)] }

/-- Whether a side asks for something that ends the reading at once. -/
def Side.early? (s : Side) : Option Request :=
  if (s.given.lookup "help".toList).isSome then some .help
  else if (s.given.lookup "version".toList).isSome then some .ownVersion
  else none

/-- Takes a cluster of short options: the side, and the words left. The last one may take
its value from the rest of the cluster or from the next word. -/
def takeShort (options : List Choice) (s : Side) : Text → List Text → Option (Side × List Text)
  | [], rest => some (s, rest)
  | c :: cs, rest =>
    match options.find? fun o => o.short == some c with
    | none => none
    | some o =>
      if o.takesValue then
        match cs, rest with
        | [], value :: rest =>
          if isFlag value then none else (s.add o.long value).map fun s => (s, rest)
        | [], [] => none
        | '=' :: value, rest => (s.add o.long value).map fun s => (s, rest)
        | value, rest => (s.add o.long value).map fun s => (s, rest)
      else (s.add o.long []).bind fun s =>
        if s.early?.isSome then some (s, rest) else takeShort options s cs rest

/-- Takes a long option: the side, and the words left. -/
def takeLong (options : List Choice) (s : Side) (w : Text) (rest : List Text) :
    Option (Side × List Text) :=
  let name := w.takeWhile (· ≠ '=')
  let attached := (w.dropWhile (· ≠ '=')).tail?
  match options.find? fun o => o.long = name with
  | none => none
  | some o =>
    match o.takesValue, attached, rest with
    | true, some value, rest => (s.add o.long value).map fun s => (s, rest)
    | true, none, value :: rest =>
      if isFlag value then none else (s.add o.long value).map fun s => (s, rest)
    | true, none, [] => none
    | false, some _, _ => none
    | false, none, rest => (s.add o.long []).map fun s => (s, rest)

/-! ## Sides -/

/-- How the reading of one side ends. -/
inductive Ending
  | error
  | early (r : Request)
  /-- All words are read. -/
  | done (s : Side)
  /-- A word that is no option comes in front of the command, with the words after it. -/
  | word (s : Side) (w : Text) (rest : List Text)

/-- Reads one side; `stops` says whether the first word that is no option ends it. Fuel is
the number of words. -/
def readSide (options : List Choice) (stops : Bool) : Nat → Side → List Text → Ending
  | 0, s, _ => .done s
  | _, s, [] => .done s
  | fuel + 1, s, w :: rest =>
    let next (found : Option (Side × List Text)) : Ending :=
      match found with
      | none => .error
      | some (s, rest) =>
        match s.early? with
        | some r => .early r
        | none => readSide options stops fuel s rest
    match w with
    | ['-', '-'] => if stops then .error else .done { s with words := s.words ++ rest }
    | '-' :: '-' :: name => next (takeLong options s name rest)
    | '-' :: c :: cs => next (takeShort options s (c :: cs) rest)
    | w =>
      if stops then .word s w rest
      else readSide options stops fuel { s with words := s.words ++ [w] } rest

/-- The shared options of both sides; the side after the command's name wins. -/
def sharedOf (front back : Side) : SharedOptions :=
  let value (name : String) : Option Text :=
    back.given.lookup name.toList <|> front.given.lookup name.toList
  { config := value "config"
    checker := value "checker"
    formatter := value "formatter"
    timeout := (value "timeout").bind (boundedNumber? 18446744073709551615)
    verbose := (value "verbose").isSome }

/-- The paths of a command: the working directory when none are named. -/
def pathsOf (s : Side) : List Text := if s.words.isEmpty then [['.']] else s.words

/-- The request that a command's side makes. -/
def requestOf? (name : Text) (s : Side) : Option Request :=
  let has (o : String) : Bool := (s.given.lookup o.toList).isSome
  match String.ofList name with
  | "check" => some (.check (pathsOf s) (has "quiet"))
  | "fmt" =>
    if has "check" && has "stdin" then none
    else some (.format (pathsOf s) (has "check") (has "stdin"))
  | "server" =>
    some (.serve ((s.given.lookup "port".toList).bind (boundedNumber? 65535)) (has "stdio"))
  | "version" => some .version
  | _ => none

/-- Reads a command line; nothing when it does not fit. -/
def parse (args : List Text) : Option (SharedOptions × Request) :=
  match readSide frontOptions true (args.length + 1) {} args with
  | .error | .done _ => none
  | .early r => some ({}, r)
  | .word front name rest =>
    match commandOptions? name with
    | none => none
    | some (options, takesPaths) =>
      match readSide options false (rest.length + 1) {} rest with
      | .early r => some ({}, r)
      | .done back =>
        if !takesPaths && !back.words.isEmpty then none
        else (requestOf? name back).map fun r => (sharedOf front back, r)
      | _ => none

/-- Whether a command line makes the program read its standard input. -/
def readsInput (args : List Text) : Bool :=
  match parse args with
  | some (_, .format _ _ true) | some (_, .serve none _) => true
  | _ => false

end Arguments

end FishCheck
