import FishCheck.Shell.Lexis

/-!
# Reading shell scripts

A script is read line by line: each line is complete before it runs, together with the
lines that a compound command goes on over. Reading consumes the text from the front.
-/

namespace FishCheck

namespace Shell

namespace Reader

/-! ## Commands -/

mutual

/-- Takes the parts of a word. -/
def parts (whole : Text) : Nat → Mode → Reader Word
  | 0, _ => throw .unterminatedQuote
  | fuel + 1, mode => do
    match ← get with
    | [] =>
      match mode with
      | .plain | .all => pure []
      | .double => throw .unterminatedQuote
      | .brace _ => throw .missingBrace
    | c :: rest =>
      if mode.stops c then pure []
      else if c = '\\' then
        match rest with
        | [] =>
          set rest
          pure (literal ['\\'] true [])
        | d :: more =>
          if d = '\n' then
            set more
            parts whole fuel mode
          else if mode.quoted && !("$\x60\\".toList.contains d || d == '"' && mode ≠ .all) then
            set rest
            pure (literal ['\\'] true (← parts whole fuel mode))
          else
            set more
            pure (literal [d] true (← parts whole fuel mode))
      else if c = '\'' ∧ mode.quoted = false then
        match rest.dropWhile (· ≠ '\'') with
        | [] => throw .unterminatedQuote
        | _ :: more =>
          set more
          pure (literal (rest.takeWhile (· ≠ '\'')) true (← parts whole fuel mode))
      else if c = '"' ∧ mode ≠ .all then
        set rest
        let inner ← parts whole fuel .double
        expectChar '"' .unterminatedQuote
        let after ← parts whole fuel mode
        pure (literal [] true (inner ++ after))
      else if c = '$' then
        set rest
        let p ← dollar whole fuel mode.quoted
        pure (p :: (← parts whole fuel mode))
      else if c = '\x60' then
        match backQuoteEnd [] rest with
        | none => throw .unterminatedBackQuote
        | some (inner, more) =>
          set inner
          let body ← commands whole fuel
          set more
          pure (.command body mode.quoted :: (← parts whole fuel mode))
      else
        let run := (c :: rest).takeWhile fun d => !isSpecial d && !mode.stops d
        let run := if run.isEmpty then [c] else run
        set ((c :: rest).drop run.length)
        pure (literal run mode.quoted (← parts whole fuel mode))

/-- Takes an expansion after its dollar sign. -/
def dollar (whole : Text) : Nat → Bool → Reader Part
  | 0, _ => throw .unterminatedQuote
  | fuel + 1, quoted => do
    match ← get with
    | '(' :: '(' :: rest =>
      match arithmeticEnd 0 [] rest with
      | none => throw (.endOfFile (some "))"))
      | some (inner, more) =>
        set inner
        let expression ← parts whole fuel .all
        set more
        pure (.arithmetic expression quoted)
    | '(' :: rest =>
      set rest
      let body ← commands whole fuel
      skipLines
      unless ← accept ")" do unexpected (some ")")
      pure (.command body quoted)
    | '{' :: '#' :: '}' :: rest =>
      set rest
      pure (.parameter ['#'] .none [] quoted)
    | '{' :: '#' :: rest =>
      set rest
      let name ← parameterName
      expectChar '}' .badSubstitution
      pure (.parameter name .length [] quoted)
    | '{' :: rest =>
      set rest
      let name ← parameterName
      let m ← modifier
      let word ← parts whole fuel (.brace quoted)
      expectChar '}' .badSubstitution
      pure (.parameter name m word quoted)
    | c :: rest =>
      if isNameStart c then
        set (rest.dropWhile isNameChar)
        pure (.parameter (c :: rest.takeWhile isNameChar) .none [] quoted)
      else if c.isDigit || isMark c then
        set rest
        pure (.parameter [c] .none [] quoted)
      else pure (.literal ['$'] quoted)
    | [] => pure (.literal ['$'] quoted)

/-- Takes a list of commands up to where it ends. -/
def commands (whole : Text) : Nat → Reader (List Command)
  | 0 => throw (.endOfFile none)
  | fuel + 1 => do
    skipLines
    if ← atEnd then pure []
    else
      let c ← chain whole fuel
      skipBlanks
      match ← get with
      | ';' :: ';' :: _ => pure [c]
      | '&' :: rest =>
        set rest
        pure (.background c :: (← commands whole fuel))
      | ';' :: rest | '\n' :: rest =>
        set rest
        pure (c :: (← commands whole fuel))
      | _ => if ← atEnd then pure [c] else unexpected none

/-- Takes commands joined by the operators for both and either. -/
def chain (whole : Text) : Nat → Reader Command
  | 0 => throw (.endOfFile none)
  | fuel + 1 => do
    let first ← pipeline whole fuel
    chainRest whole fuel first

/-- Takes what is joined to a command. -/
def chainRest (whole : Text) : Nat → Command → Reader Command
  | 0, _ => throw (.endOfFile none)
  | fuel + 1, first => do
    skipBlanks
    if ← accept "&&" then
      skipLines
      let next ← pipeline whole fuel
      chainRest whole fuel (.both first next)
    else if ← accept "||" then
      skipLines
      let next ← pipeline whole fuel
      chainRest whole fuel (.either first next)
    else pure first

/-- Takes a pipeline. -/
def pipeline (whole : Text) : Nat → Reader Command
  | 0 => throw (.endOfFile none)
  | fuel + 1 => do
    skipBlanks
    if ← acceptWord "!" then pure (.negate (← pipeline whole fuel))
    else
      let first ← command whole fuel
      match ← pipelineRest whole fuel with
      | [] => pure first
      | rest => pure (.pipe (first :: rest))

/-- Takes the further commands of a pipeline. -/
def pipelineRest (whole : Text) : Nat → Reader (List Command)
  | 0 => throw (.endOfFile none)
  | fuel + 1 => do
    skipBlanks
    match ← get with
    | '|' :: '|' :: _ => pure []
    | '|' :: rest =>
      set rest
      skipLines
      let next ← command whole fuel
      pure (next :: (← pipelineRest whole fuel))
    | _ => pure []

/-- Takes one command. -/
def command (whole : Text) : Nat → Reader Command
  | 0 => throw (.endOfFile none)
  | fuel + 1 => do
    skipBlanks
    if ← accept "(" then
      let body ← commands whole fuel
      unless ← accept ")" do unexpected (some ")")
      withRedirects whole fuel (.subshell body)
    else if ← acceptWord "\x7b" then
      let body ← commands whole fuel
      expectWord "\x7d"
      withRedirects whole fuel (.group body)
    else if ← acceptWord "if" then
      let (branches, otherwise) ← conditions whole fuel
      withRedirects whole fuel (.choose branches otherwise)
    else if ← acceptWord "while" then
      let condition ← commands whole fuel
      withRedirects whole fuel (.loop false condition (← loopBody whole fuel))
    else if ← acceptWord "until" then
      let condition ← commands whole fuel
      withRedirects whole fuel (.loop true condition (← loopBody whole fuel))
    else if ← acceptWord "for" then
      skipBlanks
      let name ← peekWord
      unless (name.head?.any isNameStart) && name.all isNameChar do throw .badLoopVariable
      set ((← get).drop name.length)
      skipLines
      let words ← if ← acceptWord "in" then some <$> words whole fuel else pure none
      skipBlanks
      let _ ← accept ";"
      withRedirects whole fuel (.each name words (← loopBody whole fuel))
    else if ← acceptWord "case" then
      skipBlanks
      let subject ← parts whole fuel .plain
      expectWord "in"
      withRedirects whole fuel (.select subject (← caseBranches whole fuel))
    else if closers.contains (← peekWord) then unexpected none
    else simple whole fuel (← lineOf whole) [] [] []

/-- Takes the branches of a choice after its first word. -/
def conditions (whole : Text) : Nat → Reader (List (List Command × List Command) × List Command)
  | 0 => throw (.endOfFile none)
  | fuel + 1 => do
    let condition ← commands whole fuel
    expectWord "then"
    let body ← commands whole fuel
    skipLines
    if ← acceptWord "elif" then
      let (branches, otherwise) ← conditions whole fuel
      pure ((condition, body) :: branches, otherwise)
    else if ← acceptWord "else" then
      let otherwise ← commands whole fuel
      expectWord "fi"
      pure ([(condition, body)], otherwise)
    else
      expectWord "fi"
      pure ([(condition, body)], [])

/-- Takes the body of a loop. -/
def loopBody (whole : Text) : Nat → Reader (List Command)
  | 0 => throw (.endOfFile none)
  | fuel + 1 => do
    expectWord "do"
    let body ← commands whole fuel
    expectWord "done"
    pure body

/-- Takes words up to the end of the command. -/
def words (whole : Text) : Nat → Reader (List Word)
  | 0 => throw (.endOfFile none)
  | fuel + 1 => do
    skipBlanks
    match ← get with
    | [] => pure []
    | c :: _ =>
      if isMeta c then pure []
      else
        let w ← parts whole fuel .plain
        pure (w :: (← words whole fuel))

/-- Takes the branches of a selection. -/
def caseBranches (whole : Text) : Nat → Reader (List (List Word × List Command))
  | 0 => throw (.endOfFile none)
  | fuel + 1 => do
    skipLines
    if ← acceptWord "esac" then pure []
    else
      let _ ← accept "("
      let patterns ← alternatives whole fuel
      let body ← commands whole fuel
      skipLines
      if ← accept ";;" then pure ((patterns, body) :: (← caseBranches whole fuel))
      else
        expectWord "esac"
        pure [(patterns, body)]

/-- Takes the patterns of a branch and the parenthesis after them. -/
def alternatives (whole : Text) : Nat → Reader (List Word)
  | 0 => throw (.endOfFile none)
  | fuel + 1 => do
    skipBlanks
    let p ← parts whole fuel .plain
    skipBlanks
    if ← accept "|" then pure (p :: (← alternatives whole fuel))
    else if ← accept ")" then pure [p]
    else unexpected (some ")")

/-- Takes the target of a redirection. -/
def target (whole : Text) : Nat → Direction → Reader Word
  | 0, _ => throw (.endOfFile none)
  | fuel + 1, direction => do
    if direction ≠ .here then
      skipBlanks
      let w ← parts whole fuel .plain
      if w.isEmpty then unexpected none else pure w
    else if (← get).head? = some '<' then
      set ((← get).drop 1)
      throw (.unexpected "redirection" none)
    else
      let (body, isLiteral, rest) := hereText (← get)
      let w ← if isLiteral then pure [.literal body true] else do
        set body
        parts whole fuel .all
      set rest
      pure w

/-- Takes redirections after a compound command. -/
def withRedirects (whole : Text) : Nat → Command → Reader Command
  | 0, c => pure c
  | fuel + 1, c => do
    skipBlanks
    match redirection? (← get) with
    | none => pure c
    | some (stream, direction, rest) =>
      set rest
      let w ← target whole fuel direction
      withRedirects whole fuel (.redirected c [.mk stream direction w])

/-- Takes the rest of a simple command, given what was taken of it in reverse. -/
def simple (whole : Text) : Nat → Nat → List (Text × Word) → List Word → List Redirect →
    Reader Command
  | 0, _, _, _, _ => throw (.endOfFile none)
  | fuel + 1, line, assignments, ws, redirects => do
    skipBlanks
    let t ← get
    match redirection? t with
    | some (stream, direction, rest) =>
      set rest
      let w ← target whole fuel direction
      simple whole fuel line assignments ws (.mk stream direction w :: redirects)
    | none =>
      match t, ws, assignmentName? t with
      | _, [], some (name, rest) =>
        set rest
        let value ← parts whole fuel .plain
        simple whole fuel line ((name, value) :: assignments) ws redirects
      | '(' :: rest, [[.literal name false]], _ =>
        set rest
        skipBlanks
        unless ← accept ")" do unexpected (some ")")
        skipLines
        pure (.define name (← command whole fuel))
      | c :: _, _, _ =>
        if isMeta c then
          if ws.isEmpty && assignments.isEmpty && redirects.isEmpty then unexpected none
          else pure (.simple line assignments.reverse ws.reverse redirects.reverse)
        else
          let w ← parts whole fuel .plain
          simple whole fuel line assignments (w :: ws) redirects
      | [], _, _ =>
        if ws.isEmpty && assignments.isEmpty && redirects.isEmpty then unexpected none
        else pure (.simple line assignments.reverse ws.reverse redirects.reverse)

end

/-! ## Scripts -/

/-- Takes the commands up to the end of a line. -/
def line (whole : Text) : Nat → Reader (List Command)
  | 0 => throw (.endOfFile none)
  | fuel + 1 => do
    skipBlanks
    match ← get with
    | [] => pure []
    | '\n' :: rest =>
      set rest
      pure []
    | _ =>
      if ← atEnd then unexpected none
      else
        let c ← chain whole fuel
        skipBlanks
        match ← get with
        | ';' :: ';' :: _ => unexpected none
        | '&' :: rest =>
          set rest
          pure (.background c :: (← line whole fuel))
        | ';' :: rest =>
          set rest
          pure (c :: (← line whole fuel))
        | '\n' :: rest =>
          set rest
          pure [c]
        | [] => pure [c]
        | _ => unexpected none

/-- The lines of a script, up to the problem that ends it if there is one, with the line
that the problem is on. -/
def linesFrom (whole : Text) : Nat → Text → List (List Command) × Option (Nat × Problem)
  | 0, _ => ([], none)
  | fuel + 1, t =>
    if t.isEmpty then ([], none)
    else
      match line whole (4 * t.length + 16) t with
      | .error p => ([], some (whole.count '\n' + 1, p))
      | .ok (cs, rest) =>
        let (more, p) := linesFrom whole fuel rest
        (cs :: more, p)

end Reader

/-- The lines of a script. -/
def lines (script : Text) : List (List Command) × Option (Nat × Problem) :=
  Reader.linesFrom script script.length script

end Shell

end FishCheck
