import SoloCall.Shell.Script
import SoloCall.Text.Decimal

namespace SoloCall.Shell

inductive Fault where
  | unterminatedQuote
  | badSubstitution
  | badLoopVariable
  | missing (closing : Text)
  | unexpected (token : Text) (expected? : Option Text)
  | tooDeep

def Fault.message : Fault → Text
  | unterminatedQuote => "Syntax error: Unterminated quoted string".toList
  | badSubstitution => "Bad substitution".toList
  | badLoopVariable => "Syntax error: Bad for loop variable".toList
  | missing closing => "Syntax error: Missing '".toList ++ closing ++ ['\'']
  | unexpected token none => "Syntax error: ".toList ++ token ++ " unexpected".toList
  | unexpected token (some expected) =>
    "Syntax error: ".toList ++ token ++ " unexpected (expecting ".toList ++ expected ++ [')']
  | tooDeep => "Syntax error: too deeply nested".toList

/-- What is left of a script, and the number of its next line. The lines of a document are taken out
of the script when it is found; `documents` counts them until the line that asked for it ends. -/
structure Source where
  rest : Text
  line : Nat := 1
  documents : Nat := 0

abbrev Reader := StateT Source (Except (Nat × Fault))

namespace Reader

def fail {α : Type} (f : Fault) : Reader α := do throw ((← get).line, f)

def rest : Reader Text := return (← get).rest

def skip (n : Nat) : Reader Unit :=
  modify fun s =>
    let ends := (s.rest.take n).count '\n'
    if ends = 0 then { s with rest := s.rest.drop n }
    else ⟨s.rest.drop n, s.line + ends + s.documents, 0⟩

def inside {α : Type} (t : Text) (read : Reader α) : Reader α := do
  let s ← get
  set { s with rest := t }
  let a ← read
  set s
  return a

end Reader

open Reader

def isNameStart (c : Char) : Bool := c.isAlpha || c = '_'

def isNameChar (c : Char) : Bool := isNameStart c || isDigit c

def isName (t : Text) : Bool := t.head?.any isNameStart && t.all isNameChar

def isMeta (c : Char) : Bool := [' ', '\t', '\n', ';', '&', '|', '<', '>', '(', ')'].contains c

def gapLength : Text → Nat
  | ' ' :: r => gapLength r + 1
  | '\t' :: r => gapLength r + 1
  | '\\' :: '\n' :: r => gapLength r + 2
  | '#' :: r => (r.takeWhile (· ≠ '\n')).length + 1
  | _ => 0

def skipGap : Reader Unit := do skip (gapLength (← rest))

def afterLines : (comment : Bool) → Text → Text
  | _, [] => []
  | true, c :: r => afterLines (c ≠ '\n') r
  | false, '\\' :: '\n' :: r => afterLines false r
  | false, c :: r =>
    if c = ' ' || c = '\t' || c = '\n' then afterLines false r
    else if c = '#' then afterLines true r
    else c :: r

def skipLines : Reader Unit := do
  let r ← rest
  skip (r.length - (afterLines false r).length)

def reserved : List Text := [
  "if".toList, "then".toList, "else".toList, "elif".toList, "fi".toList, "while".toList,
  "until".toList, "for".toList, "do".toList, "done".toList, "case".toList, "esac".toList,
  "in".toList, "\x7b".toList, "\x7d".toList, "!".toList]

def closers : List Text := [
  "then".toList, "else".toList, "elif".toList, "fi".toList, "do".toList, "done".toList,
  "esac".toList, "\x7d".toList]

def bareRun : Reader Text := return (← rest).takeWhile fun c => !isMeta c

def quoteToken (t : Text) : Text := '"' :: t ++ ['"']

def tokenName : Reader Text := do
  match ← rest with
  | [] => return "end of file".toList
  | '\n' :: _ => return "newline".toList
  | '&' :: '&' :: _ => return quoteToken "&&".toList
  | '|' :: '|' :: _ => return quoteToken "||".toList
  | ';' :: ';' :: _ => return quoteToken ";;".toList
  | c :: _ =>
    if c = '<' || c = '>' then return "redirection".toList
    else if isMeta c then return quoteToken [c]
    else
      let run ← bareRun
      return if reserved.contains run then quoteToken run else "word".toList

def unexpectedToken {α : Type} (expected? : Option Text) : Reader α := do
  fail (.unexpected (← tokenName) expected?)

def expectKeyword (keyword : String) : Reader Unit := do
  if (← bareRun) = keyword.toList then skip keyword.length
  else unexpectedToken (some (quoteToken keyword.toList))

def expectChar (c : Char) : Reader Unit := do
  if (← rest).head? = some c then skip 1 else unexpectedToken (some (quoteToken [c]))

/-- Where a run of fragments ends, and what its quotes and backslashes mean. -/
inductive Mode where
  | bare
  | double
  | brace (quoted : Bool)
  | document
  deriving DecidableEq

namespace Mode

def isQuoted : Mode → Bool
  | bare => false
  | double => true
  | brace quoted => quoted
  | document => true

def endsAt : Mode → Char → Bool
  | bare, c => isMeta c
  | double, c => c = '"'
  | brace _, c => c = '\x7d'
  | document, _ => false

def escapes : Mode → Char → Bool
  | bare, _ => true
  | brace false, _ => true
  | double, c => ['$', '\u0060', '"', '\\'].contains c
  | brace true, c => ['$', '\u0060', '"', '\\', '\x7d'].contains c
  | document, c => ['$', '\u0060', '\\'].contains c

def isSpecial (m : Mode) (c : Char) : Bool :=
  m.endsAt c || c = '\\' || c = '$' || c = '\u0060' || (c = '"' && m ≠ document)
    || (c = '\'' && !m.isQuoted)

end Mode

/-- The text up to a backquote that is not escaped, without its own escapes, and how much of the
source that is. Between double quotes they may be escaped too. -/
def backquoted? (inDouble : Bool) : Text → Option (Text × Nat)
  | [] => none
  | '\u0060' :: _ => some ([], 0)
  | '\\' :: c :: r =>
    let isEscape := c = '\u0060' || c = '\\' || c = '$' || (c = '"' && inDouble)
    (backquoted? inDouble r).map fun p => (if isEscape then c :: p.1 else '\\' :: c :: p.1, p.2 + 2)
  | c :: r => (backquoted? inDouble r).map fun p => (c :: p.1, p.2 + 1)

def arithmeticText? : (depth : Nat) → Text → Option Text
  | _, [] => none
  | 0, ')' :: ')' :: _ => some []
  | 0, ')' :: _ => none
  | depth + 1, ')' :: r => (arithmeticText? depth r).map (')' :: ·)
  | depth, '(' :: r => (arithmeticText? (depth + 1) r).map ('(' :: ·)
  | depth, c :: r => (arithmeticText? depth r).map (c :: ·)

def documentLines (stripTabs : Bool) (delimiter : Text) : List Text → List Text × Option (List Text)
  | [] => ([], none)
  | line :: rest =>
    let line := if stripTabs then line.dropWhile (· = '\t') else line
    if line = delimiter then ([], some rest)
    else
      let (body, after) := documentLines stripTabs delimiter rest
      (line :: body, after)

def cutDocument (stripTabs : Bool) (delimiter : Text) : Reader Text := do
  let s ← get
  let here := s.rest.takeWhile (· ≠ '\n')
  match s.rest.drop here.length with
  | _ :: below =>
    let (body, after?) := documentLines stripTabs delimiter (Text.split '\n' below)
    let lines := body.length + if after?.isSome then 1 else 0
    set { s with
      rest := here ++ '\n' :: Text.join ['\n'] (after?.getD [])
      documents := s.documents + lines }
    return if after?.isSome then body.flatMap fun line => line ++ ['\n'] else Text.join ['\n'] body
  | [] => return []

def parameterLength : Text → Nat
  | [] => 0
  | c :: r =>
    if isNameStart c then (r.takeWhile isNameChar).length + 1
    else if isDigit c then (r.takeWhile isDigit).length + 1
    else if ['@', '*', '#', '?', '$', '!', '-'].contains c then 1
    else 0

/-- The modifier that an operator inside braces stands for, and the operator's length. A word that
is a pattern is read as if it were not quoted. -/
def modifier? : Text → Option ((Word → Modifier) × Bool × Nat)
  | ':' :: '-' :: _ => some (.orElse true, false, 2)
  | ':' :: '=' :: _ => some (.orAssign true, false, 2)
  | ':' :: '?' :: _ => some (.orFail true, false, 2)
  | ':' :: '+' :: _ => some (.instead true, false, 2)
  | '-' :: _ => some (.orElse false, false, 1)
  | '=' :: _ => some (.orAssign false, false, 1)
  | '?' :: _ => some (.orFail false, false, 1)
  | '+' :: _ => some (.instead false, false, 1)
  | '#' :: '#' :: _ => some (.trimmed .longestHead, true, 2)
  | '#' :: _ => some (.trimmed .shortestHead, true, 1)
  | '%' :: '%' :: _ => some (.trimmed .longestTail, true, 2)
  | '%' :: _ => some (.trimmed .shortestTail, true, 1)
  | _ => none

def assignment? : Word → Option (Text × Word)
  | .literal t false :: more =>
    (Text.cut? '=' t).bind fun p =>
      if isName p.1 then
        some (p.1, if p.2.isEmpty then more else .literal p.2 false :: more)
      else none
  | _ => none

def atCloser : Reader Bool := do
  match ← rest with
  | [] => return true
  | ')' :: _ => return true
  | ';' :: ';' :: _ => return true
  | _ => return closers.contains (← bareRun)

def functionHead? (t : Text) : Option (Text × Nat) :=
  let name := t.takeWhile isNameChar
  let blanks (t : Text) : Text := t.dropWhile fun c => c = ' ' || c = '\t'
  if !isName name || reserved.contains name then none
  else
    match blanks (t.drop name.length) with
    | '(' :: r =>
      match blanks r with
      | ')' :: r => some (name, t.length - r.length)
      | _ => none
    | _ => none

mutual

def fragments : (fuel : Nat) → Mode → Reader Word
  | 0, _ => fail .tooDeep
  | fuel + 1, mode => do
    match ← rest with
    | [] =>
      match mode with
      | .bare | .document => return []
      | .double => fail .unterminatedQuote
      | .brace _ => fail (.missing ['\x7d'])
    | c :: r =>
      if mode.endsAt c then return []
      else if c = '\\' then
        match r with
        | [] =>
          skip 1
          return [.literal ['\\'] true]
        | '\n' :: _ =>
          skip 2
          fragments fuel mode
        | d :: _ =>
          skip 2
          let t := if mode.escapes d then [d] else ['\\', d]
          return .literal t true :: (← fragments fuel mode)
      else if c = '\'' && !mode.isQuoted then
        let body := r.takeWhile (· ≠ '\'')
        if body.length = r.length then fail .unterminatedQuote
        skip (body.length + 2)
        return .literal body true :: (← fragments fuel mode)
      else if c = '"' && mode ≠ .document then
        skip 1
        let inner ← fragments fuel .double
        skip 1
        let inner := if inner.isEmpty then [.literal [] true] else inner
        return inner ++ (← fragments fuel mode)
      else if c = '$' then
        skip 1
        let part ← dollar fuel mode.isQuoted
        return part :: (← fragments fuel mode)
      else if c = '\u0060' then
        match backquoted? (mode = .double || mode = .brace true) r with
        | none => fail .unterminatedQuote
        | some (body, n) =>
          let body ← inside body (statements fuel)
          skip (n + 2)
          return .output body mode.isQuoted :: (← fragments fuel mode)
      else
        let run := (c :: r).takeWhile fun x => !mode.isSpecial x
        skip run.length
        return .literal run mode.isQuoted :: (← fragments fuel mode)

def dollar : (fuel : Nat) → (quoted : Bool) → Reader Fragment
  | 0, _ => fail .tooDeep
  | fuel + 1, quoted => do
    match ← rest with
    | '(' :: r =>
      let arithmetic? := match r with
        | '(' :: r => arithmeticText? 0 r
        | _ => none
      match arithmetic? with
      | some body =>
        let expression ← inside body (fragments fuel .document)
        skip (body.length + 4)
        return .arithmetic expression quoted
      | none =>
        if r.head? = some '(' && !r.contains ')' then fail (.missing [')', ')'])
        skip 1
        let body ← statements fuel
        expectChar ')'
        return .output body quoted
    | '\x7b' :: _ =>
      skip 1
      braced fuel quoted
    | t =>
      let n := match t with
        | c :: _ => if isDigit c then 1 else parameterLength t
        | [] => 0
      skip n
      return if n = 0 then .literal ['$'] quoted else .parameter (t.take n) .plain quoted

def braced : (fuel : Nat) → (quoted : Bool) → Reader Fragment
  | 0, _ => fail .tooDeep
  | fuel + 1, quoted => do
    let t ← rest
    let lengthOf := match t with
      | '#' :: r =>
        let n := parameterLength r
        if n > 0 && (r.drop n).head? = some '\x7d' then some (r.take n) else none
      | _ => none
    match lengthOf with
    | some name =>
      skip (name.length + 2)
      return .parameter name .length quoted
    | none =>
      let name := t.take (parameterLength t)
      if t.isEmpty then fail (.missing ['\x7d'])
      if name.isEmpty then fail .badSubstitution
      skip name.length
      match ← rest with
      | [] => fail (.missing ['\x7d'])
      | '\x7d' :: _ =>
        skip 1
        return .parameter name .plain quoted
      | t =>
        match modifier? t with
        | none => fail .badSubstitution
        | some (make, isPattern, n) =>
          skip n
          let word ← fragments fuel (.brace (quoted && !isPattern))
          skip 1
          return .parameter name (make word) quoted

def redirection? : (fuel : Nat) → Reader (Option Redirection)
  | 0 => fail .tooDeep
  | fuel + 1 => do
    let t ← rest
    let digits := t.takeWhile isDigit
    let fdOr (fallback : Nat) : Nat := if digits.isEmpty then fallback else ofDigits digits
    let target (n : Nat) : Reader Word := do
      skip (digits.length + n)
      skipGap
      let word ← fragments fuel .bare
      if word.isEmpty then unexpectedToken none
      return word
    match t.drop digits.length with
    | '<' :: '<' :: r =>
      let stripTabs := r.head? = some '-'
      let delimiter ← target (if stripTabs then 3 else 2)
      let body ← cutDocument stripTabs ((Word.literalText? delimiter).getD [])
      let body ← if delimiter.any Fragment.isQuoted then pure [.literal body true]
        else inside body (fragments fuel .document)
      return some (.document (fdOr 0) body)
    | '<' :: '&' :: _ => return some (.copy (fdOr 0) (← target 2))
    | '<' :: '>' :: _ => return some (.read (fdOr 0) (← target 2))
    | '<' :: _ => return some (.read (fdOr 0) (← target 1))
    | '>' :: '>' :: _ => return some (.append (fdOr 1) (← target 2))
    | '>' :: '&' :: _ => return some (.copy (fdOr 1) (← target 2))
    | '>' :: '|' :: _ => return some (.write (fdOr 1) (← target 2))
    | '>' :: _ => return some (.write (fdOr 1) (← target 1))
    | _ => return none

def redirections : (fuel : Nat) → Reader (List Redirection)
  | 0 => fail .tooDeep
  | fuel + 1 => do
    skipGap
    match ← redirection? fuel with
    | some r => return r :: (← redirections fuel)
    | none => return []

def simple (line : Nat) : (fuel : Nat) → (assignments : List (Text × Word)) →
    (words : List Word) → List Redirection → Reader Command
  | 0, _, _, _ => fail .tooDeep
  | fuel + 1, assignments, words, redirs => do
    skipGap
    match ← redirection? fuel with
    | some r => simple line fuel assignments words (r :: redirs)
    | none =>
      let word ← fragments fuel .bare
      if word.isEmpty then
        if assignments.isEmpty && words.isEmpty && redirs.isEmpty then unexpectedToken none
        return .simple line assignments.reverse words.reverse redirs.reverse
      else
        match if words.isEmpty then assignment? word else none with
        | some a => simple line fuel (a :: assignments) words redirs
        | none => simple line fuel assignments (word :: words) redirs

def wordsToEnd : (fuel : Nat) → Reader (List Word)
  | 0 => fail .tooDeep
  | fuel + 1 => do
    skipGap
    let word ← fragments fuel .bare
    if word.isEmpty then return [] else return word :: (← wordsToEnd fuel)

def patterns : (fuel : Nat) → Reader (List Word)
  | 0 => fail .tooDeep
  | fuel + 1 => do
    skipGap
    let word ← fragments fuel .bare
    if word.isEmpty then unexpectedToken none
    skipGap
    if (← rest).head? = some '|' then
      skip 1
      return word :: (← patterns fuel)
    else return [word]

def cases : (fuel : Nat) → Reader (List (List Word × List Statement))
  | 0 => fail .tooDeep
  | fuel + 1 => do
    skipLines
    if (← bareRun) = "esac".toList then return []
    if (← rest).isEmpty then unexpectedToken (some (quoteToken [')']))
    if (← rest).head? = some '(' then skip 1
    let heads ← patterns fuel
    expectChar ')'
    let body ← statements fuel
    match ← rest with
    | ';' :: ';' :: _ =>
      skip 2
      return (heads, body) :: (← cases fuel)
    | _ => return [(heads, body)]

def block : (fuel : Nat) → Reader (List Statement)
  | 0 => fail .tooDeep
  | fuel + 1 => do
    let body ← statements fuel
    if body.isEmpty && !(← rest).isEmpty then unexpectedToken none
    return body

def branchRest : (fuel : Nat) → (condition : List Statement) → Reader Command
  | 0, _ => fail .tooDeep
  | fuel + 1, condition => do
    expectKeyword "then"
    let yes ← block fuel
    match String.ofList (← bareRun) with
    | "elif" =>
      skip 4
      let next ← block fuel
      return .branch condition yes [.pipeline false [← branchRest fuel next]]
    | "else" =>
      skip 4
      let no ← block fuel
      expectKeyword "fi"
      return .branch condition yes no
    | _ =>
      expectKeyword "fi"
      return .branch condition yes []

def doBody : (fuel : Nat) → Reader (List Statement)
  | 0 => fail .tooDeep
  | fuel + 1 => do
    expectKeyword "do"
    let body ← block fuel
    expectKeyword "done"
    return body

def compound? : (fuel : Nat) → Reader (Option Command)
  | 0 => fail .tooDeep
  | fuel + 1 => do
    let line := (← get).line
    if (← rest).head? = some '(' then
      skip 1
      let body ← block fuel
      expectChar ')'
      return some (.subshell line body)
    match String.ofList (← bareRun) with
    | "\x7b" =>
      skip 1
      let body ← block fuel
      expectKeyword "\x7d"
      return some (.group body)
    | "if" =>
      skip 2
      let condition ← block fuel
      return some (← branchRest fuel condition)
    | "while" =>
      skip 5
      let condition ← block fuel
      return some (.loop false condition (← doBody fuel))
    | "until" =>
      skip 5
      let condition ← block fuel
      return some (.loop true condition (← doBody fuel))
    | "for" =>
      skip 3
      skipGap
      let name ← bareRun
      if !isName name then fail .badLoopVariable
      skip name.length
      skipLines
      if (← bareRun) = "in".toList then
        skip 2
        let words ← wordsToEnd fuel
        if (← rest).head? = some ';' then skip 1
        skipLines
        return some (.each line name (some words) (← doBody fuel))
      else
        if (← rest).head? = some ';' then skip 1
        skipLines
        return some (.each line name none (← doBody fuel))
    | "case" =>
      skip 4
      skipGap
      let word ← fragments fuel .bare
      skipLines
      expectKeyword "in"
      let cs ← cases fuel
      expectKeyword "esac"
      return some (.choose line word cs)
    | _ => return none

def command : (fuel : Nat) → Reader Command
  | 0 => fail .tooDeep
  | fuel + 1 => do
    skipGap
    let line := (← get).line
    match functionHead? (← rest) with
    | some (name, n) =>
      skip n
      skipLines
      return .define name (← command fuel)
    | none =>
      match ← compound? fuel with
      | some c =>
        let redirs ← redirections fuel
        return if redirs.isEmpty then c else .redirected line c redirs
      | none =>
        let run ← bareRun
        if closers.contains run || run = "in".toList || run = ['!'] then unexpectedToken none
        simple line fuel [] [] []

def pipelineRest : (fuel : Nat) → Reader (List Command)
  | 0 => fail .tooDeep
  | fuel + 1 => do
    skipGap
    match ← rest with
    | '|' :: '|' :: _ => return []
    | '|' :: _ =>
      skip 1
      skipLines
      let c ← command fuel
      return c :: (← pipelineRest fuel)
    | _ => return []

def pipeline : (fuel : Nat) → Reader Statement
  | 0 => fail .tooDeep
  | fuel + 1 => do
    skipGap
    let negated := (← bareRun) = ['!']
    if negated then skip 1
    let first ← command fuel
    return .pipeline negated (first :: (← pipelineRest fuel))

def andOrRest : (fuel : Nat) → Statement → Reader Statement
  | 0, _ => fail .tooDeep
  | fuel + 1, first => do
    skipGap
    match ← rest with
    | '&' :: '&' :: _ =>
      skip 2
      skipLines
      andOrRest fuel (.both first (← pipeline fuel))
    | '|' :: '|' :: _ =>
      skip 2
      skipLines
      andOrRest fuel (.either first (← pipeline fuel))
    | _ => return first

def statements : (fuel : Nat) → Reader (List Statement)
  | 0 => fail .tooDeep
  | fuel + 1 => do
    skipLines
    if ← atCloser then return []
    let s ← andOrRest fuel (← pipeline fuel)
    skipGap
    match ← rest with
    | ';' :: ';' :: _ => return [s]
    | ';' :: _ =>
      skip 1
      return s :: (← statements fuel)
    | '&' :: _ =>
      skip 1
      return .background s :: (← statements fuel)
    | '\n' :: _ => return s :: (← statements fuel)
    | _ => return [s]

end

def lineStatements : (fuel : Nat) → Reader (List Statement)
  | 0 => fail .tooDeep
  | fuel + 1 => do
    skipGap
    match ← rest with
    | [] => return []
    | '\n' :: _ => return []
    | _ =>
      let s ← andOrRest fuel (← pipeline fuel)
      skipGap
      match ← rest with
      | [] => return [s]
      | '\n' :: _ => return [s]
      | ';' :: ';' :: _ => unexpectedToken none
      | ';' :: _ =>
        skip 1
        return s :: (← lineStatements fuel)
      | '&' :: _ =>
        skip 1
        return .background s :: (← lineStatements fuel)
      | _ => unexpectedToken none

/-- Every step of the grammar either reads a character or goes one rule down, and no more than
sixteen rules lie between two characters. -/
def Source.fuel (s : Source) : Nat := 16 * (s.rest.length + 2)

/-- The statements on the next line that holds any, and what comes after that line. -/
def Source.next (s : Source) : Except (Nat × Fault) (List Statement × Source) :=
  (do skipLines; lineStatements s.fuel : Reader (List Statement)).run s

def Source.isDone (s : Source) : Bool := (afterLines false s.rest).isEmpty

end SoloCall.Shell
