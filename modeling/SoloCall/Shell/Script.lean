import SoloCall.Text.Basic

namespace SoloCall.Shell

inductive Trim where
  | shortestHead | longestHead | shortestTail | longestTail
  deriving DecidableEq, Repr

mutual

/-- A part of a word. What is quoted is neither split into fields nor read as a pattern. -/
inductive Fragment where
  | literal (t : Text) (quoted : Bool)
  | parameter (name : Text) (modifier : Modifier) (quoted : Bool)
  | arithmetic (expression : List Fragment) (quoted : Bool)
  | output (body : List Statement) (quoted : Bool)

/-- What is made of a parameter's value. The word of the middle four is used where the parameter
is unset or, with `emptyToo`, empty; that of `instead` everywhere else. -/
inductive Modifier where
  | plain
  | length
  | orElse (emptyToo : Bool) (word : List Fragment)
  | orAssign (emptyToo : Bool) (word : List Fragment)
  | orFail (emptyToo : Bool) (word : List Fragment)
  | instead (emptyToo : Bool) (word : List Fragment)
  | trimmed (part : Trim) (pattern : List Fragment)

inductive Redirection where
  | read (fd : Nat) (file : List Fragment)
  | write (fd : Nat) (file : List Fragment)
  | append (fd : Nat) (file : List Fragment)
  | copy (fd : Nat) (source : List Fragment)
  | document (fd : Nat) (body : List Fragment)

inductive Command where
  | simple (line : Nat) (assignments : List (Text × List Fragment))
      (words : List (List Fragment)) (redirections : List Redirection)
  | group (body : List Statement)
  | subshell (line : Nat) (body : List Statement)
  | branch (condition yes no : List Statement)
  | loop (untilTrue : Bool) (condition body : List Statement)
  | each (line : Nat) (name : Text) (words? : Option (List (List Fragment))) (body : List Statement)
  | choose (line : Nat) (word : List Fragment)
      (cases : List (List (List Fragment) × List Statement))
  | define (name : Text) (body : Command)
  | redirected (line : Nat) (body : Command) (redirections : List Redirection)

inductive Statement where
  | pipeline (negated : Bool) (commands : List Command)
  | both (first second : Statement)
  | either (first second : Statement)
  | background (body : Statement)

end

instance : Inhabited Command := ⟨.group []⟩

abbrev Word := List Fragment

def Word.literalText? : Word → Option Text
  | [] => some []
  | .literal t _ :: rest => (literalText? rest).map (t ++ ·)
  | _ => none

def Fragment.isQuoted : Fragment → Bool
  | literal _ q => q
  | parameter _ _ q => q
  | arithmetic _ q => q
  | output _ q => q

end SoloCall.Shell
