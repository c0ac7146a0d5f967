import SoloCall.Shell.Script

namespace SoloCall.Shell.Tilde

def directory? (home? : Option Text) (user : Text) : Option Text :=
  if user.isEmpty then home? else if user = "root".toList then some "/root".toList else none

/-- A piece of a word that may begin with a tilde. The name behind it has to end with a slash or
with the piece, which is `complete` unless something else follows in the word. -/
def inPiece (home? : Option Text) (complete : Bool) (piece : Text) : Word :=
  match piece with
  | '~' :: r =>
    let user := r.takeWhile (· ≠ '/')
    if user.length = r.length && !complete then [.literal piece false]
    else match directory? home? user with
      | some home => [.literal home true, .literal (r.drop user.length) false]
      | none => [.literal piece false]
  | _ => [.literal piece false]

def inPieces (home? : Option Text) (last : Bool) : (atStart : Bool) → List Text → Word
  | _, [] => []
  | atStart, [piece] => if atStart then inPiece home? last piece else [.literal piece false]
  | atStart, piece :: rest =>
    (if atStart then inPiece home? true piece else [.literal piece false]) ++
      .literal [':'] false :: inPieces home? last true rest

def inLiteral (home? : Option Text) (assigning atStart last : Bool) (t : Text) : Word :=
  if !t.contains '~' then [.literal t false]
  else inPieces home? last atStart (if assigning then Text.split ':' t else [t])

mutual

def inFragments (home? : Option Text) (assigning : Bool) : (atStart : Bool) → List Fragment → Word
  | _, [] => []
  | atStart, .literal t false :: rest =>
    inLiteral home? assigning atStart rest.isEmpty t ++ inFragments home? assigning false rest
  | _, .parameter name modifier false :: rest =>
    .parameter name (inModifier home? assigning modifier) false ::
      inFragments home? assigning false rest
  | _, f :: rest => f :: inFragments home? assigning false rest

def inModifier (home? : Option Text) (assigning : Bool) : Modifier → Modifier
  | .plain => .plain
  | .length => .length
  | .orElse emptyToo word => .orElse emptyToo (inFragments home? assigning true word)
  | .orAssign emptyToo word => .orAssign emptyToo (inFragments home? assigning true word)
  | .orFail emptyToo word => .orFail emptyToo (inFragments home? assigning true word)
  | .instead emptyToo word => .instead emptyToo (inFragments home? assigning true word)
  | .trimmed part pattern => .trimmed part (inFragments home? assigning true pattern)

end

def inWord (home? : Option Text) (assigning : Bool) (w : Word) : Word :=
  inFragments home? assigning true w

end SoloCall.Shell.Tilde
