import OpsSupportability.Lib.Text

/-! `string.Template` of Python: a template is scanned once into characters and placeholders, and
    `safe_substitute` leaves a placeholder without a value as it stands. -/

namespace Dollar

inductive Piece where
  | char (c : Char)
  /-- A placeholder and the part of the template it comes from. -/
  | hole (name source : Text)
  deriving DecidableEq, Repr

def isStart (c : Char) : Bool := c == '_' || c.isAlpha

def isIdent (c : Char) : Bool := isStart c || c.isDigit

/-- What the scanner has read since the last piece. -/
inductive Scan where
  | plain
  | dollar
  | named (name : Text)
  | braced (name : Text)

def pieces : Scan → Text → List Piece
  | .plain, [] => []
  | .plain, c :: s => if c = '$' then pieces .dollar s else .char c :: pieces .plain s
  | .dollar, [] => [.char '$']
  | .dollar, c :: s =>
    if c = '$' then .char '$' :: pieces .plain s
    else if isStart c then pieces (.named [c]) s
    else if c = '{' then pieces (.braced []) s
    else .char '$' :: .char c :: pieces .plain s
  | .named name, [] => [.hole name ('$' :: name)]
  | .named name, c :: s =>
    if isIdent c then pieces (.named (name ++ [c])) s
    else .hole name ('$' :: name) :: if c = '$' then pieces .dollar s else .char c :: pieces .plain s
  | .braced name, [] => ('$' :: '{' :: name).map .char
  | .braced name, c :: s =>
    if isStart c || (!name.isEmpty && c.isDigit) then pieces (.braced (name ++ [c])) s
    else if c = '}' ∧ name ≠ [] then .hole name ('$' :: '{' :: name ++ ['}']) :: pieces .plain s
    else ('$' :: '{' :: name).map .char ++ if c = '$' then pieces .dollar s else .char c :: pieces .plain s

def Piece.fill (mapping : Text → Option Text) : Piece → Text
  | .char c => [c]
  | .hole name source => (mapping name).getD source

/-- `Template(template).safe_substitute(mapping)`. -/
def safeSubstitute (template : Text) (mapping : Text → Option Text) : Text :=
  (pieces .plain template).flatMap (Piece.fill mapping)

end Dollar
