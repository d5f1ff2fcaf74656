/-! The small parts of the document language KDL, version 1: blanks, line ends, comments, names,
quoted text and numbers. A reader takes characters off the front of a text or fails, and what it
takes is given back when it fails. -/
namespace WindowHost.Kdl

abbrev Reader := StateT (List Char) Option

/-- A value as it is written. An integer keeps its sign apart, since `-0` has one. -/
inductive Literal where
  | text (s : String)
  | integer (negative : Bool) (magnitude : Nat)
  | decimal
  | bool (b : Bool)
  | null
  deriving DecidableEq

def satisfy (p : Char → Bool) : Reader Char
  | c :: rest => if p c then some (c, rest) else none
  | [] => none

def char (c : Char) : Reader Unit := do
  let _ ← satisfy (· == c)

def word (w : String) : Reader Unit := w.toList.forM char

def takeWhile (p : Char → Bool) : Reader (List Char)
  | s => some (s.takeWhile p, s.dropWhile p)

def takeWhile1 (p : Char → Bool) : Reader (List Char) := do
  let first ← satisfy p
  return first :: (← takeWhile p)

def atEnd : Reader Unit
  | [] => some ((), [])
  | _ :: _ => none

def maybe {α : Type} (r : Reader α) : Reader (Option α) := some <$> r <|> pure none

/-- As many as there are, but at most `bound`. -/
def manyUpTo {α : Type} (r : Reader α) : Nat → Reader (List α)
  | 0 => pure []
  | bound + 1 => (do return (← r) :: (← manyUpTo r bound)) <|> pure []

/-- As many as there are. A reader that takes at least one character is never cut short. -/
def many {α : Type} (r : Reader α) : Reader (List α)
  | s => manyUpTo r s.length s

def many1 {α : Type} (r : Reader α) : Reader (List α) := do
  return (← r) :: (← many r)

/-- Blanks within a line. -/
def isBlank (c : Char) : Bool :=
  c == '\t' || c == ' ' || c == '\u00a0' || c == '\u1680' || ('\u2000' ≤ c && c ≤ '\u200a')
    || c == '\u202f' || c == '\u205f' || c == '\u3000' || c == '\ufeff'

/-- Characters that end a line. -/
def isLineEnd (c : Char) : Bool :=
  c == '\n' || c == '\r' || c == '\x0c' || c == '\u0085' || c == '\u2028' || c == '\u2029'

/-- Characters that a name without quotes can begin with, digits and signs among them. The mark
U+FEFF is one of them. -/
def isNameChar (c : Char) : Bool :=
  !(c ≤ ' ' || "\\/()\x7b\x7d<>;[]=,\"".toList.contains c || (isBlank c && c != '\ufeff')
    || isLineEnd c)

/-- Characters that such a name can go on with: an exclamation mark only begins one. -/
def continuesName (c : Char) : Bool := isNameChar c && c != '!'

/-- The value of a digit, of either case. -/
def digitValue (c : Char) : Nat :=
  if c.isDigit then c.toNat - 48 else if 'a' ≤ c then c.toNat - 87 else c.toNat - 55

def isDigitOf (radix : Nat) (c : Char) : Bool :=
  (c.isDigit || ('a' ≤ c && c ≤ 'f') || ('A' ≤ c && c ≤ 'F')) && digitValue c < radix

/-- A line end; a carriage return and the line feed after it are one. -/
def lineEnd : Reader Unit := word "\r\n" <|> do
  let _ ← satisfy isLineEnd

/-- A comment up to the end of its line, which it takes too. -/
def lineComment : Reader Unit := do
  word "//"
  let _ ← takeWhile (!isLineEnd ·)
  lineEnd <|> atEnd

/-- A comment in brackets, with at most `depth` others in each other inside. An opening bracket
that is never closed is no comment, and counts as text. -/
def blockComment : Nat → Reader Unit
  | 0 => failure
  | depth + 1 => do
    word "/*"
    let star : Reader Unit := fun
      | '*' :: c :: rest => if c == '/' then none else some ((), c :: rest)
      | _ => none
    let plain : Reader Unit := do
      let _ ← satisfy (· != '*')
    let _ ← many (blockComment depth <|> plain <|> star)
    word "*/"

/-- A comment in brackets. It cannot be deeper than the text is long. -/
def comment : Reader Unit
  | s => blockComment s.length s

/-- Blanks, or one comment in brackets. -/
def space : Reader Unit := (do let _ ← takeWhile1 isBlank) <|> comment

/-- A line that goes on in the next one. -/
def continuation : Reader Unit := do
  char '\\'
  let _ ← many space
  lineComment <|> lineEnd

/-- What may stand between the parts of a node. -/
def gap : Reader Unit := space <|> continuation

/-- What may stand between nodes. -/
def nodeGap : Reader Unit := lineEnd <|> space <|> lineComment

def escapedCode : Reader Char := do
  word "u\x7b"
  let digits ← takeWhile (isDigitOf 16)
  char '}'
  let code := digits.foldl (fun n c => n * 16 + digitValue c) 0
  if digits.isEmpty || 6 < digits.length then failure
  if code.isValidChar then return Char.ofNat code else failure

/-- What stands after a backslash in quotes. -/
def escaped : Reader Char := do
  match ← satisfy (fun _ => true) with
  | '"' => return '"'
  | '\\' => return '\\'
  | '/' => return '/'
  | 'b' => return '\x08'
  | 'f' => return '\x0c'
  | 'n' => return '\n'
  | 'r' => return '\r'
  | 't' => return '\t'
  | _ => failure

def quoted : Reader String := do
  char '"'
  let one := satisfy (fun c => c != '"' && c != '\\') <|> do
    char '\\'
    escaped <|> escapedCode
  let content ← many one
  char '"'
  return String.ofList content

/-- The text up to a quote that `sharps` sharps follow. -/
def rawContent (sharps : List Char) : List Char → Option (List Char × List Char)
  | [] => none
  | c :: rest =>
    if c == '"' && sharps.isPrefixOf rest then some ([], rest.drop sharps.length)
    else (rawContent sharps rest).map fun (content, rest) => (c :: content, rest)

/-- Text in which nothing is escaped; as many sharps close it as open it. -/
def raw : Reader String := do
  char 'r'
  let sharps ← takeWhile (· == '#')
  char '"'
  return String.ofList (← rawContent sharps)

/-- Whether a number has a minus sign. -/
def sign : Reader Bool
  | '-' :: rest => some (true, rest)
  | '+' :: rest => some (false, rest)
  | s => some (false, s)

/-- Digits, which underscores may divide after the first one. -/
def digits (radix : Nat) : Reader Nat := do
  let first ← satisfy (isDigitOf radix)
  let more ← takeWhile fun c => c == '_' || isDigitOf radix c
  return (first :: more.filter (· != '_')).foldl (fun n c => n * radix + digitValue c) 0

def prefixedNumber : Reader Literal := do
  let negative ← sign
  char '0'
  let magnitude ←
    (do char 'b'; digits 2) <|> (do char 'o'; digits 8) <|> (do char 'x'; digits 16)
  return .integer negative magnitude

def plainNumber : Reader Literal := do
  let negative ← sign
  let magnitude ← digits 10
  let fraction ← maybe do
    char '.'
    digits 10
  let exponent ← maybe do
    char 'e' <|> char 'E'
    let _ ← sign
    takeWhile fun c => c == '_' || c.isDigit
  return if fraction.isSome || exponent.isSome then .decimal else .integer negative magnitude

def number : Reader Literal := prefixedNumber <|> plainNumber

def keyword : Reader Literal :=
  (do word "null"; return .null) <|> (do word "true"; return .bool true)
    <|> (do word "false"; return .bool false)

def literal : Reader Literal :=
  Literal.text <$> quoted <|> Literal.text <$> raw <|> keyword <|> number

def isSign (c : Char) : Bool := c == '+' || c == '-'

/-- A name without quotes. It starts with no digit, also after a sign, and is no keyword. -/
def bareName : Reader String := do
  let start := fun c => isNameChar c && !c.isDigit
  let signed : Reader (List Char) := do
    return (← satisfy isSign) :: (← satisfy start) :: (← takeWhile continuesName)
  let lone : Reader (List Char) := do
    return [← satisfy isSign]
  let unsigned : Reader (List Char) := do
    return (← satisfy fun c => start c && !isSign c) :: (← takeWhile continuesName)
  let name := String.ofList (← signed <|> lone <|> unsigned)
  if name = "true" ∨ name = "false" ∨ name = "null" then failure else return name

/-- The name of a node or a type. Where a number can be read, there is no name. -/
def name : Reader String
  | s => if (number s).isSome then none else (bareName <|> quoted) s

end WindowHost.Kdl
