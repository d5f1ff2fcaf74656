/-! Structured text values and their indented form: two blanks a level, a line for every member,
and empty lists and objects on one line. -/
namespace WindowHost

inductive Json where
  | null
  | bool (b : Bool)
  | integer (n : Int)
  /-- The number `mantissa / 10 ^ digits`, written with a point or an exponent. -/
  | decimal (mantissa : Int) (digits : Nat)
  | text (s : String)
  | list (items : List Json)
  | object (fields : List (String × Json))

namespace Json

instance : Inhabited Json := ⟨.null⟩

/-- Lower-case digits of a value below 16. -/
def hexDigit (n : Nat) : Char := if n < 10 then Char.ofNat (48 + n) else Char.ofNat (87 + n)

/-- A character inside quotes. Quotes, backslashes and control characters are escaped, by a letter
where there is one. -/
def escape (c : Char) : String :=
  if c = '"' then "\\\""
  else if c = '\\' then "\\\\"
  else if c = '\n' then "\\n"
  else if c = '\r' then "\\r"
  else if c = '\t' then "\\t"
  else if c = '\x08' then "\\b"
  else if c = '\x0c' then "\\f"
  else if c.toNat < 32 then
    "\\u00" ++ String.ofList [hexDigit (c.toNat / 16), hexDigit (c.toNat % 16)]
  else String.ofList [c]

def quote (s : String) : String := "\"" ++ String.join (s.toList.map escape) ++ "\""

/-- A number with `digits` places after the point. -/
def decimalText (mantissa : Int) (digits : Nat) : String :=
  let sign := if mantissa < 0 then "-" else ""
  let shown := toString mantissa.natAbs
  let padded := String.ofList (List.replicate (digits + 1 - shown.length) '0') ++ shown
  let cut := padded.length - digits
  sign ++ String.ofList (padded.toList.take cut) ++ "." ++ String.ofList (padded.toList.drop cut)

/-- Puts members, each on a line of its own, between two brackets. -/
def block (opening closing indent : String) (members : List String) : String :=
  match members with
  | [] => opening ++ closing
  | members =>
    let inner := indent ++ "  "
    opening ++ "\n" ++ inner ++ String.intercalate (",\n" ++ inner) members ++ "\n" ++ indent
      ++ closing

mutual

/-- The indented form, given the indentation of the line that it starts on. -/
def pretty (indent : String) : Json → String
  | .null => "null"
  | .bool true => "true"
  | .bool false => "false"
  | .integer n => toString n
  | .decimal mantissa digits => decimalText mantissa digits
  | .text s => quote s
  | .list items => block "[" "]" indent (prettyItems (indent ++ "  ") items)
  | .object fields => block "\x7b" "\x7d" indent (prettyFields (indent ++ "  ") fields)

def prettyItems (indent : String) : List Json → List String
  | [] => []
  | item :: items => pretty indent item :: prettyItems indent items

def prettyFields (indent : String) : List (String × Json) → List String
  | [] => []
  | (name, value) :: fields =>
    (quote name ++ ": " ++ pretty indent value) :: prettyFields indent fields

end

end Json
end WindowHost
