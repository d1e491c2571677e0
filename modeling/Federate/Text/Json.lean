/-
JSON texts. A value keeps the spelling of its numbers, strings and names, so that
what nobody looks at need only be well formed; a string or a name that is looked
at must also have its surrogate escapes in pairs (`unescape?`).
-/
namespace Federate.Text

/-- A JSON value; numbers, strings and names as they are spelt, without quotes. -/
inductive Json where
  | null
  | bool (b : Bool)
  | number (spelling : List Char)
  | string (escaped : List Char)
  | array (items : List Json)
  | object (members : List (List Char × Json))

namespace Json

/-- White space between the parts of a text. -/
def isSpace (c : Char) : Bool := c == ' ' || c == '\n' || c == '\t' || c == '\r'

def skip (cs : List Char) : List Char := cs.dropWhile isSpace

/-- The value of a hexadecimal digit. -/
def hexDigit? (c : Char) : Option Nat :=
  if '0' ≤ c ∧ c ≤ '9' then some (c.toNat - 48)
  else if 'a' ≤ c ∧ c ≤ 'f' then some (c.toNat - 87)
  else if 'A' ≤ c ∧ c ≤ 'F' then some (c.toNat - 55)
  else none

/-- The number of four hexadecimal digits. -/
def hexUnit? (a b c d : Char) : Option Nat := do
  return ((← hexDigit? a) * 16 + (← hexDigit? b)) * 256 + (← hexDigit? c) * 16 + (← hexDigit? d)

/-- The character of a one-letter escape. -/
def letterEscape? (c : Char) : Option Char :=
  match c with
  | '"' => some '"'
  | '\\' => some '\\'
  | '/' => some '/'
  | 'b' => some '\x08'
  | 'f' => some '\x0c'
  | 'n' => some '\n'
  | 'r' => some '\r'
  | 't' => some '\t'
  | _ => none

/-- The characters that an escaped string stands for; `none` when half of a surrogate pair
stands alone. -/
def unescape? : List Char → Option (List Char)
  | [] => some []
  | '\\' :: 'u' :: a :: b :: c :: d :: rest => do
    let n ← hexUnit? a b c d
    if 0xDC00 ≤ n ∧ n < 0xE000 then none
    else if 0xD800 ≤ n ∧ n < 0xDC00 then
      match rest with
      | '\\' :: 'u' :: a :: b :: c :: d :: rest => do
        let m ← hexUnit? a b c d
        if 0xDC00 ≤ m ∧ m < 0xE000 then
          return Char.ofNat (0x10000 + (n - 0xD800) * 0x400 + (m - 0xDC00)) :: (← unescape? rest)
        else none
      | _ => none
    else return Char.ofNat n :: (← unescape? rest)
  | '\\' :: c :: rest => do return (← letterEscape? c) :: (← unescape? rest)
  | c :: rest => do return c :: (← unescape? rest)

/-- The spelling of a character in a string. -/
def escapeChar (c : Char) : List Char :=
  match c with
  | '"' => ['\\', '"']
  | '\\' => ['\\', '\\']
  | '\x08' => ['\\', 'b']
  | '\x0c' => ['\\', 'f']
  | '\n' => ['\\', 'n']
  | '\r' => ['\\', 'r']
  | '\t' => ['\\', 't']
  | c =>
    if c.toNat < 0x20 then
      ['\\', 'u', '0', '0', Nat.digitChar (c.toNat / 16), Nat.digitChar (c.toNat % 16)]
    else [c]

/-- The escaped spelling of a string. -/
def escape (s : String) : List Char := s.toList.flatMap escapeChar

/-- A string value. -/
def ofString (s : String) : Json := .string (escape s)

/-- A whole number. -/
def ofNat (n : Nat) : Json := .number (toString n).toList

/-- An integer. -/
def ofInt (n : Int) : Json := .number (toString n).toList

/-- An object, from its names and values. -/
def ofMembers (members : List (String × Json)) : Json :=
  .object (members.map fun m => (escape m.1, m.2))

/-- A value, or nothing. -/
def ofOption {α : Type} (f : α → Json) : Option α → Json
  | some a => f a
  | none => .null

/-- The first member of an object under a name; nothing where there is none. -/
def member (v : Json) (name : String) : Json :=
  match v with
  | .object ms => ((ms.find? (unescape? ·.1 == some name.toList)).map Prod.snd).getD .null
  | _ => .null

/-- The members of an object, by what their names stand for. -/
def members? : Json → Option (List (String × Json))
  | .object ms => ms.mapM fun m => do return (String.ofList (← unescape? m.1), m.2)
  | _ => none

/-- The text of a string value. -/
def string? : Json → Option String
  | .string e => (unescape? e).map String.ofList
  | _ => none

/-- The number of a value spelt in digits alone. -/
def natural? : Json → Option Nat
  | .number cs =>
    if cs.all Char.isDigit then some (cs.foldl (fun n c => n * 10 + (c.toNat - 48)) 0) else none
  | _ => none

/-! ## Reading -/

/-- The rest of a string up to its closing quote, still escaped, and what follows. -/
def readString : List Char → Option (List Char × List Char)
  | [] => none
  | '"' :: rest => some ([], rest)
  | '\\' :: 'u' :: a :: b :: c :: d :: rest => do
    let _ ← hexUnit? a b c d
    let (s, rest) ← readString rest
    return ('\\' :: 'u' :: a :: b :: c :: d :: s, rest)
  | '\\' :: c :: rest => do
    let _ ← letterEscape? c
    let (s, rest) ← readString rest
    return ('\\' :: c :: s, rest)
  | c :: rest => do
    if c.toNat < 0x20 || c == '\\' then none
    else
      let (s, rest) ← readString rest
      return (c :: s, rest)

/-- The digits at the front, at least one. -/
def readDigits (cs : List Char) : Option (List Char × List Char) :=
  match cs.takeWhile Char.isDigit with
  | [] => none
  | ds => some (ds, cs.dropWhile Char.isDigit)

/-- A whole part: no digit follows a leading zero. -/
def readWhole (cs : List Char) : Option (List Char × List Char) := do
  let (ds, rest) ← readDigits cs
  if ds.head? = some '0' ∧ 1 < ds.length then none else return (ds, rest)

/-- A fraction, if a point follows. -/
def readFraction : List Char → Option (List Char × List Char)
  | '.' :: rest => do
    let (ds, rest) ← readDigits rest
    return ('.' :: ds, rest)
  | cs => some ([], cs)

/-- An exponent, if its letter follows. -/
def readExponent : List Char → Option (List Char × List Char)
  | c :: rest =>
    if c = 'e' ∨ c = 'E' then
      match rest with
      | s :: digits =>
        if s = '+' ∨ s = '-' then do
          let (ds, rest) ← readDigits digits
          return (c :: s :: ds, rest)
        else do
          let (ds, rest) ← readDigits rest
          return (c :: ds, rest)
      | [] => none
    else some ([], c :: rest)
  | [] => some ([], [])

/-- A number. -/
def readNumber (cs : List Char) : Option (List Char × List Char) := do
  let (sign, cs) := match cs with
    | '-' :: rest => (['-'], rest)
    | cs => ([], cs)
  let (whole, cs) ← readWhole cs
  let (fraction, cs) ← readFraction cs
  let (exponent, cs) ← readExponent cs
  return (sign ++ whole ++ fraction ++ exponent, cs)

mutual

/-- A value at the front, after white space. -/
def readValue (fuel : Nat) (cs : List Char) : Option (Json × List Char) :=
  match fuel, skip cs with
  | 0, _ => none
  | _, [] => none
  | fuel + 1, '[' :: rest =>
    match skip rest with
    | ']' :: rest => some (.array [], rest)
    | rest => do
      let (items, rest) ← readItems fuel rest
      return (.array items, rest)
  | fuel + 1, '\x7b' :: rest =>
    match skip rest with
    | '\x7d' :: rest => some (.object [], rest)
    | rest => do
      let (members, rest) ← readMembers fuel rest
      return (.object members, rest)
  | _, '"' :: rest => do
    let (s, rest) ← readString rest
    return (.string s, rest)
  | _, 'n' :: 'u' :: 'l' :: 'l' :: rest => some (.null, rest)
  | _, 't' :: 'r' :: 'u' :: 'e' :: rest => some (.bool true, rest)
  | _, 'f' :: 'a' :: 'l' :: 's' :: 'e' :: rest => some (.bool false, rest)
  | _, cs => do
    let (n, rest) ← readNumber cs
    return (.number n, rest)

/-- The items of an array up to its end. -/
def readItems (fuel : Nat) (cs : List Char) : Option (List Json × List Char) :=
  match fuel with
  | 0 => none
  | fuel + 1 => do
    let (v, rest) ← readValue fuel cs
    match skip rest with
    | ']' :: rest => return ([v], rest)
    | ',' :: rest => do
      let (vs, rest) ← readItems fuel rest
      return (v :: vs, rest)
    | _ => none

/-- The members of an object up to its end. -/
def readMembers (fuel : Nat) (cs : List Char) : Option (List (List Char × Json) × List Char) :=
  match fuel, skip cs with
  | fuel + 1, '"' :: rest => do
    let (name, rest) ← readString rest
    match skip rest with
    | ':' :: rest => do
      let (v, rest) ← readValue fuel rest
      match skip rest with
      | '\x7d' :: rest => return ([(name, v)], rest)
      | ',' :: rest => do
        let (ms, rest) ← readMembers fuel rest
        return ((name, v) :: ms, rest)
      | _ => none
    | _ => none
  | _, _ => none

end

/-- The value of a text that holds nothing else. Every level takes up a character, so that the
text's length bounds the depth. -/
def ofText? (s : String) : Option Json := do
  let cs := s.toList
  let (v, rest) ← readValue (2 * cs.length + 2) cs
  if (skip rest).isEmpty then some v else none

/-! ## Writing -/

/-- Parts with commas between them. -/
def commas : List (List Char) → List Char
  | [] => []
  | [x] => x
  | x :: xs => x ++ ',' :: commas xs

mutual

/-- The characters of a value, without white space. -/
def chars : Json → List Char
  | .null => ['n', 'u', 'l', 'l']
  | .bool true => ['t', 'r', 'u', 'e']
  | .bool false => ['f', 'a', 'l', 's', 'e']
  | .number n => n
  | .string e => '"' :: e ++ ['"']
  | .array items => '[' :: commas (itemChars items) ++ [']']
  | .object members => '\x7b' :: commas (memberChars members) ++ ['\x7d']

def itemChars : List Json → List (List Char)
  | [] => []
  | v :: vs => chars v :: itemChars vs

def memberChars : List (List Char × Json) → List (List Char)
  | [] => []
  | m :: ms => ('"' :: m.1 ++ '"' :: ':' :: chars m.2) :: memberChars ms

end

/-- The text of a value, without white space. -/
def text (v : Json) : String := String.ofList v.chars

end Json

end Federate.Text
