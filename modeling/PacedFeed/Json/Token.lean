import PacedFeed.Json.Numeral

namespace PacedFeed.Json

-- A string is `none` when an escape in it names one half of a surrogate pair on its own: it is
-- well formed, yet stands for no text.
inductive Token where
  | openArray
  | closeArray
  | openObject
  | closeObject
  | comma
  | colon
  | null
  | bool (value : Bool)
  | number (numeral : Numeral)
  | string (content : Option String)
  deriving DecidableEq

namespace Token

-- A piece of a written string: a character, or the code of a `\u` escape.
inductive Piece where
  | char (value : Char)
  | code (value : Nat)

def hexDigit? (c : Char) : Option Nat :=
  if c.isDigit then some (c.toNat - '0'.toNat)
  else if 'a' ≤ c ∧ c ≤ 'f' then some (c.toNat - 'a'.toNat + 10)
  else if 'A' ≤ c ∧ c ≤ 'F' then some (c.toNat - 'A'.toNat + 10)
  else none

def code? (a b c d : Char) : Option Nat := do
  let a ← hexDigit? a
  let b ← hexDigit? b
  let c ← hexDigit? c
  let d ← hexDigit? d
  return ((a * 16 + b) * 16 + c) * 16 + d

def escaped? : Char → Option Char
  | '"' => some '"'
  | '\\' => some '\\'
  | '/' => some '/'
  | 'b' => some '\x08'
  | 'f' => some '\x0c'
  | 'n' => some '\n'
  | 'r' => some '\r'
  | 't' => some '\t'
  | _ => none

-- The pieces up to the closing quote, and what follows it.
def pieces? : List Char → Option (List Piece × List Char)
  | [] => none
  | '"' :: rest => some ([], rest)
  | '\\' :: 'u' :: a :: b :: c :: d :: rest =>
    match code? a b c d, pieces? rest with
    | some code, some (pieces, after) => some (.code code :: pieces, after)
    | _, _ => none
  | '\\' :: c :: rest =>
    match escaped? c, pieces? rest with
    | some value, some (pieces, after) => some (.char value :: pieces, after)
    | _, _ => none
  | c :: rest =>
    if c < ' ' ∨ c = '\\' then none
    else
      match pieces? rest with
      | some (pieces, after) => some (.char c :: pieces, after)
      | none => none

def isHighHalf (code : Nat) : Bool :=
  0xd800 ≤ code ∧ code < 0xdc00

def isLowHalf (code : Nat) : Bool :=
  0xdc00 ≤ code ∧ code < 0xe000

-- The text of the pieces, two halves in a row making one character.
def content? : List Piece → Option (List Char)
  | [] => some []
  | .char c :: rest => (content? rest).map (c :: ·)
  | .code high :: .code low :: rest =>
    if isHighHalf high ∧ isLowHalf low then
      (content? rest).map (Char.ofNat (0x10000 + (high - 0xd800) * 0x400 + (low - 0xdc00)) :: ·)
    else if isHighHalf high ∨ isLowHalf high then none
    else (content? (.code low :: rest)).map (Char.ofNat high :: ·)
  | .code code :: rest =>
    if isHighHalf code ∨ isLowHalf code then none
    else (content? rest).map (Char.ofNat code :: ·)

theorem length_of_pieces? {text after : List Char} {pieces : List Piece}
    (h : pieces? text = some (pieces, after)) : after.length < text.length := by
  fun_induction pieces? text generalizing pieces after with
  | case1 => cases h
  | case2 rest =>
    cases h
    simp
  | case3 a b c d rest code pieces' after' hp hc ih =>
    cases h
    have := ih hp
    simp only [List.length_cons]
    omega
  | case4 => cases h
  | case5 c rest _ value pieces' after' hp hc ih =>
    cases h
    have := ih hp
    simp only [List.length_cons]
    omega
  | case6 => cases h
  | case7 => cases h
  | case8 c rest _ _ _ _ pieces' after' hp ih =>
    cases h
    have := ih hp
    simp only [List.length_cons]
    omega
  | case9 => cases h

def isSpace (c : Char) : Bool :=
  c = ' ' ∨ c = '\t' ∨ c = '\n' ∨ c = '\r'

def punctuation? : Char → Option Token
  | '[' => some .openArray
  | ']' => some .closeArray
  | '{' => some .openObject
  | '}' => some .closeObject
  | ',' => some .comma
  | ':' => some .colon
  | _ => none

-- Characters of literals and numbers. No two of these words can stand side by side in a
-- document, so a word reaches as far as it can.
def isWordChar (c : Char) : Bool :=
  !isSpace c && (punctuation? c).isNone && c != '"'

def word? (word : List Char) : Option Token :=
  if word = "null".toList then some .null
  else if word = "true".toList then some (.bool true)
  else if word = "false".toList then some (.bool false)
  else (Numeral.ofText? word).map .number

-- Splits a text into tokens, dropping the space between them.
def scan? : List Char → Option (List Token)
  | [] => some []
  | c :: rest =>
    if isSpace c then scan? rest
    else if c = '"' then
      match h : pieces? rest with
      | none => none
      | some (pieces, after) =>
        have := length_of_pieces? h
        (scan? after).map (.string ((content? pieces).map String.ofList) :: ·)
    else
      match punctuation? c with
      | some token => (scan? rest).map (token :: ·)
      | none =>
        match word? (c :: rest.takeWhile isWordChar) with
        | none => none
        | some token =>
          have := (List.dropWhile_sublist isWordChar (l := rest)).length_le
          (scan? (rest.dropWhile isWordChar)).map (token :: ·)
termination_by text => text.length
decreasing_by all_goals (simp only [List.length_cons]; omega)

def hexText (n : Nat) : List Char :=
  let digits := Nat.toDigits 16 n
  List.replicate (4 - digits.length) '0' ++ digits

def escape (c : Char) : List Char :=
  if c = '"' then ['\\', '"']
  else if c = '\\' then ['\\', '\\']
  else if c = '\x08' then ['\\', 'b']
  else if c = '\x0c' then ['\\', 'f']
  else if c = '\n' then ['\\', 'n']
  else if c = '\r' then ['\\', 'r']
  else if c = '\t' then ['\\', 't']
  else if c < ' ' then '\\' :: 'u' :: hexText c.toNat
  else [c]

def text : Token → List Char
  | .openArray => ['[']
  | .closeArray => [']']
  | .openObject => ['\x7b']
  | .closeObject => ['\x7d']
  | .comma => [',']
  | .colon => [':']
  | .null => "null".toList
  | .bool true => "true".toList
  | .bool false => "false".toList
  | .number numeral => numeral.text
  | .string (some content) => '"' :: content.toList.flatMap escape ++ ['"']
  | .string none => "\"\\ud800\"".toList

end Token

end PacedFeed.Json
