import PacedFeed.Json.Token
import PacedFeed.Datum

namespace PacedFeed

-- A document. Members of an object stay in order, repeated names included.
inductive Json where
  | null
  | bool (value : Bool)
  | number (numeral : Json.Numeral)
  | string (content : Option String)
  | array (items : List Json)
  | object (members : List (Option String × Json))

namespace Json

instance : Inhabited Json := ⟨.null⟩

-- A container that is not closed yet. What it holds so far is kept newest first.
inductive Open where
  | array (items : List Json)
  | object (members : List (Option String × Json))
  | member (members : List (Option String × Json)) (name : Option String)

-- What may come next: a value; a value or the end of an empty array; a name or the end of an
-- empty object; a name; a colon; a comma or the end of the container; nothing more.
inductive Reader where
  | atValue (outer : List Open)
  | atFirstItem (outer : List Open)
  | atFirstName (members : List (Option String × Json)) (outer : List Open)
  | atName (members : List (Option String × Json)) (outer : List Open)
  | atColon (members : List (Option String × Json)) (name : Option String) (outer : List Open)
  | atEnd (container : Open) (outer : List Open)
  | done (document : Json)

namespace Reader

-- Puts a finished value into the innermost open container.
def place (value : Json) : List Open → Option Reader
  | [] => some (.done value)
  | .array items :: outer => some (.atEnd (.array (value :: items)) outer)
  | .member members name :: outer => some (.atEnd (.object ((name, value) :: members)) outer)
  | .object _ :: _ => none

-- Begins the value that a token starts.
def begin (token : Token) (outer : List Open) : Option Reader :=
  match token with
  | .null => place .null outer
  | .bool value => place (.bool value) outer
  | .number numeral => place (.number numeral) outer
  | .string content => place (.string content) outer
  | .openArray => some (.atFirstItem outer)
  | .openObject => some (.atFirstName [] outer)
  | _ => none

def step (token : Token) : Reader → Option Reader
  | .atValue outer => begin token outer
  | .atFirstItem outer =>
    if token = .closeArray then place (.array []) outer else begin token (.array [] :: outer)
  | .atFirstName members outer =>
    match token with
    | .closeObject => place (.object members.reverse) outer
    | .string content => some (.atColon members content outer)
    | _ => none
  | .atName members outer =>
    match token with
    | .string content => some (.atColon members content outer)
    | _ => none
  | .atColon members name outer =>
    if token = .colon then some (.atValue (.member members name :: outer)) else none
  | .atEnd (.array items) outer =>
    match token with
    | .comma => some (.atValue (.array items :: outer))
    | .closeArray => place (.array items.reverse) outer
    | _ => none
  | .atEnd (.object members) outer =>
    match token with
    | .comma => some (.atName members outer)
    | .closeObject => place (.object members.reverse) outer
    | _ => none
  | .atEnd (.member ..) _ => none
  | .done _ => none

def run : List Token → Reader → Option Reader
  | [], reader => some reader
  | token :: rest, reader => (step token reader).bind (run rest)

end Reader

def ofTokens? (tokens : List Token) : Option Json :=
  match Reader.run tokens (.atValue []) with
  | some (.done document) => some document
  | _ => none

-- Reads a text that is one document with nothing but space around it.
def parse? (text : String) : Option Json :=
  (Token.scan? text.toList).bind ofTokens?

mutual

def tokens : Json → List Token
  | .null => [.null]
  | .bool value => [.bool value]
  | .number numeral => [.number numeral]
  | .string content => [.string content]
  | .array items => .openArray :: itemTokens items ++ [.closeArray]
  | .object members => .openObject :: memberTokens members ++ [.closeObject]

def itemTokens : List Json → List Token
  | [] => []
  | [item] => item.tokens
  | item :: rest => item.tokens ++ .comma :: itemTokens rest

def memberTokens : List (Option String × Json) → List Token
  | [] => []
  | [(name, value)] => .string name :: .colon :: value.tokens
  | (name, value) :: rest =>
    .string name :: .colon :: value.tokens ++ .comma :: memberTokens rest

end

def render (document : Json) : String :=
  String.ofList (document.tokens.flatMap Token.text)

def ofNat (n : Nat) : Json :=
  .number (.ofNat n)

-- A number that is not finite has no written form.
def ofDouble : Double → Json
  | .finite negative rank _ => .number (.ofMagnitude negative rank)
  | _ => .null

end Json

mutual

def Datum.toJson : Datum → Json
  | .flag value => .bool value
  | .count value => .ofNat value
  | .real value => .ofDouble value
  | .name value => .string (some value)
  | .group fields => .object (Datum.membersOf fields)

def Datum.membersOf : List (String × Datum) → List (Option String × Json)
  | [] => []
  | (key, datum) :: rest => (some key, datum.toJson) :: Datum.membersOf rest

end

end PacedFeed
