import TestSelection.Json.Token

/-!
# A JSON text as a tree

`Tree.read` builds a tree from any text. Where the text stops being JSON, the tree has a node
`Tree.broken`, and nothing of the text after it is in the tree. A reader that walks the tree in
the order of the text therefore meets the faults of the text and the faults of its content in the
order in which they were written, and can report the first.

A token without a value becomes `Tree.unreadable`. A reader that has no use for that place may
pass over it, so a text with such tokens can still be read by someone who does not look at them.
-/

namespace TestSelection.Json

/-- A JSON text, as far as it could be read. -/
inductive Tree where
  | null
  | bool (b : Bool)
  | number (n : Value)
  | string (s : String)
  | array (items : List Tree)
  /-- A key without a value is `none`. -/
  | table (entries : List (Option String × Tree))
  /-- A number or string without a value. -/
  | unreadable
  /-- From here on, the text is not JSON. -/
  | broken
deriving Inhabited

namespace Tree

mutual

/-- The value that the tokens start with, and the tokens after it unless the text broke off. The
first argument bounds the number of steps. -/
def value : Nat → List Token → Tree × Option (List Token)
  | 0, _ => (.broken, none)
  | steps + 1, tokens =>
    match tokens with
    | .null :: rest => (.null, some rest)
    | .bool b :: rest => (.bool b, some rest)
    | .number (some n) :: rest => (.number n, some rest)
    | .number none :: rest => (.unreadable, some rest)
    | .string (some s) :: rest => (.string s, some rest)
    | .string none :: rest => (.unreadable, some rest)
    | .openArray :: .closeArray :: rest => (.array [], some rest)
    | .openArray :: rest => let (ts, rest) := items steps rest; (.array ts, rest)
    | .openTable :: .closeTable :: rest => (.table [], some rest)
    | .openTable :: rest => let (es, rest) := entries steps rest; (.table es, rest)
    | _ => (.broken, none)

/-- One or more items, and the tokens after the closing bracket. -/
def items : Nat → List Token → List Tree × Option (List Token)
  | 0, _ => ([.broken], none)
  | steps + 1, tokens =>
    match value steps tokens with
    | (t, some (.comma :: rest)) => let (ts, rest) := items steps rest; (t :: ts, rest)
    | (t, some (.closeArray :: rest)) => ([t], some rest)
    | (t, some _) => ([t, .broken], none)
    | (t, none) => ([t], none)

/-- One or more entries, and the tokens after the closing brace. -/
def entries : Nat → List Token → List (Option String × Tree) × Option (List Token)
  | 0, _ => ([(none, .broken)], none)
  | steps + 1, tokens =>
    match tokens with
    | .string k :: .colon :: rest =>
      match value steps rest with
      | (t, some (.comma :: rest)) => let (es, rest) := entries steps rest; ((k, t) :: es, rest)
      | (t, some (.closeTable :: rest)) => ([(k, t)], some rest)
      | (t, some _) => ([(k, t), (none, .broken)], none)
      | (t, none) => ([(k, t)], none)
    | .string k :: _ => ([(k, .broken)], none)
    | _ => ([(none, .broken)], none)

end

end Tree

/-- A JSON text: its tree, and whether nothing but white space follows it. -/
structure Document where
  root : Tree
  complete : Bool

namespace Document

/-- Put the tokens of a text together. -/
def ofTokens (tokens : List Token) : Document :=
  match Tree.value (2 * tokens.length + 2) tokens with
  | (root, some []) => ⟨root, true⟩
  | (root, _) => ⟨root, false⟩

/-- Read characters, where `none` stands for bytes that are no character. -/
def ofChars (text : List (Option Char)) : Document := ofTokens (Token.scan text)

/-- Read a text. -/
def ofString (text : String) : Document := ofChars (text.toList.map some)

end Document

end TestSelection.Json
