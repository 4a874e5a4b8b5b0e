import Tablica.Toml.Document
import Tablica.Toml.Scalar

/-!
# Reading a TOML document

A document is read from the front to the end; the first thing that is not TOML makes
the whole of it invalid.  Values nest, and the nesting is limited; a key has a limited
number of parts.  Everything else is bounded by the length of the text, which serves as
the fuel of the readers below: each of them passes at least one character before it
goes on.

* `readKey`, `readValue` — a key with its dots, a value of any kind;
* `readLine` — one line: nothing, a key with its value, or a header;
* `parse` — a whole document.
-/

namespace Tablica.Toml

/-- How deep values nest, and how many parts a key has, at most. -/
def nestingLimit : Nat := 79

def isSpace (c : Char) : Bool :=
  c == ' ' || c == '\t'

def skipSpaces (cs : List Char) : List Char :=
  cs.dropWhile isSpace

/-- Passes over spaces, line breaks and comments. -/
def skipTrivia : Bool → List Char → Option (List Char)
  | _, [] => some []
  | _, '\n' :: rest => skipTrivia false rest
  | _, '\r' :: '\n' :: rest => skipTrivia false rest
  | true, c :: rest => if isTextChar c then skipTrivia true rest else none
  | false, '#' :: rest => skipTrivia true rest
  | false, c :: rest => if isSpace c then skipTrivia false rest else some (c :: rest)

/-! ### Keys -/

/-- The characters of a key without quotes. -/
def isKeyChar (c : Char) : Bool :=
  c.isAlphanum || c == '_' || c == '-'

/-- A part of a key. -/
def readKeyPart : List Char → Option (String × List Char)
  | '"' :: rest => (readBasic rest).map fun (text, rest) => (String.ofList text, rest)
  | '\'' :: rest => (readLiteral rest).map fun (text, rest) => (String.ofList text, rest)
  | cs =>
    let text := cs.takeWhile isKeyChar
    if text.isEmpty then none else some (String.ofList text, cs.dropWhile isKeyChar)

/-- The parts of a key, as its path and its last part. -/
def readKey : Nat → List Char → Option ((List String × String) × List Char)
  | 0, _ => none
  | fuel + 1, cs => do
    let (part, rest) ← readKeyPart (skipSpaces cs)
    match skipSpaces rest with
    | '.' :: rest =>
      let ((path, last), rest) ← readKey fuel rest
      return ((part :: path, last), rest)
    | rest => return (([], part), rest)

/-! ### Values -/

/-- The characters of a value that is not in quotes or brackets. -/
def isScalarChar (c : Char) : Bool :=
  c.isAlphanum || ['+', '-', '_', '.', ':'].contains c

/-- The characters of an unquoted value, and the rest.  A date may be followed by a space and a
time of day. -/
def spanScalar (cs : List Char) : List Char × List Char :=
  let text := cs.takeWhile isScalarChar
  match cs.dropWhile isScalarChar with
  | ' ' :: c :: rest =>
    if dropDate? text == some [] && c.isDigit then
      (text ++ ' ' :: (c :: rest).takeWhile isScalarChar, (c :: rest).dropWhile isScalarChar)
    else (text, ' ' :: c :: rest)
  | rest => (text, rest)

/-- What an unquoted value denotes. -/
def scalar? (cs : List Char) : Option Item :=
  if cs = ['t', 'r', 'u', 'e'] then some (.boolean true)
  else if cs = ['f', 'a', 'l', 's', 'e'] then some (.boolean false)
  else
    match integer? cs with
    | some n => some (.integer n)
    | none =>
      if isDecimal cs then some .decimal
      else if isMoment cs then some .moment
      else none

mutual

/-- Reads a value.  `depth` is how many brackets may still be opened. -/
def readValue : Nat → Nat → List Char → Option (Item × List Char)
  | 0, _, _ => none
  | fuel + 1, depth, cs =>
    let ofText (read : Option (List Char × List Char)) : Option (Item × List Char) :=
      read.map fun (text, rest) => (.text (String.ofList text), rest)
    match cs with
    | '"' :: '"' :: '"' :: rest => ofText (readLongBasic .plain (dropLineBreak rest))
    | '"' :: rest => ofText (readBasic rest)
    | '\'' :: '\'' :: '\'' :: rest => ofText (readLongLiteral (dropLineBreak rest))
    | '\'' :: rest => ofText (readLiteral rest)
    | '[' :: rest =>
      match depth with
      | 0 => none
      | depth + 1 =>
        (readElements fuel depth rest).map fun (items, rest) => (.array items, rest)
    | '{' :: rest =>
      match depth with
      | 0 => none
      | depth + 1 =>
        match skipSpaces rest with
        | '}' :: rest => some (.inline [], rest)
        | rest => (readPairs fuel depth [] rest).map fun (pairs, rest) => (.inline pairs, rest)
    | cs =>
      let (text, rest) := spanScalar cs
      (scalar? text).map fun item => (item, rest)

/-- Reads the rest of an array. -/
def readElements : Nat → Nat → List Char → Option (List Item × List Char)
  | 0, _, _ => none
  | fuel + 1, depth, cs => do
    match ← skipTrivia false cs with
    | ']' :: rest => return ([], rest)
    | cs =>
      let (item, rest) ← readValue fuel depth cs
      match ← skipTrivia false rest with
      | ',' :: rest =>
        let (items, rest) ← readElements fuel depth rest
        return (item :: items, rest)
      | ']' :: rest => return ([item], rest)
      | _ => none

/-- Reads the rest of an inline table, given its entries so far. -/
def readPairs : Nat → Nat → Entries → List Char → Option (Entries × List Char)
  | 0, _, _, _ => none
  | fuel + 1, depth, entries, cs => do
    let ((path, key), rest) ← readKey nestingLimit cs
    match rest with
    | '=' :: rest =>
      let (item, rest) ← readValue fuel depth (skipSpaces rest)
      let entries ← entries.define path key item
      match skipSpaces rest with
      | ',' :: rest => readPairs fuel depth entries rest
      | '}' :: rest => return (entries, rest)
      | _ => none
    | _ => none

end

/-! ### Lines -/

/-- A document of which some lines are read: its tables, and the path of the current one. -/
structure Reading where
  root : Entries := []
  current : List String := []
deriving Inhabited

/-- Passes over the end of a line, before which a comment may stand. -/
def endLine (cs : List Char) : Option (List Char) :=
  let rest :=
    match skipSpaces cs with
    | '#' :: rest => rest.dropWhile isTextChar
    | rest => rest
  match rest with
  | [] => some []
  | '\n' :: rest => some rest
  | '\r' :: '\n' :: rest => some rest
  | _ => none

/-- What follows a fixed beginning. -/
def after? (start cs : List Char) : Option (List Char) :=
  if start.isPrefixOf cs then some (cs.drop start.length) else none

/-- Reads one line. -/
def readLine (fuel : Nat) (reading : Reading) (cs : List Char) : Option (Reading × List Char) := do
  match skipSpaces cs with
  | [] => return (reading, [])
  | '[' :: '[' :: rest =>
    let ((path, key), rest) ← readKey nestingLimit rest
    let rest ← endLine (← after? [']', ']'] rest)
    return (⟨← reading.root.startElement path key, path ++ [key]⟩, rest)
  | '[' :: rest =>
    let ((path, key), rest) ← readKey nestingLimit rest
    let rest ← endLine (← after? [']'] rest)
    return (⟨← reading.root.startTable path key, path ++ [key]⟩, rest)
  | c :: rest =>
    if c = '#' ∨ c = '\n' ∨ c = '\r' then return (reading, ← endLine (c :: rest))
    let ((path, key), rest) ← readKey nestingLimit (c :: rest)
    let rest ← after? ['='] rest
    let (item, rest) ← readValue fuel nestingLimit (skipSpaces rest)
    let rest ← endLine rest
    return (⟨← reading.root.defineIn reading.current path key item, reading.current⟩, rest)

/-- Reads all lines. -/
def readLines : Nat → Reading → List Char → Option Entries
  | _, reading, [] => some reading.root
  | 0, _, _ :: _ => none
  | fuel + 1, reading, cs =>
    (readLine (cs.length + 1) reading cs).bind fun (reading, rest) => readLines fuel reading rest

/-- The entries of a document, or none if the text is not TOML.  A byte order mark may stand at
its beginning. -/
def parse (text : String) : Option Entries :=
  let cs :=
    match text.toList with
    | '\uFEFF' :: cs => cs
    | cs => cs
  readLines (cs.length + 1) {} cs

end Tablica.Toml
