/-!
# Files

A run reads two files: the program, and the configuration that lies beside it.  A
**path** is a sequence of names with slashes between them.  An empty name and a dot
stand for the directory they are met in, and two dots for the one above.

* `Path.parent`, `Path.join`, `Path.configuration` — where the configuration lies;
* `FileFault` — why a file cannot be read or written, with the wording;
* `FileFault.decode` — the text that some bytes are, if they are text;
* `Files` — a directory with everything in it, `Files.readText` — reading from it.
-/

namespace Tablica

/-! ## Paths -/

namespace Path

/-- The names of a path. -/
def names (path : List Char) : List (List Char) :=
  match path with
  | [] => [[]]
  | c :: cs =>
    match names cs with
    | [] => [[c]]
    | name :: rest => if c = '/' then [] :: name :: rest else (c :: name) :: rest

/-- A name that stays in its directory. -/
def stays (name : List Char) : Bool :=
  name = [] || name = ['.']

/-- The names without those at the end that stay in their directory. -/
def dropStaying (names : List (List Char)) : List (List Char) :=
  (names.reverse.dropWhile stays).reverse

/-- A path in two parts: a slash or a dot that it starts at, and what follows. -/
def splitStart : List Char → List Char × List Char
  | '/' :: rest => (['/'], rest)
  | ['.'] => (['.'], [])
  | '.' :: '/' :: rest => (['.'], '/' :: rest)
  | path => ([], path)

/-- The directory that holds what a path leads to, as far as the path names one. -/
def parent (path : List Char) : List Char :=
  let (start, rest) := splitStart path
  match dropStaying (names rest) with
  | [] => []
  | inside => start ++ ['/'].intercalate (dropStaying inside.dropLast)

/-- A name within a directory. -/
def join (directory name : List Char) : List Char :=
  if directory = [] || directory.getLast? = some '/' then directory ++ name
  else directory ++ '/' :: name

/-- The configuration for a program. -/
def configuration (program : String) : String :=
  String.ofList (join (parent program.toList) "pdc.toml".toList)

example : configuration "program.pdc" = "pdc.toml" := by decide
example : configuration "./a//b/c.pdc/." = "./a//b/pdc.toml" := by decide
example : configuration "/c.pdc" = "/pdc.toml" := by decide

end Path

/-! ## Faults -/

/-- Why a file cannot be read or written. -/
inductive FileFault
  | notFound | exists | notADirectory | isADirectory | notText
  | other (reason : String)
deriving DecidableEq, Repr, Inhabited

namespace FileFault

def message : FileFault → String
  | notFound => "No such file or directory (os error 2)"
  | .exists => "File exists (os error 17)"
  | notADirectory => "Not a directory (os error 20)"
  | isADirectory => "Is a directory (os error 21)"
  | notText => "stream did not contain valid UTF-8"
  | other reason => reason

/-- The text that is written as the given bytes. -/
def decode (bytes : List UInt8) : Except FileFault String :=
  match String.fromUTF8? ⟨bytes.toArray⟩ with
  | some text => .ok text
  | none => .error notText

end FileFault

/-! ## A directory -/

/-- What a directory can hold. -/
inductive FileEntry
  | file (bytes : List UInt8)
  | directory
deriving DecidableEq, Repr, Inhabited

/-- The directory in which a run starts, with everything in it by its place: the names that lead
there.  Every directory on the way to an entry is there as well, and nothing is known of what
lies outside. -/
structure Files where
  entries : List (List (List Char) × FileEntry)
deriving Inhabited

namespace Files

/-- The directory with the given entries by their paths. -/
def ofPaths (entries : List (String × FileEntry)) : Files where
  entries := entries.map fun (path, entry) =>
    ((Path.names path.toList).filter fun name => !Path.stays name, entry)

/-- What is at a place. -/
def entry? (files : Files) (place : List (List Char)) : Option FileEntry :=
  match files.entries.lookup place with
  | some entry => some entry
  | none =>
    if place = [] || files.entries.any fun (other, _) => place.isPrefixOf other then
      some .directory
    else none

/-- Follows names from a place, or from outside the directory. -/
def follow (files : Files) (place : Option (List (List Char))) :
    List (List Char) → Except FileFault FileEntry
  | [] =>
    match place with
    | none => .ok .directory
    | some place => (files.entry? place).elim (.error .notFound) .ok
  | name :: rest =>
    match place with
    | none =>
      if Path.stays name || name = ['.', '.'] then files.follow none rest
      else .error .notFound
    | some place =>
      match files.entry? place with
      | none => .error .notFound
      | some (.file _) => .error .notADirectory
      | some .directory =>
        if Path.stays name then files.follow (some place) rest
        else if name = ['.', '.'] then
          files.follow (if place = [] then none else some place.dropLast) rest
        else files.follow (some (place ++ [name])) rest

/-- What a path leads to. -/
def find (files : Files) (path : String) : Except FileFault FileEntry :=
  match path.toList with
  | [] => .error .notFound
  | '/' :: rest => files.follow none (Path.names rest)
  | path => files.follow (some []) (Path.names path)

/-- The text of a file. -/
def readText (files : Files) (path : String) : Except FileFault String :=
  match files.find path with
  | .ok (.file bytes) => FileFault.decode bytes
  | .ok .directory => .error .isADirectory
  | .error fault => .error fault

/-- Whether a directory of the given name can be used, which is made if need be. -/
def makeDirectory (files : Files) (name : String) : Except FileFault Unit :=
  match files.entry? [name.toList] with
  | some (.file _) => .error .exists
  | _ => .ok ()

end Files

end Tablica
