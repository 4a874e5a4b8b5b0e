import Tablica.Toml.Reading

/-!
# Configuration

What a user can configure stands in a TOML file: in the table `log` whether to log in
full, as `debug`, and in the table `parser` how the range symbol is spelled, as
`range-symbol`.  Whatever is left out has a default, and keys that mean nothing here are
passed over.  A table may also be given as a list of its values.

* `Configuration` — the settings and their defaults;
* `Configuration.ofToml?` — the settings of a file, none if the file is not valid.
-/

namespace Tablica

structure Configuration where
  debug : Bool := false
  rangeSymbol : String := "..."
deriving DecidableEq, Repr, Inhabited

namespace Configuration

open Toml (Entries)

/-- A table with a single setting: its value if the table holds it, the default if the table or
the setting is missing, and nothing if either is of the wrong kind. -/
def setting? {α : Type} (table key : String) (value? : Toml.Item → Option α) (default : α)
    (entries : Entries) : Option α :=
  let inside (entries : Entries) : Option α :=
    match entries.lookup key with
    | none => some default
    | some item => value? item
  match entries.lookup table with
  | none => some default
  | some (.table _ _ entries) => inside entries
  | some (.inline entries) => inside entries
  | some (.array []) => some default
  | some (.array (item :: _)) => value? item
  | some .moment => some default
  | some _ => none

/-- The settings that a document makes. -/
def ofToml? (text : String) : Option Configuration := do
  let entries ← Toml.parse text
  let boolean? : Toml.Item → Option Bool
    | .boolean b => some b
    | _ => none
  let text? : Toml.Item → Option String
    | .text s => some s
    | _ => none
  let debug ← setting? "log" "debug" boolean? false entries
  let rangeSymbol ← setting? "parser" "range-symbol" text? "..." entries
  return { debug, rangeSymbol }

/-- The empty file leaves everything at its default. -/
theorem ofToml?_empty : ofToml? "" = some {} := by
  decide

end Configuration

end Tablica
