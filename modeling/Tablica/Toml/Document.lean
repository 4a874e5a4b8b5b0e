/-!
# Tables of a TOML document

A TOML document is a tree of tables, built up while its lines are read: a line may
put a key into the current table, or open a table by its path.  TOML is strict about
who may add to a table afterwards, so every table remembers how it came to be:

* a table that exists only because a header named something below it is **implicit**,
  and a later header may still define it;
* a table that exists because of a dotted key is **dotted** (and implicit as well), and
  further dotted keys may add to it, but no header may define it;
* a table defined by a header, and an inline table, are complete in themselves.

A path that meets an array of tables, be it the path of a header or of a dotted key, goes
on in the last element, and there the same holds.

What a table finally holds is all that matters to a reader of the document, and of
numbers and dates only that they are well formed.

* `Item`, `Entries` — the tree;
* `Entries.descend` — changing the table at a path;
* `Entries.define`, `Entries.startTable`, `Entries.startElement` — the effect of a key, of a
  header and of a header in double brackets.
-/

namespace Tablica.Toml

/-- What a key can stand for.  The elements of an array of tables are kept last first. -/
inductive Item
  | text (value : String)
  | boolean (value : Bool)
  | integer (value : Int)
  | decimal
  | moment
  | array (items : List Item)
  | inline (entries : List (String × Item))
  | table (isImplicit isDotted : Bool) (entries : List (String × Item))
  | tables (elements : List (List (String × Item)))
deriving Inhabited

/-- The keys of a table, in the order in which they were defined. -/
abbrev Entries := List (String × Item)

namespace Entries

/-- Puts an item in place of the one that a key stands for. -/
def replace (entries : Entries) (key : String) (item : Item) : Entries :=
  entries.map fun entry => if entry.1 = key then (key, item) else entry

/-- Changes the table at a path, which goes through an array of tables by its last element.
`isDotted` says whether the path is that of a dotted key; `change` is told whether the table it
changes is a dotted one. -/
def descend (isDotted : Bool) (change : Bool → Entries → Option Entries) :
    List String → Bool → Entries → Option Entries
  | [], here, entries => change here entries
  | key :: path, _, entries =>
    match entries.lookup key with
    | none =>
      (descend isDotted change path isDotted []).map fun child =>
        entries ++ [(key, .table true isDotted child)]
    | some (.table isImplicit dotted child) =>
      if isDotted && !isImplicit then none
      else
        (descend isDotted change path dotted child).map fun child =>
          entries.replace key (.table isImplicit dotted child)
    | some (.tables (last :: earlier)) =>
      (descend isDotted change path false last).map fun last =>
        entries.replace key (.tables (last :: earlier))
    | some _ => none

/-- Defines a dotted key, which is a path and a last key, below a table. -/
def define (path : List String) (key : String) (item : Item) (entries : Entries) :
    Option Entries :=
  descend true (fun isDotted entries =>
    if isDotted == path.isEmpty || (entries.lookup key).isSome then none
    else some (entries ++ [(key, item)])) path false entries

/-- Opens the table that a header names. -/
def startTable (path : List String) (key : String) (root : Entries) : Option Entries :=
  descend false (fun _ entries =>
    match entries.lookup key with
    | none => some (entries ++ [(key, .table false false [])])
    | some (.table true false child) => some (entries.replace key (.table false false child))
    | some _ => none) path false root

/-- Opens a further element of the array of tables that a header names. -/
def startElement (path : List String) (key : String) (root : Entries) : Option Entries :=
  descend false (fun _ entries =>
    match entries.lookup key with
    | none => some (entries ++ [(key, .tables [[]])])
    | some (.tables elements) => some (entries.replace key (.tables ([] :: elements)))
    | some _ => none) path false root

/-- Defines a dotted key in the table that the last header opened. -/
def defineIn (current path : List String) (key : String) (item : Item) (root : Entries) :
    Option Entries :=
  descend false (fun _ entries => entries.define path key item) current false root

/-- A plain key is defined exactly where it is not defined yet. -/
theorem define_nil (key : String) (item : Item) (entries : Entries) :
    entries.define [] key item
      = if (entries.lookup key).isSome then none else some (entries ++ [(key, item)]) := by
  simp only [define, descend]
  cases (entries.lookup key).isSome <;> rfl

end Entries

end Tablica.Toml
