import Stencil.Settings.Toml.Value

/-!
# Stencil — TOML documents

A document is a list of lines: entries, headers of tables, headers of tables in an array. Tables
come from headers and from dotted keys, and the two do not mix: a table is defined once, a header
may define a table that longer headers implied before, and dotted keys only add to tables that
dotted keys made. On the way there they may pass through tables that headers merely implied, and
through the last table of an array.

* `Toml.read?` — the table of a document, or nothing when the document is not well formed.
-/

namespace Stencil.Toml

open Text Text.Scan

/-- Where a table comes from. -/
inductive Origin where
  /-- A header of its own. -/
  | header
  /-- A longer header. -/
  | implied
  /-- A dotted key. -/
  | dotted
  /-- The header of an item of an array. -/
  | item
  deriving DecidableEq, Repr

/-- What stands under a name while a document is read. -/
inductive Slot where
  | value (d : Datum)
  | table (origin : Origin) (entries : List (String × Slot))
  | tables (items : List (List (String × Slot)))

/-- The entries of a table while a document is read. -/
abbrev Slots := List (String × Slot)

/-- `slots` with `slot` under `name`. -/
def Slots.put (slots : Slots) (name : String) (slot : Slot) : Slots :=
  if (slots.lookup name).isSome then
    slots.map fun entry => if entry.1 == name then (name, slot) else entry
  else slots ++ [(name, slot)]

/-- Which tables a key or a header may lead through and end in, and which it makes on its way. -/
structure Route where
  through : Origin → Bool
  ends    : Origin → Bool
  makes   : Origin

/-- The route of a header: through any table and the last table of an array. -/
def Route.header : Route where
  through _ := true
  ends _    := true
  makes     := .implied

/-- The route of a dotted key: through tables that no header defined, to one that dotted keys
made. -/
def Route.dotted : Route where
  through origin := origin != .header
  ends origin    := origin == .dotted
  makes          := .dotted

/-- Whether a route may enter a table of the given origin, with these names still to go. -/
def Route.enters (route : Route) (origin : Origin) (names : List String) : Bool :=
  if names.length = 1 then route.ends origin else route.through origin

/-- Changes what stands under the last name of a path, going along a route. -/
def Slots.change (route : Route) (last : Option Slot → Option Slot) (slots : Slots) :
    List String → Option Slots
  | [] => none
  | [name] => (last (slots.lookup name)).map fun slot => slots.put name slot
  | name :: names =>
    match slots.lookup name with
    | none =>
      (change route last [] names).map fun inner => slots.put name (.table route.makes inner)
    | some (.table origin inner) =>
      if route.enters origin names then
        (change route last inner names).map fun inner => slots.put name (.table origin inner)
      else none
    | some (.tables items) =>
      if route.enters .item names then
        -- in an array the table begun last is meant
        (change route last (items.getLastD []) names).map fun inner =>
          slots.put name (.tables (items.dropLast ++ [inner]))
      else none
    | some (.value _) => none

/-- Changes the table that a header opened. -/
def Slots.within (f : Slots → Option Slots) (slots : Slots) : List String → Option Slots
  | [] => f slots
  | name :: names =>
    match slots.lookup name with
    | some (.table origin inner) =>
      (within f inner names).map fun inner => slots.put name (.table origin inner)
    | some (.tables items) =>
      (within f (items.getLastD []) names).map fun inner =>
        slots.put name (.tables (items.dropLast ++ [inner]))
    | _ => none

/-- A line of a document. -/
inductive Line where
  | blank
  | entry (key : List String) (d : Datum)
  | table (path : List String)
  | tableItem (path : List String)

/-- A document while it is read: its entries, and the path of the table that is open. -/
structure Draft where
  slots   : Slots := []
  current : List String := []

/-- The draft after one more line. -/
def Draft.add (draft : Draft) : Line → Option Draft
  | .blank => some draft
  | .entry key d =>
    -- a name is given a value once
    let new : Option Slot → Option Slot := fun slot => if slot.isSome then none else some (.value d)
    (draft.slots.within (fun slots => slots.change .dotted new key) draft.current).map
      fun slots => { draft with slots }
  | .table path =>
    let define : Option Slot → Option Slot
      | none => some (.table .header [])
      -- a table that was only implied so far is defined now
      | some (.table .implied inner) => some (.table .header inner)
      | some _ => none
    (draft.slots.change .header define path).map fun slots => { slots, current := path }
  | .tableItem path =>
    let append : Option Slot → Option Slot
      | none => some (.tables [[]])
      | some (.tables items) => some (.tables (items ++ [[]]))
      | some _ => none
    (draft.slots.change .header append path).map fun slots => { slots, current := path }

/-- One line without its end. -/
def line : Scan Line := do
  gap
  let content ← (do
      word "[["
      gap
      let path ← key
      gap
      word "]]"
      return Line.tableItem path) <|> (do
      char '['
      gap
      let path ← key
      gap
      char ']'
      return Line.table path) <|> (do
      let k ← key
      gap
      char '='
      gap
      return Line.entry k (← value deepest)) <|> pure .blank
  gap
  let _ ← Scan.optional comment
  return content

/-- All lines of a document. -/
def lines : Scan (List Line) := do
  let ended ← many do
    let l ← line
    lineEnd
    return l
  return ended ++ [← line]

mutual

/-- The datum of what stands under a name. -/
def Slot.datum : Slot → Datum
  | .value d => d
  | .table _ entries => .table (slotEntries entries)
  | .tables items => .list (slotItems items)
termination_by structural slot => slot

/-- The data of the entries of a table. -/
def slotEntries : List (String × Slot) → List (String × Datum)
  | [] => []
  | (name, slot) :: rest => (name, slot.datum) :: slotEntries rest
termination_by structural entries => entries

/-- The data of the tables of an array. -/
def slotItems : List (List (String × Slot)) → List Datum
  | [] => []
  | entries :: rest => .table (slotEntries entries) :: slotItems rest
termination_by structural items => items

end

/-- A text without the mark of byte order that may stand at its start. -/
def unmarked (text : String) : List Char :=
  match text.toList with
  | '\ufeff' :: cs => cs
  | cs => cs

/-- The table of a document. -/
def read? (text : String) : Option Settings := do
  let all ← whole? lines (unmarked text)
  let draft ← all.foldlM Draft.add {}
  return slotEntries draft.slots

end Stencil.Toml
