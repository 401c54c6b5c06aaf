import InkCompositor.Toml.Value

/-!
# Building TOML tables

A table can be written in several places: its parts by dotted keys, its
subtables by headers. What is complete, or is no table, cannot be added to,
and nothing can be written twice.
-/

set_option autoImplicit false

namespace InkCompositor.Toml.Entries

def put (entries : Entries) (key : String) (v : Value) : Entries :=
  if entries.any (·.1 == key) then entries.map fun e => if e.1 == key then (key, v) else e
  else entries ++ [(key, v)]

def assign (v : Value) : List String → Entries → Option Entries
  | [], _ => none
  | [key], entries => if (entries.lookup key).isSome then none else some (entries ++ [(key, v)])
  | key :: path, entries =>
    match entries.lookup key with
    | none => (assign v path []).map fun inner => entries.put key (.table .dottedKey inner)
    | some (.table .dottedKey inner) =>
      (assign v path inner).map fun inner => entries.put key (.table .dottedKey inner)
    | some _ => none

/-- Changes the entry under the last key of a path of tables. Tables missing
on the way are added; of tables written as an array the last one counts. -/
def along (last : Option Value → Option Value) : List String → Entries → Option Entries
  | [], _ => none
  | [key], entries => (last (entries.lookup key)).map (entries.put key)
  | key :: path, entries =>
    match entries.lookup key with
    | none => (along last path []).map fun inner => entries.put key (.table .headerPath inner)
    | some (.table .braces _) => none
    | some (.table origin inner) =>
      (along last path inner).map fun inner => entries.put key (.table origin inner)
    | some (.tables elements) =>
      (along last path (elements.getLastD [])).map fun inner =>
        entries.put key (.tables (elements.dropLast ++ [inner]))
    | some _ => none

def openTable : List String → Entries → Option Entries := along fun
  | none => some (.table .header [])
  | some (.table .headerPath inner) => some (.table .header inner)
  | some _ => none

def openElement : List String → Entries → Option Entries := along fun
  | none => some (.tables [[]])
  | some (.tables elements) => some (.tables (elements ++ [[]]))
  | some _ => none

def assignIn (header path : List String) (v : Value) (entries : Entries) : Option Entries :=
  if header.isEmpty then entries.assign v path
  else
    along (fun
      | some (.table origin inner) => (assign v path inner).map (.table origin)
      | some (.tables elements) =>
        (assign v path (elements.getLastD [])).map fun inner =>
          .tables (elements.dropLast ++ [inner])
      | _ => none) header entries

end InkCompositor.Toml.Entries
