import Canopen.Number.Binary
/-!
# TOML values and tables

A table can be built up in several places of a text. How it came to be decides what may still be
added to it: a table with a header of its own takes keys once; one that only stands in the way to
another can get a header later; one made by a dotted key takes further dotted keys; and one written
inline takes nothing any more.
-/
namespace Canopen

open Canopen.Number

namespace Toml

inductive Origin where
  | header
  | path
  | dotted
  | inline
  deriving DecidableEq, Repr

end Toml

inductive Toml where
  | str (s : String)
  | int (v : Int)
  | float (x : Binary64)
  | bool (b : Bool)
  | time (text : String)
  | array (items : List Toml)
  | table (origin : Toml.Origin) (members : List (String × Toml))
  | tables (items : List (List (String × Toml)))
  deriving Repr

namespace Toml

/-- The members of a table, in the order in which they were written. -/
abbrev Members := List (String × Toml)

/-- Sets the value of a key that is there already, or adds it at the end. -/
def set (key : String) (value : Toml) : Members → Members
  | [] => [(key, value)]
  | (k, v) :: rest => if k = key then (k, value) :: rest else (k, v) :: set key value rest

/-- Changes the table at a path; `dotted` tells whether the path is that of a dotted key or that of a
header. Tables that are missing on the way are made. -/
def update (dotted : Bool) (change : Origin → Members → Option Members) :
    List String → Origin → Members → Option Members
  | [], origin, members => change origin members
  | key :: path, _, members =>
    match members.lookup key with
    | none =>
      let origin := if dotted then Origin.dotted else .path
      (update dotted change path origin []).map fun inner => set key (.table origin inner) members
    | some (.table origin inner) =>
      if origin = .inline || (dotted && origin = .header) then none
      else
        (update dotted change path origin inner).map fun inner =>
          set key (.table origin inner) members
    | some (.tables items) =>
      match items.reverse with
      | [] => none
      | last :: earlier =>
        (update dotted change path .header last).map fun inner =>
          set key (.tables (inner :: earlier).reverse) members
    | some _ => none

/-- Adds a key to a table. A table takes a key either directly or by dotted keys, and each key
once. -/
def addKey (path : List String) (key : String) (value : Toml) (origin : Origin)
    (members : Members) : Option Members :=
  update true (fun origin members =>
    if decide (origin = .dotted) = path.isEmpty then none
    else if (members.lookup key).isSome then none
    else some (members ++ [(key, value)])) path origin members

/-- Opens a table with a header. Only a table that stood in the way to another can be there. -/
def openTable (path : List String) (key : String) (members : Members) : Option Members :=
  update false (fun _ members =>
    match members.lookup key with
    | none => some (members ++ [(key, .table .header [])])
    | some (.table .path inner) => some (set key (.table .header inner) members)
    | some _ => none) path .header members

/-- Opens one more table of an array of tables. -/
def openItem (path : List String) (key : String) (members : Members) : Option Members :=
  update false (fun _ members =>
    match members.lookup key with
    | none => some (members ++ [(key, .tables [[]])])
    | some (.tables items) => some (set key (.tables (items ++ [[]])) members)
    | some _ => none) path .header members

end Toml

end Canopen
