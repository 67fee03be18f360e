import PluginHost.Decimal.Binary64
import PluginHost.Table

/-!
# The nodes of a TOML document

* `Node`: a value, a table or an array of tables.
* `Opening`: how a table came into being, which decides what may still be added to it.
* `Members`: the keys of a table with their nodes, in the order in which the keys came.
-/

namespace PluginHost.Toml

set_option autoImplicit false

open PluginHost.Decimal

inductive Opening where
  /-- By its own header, or between braces. -/
  | header
  /-- On the way to a longer header. -/
  | implied
  /-- By a dotted key. -/
  | dotted
  deriving Repr, DecidableEq

inductive Node where
  | text (s : String)
  | integer (n : Int)
  | float (x : Binary64)
  | boolean (b : Bool)
  /-- A date, a time, or both. -/
  | moment
  | array (items : List Node)
  /-- A table between braces, or one made by a dotted key between braces. -/
  | inline (opening : Opening) (members : List (String × Node))
  | table (opening : Opening) (members : List (String × Node))
  /-- The tables of an array of tables, each with its members. -/
  | tables (elements : List (Opening × List (String × Node)))

abbrev Members := Table String Node

end PluginHost.Toml
