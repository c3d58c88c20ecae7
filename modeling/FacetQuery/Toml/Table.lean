import FacetQuery.Settings.Value

/-!
# `FacetQuery.Toml.Table` — how the tables of a document grow

While a document is read, its tables remember how they came about, because that decides what may still be
added: a header opens a table once; a table that was only passed through on the way to another may be
opened later; a table that a dotted key made or passed through grows by dotted keys alone. Values, inline
tables among them, are closed.
-/

namespace FacetQuery.Toml

/-- How a table came about. -/
inductive Origin where
  /-- It was passed through by the header of another table. -/
  | passed
  /-- It was opened by its own header. -/
  | header
  /-- A dotted key made it, or passed through it. -/
  | dotted
  deriving DecidableEq, Inhabited

/-- What stands under a key of a document. -/
inductive Node where
  | value (v : SettingValue)
  | table (origin : Origin) (members : List (String × Node))
  /-- An array of tables, the last one open. -/
  | tables (closed : List (List (String × Node))) (last : List (String × Node))
  deriving Inhabited

/-- The members of a table that is not closed. -/
abbrev Members := List (String × Node)

namespace Members

/-- What a table holds under a key. -/
def find? (key : String) (ms : Members) : Option Node := ms.lookup key

/-- A table with a node under a key: in place of what was there, or at the end. -/
def put (key : String) (n : Node) : Members → Members
  | [] => [(key, n)]
  | (k, m) :: ms => if k = key then (k, n) :: ms else (k, m) :: put key n ms

/-- Changes the table that a header names, the last one of an array of tables; what is missing on the way
    is made. -/
def alterAt (f : Members → Option Members) : List String → Members → Option Members
  | [], ms => f ms
  | k :: ks, ms =>
      match find? k ms with
      | none => (alterAt f ks []).map fun sub => put k (.table .passed sub) ms
      | some (.table origin sub) => (alterAt f ks sub).map fun sub' => put k (.table origin sub') ms
      | some (.tables closed last) =>
          (alterAt f ks last).map fun last' => put k (.tables closed last') ms
      | some (.value _) => none

/-- Opens a table. -/
def openTable (key : String) (ms : Members) : Option Members :=
  match find? key ms with
  | none => some (put key (.table .header []) ms)
  | some (.table .passed sub) => some (put key (.table .header sub) ms)
  | some _ => none

/-- Opens one more table of an array. -/
def openItem (key : String) (ms : Members) : Option Members :=
  match find? key ms with
  | none => some (put key (.tables [] []) ms)
  | some (.tables closed last) => some (put key (.tables (closed ++ [last]) []) ms)
  | some _ => none

/-- Gives a key its value; a key has one value only. The tables on the way are made, or are such that no
    header opened them, or are the last of an array; the one that gets the value is none of an array. -/
def assign (v : SettingValue) : List String → Members → Option Members
  | [], _ => none
  | [k], ms =>
      match find? k ms with
      | none => some (put k (.value v) ms)
      | some _ => none
  | k :: ks, ms =>
      match find? k ms with
      | none => (assign v ks []).map fun sub => put k (.table .dotted sub) ms
      | some (.table .header _) => none
      | some (.table _ sub) => (assign v ks sub).map fun sub' => put k (.table .dotted sub') ms
      | some (.tables closed last) =>
          if ks.length < 2 then none
          else (assign v ks last).map fun last' => put k (.tables closed last') ms
      | some (.value _) => none

end Members

mutual

/-- The value that a node stands for. -/
def Node.closed : Node → SettingValue
  | .value v => v
  | .table _ ms => .table (closeMembers ms)
  | .tables before last => .list (closeTables before ++ [.table (closeMembers last)])

/-- The members of a table as values. -/
def closeMembers : List (String × Node) → List (String × SettingValue)
  | [] => []
  | (k, n) :: ms => (k, n.closed) :: closeMembers ms

/-- Tables as values. -/
def closeTables : List (List (String × Node)) → List SettingValue
  | [] => []
  | ms :: more => .table (closeMembers ms) :: closeTables more

end

end FacetQuery.Toml
