/-!
# Values of a document

The data that a document holds once its notation is gone. JSON and TOML documents, and the
settings of a configuration, are all read into a `Value`, and all that is written as JSON is
first put into one.
-/

namespace TestSelection

/-- A value: a scalar, a list of values, or a table in the order of its entries. -/
inductive Value where
  | null
  | bool (b : Bool)
  | int (n : Int)
  | float (x : Float)
  | string (s : String)
  | array (items : List Value)
  | table (entries : List (String × Value))
deriving Inhabited

end TestSelection
