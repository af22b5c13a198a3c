/-!
Documents: the values that a data format such as YAML or JSON can write down. The members of a
record keep their order.
-/

namespace Provenance

inductive Document where
  | null
  | bool (b : Bool)
  | int (n : Int)
  | float (x : Float)
  | text (s : String)
  | list (items : List Document)
  | record (members : List (String × Document))

end Provenance
