import ThreeAddress.Token

/-!
# Types of variables and values
-/

namespace ThreeAddress

/-- The type of a variable or of a computed value. -/
inductive VarType where
  | integer
  | real
deriving Repr, DecidableEq

namespace VarType

/-- The type a reserved word declares. -/
def ofKeyword? : Keyword → Option VarType
  | .integerWord => some integer
  | .realWord => some real
  | _ => none

/-- The name of a type, which is also its reserved word. -/
def name : VarType → String
  | integer => "integer"
  | real => "real"

/-- The literal a variable of the type starts with. -/
def zero : VarType → String
  | integer => "0"
  | real => "0.0"

/-- The type of an operation on values of two types: real as soon as one of them is. -/
def widen : VarType → VarType → VarType
  | integer, integer => integer
  | _, _ => real

end VarType

end ThreeAddress
