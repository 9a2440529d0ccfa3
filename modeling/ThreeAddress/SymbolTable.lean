import ThreeAddress.Step

/-!
# The symbol table

The declared variables with their types, in the order of their declarations. A name is declared
at most once.
-/

namespace ThreeAddress

/-- A declared variable. -/
structure Symbol where
  name : String
  type : VarType
deriving Repr, DecidableEq

/-- A violation of the declaration rules. -/
inductive DeclarationError where
  | undeclared (name : String)
  | alreadyDeclared (name : String)
deriving Repr, DecidableEq

/-- The text of a violation. -/
def DeclarationError.message : DeclarationError → String
  | undeclared name => s!"variable '{name}' wasn't declared before"
  | alreadyDeclared name => s!"variable '{name}' was already declared"

/-- The declared variables, in order. -/
structure SymbolTable where
  symbols : Array Symbol := #[]
deriving Repr, DecidableEq

namespace SymbolTable

/-- The number of declared variables. -/
def size (t : SymbolTable) : Nat :=
  t.symbols.size

/-- The type of a variable, if it is declared. -/
def lookup? (t : SymbolTable) (name : String) : Option VarType :=
  (t.symbols.find? (·.name = name)).map Symbol.type

/-- Declares a variable. -/
def declare (t : SymbolTable) (name : String) (type : VarType) :
    Step SymbolTable (Except DeclarationError Unit) :=
  match t.lookup? name with
  | some _ => ⟨.error (.alreadyDeclared name), t, []⟩
  | none => ⟨.ok (), ⟨t.symbols.push ⟨name, type⟩⟩, [.declared name type]⟩

end SymbolTable

end ThreeAddress
