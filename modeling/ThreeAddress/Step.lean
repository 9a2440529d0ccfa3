import ThreeAddress.Log

/-!
# Calls on components with state

The lexer, the symbol table, the program builder and the code generator are values. A call on one
of them that changes it returns a `Step`.
-/

namespace ThreeAddress

/-- What one call on a component with state gives back: the answer, the component after the call,
and the events the call reported, oldest first. -/
structure Step (σ α : Type) where
  answer : α
  next : σ
  events : List Event := []
deriving Repr

end ThreeAddress
