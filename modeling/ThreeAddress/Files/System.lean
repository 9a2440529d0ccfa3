import ThreeAddress.Files.Tree

/-!
# File systems

What the compiler asks of the files around it. A file tree that is passed along is one such file
system; the files of the machine are another.
-/

namespace ThreeAddress

/-- The file operations that a compilation needs. -/
class FileSystem (m : Type → Type) where
  /-- the kind of what a path leads to -/
  stat : String → m (Except FileError FileKind)
  /-- the text of a file -/
  read : String → m (Except FileError String)
  /-- writes a text to a file, which is created if need be -/
  write : String → String → m (Except FileError Unit)

namespace FileTree

/-- A computation on a file tree. -/
abbrev Action := StateM FileTree

instance : FileSystem Action where
  stat path := return (← get).stat path
  read path := return (← get).read path
  write path text := do
    match (← get).write path text with
    | .ok tree =>
      set tree
      return .ok ()
    | .error error => return .error error

end FileTree

end ThreeAddress
