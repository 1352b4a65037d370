import QueryLayer.Data.Dict

/-! # Files under paths

What a path leads to from a working directory. A path is walked name by name: a point stays in the
directory, two points go to the one above, and only directories can be gone through, so a path that
goes on behind a file leads nowhere.
-/
namespace QueryLayer

/-- What stands under a path. -/
inductive FileView where
  | absent
  /-- Something that is no text. -/
  | unreadable
  | content (text : String)
deriving DecidableEq

/-- The directories that a path can go through. -/
inductive Directory where
  /-- The working directory or one below it. -/
  | below (names : List String)
  | root
  /-- Another directory, of which only the one above is known. -/
  | elsewhere
deriving DecidableEq

namespace Directory

/-- The directory above; the root is above itself. -/
def parent : Directory → Directory
  | below [] => elsewhere
  | below names => below names.dropLast
  | root => root
  | elsewhere => elsewhere

/-- The directories that every system has at its root. -/
def standardNames : List String :=
  ["bin", "dev", "etc", "home", "lib", "opt", "proc", "root", "run", "sbin", "srv", "sys", "tmp",
    "usr", "var"]

/-- What the rest of a path leads to, in a working directory with these files and no others. -/
def walk (files : Dict String) : Directory → List String → FileView
  | _, [] => .unreadable
  | d, name :: rest =>
    if name = "" ∨ name = "." then d.walk files rest
    else if name = ".." then d.parent.walk files rest
    else match d with
      | below names =>
        let path := String.intercalate "/" (names ++ [name])
        match files.get? path with
        | some text => if rest.isEmpty then .content text else .absent
        | none =>
          if files.keys.any fun file => file.startsWith (path ++ "/") then
            (below (names ++ [name])).walk files rest
          else .absent
      | root => if standardNames.contains name then elsewhere.walk files rest else .absent
      | elsewhere => .absent

end Directory

/-- What stands under a path in a directory that holds nothing but these files. -/
def FileView.among (files : Dict String) (path : String) : FileView :=
  if path.isEmpty then .absent
  else
    let start : Directory := if path.startsWith "/" then .root else .below []
    start.walk files (path.splitOn "/")

end QueryLayer
