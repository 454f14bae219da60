/-
  A working folder, and reading a file in it by path.

  A path is followed from the left, one component at a time, from the working folder or, if it
  starts with a slash, from the root.  Empty components and `.` stay where they are, `..` goes up.
  Each component needs a folder to be looked up in, so whatever follows the name of a file is an
  error; a path that ends at a folder is one too.

  What lies outside the working folder is not known: no name is found there, and nothing can be
  put there.
-/
import Offside.Command.Failure
import Offside.Text.Pieces

namespace Offside.Command

/-- The contents of a working folder: files and folders by the components of their paths, from the
    innermost out, and the latest entry first.  A folder that has something in it need not have an
    entry of its own. -/
structure Folder where
  entries : List (List String × Option ByteArray)

/-- Where a path has led so far. -/
inductive Place
  | file (bytes : ByteArray)
  /-- A folder inside the working folder, by its components from the innermost out. -/
  | inside (reversed : List String)
  | outside

namespace Folder

/-- The longest name of a file or folder, in bytes. -/
def maxNameSize : Nat := 255

/-- The longest path, in bytes. -/
def maxPathSize : Nat := 4095

/-- The empty working folder. -/
def empty : Folder := ⟨[]⟩

/-- The components of a path. -/
def components (path : String) : List String := Text.pieces '/' path

/-- Where a path starts. -/
def origin (path : String) : Place :=
  if path.toList.head? = some '/' then .outside else .inside []

/-- Where one more component leads from a folder inside the working folder, or `none` if that is out
    of the working folder. -/
def step? (reversed : List String) (name : String) : Option (List String) :=
  if name = "" ∨ name = "." then some reversed
  else if name = ".." then
    match reversed with
    | [] => none
    | _ :: outer => some outer
  else some (name :: reversed)

/-- Where a path leads if each folder on the way is there, or `none` if it leaves the working
    folder. -/
def locate? (path : String) : Option (List String) :=
  match origin path with
  | .inside start => (components path).foldlM step? start
  | .file _ | .outside => none

/-- Puts a file at a path, or a folder if there are no contents.  What was there is replaced. -/
def put (folder : Folder) (path : String) (contents : Option ByteArray) : Folder :=
  match locate? path with
  | some reversed => ⟨(reversed, contents) :: folder.entries⟩
  | none => folder

/-- What stands at a place inside the working folder. -/
def find? (folder : Folder) (reversed : List String) : Option Place :=
  match folder.entries.find? (·.1 == reversed) with
  | some (_, some bytes) => some (.file bytes)
  | some (_, none) => some (.inside reversed)
  | none =>
    if reversed.isEmpty || folder.entries.any (fun entry => reversed.isSuffixOf entry.1) then
      some (.inside reversed)
    else none

/-- Follows one component from a place. -/
def enter (folder : Folder) (place : Place) (name : String) : Except ReadError Place :=
  match place with
  | .file _ => .error .notFolder
  | .inside reversed =>
    match step? reversed name with
    | none => .ok .outside
    | some next =>
      if maxNameSize < name.utf8ByteSize then .error .nameTooLong
      else
        match folder.find? next with
        | some found => .ok found
        | none => .error .missing
  | .outside =>
    if name = "" ∨ name = "." ∨ name = ".." then .ok .outside
    else if maxNameSize < name.utf8ByteSize then .error .nameTooLong
    else .error .missing

/-- Reads the bytes of the file at a path. -/
def read (folder : Folder) (path : String) : Except ReadError ByteArray := do
  if '\x00' ∈ path.toList then throw .nulInName
  if path = "" then throw .missing
  if maxPathSize < path.utf8ByteSize then throw .nameTooLong
  match ← (components path).foldlM folder.enter (origin path) with
  | .file bytes => return bytes
  | .inside _ | .outside => throw .isFolder

/-! ## Small cases -/

private def sample : Folder :=
  ((empty.put "d/f" (some ⟨#[97]⟩)).put "e" none).put "d/../e/g" (some ⟨#[98]⟩)

example : (sample.read "./d//f").toOption = some ⟨#[97]⟩ := by decide
example : (sample.read "e/g").toOption = some ⟨#[98]⟩ := by decide
example : sample.read "d/f/" matches .error .notFolder := by decide
example : sample.read "d/.." matches .error .isFolder := by decide
example : sample.read "e/none" matches .error .missing := by decide

end Folder

end Offside.Command
