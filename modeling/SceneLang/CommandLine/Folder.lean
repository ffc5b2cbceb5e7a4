/-!
# Folders in memory

A folder holds files under the names on their paths, and the folders on those paths with
them.  A path is followed name by name, and the first step that cannot be made tells why
there is no file at its end.
-/

namespace SceneLang.CommandLine

/-- Why a file cannot be read. -/
inductive ReadFailure where
  | missing
  | denied
  | notDirectory
  | isDirectory
  | nameTooLong
  | notText
deriving DecidableEq, Repr

def ReadFailure.message : ReadFailure → String
  | .missing => "No such file or directory (os error 2)"
  | .denied => "Permission denied (os error 13)"
  | .notDirectory => "Not a directory (os error 20)"
  | .isDirectory => "Is a directory (os error 21)"
  | .nameTooLong => "File name too long (os error 36)"
  | .notText => "stream did not contain valid UTF-8"

/-- Files with the names on their paths. -/
structure Folder where
  files : List (List String × List Char)

/-- Where a path has led so far. -/
inductive Place where
  /-- A folder, by the names that lead to it. -/
  | folder (names : List String)
  | file (content : List Char)
  | outside

namespace Folder

/-- How many bytes a name on a path may have. -/
def nameLimit : Nat := 255

def pathLimit : Nat := 4095

/-- The names on a path, without those that make no step. -/
def namesOn (path : String) : List String :=
  (path.splitOn "/").filter fun name => name ≠ "" ∧ name ≠ "."

def ofFiles (files : List (String × List Char)) : Folder where
  files := files.map fun (path, content) => (namesOn path, content)

def entry? (folder : Folder) (names : List String) : Option Place :=
  match folder.files.find? (·.1 = names) with
  | some (_, content) => some (.file content)
  | none => if folder.files.any (names.isPrefixOf ·.1) then some (.folder names) else none

def step (folder : Folder) (place : Place) (name : String) : Except ReadFailure Place :=
  match place with
  | .file _ => .error .notDirectory
  | place =>
      if name = "" ∨ name = "." then .ok place
      else if nameLimit < name.utf8ByteSize then .error .nameTooLong
      else
        match place with
        | .folder names =>
            if name = ".." then .ok (if names.isEmpty then .outside else .folder names.dropLast)
            else
              match folder.entry? (names ++ [name]) with
              | some found => .ok found
              | none => .error .missing
        | place => if name = ".." then .ok place else .error .missing

def follow (folder : Folder) (path : String) : Except ReadFailure Place :=
  if path = "" then .error .missing
  else if pathLimit < path.utf8ByteSize then .error .nameTooLong
  else
    (path.splitOn "/").foldlM folder.step (if path.startsWith "/" then .outside else .folder [])

def read (folder : Folder) (path : String) : Except ReadFailure (List Char) := do
  match ← folder.follow path with
  | .file content => return content
  | _ => .error .isDirectory

end Folder

end SceneLang.CommandLine
