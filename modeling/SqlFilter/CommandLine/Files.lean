/-! Files held in memory, by their paths, and what a file system says on looking for one. -/
namespace SqlFilter.CommandLine

inductive FileFault
  | noSuchFile
  | notADirectory
  | isADirectory
  | nameTooLong
  | permissionDenied
  | notText
  deriving DecidableEq, Repr

def FileFault.reason : FileFault → String
  | .noSuchFile => "No such file or directory (os error 2)"
  | .notADirectory => "Not a directory (os error 20)"
  | .isADirectory => "Is a directory (os error 21)"
  | .nameTooLong => "File name too long (os error 36)"
  | .permissionDenied => "Permission denied (os error 13)"
  | .notText => "stream did not contain valid UTF-8"

inductive Entry
  | file (content : String)
  | directory
  deriving DecidableEq, Repr

/-- Files by their paths from the working directory. -/
abbrev Files := List (String × String)

namespace Files

def greatestName : Nat := 255

def greatestPath : Nat := 4095

def parts (path : String) : List String := (path.toList.splitOn '/').map .ofList

/-- What stands at the parts of a path, none of them empty or a dot. -/
def entry? (files : Files) (path : List String) : Option Entry :=
  match files.find? fun f => (parts f.1).filter (!·.isEmpty) == path with
  | some f => some (.file f.2)
  | none =>
    if path.isEmpty ∨ files.any fun f => path.isPrefixOf ((parts f.1).filter (!·.isEmpty)) then
      some .directory
    else none

/-- The directory above one. Above the working directory nothing is known but directories. -/
def above : Option (List String) → Option (List String)
  | none | some [] => none
  | some directory => some directory.dropLast

def follow (files : Files) (directory : Option (List String)) :
    List String → Except FileFault Entry
  | [] => .ok .directory
  | name :: rest =>
    if name = "" ∨ name = "." then follow files directory rest
    else if name = ".." then follow files (above directory) rest
    else if greatestName < name.utf8ByteSize then .error .nameTooLong
    else
      match directory.bind fun d => (files.entry? (d ++ [name])).map (d ++ [name], ·) with
      | none => .error .noSuchFile
      | some (path, .directory) => follow files (some path) rest
      | some (_, .file content) =>
        if rest.isEmpty then .ok (.file content) else .error .notADirectory

/-- What a path leads to. The empty path leads nowhere. -/
def find (files : Files) (path : String) : Except FileFault Entry :=
  if greatestPath < path.utf8ByteSize then .error .nameTooLong
  else
    match path.toList with
    | [] => .error .noSuchFile
    | '/' :: _ => files.follow none (parts path)
    | _ => files.follow (some []) (parts path)

def read (files : Files) (path : String) : Except FileFault String :=
  match files.find path with
  | .ok (.file content) => .ok content
  | .ok .directory => .error .isADirectory
  | .error fault => .error fault

end Files

end SqlFilter.CommandLine
