import TinyScript.Session.Basic

/-!
# Files as data

A directory as a list of files with their paths, and what reading a path in it gives.
A directory exists as far as some file lies in it. A path can leave the working
directory, by more steps up than down or by starting at the root, and then never leads
to a file, nor back in.
-/

namespace TinyScript.CommandLine

/-- A file and the names that lead to it from the working directory. -/
structure StoredFile where
  path : List String
  content : List UInt8

/-- Where a path has led so far. -/
inductive Spot where
  | file (content : List UInt8)
  | directory (path : List String)
  /-- A directory that does not lie in the working directory; nothing is known to be in it. -/
  | outside

/-- The parts of a path between its slashes. -/
def pathParts (path : String) : List String :=
  (path.toList.splitOn '/').map String.ofList

/-- Whether a part of a path stays where the path has led so far. -/
def stays (name : String) : Bool :=
  name == "" || name == "."

/-- The file that a path inside the working directory is the path of. -/
def StoredFile.ofPath (path : String) (content : List UInt8) : StoredFile :=
  ⟨(pathParts path).filter (!stays ·), content⟩

/-- The directory around a directory; the one around the working directory lies outside. -/
def enclosing (path : List String) : Spot :=
  match path with
  | [] => .outside
  | _ :: _ => .directory path.dropLast

/-- What a name leads to in a directory. -/
def descend (files : List StoredFile) (path : List String) (name : String) :
    Except FileError Spot :=
  let next := path ++ [name]
  match files.find? fun f => f.path == next with
  | some f => .ok (.file f.content)
  | none =>
    if files.any fun f => next.isPrefixOf f.path then .ok (.directory next)
    else .error .notFound

/-- One step along a path. -/
def step (files : List StoredFile) (spot : Spot) (name : String) : Except FileError Spot :=
  match spot with
  | .file _ => .error .notDirectory
  | .outside => if stays name || name == ".." then .ok .outside else .error .notFound
  | .directory path =>
    if stays name then .ok spot
    else if name = ".." then .ok (enclosing path)
    else descend files path name

/-- Where a path starts: at the root, which lies outside, or in the working directory. -/
def startOf (path : String) : Spot :=
  if path.startsWith "/" then .outside else .directory []

/-- What reading a path gives. -/
def readFile (files : List StoredFile) (path : String) : Except FileError (List UInt8) :=
  if path = "" then
    .error .notFound
  else
    match (pathParts path).foldlM (step files) (startOf path) with
    | .ok (.file content) => .ok content
    | .ok (.directory _) => .error .isDirectory
    | .ok .outside => .error .isDirectory
    | .error e => .error e

end TinyScript.CommandLine
