import GeneratorBench.Error

/-!
Files below one folder, and reading them by path. Paths are texts with slashes; `.` and `..` are
followed from folder to folder, so a path through something that is no folder leads nowhere.
-/

namespace GeneratorBench

namespace FilePath

def segments (path : String) : List String := (path.splitOn "/")

def isAbsolute (path : String) : Bool := path.startsWith "/"

def join (base path : String) : String :=
  if isAbsolute path then path
  else if base.isEmpty || base.endsWith "/" then base ++ path
  else base ++ "/" ++ path

def parent (path : String) : String :=
  let outer := (segments path).reverse.drop 1 |>.dropWhile fun s => s == "" || s == "."
  "/".intercalate outer.reverse

end FilePath

structure Files where
  root : String
  /-- What each file holds, by its path below the folder. -/
  contents : List (String × ByteArray)

namespace Files

inductive Place
  /-- A folder, by its segments below the root. -/
  | folder (segments : List String)
  | file (content : ByteArray)
  /-- A folder that holds nothing known. -/
  | elsewhere

def properSegments (path : String) : List String :=
  (FilePath.segments path).filter fun s => s != "" && s != "."

def child (fs : Files) (segments : List String) (name : String) : Except ReadFailure Place :=
  let path := segments ++ [name]
  match fs.contents.find? fun f => properSegments f.1 == path with
  | some (_, content) => .ok (.file content)
  | none =>
    if fs.contents.any fun f => path.isPrefixOf (properSegments f.1) then .ok (.folder path)
    else .error .notFound

def follow (fs : Files) (p : Place) (segment : String) : Except ReadFailure Place :=
  match p with
  | .file _ => .error .notADirectory
  | .elsewhere =>
    if segment == "" || segment == "." || segment == ".." then .ok .elsewhere
    else .error .notFound
  | .folder segments =>
    if segment == "" || segment == "." then .ok p
    else if segment == ".." then
      .ok (if segments.isEmpty then .elsewhere else .folder segments.dropLast)
    else fs.child segments segment

/-- The text of the file at `path`, which starts with the path of the root or lies elsewhere. -/
def read (fs : Files) (path : String) : Except ReadFailure String := do
  let (start, steps) := match FilePath.segments path with
    | first :: rest => if first == fs.root then (Place.folder [], rest) else (.elsewhere, rest)
    | [] => (.elsewhere, [])
  match ← steps.foldlM fs.follow start with
  | .folder _ | .elsewhere => .error .isDirectory
  | .file content =>
    match String.fromUTF8? content with
    | some text => .ok text
    | none => .error .invalidData

end Files

end GeneratorBench
