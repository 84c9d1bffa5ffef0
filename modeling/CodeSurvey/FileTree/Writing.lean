/-
Changing trees of files.

A change gives the tree after it, or says why there is none; the tree before it stays as it was.
Directories on the way to a new file are made first, and what is in the way of one ends the change.
Links are followed as in looking up, so writing to a link writes to the file it leads to.
-/
import CodeSurvey.FileTree

namespace CodeSurvey.FileTree

/-- Set the tree under a name, at the place of the old one or behind all others. -/
def setEntry (name : String) (tree : FileTree) : List (String × FileTree) →
    List (String × FileTree)
  | [] => [(name, tree)]
  | (other, old) :: rest =>
    if other = name then (name, tree) :: rest else (other, old) :: setEntry name tree rest

def put (new : FileTree) : List String → FileTree → FileTree
  | [], _ => new
  | name :: rest, tree =>
    .directory
      (setEntry name (put new rest ((tree.entries.lookup name).getD (.directory [])))
        tree.entries)

/-- Whether a component names something below its directory. -/
def isName (component : String) : Bool :=
  component != "" && component != "." && component != outward

/-- Make a directory in one that is there; a link that leads nowhere is in the way too. -/
def makeEntry (root : FileTree) (above : List String) (name : String) :
    Except FileError FileTree :=
  match root.trace linkLimit [] above with
  | .error e => .error e
  | .ok place =>
    if !place.missing.isEmpty then .error .missing
    else
      match root.at? place.found with
      | some (.directory entries) =>
        if isName name && (entries.lookup name).isNone then
          .ok (put (.directory []) (place.found ++ [name]) root)
        else .error .inTheWay
      | _ => .error .notDirectory

/-- Make a directory in one that is there, unless it is there already. -/
def ensureEntry (root : FileTree) (above : List String) (name : String) :
    Except FileError FileTree :=
  match root.makeEntry above name with
  | .ok made => .ok made
  | .error e => if root.isDirectory (above ++ [name]) then .ok root else .error e

/-- Make a directory and those on the way to it, given its components from the last on. -/
def ensureAll (root : FileTree) : List String → Except FileError FileTree
  | [] => .ok root
  | name :: above =>
    match root.ensureEntry above.reverse name with
    | .error .missing =>
      (ensureAll root above).bind (fun root => root.ensureEntry above.reverse name)
    | result => result

def makeDirectory (root : FileTree) (path : String) : Except FileError FileTree :=
  if path == "/" then .ok root
  else if path.startsWith "/" then .error .missing
  else root.ensureAll ((pathComponents path).filter (· != "")).reverse

/-- Where a file lies that is written through components from a directory on, which follow links.
The last component must not be the name of a directory, nor have a slash behind it. -/
def writingPlace (root : FileTree) (links : Nat) (here : List String) :
    List String → Except FileError (List String)
  | [] => .error .isDirectory
  | name :: rest =>
    match root.at? here with
    | some (.directory entries) =>
      if name == "" || name == "." then writingPlace root links here rest
      else if name == outward then writingPlace root links (around here) rest
      else if !rest.isEmpty && rest.all String.isEmpty then .error .isDirectory
      else
        match entries.lookup name with
        | none => if rest.isEmpty then .ok (here ++ [name]) else .error .missing
        | some (.file _) => if rest.isEmpty then .ok (here ++ [name]) else .error .notDirectory
        | some (.directory _) => writingPlace root links (here ++ [name]) rest
        | some (.link target) =>
          if target.startsWith "/" then .error .missing
          else
            match links with
            | 0 => .error .tooManyLinks
            | links + 1 => writingPlace root links here (pathComponents target ++ rest)
    | _ => .error .notDirectory
termination_by components => (links, components.length)

def write (root : FileTree) (path : String) (bytes : List UInt8) : Except FileError FileTree :=
  if path == "" || path.startsWith "/" then .error .missing
  else
    (root.writingPlace linkLimit [] (pathComponents path)).map
      (fun place => put (.file bytes) place root)

/-- The path of the directory that a path lies in; empty for a name alone.  A component that stands
for its own directory does not count. -/
def parentPath (path : String) : String :=
  let counted := (pathComponents path).filter (fun c => c != "" && c != ".")
  (if path.startsWith "/" then "/" else "") ++ "/".intercalate counted.dropLast

def makeParent (root : FileTree) (path : String) : Except FileError FileTree :=
  root.makeDirectory (parentPath path)

/-- Put a link at a path, in the place of whatever is there. -/
def putLink (root : FileTree) (path target : String) : Except FileError FileTree :=
  let names := (pathComponents path).filter isName
  match (root.trace linkLimit [] names.dropLast), names.getLast? with
  | .ok place, some name => .ok (put (.link target) (place.found ++ place.missing ++ [name]) root)
  | .error e, _ => .error e
  | .ok _, none => .error .isDirectory

/-- What is written to one path. -/
inductive Content where
  | bytes (bytes : List UInt8)
  | link (target : String)
deriving DecidableEq, Repr

/-- Write one path with the directories on the way to it. -/
def add (root : FileTree) (path : String) (content : Content) : Except FileError FileTree :=
  match root.makeParent path with
  | .error e => .error e
  | .ok root =>
    match content with
    | .bytes bytes => root.write path bytes
    | .link target => root.putLink path target

/-- The directory with the given files, the later over the earlier. -/
def ofFiles (files : List (String × Content)) : Except FileError FileTree :=
  files.foldlM (fun root file => root.add file.1 file.2) (.directory [])

end CodeSurvey.FileTree
