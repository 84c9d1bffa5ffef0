/-
Trees of files.

A tree is a file, a link, or a directory of named trees.  A path is looked up component by
component; links on the way are followed, a limited number of times.

Looking up keeps the names that led to where it is, so that a component that leads outward drops one
of them, and a link is followed from the directory that it stands in.  The steps end because a link
uses one up of those that are allowed and any other component makes the path shorter.  Why a path
leads to nothing is told by the fault that a file system has for it, since commands show it.
-/
import CodeSurvey.Text.Chars
import CodeSurvey.Text.Utf8

namespace CodeSurvey

/-- A file, a link or a directory. -/
inductive FileTree where
  | file (bytes : List UInt8)
  /-- The target is a path from the directory that holds the link. -/
  | link (target : String)
  | directory (entries : List (String × FileTree))
deriving Repr, Inhabited

/-- Why a path cannot be used. -/
inductive FileError where
  | missing
  | forbidden
  | isDirectory
  | notDirectory
  /-- Something is in the way of a new directory. -/
  | inTheWay
  | tooManyLinks
  | notText
  /-- Any other fault, by the number it has for the system and in the system's words. -/
  | other (number : Nat) (words : String)
deriving DecidableEq, Repr

namespace FileError

def words : FileError → String
  | missing => "No such file or directory"
  | forbidden => "Permission denied"
  | isDirectory => "Is a directory"
  | notDirectory => "Not a directory"
  | inTheWay => "File exists"
  | tooManyLinks => "Too many levels of symbolic links"
  | notText => "stream did not contain valid UTF-8"
  | other _ words => words

/-- The number of a fault.  Bytes that are no text are no fault of the system. -/
def number? : FileError → Option Nat
  | missing => some 2
  | forbidden => some 13
  | isDirectory => some 21
  | notDirectory => some 20
  | inTheWay => some 17
  | tooManyLinks => some 40
  | notText => none
  | other number _ => some number

/-- The text shown for an unusable path. -/
def message (e : FileError) : String :=
  match e.number? with
  | some number => e.words ++ " (os error " ++ toString number ++ ")"
  | none => e.words

/-- The fault with a number, which the system tells in `words`. -/
def ofNumber (number : Nat) (words : String) : FileError :=
  ([missing, forbidden, isDirectory, notDirectory, inTheWay, tooManyLinks].find?
    (fun e => e.number? == some number)).getD (.other number words)

end FileError

def pathComponents (path : String) : List String :=
  (Text.splitAt '/' path.toList).map String.ofList

namespace FileTree

def entries : FileTree → List (String × FileTree)
  | directory entries => entries
  | _ => []

/-- The component that leads to the directory around. -/
def outward : String := ".."

/-- The tree at components, without following links.  Around the tree lie directories of which
nothing is known but what was put there. -/
def at? (tree : FileTree) : List String → Option FileTree
  | [] => some tree
  | name :: rest =>
    match tree.entries.lookup name with
    | some entry => entry.at? rest
    | none => if name == outward then (directory []).at? rest else none

/-- The components of the directory around one. -/
def around (here : List String) : List String :=
  if here.all (· == outward) then here ++ [outward] else here.dropLast

/-- What looking a path up finds: the components of what there is, and those that are missing. -/
structure Place where
  found : List String
  missing : List String
deriving DecidableEq, Repr

/-- How many links are followed on the way to one file. -/
def linkLimit : Nat := 40

/-- Look components up from a directory on, following links. -/
def trace (root : FileTree) (links : Nat) (here : List String) :
    List String → Except FileError Place
  | [] => .ok ⟨here, []⟩
  | name :: rest =>
    match root.at? here with
    | some (.directory entries) =>
      if name == "" || name == "." then trace root links here rest
      else if name == outward then trace root links (around here) rest
      else
        match entries.lookup name with
        | none => .ok ⟨here, name :: rest⟩
        | some (.link target) =>
          if target.startsWith "/" then .ok ⟨here, name :: rest⟩
          else
            match links with
            | 0 => .error .tooManyLinks
            | links + 1 => trace root links here (pathComponents target ++ rest)
        | some _ => trace root links (here ++ [name]) rest
    | _ => .error .notDirectory
termination_by components => (links, components.length)

def locate (root : FileTree) (path : String) : Except FileError Place :=
  if path == "" || path.startsWith "/" then .error .missing
  else root.trace linkLimit [] (pathComponents path)

/-- The device that holds nothing. -/
def emptyDevice : String := "/dev/null"

/-- What a path leads to.  Outside the tree there are the directory of all and the empty device. -/
def lookUp (root : FileTree) (path : String) : Except FileError FileTree :=
  if path == "/" then .ok (.directory [])
  else if path == emptyDevice then .ok (.file [])
  else
    match root.locate path with
    | .error e => .error e
    | .ok place =>
      if place.missing.isEmpty then
        match root.at? place.found with
        | some tree => .ok tree
        | none => .error .missing
      else .error .missing

def isDirectory (root : FileTree) (components : List String) : Bool :=
  match root.trace linkLimit [] components with
  | .ok ⟨found, []⟩ =>
    match root.at? found with
    | some (.directory _) => true
    | _ => false
  | _ => false

/-- Whether a path names a link, whatever that leads to. -/
def isLink (root : FileTree) (path : String) : Bool :=
  let components := pathComponents path
  match root.trace linkLimit [] components.dropLast, components.getLast? with
  | .ok ⟨found, []⟩, some name =>
    match root.at? (found ++ [name]) with
    | some (.link _) => true
    | _ => false
  | _, _ => false

/-- Whether a path leads to anything. -/
def has (root : FileTree) (path : String) : Bool :=
  match root.lookUp path with
  | .ok _ => true
  | .error _ => false

def read (root : FileTree) (path : String) : Except FileError (List UInt8) :=
  match root.lookUp path with
  | .ok (.file bytes) => .ok bytes
  | .ok _ => .error .isDirectory
  | .error e => .error e

def readText (root : FileTree) (path : String) : Except FileError String :=
  match root.read path with
  | .error e => .error e
  | .ok bytes =>
    match Text.decodeUtf8? bytes with
    | some text => .ok text
    | none => .error .notText

end FileTree

end CodeSurvey
