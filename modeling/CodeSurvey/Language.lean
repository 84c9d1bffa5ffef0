/-
The languages a source may be written in.

A language is known by its tag, which is also the extension of its files.  A tag must be exact; an
extension may come with leading dots and in either case.  A path has the language of its extension,
so a file without one has no language, and neither has one whose name is nothing but a dot and an
extension.
-/
import CodeSurvey.Text.Chars
import CodeSurvey.Text.Quoted

namespace CodeSurvey

/-- The supported languages. -/
inductive Language where
  | python
  | javaScript
  | html
  | css
  | ruby
  | php
  | go
deriving DecidableEq, Repr

/-- The one way in which a tag can be wrong. -/
structure UnsupportedLanguage where
  tag : String
deriving DecidableEq, Repr

/-- The text shown for a tag that no language has. -/
def UnsupportedLanguage.message (e : UnsupportedLanguage) : String :=
  "unsupported language: " ++ Text.quoted e.tag ++
    " (expected one of py, js, html, css, rb, php, go)"

namespace Language

/-- All languages, in tag order. -/
def all : List Language := [python, javaScript, html, css, ruby, php, go]

def tag : Language → String
  | python => "py"
  | javaScript => "js"
  | html => "html"
  | css => "css"
  | ruby => "rb"
  | php => "php"
  | go => "go"

/-- The name shown to a reader. -/
def displayName : Language → String
  | python => "Python"
  | javaScript => "JavaScript"
  | html => "HTML"
  | css => "CSS"
  | ruby => "Ruby"
  | php => "PHP"
  | go => "Go"

/-- Languages that only the line by line overview knows. -/
def isGeneric : Language → Bool
  | ruby | php | go => true
  | _ => false

/-- The language with exactly this tag. -/
def ofTag? (tag : String) : Option Language :=
  all.find? (fun language => language.tag == tag)

/-- The language with exactly this tag, or the error that names the tag. -/
def ofTag (tag : String) : Except UnsupportedLanguage Language :=
  match ofTag? tag with
  | some language => .ok language
  | none => .error ⟨tag⟩

/-- The language of a file extension, given with or without leading dots, in either case. -/
def ofExtension? (extension : List Char) : Option Language :=
  let bare := Text.lowerAscii (Text.trimStartOf (· == '.') extension)
  all.find? (fun language => language.tag.toList == bare)

/-- The last component of a path, if it names a file: trailing slashes and `.` components do not
count, and `..` names none. -/
def fileName? (path : List Char) : Option (List Char) :=
  let parts := (Text.splitAt '/' path).reverse
  match parts.dropWhile (fun part => part.isEmpty || part == ['.']) with
  | [] => none
  | name :: _ => if name == ['.', '.'] then none else some name

/-- The extension of a file name: what follows its last dot, unless that dot comes first. -/
def extensionOf? (name : List Char) : Option (List Char) :=
  match name.reverse.dropWhile (· != '.') with
  | [] => none
  | [_] => none
  | _ :: _ => some (name.reverse.takeWhile (· != '.')).reverse

/-- The language of a file, by its extension. -/
def ofPath? (path : List Char) : Option Language :=
  (fileName? path).bind extensionOf? |>.bind ofExtension?

end Language

end CodeSurvey
