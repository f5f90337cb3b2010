import Almanac.Text

/-!
Files in folders, with one folder to work in. A path is read name by name, from the working folder
or from the root.
-/

namespace Almanac

/-- Why a file cannot be read or written. -/
inductive FileError
  | notFound | notFolder | isFolder | nameTooLong | nulInName | notText
  | other (text : String)
deriving DecidableEq, Repr

def FileError.message : FileError → String
  | notFound => "No such file or directory (os error 2)"
  | notFolder => "Not a directory (os error 20)"
  | isFolder => "Is a directory (os error 21)"
  | nameTooLong => "File name too long (os error 36)"
  | nulInName => "file name contained an unexpected NUL byte"
  | notText => "stream did not contain valid UTF-8"
  | other text => text

/-- How a file is read as text, by its path. -/
abbrev Reader := String → Except FileError String

/-- The names on the way from the root to a file or a folder. -/
abbrev Route := List String

structure Folder where
  files : List (Route × ByteArray)
  /-- Folders that are there even with nothing in them. -/
  kept : List Route
  /-- The way to the working folder. -/
  here : Route

/-- What a path leads to. -/
inductive Place
  | folder (route : Route)
  | file (route : Route) (content : ByteArray)
  | missing (route : Route)

namespace Folder

/-- A working folder with nothing in it and nothing else around it. -/
def empty : Folder := ⟨[], [], ["work"]⟩

def content? (f : Folder) (route : Route) : Option ByteArray := f.files.lookup route

/-- Folders that are there for a reason of their own; all that lie above them are there as well. -/
def folders (f : Folder) : List Route := f.here :: f.kept ++ f.files.map fun file => file.1.dropLast

def hasFolder (f : Folder) (route : Route) : Bool := f.folders.any fun folder => route <+: folder

def placeAt (f : Folder) (route : Route) : Place :=
  match f.content? route with
  | some content => .file route content
  | none => if f.hasFolder route then .folder route else .missing route

/-- Goes on from a place by one name of a path. The folder above the root is the root. -/
def step (f : Folder) (place : Place) (name : String) : Except FileError Place :=
  match place with
  | .file _ _ => .error .notFolder
  | .missing _ => .error .notFound
  | .folder route =>
    if name = "" ∨ name = "." then .ok (.folder route)
    else if name = ".." then .ok (.folder route.dropLast)
    else if 255 < name.utf8ByteSize then .error .nameTooLong
    else .ok (f.placeAt (route ++ [name]))

def walk (f : Folder) (start : Route) (names : List String) : Except FileError Place :=
  names.foldlM f.step (.folder start)

/-- The names of a path, which slashes separate. -/
def names (path : String) : List String :=
  (Text.parts ['/'] path.toList).map String.ofList

/-- Where a path starts. The one that begins with a slash has an empty name in front. -/
def start (f : Folder) : List String → Route
  | "" :: _ :: _ => []
  | _ => f.here

/-- Refuses what can be no path. -/
def checkPath (path : String) : Except FileError Unit :=
  if '\x00' ∈ path.toList then .error .nulInName
  else if path = "" then .error .notFound
  else if 4096 ≤ path.utf8ByteSize then .error .nameTooLong
  else .ok ()

def read (f : Folder) (path : String) : Except FileError ByteArray := do
  checkPath path
  match ← f.walk (f.start (names path)) (names path) with
  | .file _ content => .ok content
  | .missing _ => .error .notFound
  | .folder _ => .error .isFolder

/-- Reads a file as text. -/
def readText (f : Folder) : Reader := fun path => do
  match String.fromUTF8? (← f.read path) with
  | some text => .ok text
  | none => .error .notText

/-- Puts a file in its place, over the one that is there. -/
def putAt (f : Folder) (route : Route) (content : ByteArray) : Folder :=
  { f with files := (route, content) :: f.files.filter (·.1 ≠ route) }

/-- Puts a file in the working folder or below. -/
def put (f : Folder) (names : List String) (content : ByteArray) : Folder :=
  f.putAt (f.here ++ names) content

/-- Writes a file whole. A path that ends with a slash names no file. -/
def write (f : Folder) (path : String) (content : ByteArray) : Except FileError Folder := do
  checkPath path
  let named := (names path).reverse.dropWhile (· = "")
  if named.length < (names path).length then
    match ← f.walk (f.start (names path)) named.tail.reverse with
    | .file _ _ => .error .notFolder
    | .missing _ => .error .notFound
    | .folder _ => .error .isFolder
  else match ← f.walk (f.start (names path)) (names path) with
    | .file route _ | .missing route => .ok (f.putAt route content)
    | .folder _ => .error .isFolder

def writeText (f : Folder) (path text : String) : Except FileError Folder :=
  f.write path text.toUTF8

theorem lookup_filter_ne {route other : Route} (h : other ≠ route)
    (files : List (Route × ByteArray)) :
    (files.filter (·.1 ≠ route)).lookup other = files.lookup other := by
  induction files with
  | nil => rfl
  | cons file files ih =>
    obtain ⟨name, content⟩ := file
    by_cases hn : name = route
    · have hne : (other == route) = false := by simpa using h
      simpa [hn, List.lookup_cons, hne] using ih
    · by_cases ho : other == name <;> simp_all [List.lookup_cons]

theorem content?_putAt (f : Folder) (route other : Route) (content : ByteArray) :
    (f.putAt route content).content? other =
      if other = route then some content else f.content? other := by
  by_cases h : other = route
  · simp [putAt, content?, h]
  · have hne : (other == route) = false := by simpa using h
    simp only [putAt, content?, List.lookup_cons, hne, lookup_filter_ne h, if_neg h]

end Folder
end Almanac
