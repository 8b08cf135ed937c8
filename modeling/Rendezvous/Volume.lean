/-
Rendezvous/Volume.lean

Files and directories.

A directory is a table of entries by name.  A volume holds the directories
below one root, each under its path; the path of the root is empty.  A path is
followed name by name from the root: every name but the last must be that of a
directory, one point stays there and two points go back to where it lies.  Only
what the rest of the library does with files is provided: listing, reading,
creating, renaming.
-/
import Rendezvous.Error
import Rendezvous.Table
import Rendezvous.Text.Blank
import Rendezvous.Text.Utf8

namespace Rendezvous

/-- What stands under a name in a directory. -/
inductive Entry where
  | file (contents : List UInt8)
  | folder
  deriving DecidableEq, Repr

/-- A directory. -/
abbrev Directory := Table Entry

/-- Why a file operation fails. -/
inductive FileFault where
  | notFound
  | alreadyExists
  | notADirectory
  | isADirectory
  | nameTooLong
  | nulInName
  | notText
  deriving DecidableEq, Repr

/-- Wording of a fault. -/
def FileFault.message : FileFault → String
  | notFound => "No such file or directory (os error 2)"
  | alreadyExists => "File exists (os error 17)"
  | notADirectory => "Not a directory (os error 20)"
  | isADirectory => "Is a directory (os error 21)"
  | nameTooLong => "File name too long (os error 36)"
  | nulInName => "file name contained an unexpected NUL byte"
  | notText => "stream did not contain valid UTF-8"

/-- A file fault as a cause. -/
def FileFault.error (f : FileFault) : Error := .io f.message

/-! ### Names -/

/-- A name of a file, cut at its last point: the stem and what follows.  A
point at the start does not count.  Names are texts, and both parts of one are. -/
def splitName (name : String) : String × Option String :=
  let back := name.toList.reverse
  let ext := back.takeWhile (· != '.')
  let stem := (back.drop (ext.length + 1)).reverse
  if ext.length = back.length ∨ stem.isEmpty then (name, none)
  else (String.ofList stem, some (String.ofList ext.reverse))

/-- The most octets of a name. -/
def longestName : Nat := 255

/-- The most octets of a path. -/
def longestPath : Nat := 4095

/-- The names of a path; some may be empty. -/
def pathNames (path : String) : Except FileFault (List String) :=
  if path.toList.contains '\x00' then .error .nulInName
  else if longestPath < path.utf8ByteSize then .error .nameTooLong
  else .ok ((Text.cutAt (· == '/') path.toList).map String.ofList)

/-- Whether a name stays where it is looked up. -/
def staysHere (name : String) : Bool := name.isEmpty || name = "."

/-- A name that goes back to the directory in which one lies. -/
def goesBack : String := ".."

/-- Names as a path. -/
def pathText (names : List String) : String := "/".intercalate names

/-- The path of an entry of a directory. -/
def joinPath (dir name : String) : String :=
  if dir.toList.getLast? = some '/' then dir ++ name else dir ++ "/" ++ name

/-! ### One directory -/

namespace Directory

/-- Read a file as text. -/
def readText (d : Directory) (name : String) : Except FileFault String :=
  match d.get? name with
  | none => .error .notFound
  | some .folder => .error .isADirectory
  | some (.file contents) =>
    match Text.decodeUtf8? contents with
    | some s => .ok s
    | none => .error .notText

/-- Open a file for writing, empty. -/
def create (d : Directory) (name : String) : Except FileFault Directory :=
  match d.get? name with
  | some .folder => .error .isADirectory
  | _ => .ok (d.insert name (.file []))

/-- Add octets at the end of an open file. -/
def append (d : Directory) (name : String) (more : List UInt8) : Except FileFault Directory :=
  match d.get? name with
  | some (.file contents) => .ok (d.insert name (.file (contents ++ more)))
  | some .folder => .error .isADirectory
  | none => .error .notFound

/-- Move a file to another name, in place of any file there. -/
def rename (d : Directory) (source target : String) : Except FileFault Directory :=
  match d.get? source, d.get? target with
  | none, _ => .error .notFound
  | some (.file _), some .folder => .error .isADirectory
  | some .folder, some (.file _) => .error .notADirectory
  | some e, _ => .ok ((d.erase source).insert target e)

end Directory

/-! ### A volume -/

/-- The directories below a root, by path. -/
structure Volume where
  directories : Table Directory
  deriving DecidableEq, Repr

namespace Volume

/-- The volume whose root is empty. -/
def empty : Volume := ⟨Table.ofList [("", Table.empty)]⟩

instance : Inhabited Volume := ⟨empty⟩

/-- What stands at a path. -/
def entry? (v : Volume) (names : List String) : Option Entry :=
  match names.getLast? with
  | none => some .folder
  | some name => (v.directories.get? (pathText names.dropLast)).bind fun d => d.get? name

/-- What stands under a name of the directory at `place`. -/
def find (v : Volume) (place : List String) (name : String) : Except FileFault Entry :=
  if longestName < name.utf8ByteSize then .error .nameTooLong
  else match v.entry? (place ++ [name]) with
    | none => .error .notFound
    | some e => .ok e

/-- Where names lead that are all directories, from the one at `place`. -/
def follow (v : Volume) (place : List String) : List String → Except FileFault (List String)
  | [] => .ok place
  | name :: rest =>
    if staysHere name then v.follow place rest
    else if name = goesBack then v.follow place.dropLast rest
    else match v.find place name with
      | .error f => .error f
      | .ok (.file _) => .error .notADirectory
      | .ok .folder => v.follow (place ++ [name]) rest

/-- The directory at a path. -/
def directory (v : Volume) (path : String) : Except FileFault Directory := do
  let place ← v.follow [] (← pathNames path)
  match v.directories.get? (pathText place) with
  | some d => .ok d
  | none => .error .notFound

/-- Put a directory at a path that has one. -/
def setDirectory (v : Volume) (path : String) (d : Directory) : Volume :=
  match (pathNames path).bind (v.follow []) with
  | .error _ => v
  | .ok place => ⟨v.directories.insert (pathText place) d⟩

/-- Put an entry under a name of a directory that is there. -/
def setEntry (v : Volume) (place : List String) (name : String) (e : Entry) : Volume :=
  match v.directories.get? (pathText place) with
  | none => v
  | some d => ⟨v.directories.insert (pathText place) (d.insert name e)⟩

/-- Make an empty directory in another. -/
def makeIn (v : Volume) (place : List String) (name : String) : Volume :=
  let v := v.setEntry place name .folder
  ⟨v.directories.insert (pathText (place ++ [name])) Table.empty⟩

/-- Follow names from the directory at `place` and make those that are not
there; the result is where they lead. -/
def makeFrom (v : Volume) (place : List String) :
    List String → Except FileFault (Volume × List String)
  | [] => .ok (v, place)
  | name :: rest =>
    if staysHere name then v.makeFrom place rest
    else if name = goesBack then v.makeFrom place.dropLast rest
    else match v.find place name with
      | .ok .folder => v.makeFrom (place ++ [name]) rest
      | .ok (.file _) => .error (if rest.isEmpty then .alreadyExists else .notADirectory)
      | .error .notFound => (v.makeIn place name).makeFrom (place ++ [name]) rest
      | .error f => .error f

/-- Make the directory at a path and those on the way to it.  One that is
followed by a point at the end of the path must be there already. -/
def makeDirectory (v : Volume) (path : String) : Except FileFault Volume := do
  let names ← pathNames path
  let back := names.reverse
  let pointed := (back.takeWhile staysHere).contains "."
  let last := if pointed then (back.dropWhile staysHere).take 1 else []
  let way := if pointed then ((back.dropWhile staysHere).drop 1).reverse else names
  let (v, place) ← v.makeFrom [] way
  let _ ← v.follow place last
  .ok v

/-- Put a file, or a directory, at a path. -/
def put (v : Volume) (path : String) : Entry → Except FileFault Volume
  | .folder => v.makeDirectory path
  | .file contents => do
    let names ← pathNames path
    let (v, place) ← v.makeFrom [] names.dropLast
    .ok (v.setEntry place (names.getLast?.getD "") (.file contents))

/-- Read the file at a path as text. -/
def readText (v : Volume) (path : String) : Except FileFault String := do
  let names ← pathNames path
  let place ← v.follow [] names.dropLast
  let name := names.getLast?.getD ""
  if staysHere name ∨ name = goesBack then .error .isADirectory
  else
    let d := (v.directories.get? (pathText place)).getD Table.empty
    let _ ← v.find place name
    d.readText name

end Volume

end Rendezvous
