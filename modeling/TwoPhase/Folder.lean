import TwoPhase.Path

/-!
Access to files: reading, creating folders and writing. A program states what it needs as
`[FileAccess m]`; `Folder` is the model of it, a tree of folders and files held as a value, on
which programs are evaluated and about which they are reasoned. Nothing outside the written path
and its ancestors changes.
-/
namespace TwoPhase

inductive FileFault where
  | notFound
  | isDirectory
  | notDirectory
  | alreadyExists
  | other
  deriving DecidableEq, Repr

class FileAccess (m : Type → Type) where
  /-- The folder that paths start from when they are not absolute. -/
  current : m Path
  /-- The home of a user; the one who runs the program has the empty name. -/
  home : String → m (Option Path)
  present : Path → m Bool
  read : Path → m (Except FileFault ByteArray)
  /-- Creates a folder and its ancestors as far as they are missing. -/
  makeFolders : Path → m (Except FileFault Unit)
  /-- Creates or replaces a file. -/
  write : Path → ByteArray → m (Except FileFault Unit)

inductive FileEntry where
  | folder
  | file (content : ByteArray)

structure Folder where
  entries : List (List String × FileEntry) := []
  current : Path := ⟨true, []⟩
  homes : List (String × Path) := []

namespace Folder

def get? (f : Folder) (place : List String) : Option FileEntry :=
  if place.isEmpty then some .folder else f.entries.lookup place

/-- The place that names lead to from another one. It need not exist, but every name before the
last has to be a folder. -/
def locate (f : Folder) (place : List String) : List String → Except FileFault (List String)
  | [] => .ok place
  | name :: rest =>
    match f.get? place with
    | none => .error .notFound
    | some (.file _) => .error .notDirectory
    | some .folder =>
      if name = ".." then f.locate place.dropLast rest else f.locate (place ++ [name]) rest

def place (f : Folder) (p : Path) : Except FileFault (List String) :=
  f.locate [] (f.current.join p).parts

def find (f : Folder) (p : Path) : Except FileFault FileEntry := do
  let place ← f.place p
  (f.get? place).elim (.error .notFound) .ok

def put (f : Folder) (place : List String) (entry : FileEntry) : Folder :=
  { f with entries := (place, entry) :: f.entries.filter fun e => e.1 ≠ place }

def present (f : Folder) (p : Path) : Bool := (f.find p).toOption.isSome

def read (f : Folder) (p : Path) : Except FileFault ByteArray := do
  match ← f.find p with
  | .folder => .error .isDirectory
  | .file content => .ok content

def descend (f : Folder) (place : List String) : List String → Except FileFault Unit × Folder
  | [] => (.ok (), f)
  | name :: rest =>
    if name = ".." then f.descend place.dropLast rest
    else
      let next := place ++ [name]
      match f.get? next with
      | none => (f.put next .folder).descend next rest
      | some .folder => f.descend next rest
      | some (.file _) =>
        (.error (if rest.isEmpty then .alreadyExists else .notDirectory), f)

def makeFolders (f : Folder) (p : Path) : Except FileFault Unit × Folder :=
  f.descend [] (f.current.join p).parts

def write (f : Folder) (p : Path) (content : ByteArray) : Except FileFault Unit × Folder :=
  match f.place p with
  | .error fault => (.error fault, f)
  | .ok place =>
    match f.get? place with
    | some .folder => (.error .isDirectory, f)
    | _ => (.ok (), f.put place (.file content))

instance : FileAccess (StateM Folder) where
  current f := (f.current, f)
  home user f := (f.homes.lookup user, f)
  present p f := (f.present p, f)
  read p f := (f.read p, f)
  makeFolders p f := f.makeFolders p
  write p content f := f.write p content

end Folder

end TwoPhase
