import Noughts.Path
import Noughts.Text.Quoted

/-!
# Files

A tree of files is a list of entries, each with its *location*: the names that lead to it from the
root.  The root itself is always a directory.

A path is *followed* from the working directory or the root, one name at a time; a pair of dots goes
back to the directory that was come from, and a link goes on with the path that it stands for
(`follow`).  Following ends at a location or with a problem: something on the way is missing, is no
directory or may not be searched, a name is one that no directory could hold, or there are too many
links.  On top of that:

* `exists?` asks whether a path leads anywhere;
* `read` gives the bytes of a file;
* `makeDirectories` makes a directory and those above it, as far as they are missing;
* `write` puts a file in place of what was there.
-/

set_option autoImplicit false

namespace Noughts

/-- What stands at a location. -/
inductive FileNode where
  | file (content : List UInt8)
  /-- A file that may be neither read nor written. -/
  | lockedFile
  | directory
  /-- A directory that may be neither listed, searched nor changed. -/
  | lockedDirectory
  /-- A link to what another path leads to, seen from the directory of the link. -/
  | link (target : Path)
  deriving DecidableEq, Repr

/-- Is it a directory, of whichever kind? -/
def FileNode.isDirectory : FileNode → Bool
  | directory => true
  | lockedDirectory => true
  | _ => false

/-- The names that lead from the root to an entry. -/
abbrev Location := List String

/-- A tree of files. -/
structure FileTree where
  entries : List (Location × FileNode) := []
  deriving Repr

/-- What is wrong with a path. -/
inductive FileProblem where
  | notFound
  | denied
  | alreadyThere
  | notDirectory
  | isDirectory
  | nameTooLong
  | tooManyLinks
  deriving DecidableEq, Repr

namespace FileProblem

/-- The number of a problem. -/
def number : FileProblem → Nat
  | notFound => 2
  | denied => 13
  | alreadyThere => 17
  | notDirectory => 20
  | isDirectory => 21
  | nameTooLong => 36
  | tooManyLinks => 40

/-- The wording of a problem. -/
def text : FileProblem → String
  | notFound => "No such file or directory"
  | denied => "Permission denied"
  | alreadyThere => "File exists"
  | notDirectory => "Not a directory"
  | isDirectory => "Is a directory"
  | nameTooLong => "File name too long"
  | tooManyLinks => "Too many levels of symbolic links"

/-- Is the problem one of a path that leads nowhere?  With any other, it cannot be told. -/
def meansAbsent : FileProblem → Bool
  | notFound => true
  | notDirectory => true
  | tooManyLinks => true
  | _ => false

end FileProblem

/-- Why a path cannot be used. -/
inductive FileError where
  /-- A problem with what the path leads to. -/
  | problem (p : FileProblem) (path : Path)
  /-- The links on the path lead back to one another. -/
  | linkLoop (path : Path)
  /-- A path has no zero characters. -/
  | zeroCharacter
  deriving DecidableEq, Repr

namespace FileError

/-- The wording of a file error. -/
def message : FileError → String
  | problem p path =>
    "[Errno " ++ toString p.number ++ "] " ++ p.text ++ ": " ++ Text.quoted path.text
  | linkLoop path => "Symlink loop from " ++ Text.quoted path.text
  | zeroCharacter => "embedded null byte"

/-- Is the error one of a path that leads nowhere? -/
def meansAbsent : FileError → Bool
  | problem p _ => p.meansAbsent
  | linkLoop _ => false
  | zeroCharacter => true

end FileError

/-- Does a name of the path have a zero character? -/
def Path.hasZero (p : Path) : Bool :=
  p.names.any fun name => name.toList.contains '\x00'

namespace FileTree

/-- What stands at a location, if anything. -/
def node? (t : FileTree) (l : Location) : Option FileNode :=
  if l = [] then some .directory else (t.entries.find? fun e => e.1 = l).map Prod.snd

/-- Puts an entry in place of what was at its location. -/
def place (t : FileTree) (l : Location) (n : FileNode) : FileTree :=
  ⟨(l, n) :: t.entries.filter fun e => e.1 ≠ l⟩

/-- What is placed is there, and nothing else has changed.  The root stays a directory. -/
theorem node?_place (t : FileTree) (l : Location) (n : FileNode) (other : Location) :
    (t.place l n).node? other =
      if other = [] then some .directory else if other = l then some n else t.node? other := by
  by_cases hroot : other = []
  · simp [node?, hroot]
  · by_cases heq : other = l
    · subst heq
      simp [node?, place, hroot]
    · have hne : ¬l = other := fun h => heq h.symm
      simp only [node?, place, hroot, heq, if_false, List.find?_cons, hne, decide_false,
        List.find?_filter]
      congr 2
      funext e
      by_cases he : e.1 = other
      · simp [he, heq]
      · simp [he]

/-! ## Following a path -/

/-- The most bytes in a name. -/
def longestName : Nat := 255

/-- The most bytes in a path. -/
def longestPath : Nat := 4095

/-- The most links on the way. -/
def mostLinks : Nat := 40

/-- Where a path starts. -/
def origin (workingDirectory : Location) (p : Path) : Location :=
  match p.anchor with
  | .here => workingDirectory
  | _ => []

/-- Where a walk along names comes to a halt. -/
inductive Halt where
  /-- At the end.  Whether anything stands there is another question. -/
  | arrived (l : Location)
  /-- At a link in a directory, with names behind it. -/
  | atLink (above : Location) (target : Path) (rest : List String)
  deriving DecidableEq, Repr

/-- Walks along names, up to the first link. -/
def walk (t : FileTree) : Location → List String → Except FileProblem Halt
  | here, [] => .ok (.arrived here)
  | here, name :: rest =>
    match t.node? here with
    | none => .error .notFound
    | some .directory =>
      if name = ".." then t.walk here.dropLast rest
      else if longestName < name.utf8ByteSize then .error .nameTooLong
      else
        match t.node? (here ++ [name]) with
        | some (.link target) => .ok (.atLink here target rest)
        | _ => t.walk (here ++ [name]) rest
    | some .lockedDirectory => .error .denied
    | some _ => .error .notDirectory

/-- Follows names from a location, and so many links on the way.  It is told where they lead, and
how many links could have been followed besides. -/
def follow (t : FileTree) : Nat → Location → List String → Except FileProblem (Location × Nat)
  | links, here, names =>
    match t.walk here names with
    | .error e => .error e
    | .ok (.arrived l) => .ok (l, links)
    | .ok (.atLink above target rest) =>
      match links with
      | 0 => .error .tooManyLinks
      | links + 1 => t.follow links (origin above target) (target.names ++ rest)

/-- Refuses a path that could lead nowhere, whatever the tree. -/
def checked {α : Type} (p : Path) (use : Except FileProblem α) : Except FileError α :=
  if p.hasZero then .error .zeroCharacter
  else if longestPath < p.text.utf8ByteSize then .error (.problem .nameTooLong p)
  else use.mapError fun problem => .problem problem p

/-- The location of the entry that a path leads to. -/
def locate (t : FileTree) (workingDirectory : Location) (p : Path) : Except FileError Location :=
  checked p <|
    match t.follow mostLinks (origin workingDirectory p) p.names with
    | .error e => .error e
    | .ok (l, _) => if (t.node? l).isSome then .ok l else .error .notFound

/-- Does the path lead to an entry?  There is no answer if the path is too long, or leads through
a directory that may not be searched. -/
def exists? (t : FileTree) (workingDirectory : Location) (p : Path) : Except FileError Bool :=
  match t.locate workingDirectory p with
  | .ok _ => .ok true
  | .error e => if e.meansAbsent then .ok false else .error e

/-- Does the path lead to a directory? -/
def isDirectory? (t : FileTree) (workingDirectory : Location) (p : Path) : Except FileError Bool :=
  match t.locate workingDirectory p with
  | .ok l => .ok ((t.node? l).any FileNode.isDirectory)
  | .error e => if e.meansAbsent then .ok false else .error e

/-! ## Reading and writing -/

/-- The bytes of the file that a path leads to. -/
def read (t : FileTree) (workingDirectory : Location) (p : Path) : Except FileError (List UInt8) :=
  match t.locate workingDirectory p with
  | .error e => .error e
  | .ok l =>
    match t.node? l with
    | some (.file content) => .ok content
    | some .directory => .error (.problem .isDirectory p)
    | _ => .error (.problem .denied p)

/-- Follows a path but for its last name, and walks that. -/
def lastStep (t : FileTree) (workingDirectory : Location) (p : Path) : Except FileProblem Halt :=
  match p.names.getLast? with
  | none => .ok (.arrived (origin workingDirectory p))
  | some name =>
    match t.follow mostLinks (origin workingDirectory p) p.names.dropLast with
    | .error e => .error e
    | .ok (above, _) => t.walk above [name]

/-- Makes one directory where nothing stands, not even a link. -/
def makeDirectory (t : FileTree) (workingDirectory : Location) (p : Path) :
    Except FileError FileTree :=
  checked p <|
    match t.lastStep workingDirectory p with
    | .error e => .error e
    | .ok (.atLink _ _ _) => .error .alreadyThere
    | .ok (.arrived l) =>
      if (t.node? l).isSome then .error .alreadyThere else .ok (t.place l .directory)

/-- Makes one directory, unless it is there. -/
def ensureDirectory (t : FileTree) (workingDirectory : Location) (p : Path) :
    Except FileError FileTree :=
  match t.makeDirectory workingDirectory p with
  | .ok t' => .ok t'
  | .error (.problem .notFound p) => .error (.problem .notFound p)
  | .error .zeroCharacter => .error .zeroCharacter
  | .error e =>
    match t.isDirectory? workingDirectory p with
    | .ok there => if there then .ok t else .error e
    | .error e => .error e

/-- Makes a directory and those above it, as far as they are missing.  Those that were made before
a failure stay. -/
def makeDirectories (t : FileTree) (workingDirectory : Location) (p : Path) :
    Except FileError Unit × FileTree :=
  match t.ensureDirectory workingDirectory p with
  | .ok t' => (.ok (), t')
  | .error (.problem .notFound q) =>
    if _h : p.names = [] then (.error (.problem .notFound q), t)
    else
      match t.makeDirectories workingDirectory p.parent with
      | (.error e, t') => (.error e, t')
      | (.ok (), t') =>
        match t'.ensureDirectory workingDirectory p with
        | .ok t'' => (.ok (), t'')
        | .error e => (.error e, t')
  | .error e => (.error e, t)
termination_by p.names.length
decreasing_by
  have := List.length_pos_iff.mpr ‹¬p.names = []›
  simp only [Path.parent, List.length_dropLast]
  omega

/-- Writes a file, in place of the one that is there or as a new one. -/
def write (t : FileTree) (workingDirectory : Location) (p : Path) (content : List UInt8) :
    Except FileError FileTree :=
  checked p <|
    match t.follow mostLinks (origin workingDirectory p) p.names with
    | .error e => .error e
    | .ok (l, _) =>
      match t.node? l with
      | none => .ok (t.place l (.file content))
      | some (.file _) => .ok (t.place l (.file content))
      | some .lockedFile => .error .denied
      | some _ => .error .isDirectory

end FileTree

end Noughts
