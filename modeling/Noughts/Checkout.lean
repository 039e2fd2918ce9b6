import Noughts.RealPath
import Noughts.Surroundings
import Noughts.Text.Blank
import Noughts.Text.Utf8

/-!
# The checkout

Where the repository is, where results go, and which commit is checked out.

* The **root** is the one named in the environment, else the nearest directory with a `.git` entry
  among the program's own file and its first four ancestors (`nearestCheckout?`), else the working
  directory.  The search is ended by a directory that it cannot be told of whether it has one.
* **Results** go where the environment says, else into `results` under the root.
* The **commit** is what the version control program answers.  If it does not answer, the commit
  is read from `.git/HEAD`: either the commit itself, or `ref:` and the name of a file under
  `.git` that holds it.

Reading the head is careful about a head that is missing or cannot be read, and about nothing else:
a `ref:` without a second word, bytes that are not UTF-8, and a reference that is no file or may not
be read are faults.  A reference that is empty is reported as an empty commit.
-/

set_option autoImplicit false

namespace Noughts

/-! ## The root and the results -/

/-- The ancestors of a path that are searched for a checkout: the path itself and four more. -/
def searchDepth : Nat := 5

/-- The entry of a directory that makes it a checkout. -/
def checkoutEntry (l : Location) : Path := ⟨.root, l ++ [".git"]⟩

/-- The nearest checkout among a path and its ancestors.  The root of the file system ends the
search early, and so does a lookup that has no answer. -/
def nearestCheckout? (t : FileTree) : Nat → Location → Except FileError (Option Location)
  | 0, _ => .ok none
  | depth + 1, here =>
    match t.exists? [] (checkoutEntry here) with
    | .error e => .error e
    | .ok true => .ok (some here)
    | .ok false => if here = [] then .ok none else nearestCheckout? t depth here.dropLast

/-- The value of a setting, an empty one being no value. -/
def Environment.given (value : Option String) : Option String :=
  value.filter fun s => s != ""

namespace Surroundings

/-- The root of the repository. -/
def repositoryRoot (s : Surroundings) (t : FileTree) : Except FileError Path :=
  match Environment.given s.environment.repository with
  | some given => .ok (.ofString given)
  | none =>
    match t.resolve s.workingDirectory s.programFile with
    | .error e => .error e
    | .ok file =>
      match nearestCheckout? t searchDepth file.names with
      | .error e => .error e
      | .ok (some l) => .ok ⟨.root, l⟩
      | .ok none => .ok ⟨.root, s.workingDirectory⟩

/-- The directory that results go to. -/
def resultsDirectory (s : Surroundings) (t : FileTree) : Except FileError Path :=
  match Environment.given s.environment.results with
  | some given => .ok (.ofString given)
  | none => (s.repositoryRoot t).map fun root => root.child "results"

end Surroundings

/-! ## The commit -/

/-- Why the commit cannot be told. -/
inductive CommitError where
  /-- A file cannot be used. -/
  | file (e : FileError)
  /-- A file is not text. -/
  | undecodable (e : Text.DecodeError)
  /-- The head announces a reference and names none. -/
  | noReference
  deriving DecidableEq, Repr

/-- The wording of a commit error. -/
def CommitError.message : CommitError → String
  | .file e => e.message
  | .undecodable e => e.message
  | .noReference => "list index out of range"

/-- The text of a file, its line breaks made uniform, without the blanks at its ends. -/
def FileTree.readTrimmed (t : FileTree) (workingDirectory : Location) (p : Path) :
    Except CommitError String :=
  match t.read workingDirectory p with
  | .error e => .error (.file e)
  | .ok bytes =>
    match Text.decode bytes with
    | .error e => .error (.undecodable e)
    | .ok cs => .ok (String.ofList (Text.strip (Text.uniformBreaks cs)))

/-- No text where there is nothing in it. -/
def nonEmpty (s : String) : Option String :=
  if s = "" then none else some s

/-- What a head says: a commit, or where to find it. -/
inductive Head where
  | commit (text : String)
  | reference (file : Path)
  deriving DecidableEq, Repr

/-- What a head that names a reference starts with. -/
def referenceMark : List Char := ['r', 'e', 'f', ':']

/-- Reads the text of a head. -/
def Head.parse (root : Path) (text : String) : Except CommitError Head :=
  if referenceMark.isPrefixOf text.toList then
    match Text.words text with
    | _ :: name :: _ => .ok (.reference ((root.child ".git").child name))
    | _ => .error .noReference
  else .ok (.commit text)

/-- The commit that the files of a checkout tell. -/
def commitFromFiles (t : FileTree) (workingDirectory : Location) (root : Path) :
    Except CommitError (Option String) :=
  match t.readTrimmed workingDirectory ((root.child ".git").child "HEAD") with
  | .error (.file (.problem _ _)) => .ok none
  | .error e => .error e
  | .ok text =>
    match Head.parse root text with
    | .error e => .error e
    | .ok (.commit text) => .ok (nonEmpty text)
    | .ok (.reference file) =>
      match t.exists? workingDirectory file with
      | .error e => .error (.file e)
      | .ok false => .ok none
      | .ok true => (t.readTrimmed workingDirectory file).map some

/-- **The commit that is checked out**, if it is known. -/
def currentCommit (t : FileTree) (workingDirectory : Location) (root : Path) :
    CommitQuery → Except CommitError (Option String)
  | .answered output => .ok (nonEmpty (Text.trim output))
  | _ => commitFromFiles t workingDirectory root

/-- The question that the version control program is asked. -/
def commitQuestion (root : Path) : List String :=
  ["git", "-C", root.text, "rev-parse", "HEAD"]

end Noughts
