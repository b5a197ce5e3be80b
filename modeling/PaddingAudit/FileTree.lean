import PaddingAudit.Failure
import PaddingAudit.Image
import PaddingAudit.Text.Line

/-!
# The file system

Directories and files as a run finds and leaves them, and the directory it works in. A path is
followed part by part: each part but the last has to be a directory, and `..` leads to the
directory around. Names and paths have limits on their bytes; a name counts only once it is come to,
a path as a whole and at once.
-/

namespace PaddingAudit

/-- What a file holds. An image that cannot be opened is a file all the same. -/
inductive FileContent where
  | text (content : String)
  | image (image : Image)
  | brokenImage (message : String)
  deriving Inhabited

/-- What there is at a place. -/
inductive FileNode where
  | directory
  | file (content : FileContent)
  deriving Inhabited

/-- Names of directories from the root on, and the last name. -/
abbrev Place := List String

/-- A file system. The root is always there. -/
structure FileTree where
  workingDirectory : Place := []
  nodes : List (Place × FileNode) := []
  deriving Inhabited

namespace FileTree

def node? (t : FileTree) : Place → Option FileNode
  | [] => some .directory
  | place => t.nodes.lookup place

def isDirectoryAt (t : FileTree) (place : Place) : Bool :=
  match t.node? place with
  | some .directory => true
  | _ => false

/-- The most bytes a name may have. -/
def maxNameBytes : Nat := 255

def maxPathBytes : Nat := 4095

/-- Why a path leads nowhere. -/
inductive Dead where
  | missing
  | notADirectory
  | nameTooLong
  deriving DecidableEq, Repr, Inhabited

def enter (t : FileTree) (place : Place) (part : String) : Except Dead Place :=
  if !t.isDirectoryAt place then .error .notADirectory
  else if part == ".." then .ok place.dropLast
  else if maxNameBytes < part.utf8ByteSize then .error .nameTooLong
  else if (t.node? (place ++ [part])).isSome then .ok (place ++ [part])
  else .error .missing

def start (t : FileTree) (p : Path) : Place :=
  match p.anchor with
  | .relative => t.workingDirectory
  | _ => []

/-- A path from the root on, where each `..` has taken away the part before it. Nothing is looked
up: the text alone decides. -/
def absolute (t : FileTree) (p : Path) : Path where
  anchor := if p.anchor = .relative then .root else p.anchor
  parts := p.parts.foldl
    (fun place part => if part == ".." then place.dropLast else place ++ [part]) (t.start p)

/-- The place that parts lead to from another place. -/
def follow (t : FileTree) (place : Place) (parts : List String) : Except Dead Place :=
  parts.foldlM t.enter place

/-- The place a path leads to. Nothing is called by a name with a null character. -/
def locate (t : FileTree) (p : Path) : Except Dead Place :=
  if p.hasNull then .error .missing
  else if maxPathBytes < p.text.utf8ByteSize then .error .nameTooLong
  else t.follow (t.start p) p.parts

def find (t : FileTree) (p : Path) : Except StorageError (Option FileNode) :=
  match t.locate p with
  | .ok place => .ok (t.node? place)
  | .error .nameTooLong => .error (.nameTooLong p.text)
  | .error _ => .ok none

def isDirectory (t : FileTree) (p : Path) : Bool :=
  match t.locate p with
  | .ok place => t.isDirectoryAt place
  | .error _ => false

/-! ### Changing -/

def set (t : FileTree) (place : Place) (node : FileNode) : FileTree :=
  { t with nodes := (place, node) :: t.nodes.filter fun entry => entry.1 != place }

/-- The directories on the way to a place, and the place itself. -/
def waysTo (place : Place) : List Place :=
  (List.range place.length).map fun n => place.take (n + 1)

/-- Puts something at a place, with all directories on the way. -/
def plant (t : FileTree) (place : Place) (node : FileNode) : FileTree :=
  let ground := (waysTo place.dropLast).foldl
    (fun t way => if (t.node? way).isSome then t else t.set way .directory) t
  ground.set place node

def refusal (p : Path) : Dead → StorageError
  | .missing => .missing p.text
  | .notADirectory => .notADirectory p.text
  | .nameTooLong => .nameTooLong p.text

/-- Makes one directory, at the last part of a path. -/
def makeDirectory (t : FileTree) (p : Path) : Except StorageError FileTree :=
  if p.hasNull then .error .nullByte
  else if maxPathBytes < p.text.utf8ByteSize then .error (.nameTooLong p.text)
  else
    match p.parts.getLast? with
    | none => .error (.occupied p.text)
    | some part =>
      match t.follow (t.start p) p.parts.dropLast with
      | .error dead => .error (refusal p dead)
      | .ok place =>
        match t.enter place part with
        | .ok _ => .error (.occupied p.text)
        | .error .missing => .ok (t.set (place ++ [part]) .directory)
        | .error dead => .error (refusal p dead)

/-- Makes a directory unless it is there. -/
def ensureDirectory (t : FileTree) (p : Path) : Except StorageError Unit × FileTree :=
  match t.makeDirectory p with
  | .ok made => (.ok (), made)
  | .error e => (if t.isDirectory p then .ok () else .error e, t)

/-- Makes the directory whose parts are `parts`, last one first, and whatever of the directories
around it is missing. -/
def ensureParts (t : FileTree) (anchor : Path.Anchor) :
    List String → Except StorageError Unit × FileTree
  | [] => t.ensureDirectory { anchor := anchor }
  | part :: outer =>
    let p : Path := { anchor := anchor, parts := (part :: outer).reverse }
    match t.ensureDirectory p with
    | (.error (.missing _), _) =>
      match t.ensureParts anchor outer with
      | (.ok (), ground) => ground.ensureDirectory p
      | failed => failed
    | result => result

/-- Makes a directory, and the directories around it, unless they are there. Where one cannot be
made, those around it that were made stay. -/
def ensureDirectories (t : FileTree) (p : Path) : Except StorageError Unit × FileTree :=
  t.ensureParts p.anchor p.parts.reverse

/-- Opens a text file for writing at its end; a file that is not there is made. The place of the
file is given too. The file is opened by its absolute path, so that the limit on the bytes of a path
is on that one, and complaints name it. -/
def openForAppending (t : FileTree) (p : Path) : Except StorageError (FileTree × Place) :=
  let whole := t.absolute p
  if whole.hasNull then .error .nullByte
  else
    match t.locate whole with
    | .ok place =>
      if t.isDirectoryAt place then .error (.isADirectory whole.text) else .ok (t, place)
    | .error .missing =>
      match whole.parts.getLast?, t.locate { whole with parts := whole.parts.dropLast } with
      | some part, .ok place => .ok (t.set (place ++ [part]) (.file (.text "")), place ++ [part])
      | _, _ => .error (.missing whole.text)
    | .error dead => .error (refusal whole dead)

/-- Writes at the end of a text file. -/
def append (t : FileTree) (place : Place) (text : String) : FileTree :=
  match t.node? place with
  | some (.file (.text content)) => t.set place (.file (.text (content ++ text)))
  | _ => t

/-- The texts of the files below the working directory whose names have an ending, each with the
path from there. -/
def textFiles (t : FileTree) (ending : String) : List (String × String) :=
  t.nodes.filterMap fun entry =>
    match entry.2 with
    | .file (.text content) =>
      let below := entry.1.drop t.workingDirectory.length
      if t.workingDirectory.isPrefixOf entry.1 && (below.getLast?.any fun n => n.endsWith ending)
      then some ("/".intercalate below, Text.withLineFeeds content)
      else none
    | _ => none

end FileTree

end PaddingAudit
