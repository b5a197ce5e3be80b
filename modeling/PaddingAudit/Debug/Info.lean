import PaddingAudit.Debug.Entry
import PaddingAudit.Path

/-!
# Debugging information

The entries of a program form one tree per compilation unit, and further trees of types. Walking a
tree visits its entries in order, each with its place in the tree. Null entries and entries that
cannot be read have their places as well, and whatever they contain has its own.
-/

namespace PaddingAudit.Debug

/-! ### Trees -/

/-- How an entry is found in its tree. -/
inductive Standing where
  /-- It can be read. -/
  | sound
  /-- It is null: it takes a place and says nothing. -/
  | null
  /-- It cannot be read, for the reason given. -/
  | broken (message : String)
  deriving DecidableEq, Repr, Inhabited

inductive Tree where
  | node (standing : Standing) (entry : Entry) (children : List Tree)
  deriving Inhabited

/-- What a walk comes upon. -/
inductive Visit where
  | site (s : Site)
  | gap
  | broken (message : String)
  deriving Inhabited

def Visit.site? : Visit → Option Site
  | .site s => some s
  | _ => none

def Standing.visit (s : Site) : Standing → Visit
  | .sound => .site s
  | .null => .gap
  | .broken message => .broken message

namespace Tree

/-- The entry at the root of a tree, as a child of the entry around it. A null entry is nobody's
child. -/
def child? : Tree → Option Entry
  | .node .null _ _ => none
  | .node _ entry _ => some entry

mutual

/-- The visits of a walk through a tree, an entry before what it contains. -/
def visits (enclosing : List Entry) : Tree → List Visit
  | .node standing entry children =>
    standing.visit
        { entry with children := children.filterMap child?, enclosing := enclosing } ::
      forestVisits (entry :: enclosing) children

def forestVisits (enclosing : List Entry) : List Tree → List Visit
  | [] => []
  | tree :: trees => visits enclosing tree ++ forestVisits enclosing trees

end

end Tree

/-! ### Compilation units -/

/-- The table of source files of a unit. -/
inductive LineProgram where
  | absent
  | broken (message : String)
  | present (version : Int) (directories : List RawText) (files : List (RawText × Int))
  deriving Inhabited

structure CompilationUnit where
  offset : Int := 0
  name : Option Attribute := none
  trees : List Tree := []
  lineProgram : LineProgram := .absent
  deriving Inhabited

namespace CompilationUnit

/-- The number of bytes before the first entry of a unit. -/
def headerSize : Int := 11

def top (u : CompilationUnit) : Entry where
  tag := some .compileUnit
  offset := u.offset + headerSize
  attributes := (u.name.map fun a => (Key.name, a)).toList

def visits (u : CompilationUnit) : List Visit :=
  (Tree.node .sound u.top u.trees).visits []

/-- The name of a unit, or its offset where it has none. -/
def displayName (u : CompilationUnit) : String :=
  match u.top.name? with
  | some name => if name.isEmpty then "cu@" ++ Text.hex u.offset else name
  | none => "cu@" ++ Text.hex u.offset

end CompilationUnit

structure Info where
  units : List CompilationUnit := []
  types : List Tree := []
  deriving Inhabited

/-- All entries that can be read, in the order in which an offset is looked up. -/
def Info.sites (info : Info) : List Site :=
  (info.units.flatMap CompilationUnit.visits ++ Tree.forestVisits [] info.types).filterMap
    Visit.site?

/-- The first entry at an offset. -/
def siteAt? (sites : List Site) (offset : Int) : Option Site :=
  sites.find? fun s => s.offset == offset

/-! ### Source files -/

/-- The source files of a unit and the number of the first one. -/
structure FileTable where
  files : List String := []
  base : Int := 1
  deriving DecidableEq, Repr, Inhabited

namespace FileTable

/-- The item at an integer position. -/
def item? {α : Type} (items : List α) (position : Int) : Option α :=
  if position < 0 then none else items[position.toNat]?

/-- A file name under the directory of its index, or as it is where there is no such directory.
Before version 5 the first directory is the one the compiler ran in, and is not listed. -/
def fileName (version : Int) (directories : List RawText) (file : RawText × Int) : String :=
  let name := file.1.decode
  match item? directories (if 5 ≤ version then file.2 else file.2 - 1) with
  | some directory => ((Path.ofString directory.decode).join (Path.ofString name)).text
  | none => name

/-- The table of a line program. Files are numbered from one before version 5, and then from
zero. -/
def ofLineProgram : LineProgram → FileTable
  | .absent => {}
  | .broken _ => {}
  | .present version directories files =>
    { files := files.map (fileName version directories)
      base := if 5 ≤ version then 0 else 1 }

def file? (t : FileTable) (number : Int) : Option String :=
  item? t.files (number - t.base)

/-- What stands for the file of a number that the table does not have. -/
def placeholder (number : Int) : String :=
  "<file " ++ Text.decimal number ++ ">"

end FileTable

end PaddingAudit.Debug
