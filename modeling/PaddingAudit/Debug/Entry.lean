import PaddingAudit.Debug.Tag
import PaddingAudit.Debug.Value

/-!
# Debugging entries

An entry has a tag, an offset and attributes. A site is an entry together with the entries it
directly contains and the entries that enclose it; layouts are computed from sites alone.
-/

namespace PaddingAudit.Debug

/-- What an attribute is about. -/
inductive Key where
  | name
  | type
  | byteSize
  | alignment
  | dataMemberLocation
  | declaration
  | external
  | bitSize
  | bitOffset
  | dataBitOffset
  | count
  | upperBound
  | lowerBound
  | vector
  | declFile
  | declLine
  | declColumn
  | other (text : String)
  deriving DecidableEq, Repr, Inhabited

namespace Key

def text : Key → String
  | .name => "DW_AT_name"
  | .type => "DW_AT_type"
  | .byteSize => "DW_AT_byte_size"
  | .alignment => "DW_AT_alignment"
  | .dataMemberLocation => "DW_AT_data_member_location"
  | .declaration => "DW_AT_declaration"
  | .external => "DW_AT_external"
  | .bitSize => "DW_AT_bit_size"
  | .bitOffset => "DW_AT_bit_offset"
  | .dataBitOffset => "DW_AT_data_bit_offset"
  | .count => "DW_AT_count"
  | .upperBound => "DW_AT_upper_bound"
  | .lowerBound => "DW_AT_lower_bound"
  | .vector => "DW_AT_GNU_vector"
  | .declFile => "DW_AT_decl_file"
  | .declLine => "DW_AT_decl_line"
  | .declColumn => "DW_AT_decl_column"
  | .other text => text

def known : List Key :=
  [.name, .type, .byteSize, .alignment, .dataMemberLocation, .declaration, .external, .bitSize,
   .bitOffset, .dataBitOffset, .count, .upperBound, .lowerBound, .vector, .declFile, .declLine,
   .declColumn]

def ofText (s : String) : Key :=
  (known.find? fun key => key.text == s).getD (.other s)

end Key

structure Attribute where
  value : Value
  form : Option String := some "DW_FORM_data1"
  deriving Inhabited, Repr

/-- A value that is only known when the program runs: a reference to an entry that computes it, or
an expression. -/
def Attribute.isDynamic (a : Attribute) : Bool :=
  match a.form with
  | some form => form.startsWith "DW_FORM_ref" || form == "DW_FORM_exprloc"
  | none => false

structure Entry where
  tag : Option Tag
  offset : Int
  attributes : List (Key × Attribute)
  deriving Inhabited, Repr

namespace Entry

def attribute? (e : Entry) (key : Key) : Option Attribute :=
  e.attributes.lookup key

/-- Whether an entry has an attribute, whatever its value. -/
def has (e : Entry) (key : Key) : Bool :=
  (e.attribute? key).isSome

/-- Whether an attribute is present and set. -/
def flag (e : Entry) (key : Key) : Bool :=
  match e.attribute? key with
  | some a => a.value.isSet
  | none => false

def int? (e : Entry) (key : Key) : Option Int :=
  (e.attribute? key).bind fun a => a.value.asInt?

/-- The name of an entry, however long the number is that stands for one. -/
def name? (e : Entry) : Option String :=
  (e.attribute? .name).map fun a => a.value.asName

/-- Whether the name of an entry, if there is one, can be written. -/
def nameIsWritable (e : Entry) : Bool :=
  (e.attribute? .name).all fun a => a.value.isWritable

theorem nameIsWritable_of_name?_eq_none {e : Entry} (h : e.name? = none) : e.nameIsWritable := by
  rw [nameIsWritable, Option.map_eq_none_iff.1 h]
  rfl

def tagText (e : Entry) : String :=
  match e.tag with
  | some tag => tag.name
  | none => "None"

def tagged (e : Entry) (p : Tag → Bool) : Bool :=
  e.tag.any p

def kind (e : Entry) : Kind :=
  match e.tag with
  | some tag => tag.kind
  | none => .other

/-- An entry that only announces a type defined elsewhere. -/
def isDeclaration (e : Entry) : Bool :=
  e.flag .declaration

/-- A data member of every object. A static member is marked external or as a declaration. -/
def isDataMember (e : Entry) : Bool :=
  e.tag == some .member && !(e.flag .external || e.flag .declaration)

def isBaseClass (e : Entry) : Bool :=
  e.tag == some .inheritance

def isDimension (e : Entry) : Bool :=
  e.tag == some .subrangeType

/-- A member that shares a storage unit with others. -/
def isBitfield (e : Entry) : Bool :=
  e.has .bitSize || e.has .bitOffset || e.has .dataBitOffset

end Entry

/-- An entry in its place: what it contains, and what encloses it from the inside out. -/
structure Site extends Entry where
  children : List Entry := []
  enclosing : List Entry := []
  deriving Inhabited, Repr

namespace Site

def members (s : Site) : List Entry :=
  s.children.filter Entry.isDataMember

/-- The scopes around a site, from the inside out. -/
def scopes (s : Site) : List Entry :=
  s.enclosing.takeWhile fun e => e.tagged Tag.isScope

/-- The name of a scope in a qualified name. -/
def scopeName (e : Entry) : String :=
  match e.name? with
  | some name => if name.isEmpty then "(anonymous)" else name
  | none => "(anonymous)"

/-- The name of a site with the names of its scopes in front. -/
def qualifiedName? (s : Site) : Option String :=
  s.name?.map fun name => "::".intercalate ((s.scopes.map scopeName).reverse ++ [name])

/-- Whether the qualified name of a site can be written. Nobody looks at the scopes of a site
without a name. -/
def qualifiedNameIsWritable (s : Site) : Bool :=
  s.name?.all fun _ => (s.toEntry :: s.scopes).all Entry.nameIsWritable

end Site

end PaddingAudit.Debug
