/-!
# Tags

The tag of a debugging entry says what the entry describes. The tags that matter for layouts have a
constructor of their own; the predicates group them by the part they play.
-/

namespace PaddingAudit.Debug

inductive Tag where
  | structureType
  | classType
  | unionType
  | namespaceScope
  | pointerType
  | referenceType
  | rvalueReferenceType
  | ptrToMemberType
  | typeAlias
  | constType
  | volatileType
  | restrictType
  | atomicType
  | immutableType
  | packedType
  | sharedType
  | baseType
  | enumerationType
  | unspecifiedType
  | arrayType
  | subrangeType
  | member
  | inheritance
  | compileUnit
  | other (name : String)
  deriving DecidableEq, Repr, Inhabited

namespace Tag

def name : Tag → String
  | .structureType => "DW_TAG_structure_type"
  | .classType => "DW_TAG_class_type"
  | .unionType => "DW_TAG_union_type"
  | .namespaceScope => "DW_TAG_namespace"
  | .pointerType => "DW_TAG_pointer_type"
  | .referenceType => "DW_TAG_reference_type"
  | .rvalueReferenceType => "DW_TAG_rvalue_reference_type"
  | .ptrToMemberType => "DW_TAG_ptr_to_member_type"
  | .typeAlias => "DW_TAG_typedef"
  | .constType => "DW_TAG_const_type"
  | .volatileType => "DW_TAG_volatile_type"
  | .restrictType => "DW_TAG_restrict_type"
  | .atomicType => "DW_TAG_atomic_type"
  | .immutableType => "DW_TAG_immutable_type"
  | .packedType => "DW_TAG_packed_type"
  | .sharedType => "DW_TAG_shared_type"
  | .baseType => "DW_TAG_base_type"
  | .enumerationType => "DW_TAG_enumeration_type"
  | .unspecifiedType => "DW_TAG_unspecified_type"
  | .arrayType => "DW_TAG_array_type"
  | .subrangeType => "DW_TAG_subrange_type"
  | .member => "DW_TAG_member"
  | .inheritance => "DW_TAG_inheritance"
  | .compileUnit => "DW_TAG_compile_unit"
  | .other name => name

def known : List Tag :=
  [.structureType, .classType, .unionType, .namespaceScope, .pointerType, .referenceType,
   .rvalueReferenceType, .ptrToMemberType, .typeAlias, .constType, .volatileType, .restrictType,
   .atomicType, .immutableType, .packedType, .sharedType, .baseType, .enumerationType,
   .unspecifiedType, .arrayType, .subrangeType, .member, .inheritance, .compileUnit]

def ofName (s : String) : Tag :=
  (known.find? fun tag => tag.name == s).getD (.other s)

/-- Records, whose members can be put in another order. -/
def isRecord : Tag → Bool
  | .structureType | .classType => true
  | _ => false

/-- Scopes, which contribute to the qualified names of what they enclose. -/
def isScope : Tag → Bool
  | .namespaceScope | .structureType | .classType | .unionType => true
  | _ => false

end Tag

/-- How the layout of a type comes about. -/
inductive Kind where
  /-- Aligned to its own size. -/
  | scalar
  /-- Holds an address. -/
  | pointer
  /-- An alias or a qualifier, which shares the layout of the type it refers to. -/
  | transparent
  /-- A number of elements of one type. -/
  | array
  /-- Aligned as its members need. -/
  | aggregate
  /-- Anything else. -/
  | other
  deriving DecidableEq, Repr, Inhabited

def Tag.kind : Tag → Kind
  | .baseType | .enumerationType | .unspecifiedType => .scalar
  | .pointerType | .referenceType | .rvalueReferenceType | .ptrToMemberType => .pointer
  | .typeAlias | .constType | .volatileType | .restrictType | .atomicType | .immutableType
  | .packedType | .sharedType => .transparent
  | .arrayType => .array
  | .structureType | .classType | .unionType => .aggregate
  | _ => .other

end PaddingAudit.Debug
