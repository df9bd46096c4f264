import CSharpDraft.Draft.Basic
import CSharpDraft.Text.Case

/-!
# Looking for members

Whether a draft of a type or a namespace holds a member with a given name. The question can be narrowed to one sort of
member and to one access modifier, and case counts only if asked for.
-/

set_option autoImplicit false

namespace CSharpDraft

inductive MemberKind where
  | field
  | property
  | classType
  | structType
  | interfaceType
  | enumType
  deriving DecidableEq, Repr

/-- A question for a member. The access modifier is any text: one that is no modifier matches nothing. -/
structure MemberQuery where
  name : Text
  kind : Option MemberKind := none
  access : Option Text := none
  caseSensitive : Bool := false
  deriving DecidableEq, Repr

/-- Whether the names are the same, up to case unless case counts. -/
def sameName (caseSensitive : Bool) (a b : Text) : Bool :=
  if caseSensitive then a == b else Text.fold a == Text.fold b

/-- Whether a draft with this name is meant; a draft without a name never is. -/
def MemberQuery.matchesName (q : MemberQuery) (candidate : Option Text) : Bool :=
  candidate.any (fun c => sameName q.caseSensitive c q.name)

/-- Whether a member with this name and access modifier is meant. -/
def MemberQuery.matches (q : MemberQuery) (candidate : Option Text) (access : Access) : Bool :=
  q.matchesName candidate && q.access.all (fun a => access.text == a)

def MemberQuery.asksFor (q : MemberQuery) (kind : MemberKind) : Bool := q.kind.all (· == kind)

/-- Whether a class holds a field or property that is meant. -/
def ClassDraft.hasMember (d : Plan.Class) (q : MemberQuery) : Bool :=
  (q.asksFor .field && d.fields.any (fun f => q.matches f.name f.access)) ||
    (q.asksFor .property && d.properties.any (fun p => q.matches p.name p.access))

/-- Whether a structure holds a field or property that is meant. -/
def StructDraft.hasMember (d : Plan.Struct) (q : MemberQuery) : Bool :=
  (q.asksFor .field && d.fields.any (fun f => q.matches f.name f.access)) ||
    (q.asksFor .property && d.properties.any (fun p => q.matches p.name p.access))

/-- Whether an interface holds a property that is meant. -/
def InterfaceDraft.hasMember (d : Plan.Interface) (q : MemberQuery) : Bool :=
  q.asksFor .property && d.properties.any (fun p => q.matches p.name p.access)

/-- Whether an enumeration holds a member with the name. -/
def EnumDraft.hasMember (d : Plan.Enum) (q : MemberQuery) : Bool :=
  d.members.any (fun m => q.matchesName m.name)

/-- Whether a namespace holds a type that is meant. -/
def NamespaceDraft.hasMember (d : Plan.Namespace) (q : MemberQuery) : Bool :=
  (q.asksFor .classType && d.classes.any (fun c => q.matches c.name c.access)) ||
    (q.asksFor .structType && d.structs.any (fun s => q.matches s.name s.access)) ||
    (q.asksFor .interfaceType && d.interfaces.any (fun i => q.matches i.name i.access)) ||
    (q.asksFor .enumType && d.enums.any (fun e => q.matches e.name e.access))

end CSharpDraft
