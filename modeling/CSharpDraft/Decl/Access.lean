import CSharpDraft.Text.Basic

/-!
# Access modifiers

`Access` lists the modifiers, `Access.text` is how they are written, and `Access.narrowerThan` tells which modifier an
accessor may have inside a member.
-/

set_option autoImplicit false

namespace CSharpDraft

/-- The access modifiers of C#; `unstated` is written as nothing at all. -/
inductive Access where
  | unstated
  | priv
  | internal
  | prot
  | pub
  | privInternal
  | protInternal
  | privProt
  deriving DecidableEq, Repr

namespace Access

def all : List Access := [unstated, priv, internal, prot, pub, privInternal, protInternal, privProt]

def text : Access → Text
  | unstated => []
  | priv => "private".toList
  | internal => "internal".toList
  | prot => "protected".toList
  | pub => "public".toList
  | privInternal => "private internal".toList
  | protInternal => "protected internal".toList
  | privProt => "private protected".toList

def ofText? (t : Text) : Option Access := all.find? (fun a => a.text == t)

/-- The modifiers that an accessor may have inside a member with the given modifier. -/
def narrower : Access → List Access
  | internal => [priv, privProt]
  | prot => [priv, privProt]
  | privProt => [priv]
  | protInternal => [priv, internal, prot, privProt]
  | pub => [priv, internal, prot, privProt, protInternal]
  | unstated => []
  | priv => []
  | privInternal => []

/-- Whether an accessor with modifier `a` may stand inside a member with modifier `owner`. -/
def narrowerThan (a owner : Access) : Bool := owner.narrower.contains a

end Access

end CSharpDraft
