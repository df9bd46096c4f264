import CSharpDraft.Decl.Access

/-!
# Faults

What can go wrong, by cause: a bad argument of a call (`Fault` itself), a setting that a draft still lacks, a combination
of settings that C# forbids (`Violation`), and a document or a declaration that cannot be used. `Fault.message` is the
one place where a cause is put into words.
-/

set_option autoImplicit false

namespace CSharpDraft

inductive Kind where
  | typeParameter
  | fieldMember
  | propertyMember
  | constructorMember
  | enumMember
  | classType
  | structType
  | interfaceType
  | enumType
  | namespaceFile
  deriving DecidableEq, Repr

def Kind.noun : Kind → Text
  | typeParameter => "type parameter".toList
  | fieldMember => "field".toList
  | propertyMember => "property".toList
  | constructorMember => "constructor".toList
  | enumMember => "enum member".toList
  | classType => "class".toList
  | structType => "struct".toList
  | interfaceType => "interface".toList
  | enumType => "enum".toList
  | namespaceFile => "namespace".toList

def Kind.withArticle (k : Kind) : Text :=
  let article := if [.enumMember, .interfaceType, .enumType].contains k then "an ".toList else "a ".toList
  article ++ k.noun

inductive Violation where
  /-- A static class with several constructors. -/
  | staticConstructors (className : Text) (count : Nat)
  /-- A setter of the compiler without a getter. -/
  | setterWithoutGetter
  /-- A setter of the compiler beside a getter with a body. -/
  | setterBesideCustomGetter
  /-- An initial value beside an accessor with a body. -/
  | defaultBesideCustomAccessor
  /-- A setter that is not narrower than its property. -/
  | setterAccess (property : Text)
  /-- A static constructor with an access modifier. -/
  | staticConstructorAccess (typeName : Text)
  /-- A static constructor with parameters. -/
  | staticConstructorParameters (typeName : Text)
  /-- A static constructor that calls a constructor of its base. -/
  | staticConstructorBaseCall (typeName : Text)
  /-- A property of a structure with an initial value. -/
  | structDefault (structName property : Text)
  /-- A constructor of a structure without parameters. -/
  | structParameterless (structName : Text)
  /-- A property of an interface with an initial value. -/
  | interfaceDefault (interfaceName property : Text)
  /-- A property of an interface without accessors. -/
  | interfaceNoAccessor (property : Text)
  /-- A property of an interface with a getter that has a body. -/
  | interfaceCustomGetter (property : Text)
  /-- A property of an interface with a setter that has a body. -/
  | interfaceCustomSetter (property : Text)
  /-- Two members of an enumeration with one name. -/
  | duplicateMember (enumName member : Text)
  /-- A type that is hidden more than a namespace allows. -/
  | namespaceAccess (kind : Kind) (name : Text) (access : Access)
  deriving DecidableEq, Repr

inductive Fault where
  /-- An argument that must not be left out. -/
  | nullArgument (argument : Text)
  /-- An argument that must not be blank. -/
  | emptyArgument (argument : Text)
  /-- A value that must be an integer, with the type of what was given. -/
  | notAnInteger (given : Text)
  /-- A text that is no access modifier. -/
  | unknownAccess (given : Text)
  /-- A draft without a name. -/
  | missingName (kind : Kind)
  /-- A draft without a type. -/
  | missingType (kind : Kind)
  /-- A combination of settings that C# forbids. -/
  | violation (v : Violation)
  /-- A declaration that is no source text on its own. -/
  | notRenderable (kind : Text)
  /-- A document that is no object at its top. -/
  | notAnObject (name : Text)
  /-- A text that is no document. -/
  | notADocument
  /-- A name that stands for no draft. -/
  | unknownDraft (name : Text)
  /-- A draft that has no setting of this sort, or cannot hold a draft of this kind. -/
  | unsupported
  deriving DecidableEq, Repr

def quoted (t : Text) : Text := ['\''] ++ t ++ ['\'']

/-- The texts of a message in a row. -/
def phrase (ts : List Text) : Text := ts.flatten

/-- The violation in words, with the number of the compiler's own error where it has one. -/
def Violation.message : Violation → Text
  | staticConstructors className count => phrase ["Static classes can have only one constructor. Class ".toList,
      quoted className, " has ".toList, (toString count).toList, ".".toList]
  | setterWithoutGetter => ("Properties with auto implemented setters must also have auto implemented getters. " ++
      "(CS8051)").toList
  | setterBesideCustomGetter => "Properties with custom getters cannot have auto implemented setters.".toList
  | defaultBesideCustomAccessor => "Only auto implemented properties can have a default value. (CS8050)".toList
  | setterAccess property => phrase [
      "The accessibility modifier of the accessor must be more restrictive than the property ".toList, quoted property,
      ". (CS0273)".toList]
  | staticConstructorAccess typeName => phrase [
      "Access modifiers are not allowed on static constructors. (CS0515) Constructor of ".toList, quoted typeName,
      ".".toList]
  | staticConstructorParameters typeName => phrase [
      "A static constructor must be parameterless. (CS0132) Constructor of ".toList, quoted typeName, ".".toList]
  | staticConstructorBaseCall typeName => phrase [
      "A static constructor cannot have an explicit base constructor call. (CS0514) Constructor of ".toList,
      quoted typeName, ".".toList]
  | structDefault structName property => phrase ["Struct ".toList, quoted structName,
      " cannot have instance property or field initializers. (CS0573) Property ".toList, quoted property, ".".toList]
  | structParameterless structName => phrase ["Struct ".toList, quoted structName,
      " cannot contain explicit parameterless constructors. (CS0568)".toList]
  | interfaceDefault interfaceName property => phrase ["Interface ".toList, quoted interfaceName,
      " cannot have property initializers. (CS8053) Property ".toList, quoted property, ".".toList]
  | interfaceNoAccessor property => phrase ["Interface property ".toList, quoted property,
      " must have at least one accessor. (CS0548)".toList]
  | interfaceCustomGetter property => phrase ["Interface property ".toList, quoted property,
      " cannot have a custom getter.".toList]
  | interfaceCustomSetter property => phrase ["Interface property ".toList, quoted property,
      " cannot have a custom setter.".toList]
  | duplicateMember enumName member => phrase ["The enum ".toList, quoted enumName,
      " already contains a definition for ".toList, quoted member, ". (CS0102)".toList]
  | namespaceAccess kind name access => phrase ["The ".toList, kind.noun, " ".toList, quoted name,
      " cannot be declared ".toList, quoted access.text,
      " inside a namespace. Only 'public' and 'internal' are allowed. (CS1527)".toList]

def Fault.message : Fault → Text
  | nullArgument argument => phrase ["The argument ".toList, quoted argument, " cannot be None.".toList]
  | emptyArgument argument => phrase ["The argument ".toList, quoted argument,
      " cannot be empty or whitespace.".toList]
  | notAnInteger given => phrase ["The argument 'value' must be an integer, got ".toList, given, ".".toList]
  | unknownAccess given => phrase [quoted given, " is not a valid access modifier.".toList]
  | missingName kind => phrase ["Providing the name of the ".toList, kind.noun, " is required when building ".toList,
      kind.withArticle, ".".toList]
  | missingType kind => phrase ["Providing the type of the ".toList, kind.noun, " is required when building ".toList,
      kind.withArticle, ".".toList]
  | violation v => v.message
  | notRenderable kind => "Cannot serialize ".toList ++ kind
  | notAnObject name => phrase ["The top level of ".toList, quoted name, " must be a JSON object".toList]
  | notADocument => "The text is not a JSON document.".toList
  | unknownDraft name => name
  | unsupported => "The draft has no such setting.".toList

end CSharpDraft
