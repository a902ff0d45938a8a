import HeaderBinding.Record.Basic

/-!
# Signatures

The keys that tell overloads apart. A method is known inside its class by its return type, name and
argument types, written as one text; a constructor or destructor has no return type and is known by
the rest.

Records can also be built up member by member; the functions for that stand here because they file
methods under their keys.

## Main definitions

* `displaySignature`: A name with its argument types.
* `Method.signatureKey`, `FreeFunction.signatureKey`: The key among overloads.
* `Method.hasRvalueArguments`: Some argument is an rvalue reference.
* `ClassRecord.addMethod`: Filing a method under its key.
* `ClassRecord.callables`: The members whose signatures mention types.
-/

namespace HeaderBinding

/-- `Name(T1, T2)`; an absent type is written as nothing. -/
def displaySignature (name : String) (args : List Argument) : String :=
  name ++ "(" ++ String.intercalate ", " (args.map fun a => a.type.getD "") ++ ")"

namespace Argument

/-- Two ampersands stand side by side somewhere in a text. -/
def hasDoubleAmpersand : List Char → Bool
  | '&' :: '&' :: _ => true
  | _ :: cs => hasDoubleAmpersand cs
  | [] => false

/-- The spelled type contains `&&`. -/
def isRvalueReference (a : Argument) : Bool :=
  a.type.any fun type => hasDoubleAmpersand type.toList

end Argument

namespace Method

/-- A method of which only the name and the arguments are known. -/
def ofArgs (name : String) (args : List Argument) : Method :=
  { name, fullName := displaySignature name args, args }

/-- The return type in front of the full name, if there is one. -/
def signatureKey (m : Method) : String :=
  match m.returnType with
  | some type => type ++ " " ++ m.fullName
  | none => m.fullName

/-- Some argument is an rvalue reference. -/
def hasRvalueArguments (m : Method) : Bool :=
  m.args.any (·.isRvalueReference)

end Method

namespace FreeFunction

/-- The return type in front of the full name. The blank between them stays even without a
    type. -/
def signatureKey (f : FreeFunction) : String :=
  f.returnType.getD "" ++ " " ++ f.fullName

end FreeFunction

namespace ClassRecord

/-- File a method under its key, among the static or the instance methods. -/
def addMethod (c : ClassRecord) (m : Method) : ClassRecord :=
  if m.isStatic then { c with staticMethods := c.staticMethods.insert m.signatureKey m }
  else { c with methods := c.methods.insert m.signatureKey m }

/-- Add a base. -/
def withSuperclass (c : ClassRecord) (base : String) : ClassRecord :=
  { c with superclasses := c.superclasses ++ [base] }

/-- File a method among the static ones and mark it so. -/
def withStaticMethod (c : ClassRecord) (m : Method) : ClassRecord :=
  let m := { m with isStatic := true }
  { c with staticMethods := c.staticMethods.insert m.signatureKey m }

/-- Add a constructor. -/
def withConstructor (c : ClassRecord) (m : Method) : ClassRecord :=
  { c with constructors := c.constructors ++ [m] }

/-- Add an enumeration. -/
def withEnum (c : ClassRecord) (e : Enumeration) : ClassRecord :=
  { c with enums := c.enums ++ [e] }

/-- File a nested typedef under its name. -/
def withTypedef (c : ClassRecord) (t : Typedef) : ClassRecord :=
  { c with typedefs := c.typedefs.insert t.name t }

/-- File a nested class under its name. -/
def withInnerClass (c : ClassRecord) (inner : ClassRecord) : ClassRecord :=
  { c with innerClasses := c.innerClasses.insert inner.name inner }

/-- The instance methods, static methods and constructors. -/
def callables (c : ClassRecord) : List Method :=
  c.methods.values ++ c.staticMethods.values ++ c.constructors

/-- Change every instance method, static method and constructor. The keys stay as they are. -/
def mapCallables (f : Method → Method) (c : ClassRecord) : ClassRecord :=
  { c with
    methods := c.methods.map f
    staticMethods := c.staticMethods.map f
    constructors := c.constructors.map f }

end ClassRecord

namespace Header

/-- Add a class. -/
def withClass (h : Header) (c : ClassRecord) : Header :=
  { h with classes := h.classes ++ [c] }

/-- Add a class template. -/
def withTemplate (h : Header) (t : ClassTemplate) : Header :=
  { h with classTemplates := h.classTemplates ++ [t] }

/-- Add an included header. -/
def withDependency (h : Header) (dependency : String) : Header :=
  { h with dependencies := h.dependencies ++ [dependency] }

end Header

end HeaderBinding
