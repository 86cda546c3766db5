import JavaRefactor.Hierarchy.ClassTable

/-!
# Core classes

The classes of the standard library that every program can name: the core of `java.lang`,
and the collections.
-/

namespace JavaRefactor

namespace ClassTable

/-- A class without parameters. -/
private def plain (name : String) (supertypes : List JavaType) : ClassDecl :=
  ⟨name, [], supertypes, false⟩

/-- A class type applied to type variables. -/
private def applied (name : String) (vars : List String) : JavaType :=
  .declared name (vars.map .freeVariable)

private def serializable : JavaType := .ofClass "java.io.Serializable"

private def cloneable : JavaType := .ofClass "java.lang.Cloneable"

private def comparableTo (arg : JavaType) : JavaType := .declared "java.lang.Comparable" [arg]

/-- The interfaces that hold no other type in their supertypes. -/
private def interfaces : List ClassDecl :=
  [⟨"java.io.Serializable", [], [], true⟩,
   ⟨"java.lang.Cloneable", [], [], true⟩,
   ⟨"java.lang.Comparable", ["T"], [], true⟩,
   ⟨"java.lang.CharSequence", [], [], true⟩,
   ⟨"java.lang.Runnable", [], [], true⟩,
   ⟨"java.lang.Iterable", ["T"], [], true⟩]

/-- A class whose values are ordered among themselves. -/
private def ordered (name : String) (others : List JavaType) : ClassDecl :=
  plain name (others ++ [comparableTo (.ofClass name)])

/-- The classes of `java.lang` apart from interfaces and wrappers of numbers. -/
private def languageClasses : List ClassDecl :=
  [plain "java.lang.String"
     [serializable, comparableTo .string, .ofClass "java.lang.CharSequence"],
   plain "java.lang.StringBuilder" [serializable, .ofClass "java.lang.CharSequence"],
   plain "java.lang.Number" [serializable],
   ordered "java.lang.Boolean" [serializable],
   ordered "java.lang.Character" [serializable],
   ⟨"java.lang.Enum", ["E"], [comparableTo (.freeVariable "E"), serializable], false⟩,
   ⟨"java.lang.Class", ["T"], [serializable], false⟩,
   plain "java.lang.Throwable" [serializable],
   plain "java.lang.Exception" [.ofClass "java.lang.Throwable"],
   plain "java.lang.RuntimeException" [.ofClass "java.lang.Exception"],
   plain "java.lang.IllegalArgumentException" [.ofClass "java.lang.RuntimeException"],
   plain "java.lang.Math" [],
   plain "java.lang.System" []]

/-- The wrappers of numeric types. -/
private def numbers : List ClassDecl :=
  ["java.lang.Integer", "java.lang.Long", "java.lang.Short", "java.lang.Byte",
    "java.lang.Double", "java.lang.Float"].map fun name =>
      ordered name [.ofClass "java.lang.Number"]

/-- The collections and the classes of static helpers beside them. -/
private def collections : List ClassDecl :=
  [plain "java.util.Objects" [],
   plain "java.util.Arrays" [],
   plain "java.util.Collections" [],
   ⟨"java.util.Optional", ["T"], [], false⟩,
   ⟨"java.util.Collection", ["E"], [applied "java.lang.Iterable" ["E"]], true⟩,
   ⟨"java.util.List", ["E"], [applied "java.util.Collection" ["E"]], true⟩,
   ⟨"java.util.Set", ["E"], [applied "java.util.Collection" ["E"]], true⟩,
   ⟨"java.util.Map", ["K", "V"], [], true⟩,
   ⟨"java.util.ArrayList", ["E"], [applied "java.util.List" ["E"], cloneable, serializable],
     false⟩,
   ⟨"java.util.HashSet", ["E"], [applied "java.util.Set" ["E"], cloneable, serializable],
     false⟩,
   ⟨"java.util.HashMap", ["K", "V"],
     [applied "java.util.Map" ["K", "V"], cloneable, serializable], false⟩]

/-- The table of the core classes. -/
def core : ClassTable :=
  (interfaces ++ languageClasses ++ collections ++ numbers).foldl add rootOnly

end ClassTable

end JavaRefactor
