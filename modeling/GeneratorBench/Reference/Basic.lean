/-!
References: the libraries a compilation is built against, each a list of namespaces with the types
they export.
-/

namespace GeneratorBench

structure ExportedNamespace where
  name : String
  types : List String
  deriving Repr, DecidableEq, Inhabited

structure Reference where
  name : String
  namespaces : List ExportedNamespace
  deriving Repr, DecidableEq, Inhabited

namespace Reference

def exportsNamespace (r : Reference) (name : String) : Bool :=
  r.namespaces.any fun ns =>
    ns.name == name || (name.toList ++ ['.']).isPrefixOf ns.name.toList

def exportsType (r : Reference) (scope name : String) : Bool :=
  r.namespaces.any fun ns => ns.name == scope && ns.types.contains name

def core : Reference where
  name := "System.Runtime"
  namespaces := [{
    name := "System"
    types := ["Object", "String", "Attribute", "Exception", "Int32", "Boolean", "Console",
      "IDisposable"] }]

end Reference

end GeneratorBench
