import ArangoDataTools.TextScan

namespace ArangoDataTools

inductive RdfFormat where
  | nTriples | nQuads | turtle
  deriving DecidableEq, Repr

inductive RdfResource where
  | iri (iri : String)
  | blankNode (label : String)
  deriving DecidableEq, Repr

inductive RdfTerm where
  | iri (iri : String)
  | blankNode (label : String)
  | literal (value : String) (datatype language : Option String)
  deriving DecidableEq, Repr

structure RdfTriple where
  subject : RdfResource
  predicate : String
  object : RdfTerm
  graph : Option String
  deriving DecidableEq, Repr

end ArangoDataTools
