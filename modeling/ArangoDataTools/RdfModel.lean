import ArangoDataTools.Dump
import ArangoDataTools.RdfTerms

namespace ArangoDataTools.Rdf

inductive RdfLiteralPolicy where
  | noLiterals | vertexProperty | materialize
  deriving DecidableEq, Repr

inductive GraphModel where
  | pgt | rpt
  deriving DecidableEq, Repr

inductive NamedGraphMode where
  | ignore | property | collection
  deriving DecidableEq, Repr

structure Placement where
  collection : String
  key : String
  deriving DecidableEq, Repr

structure RdfOptions where
  vertexCollection : String
  edgeCollection : String
  graphModel : GraphModel := .pgt
  literalPolicy : RdfLiteralPolicy := .noLiterals
  namedGraph : NamedGraphMode := .ignore
  blankNodeScope : Option String := none
  deriving DecidableEq, Repr

def utf8 (text : String) : Bytes := text.toList.flatMap String.utf8EncodeChar

def hex : Bytes → String := Dump.hex

-- What `hash_key` feeds to the hash: the domain, and every part after a zero byte.
def hashInput (domain : String) (parts : List String) : Bytes :=
  utf8 domain ++ parts.flatMap fun part => 0 :: utf8 part

def resourceInput (scope : Option String) : RdfResource → Bytes
  | .iri iri => hashInput "rdf:iri" [iri]
  | .blankNode label => match scope with
    | some scope => hashInput "rdf:bnode" [scope,label]
    | none => hashInput "rdf:bnode" [label]

def literalInput (value : String) (datatype language : Option String) : Bytes :=
  hashInput "rdf:literal" [value,datatype.getD "",language.getD ""]

def edgeInput (fromId predicate toId : String) (graph : Option String) : Bytes := match graph with
  | some graph => hashInput "rdf:edge" [fromId,predicate,toId,graph]
  | none => hashInput "rdf:edge" [fromId,predicate,toId]

def graphInput (graph : String) : Bytes := hashInput "rdf:graph" [graph]

section Keys
variable (digest : Bytes → Vector UInt8 32)

def hashKey (input : Bytes) : String := hex (digest input).toList

def literalKey (value : String) (datatype language : Option String) : String :=
  hashKey digest (literalInput value datatype language)

def edgeKey (fromId predicate toId : String) (graph : Option String) : String :=
  hashKey digest (edgeInput fromId predicate toId graph)

def graphSlug (graph : String) : String :=
  let sanitized := (graph.toList.map fun c => if TextScan.isAsciiAlphanumeric c then c else '_').take 48
  String.ofList sanitized ++ "_" ++ String.ofList ((hashKey digest (graphInput graph)).toList.take 8)

namespace RdfOptions

def resourceKey (options : RdfOptions) (resource : RdfResource) : String :=
  hashKey digest (resourceInput options.blankNodeScope resource)

def resourceVertex (options : RdfOptions) (resource : RdfResource) : Value := match resource with
  | .iri iri => .object [("_key",.string (options.resourceKey digest resource)),("iri",.string iri)]
  | .blankNode label => .object
      ([("_key",.string (options.resourceKey digest resource)),("blank_node",.bool true),
      ("label",.string label)] ++ options.blankNodeScope.toList.map fun scope => ("scope",.string scope))

def resourcePlacement (options : RdfOptions) (resource : RdfResource) : Placement :=
  {collection := match options.graphModel,resource with
    | .pgt,_ => options.vertexCollection
    | .rpt,.iri _ => options.vertexCollection ++ "_URIRef"
    | .rpt,.blankNode _ => options.vertexCollection ++ "_BNode"
   key := options.resourceKey digest resource}

def edgeCollectionFor (options : RdfOptions) (graph : Option String) : String :=
  match options.namedGraph,graph with
  | .collection,some graph => options.edgeCollection ++ "_" ++ graphSlug digest graph
  | _,_ => options.edgeCollection

def edgeGraph (options : RdfOptions) (graph : Option String) : Option String := match options.namedGraph with
  | .ignore => none
  | .property | .collection => graph

def literalPlacement (options : RdfOptions) (value : String) (datatype language : Option String) : Placement :=
  {collection := match options.graphModel with
    | .pgt => options.vertexCollection
    | .rpt => options.vertexCollection ++ "_Literal"
   key := literalKey digest value datatype language}

def vertexCollections (options : RdfOptions) : List String := match options.graphModel with
  | .pgt => [options.vertexCollection]
  | .rpt => [options.vertexCollection ++ "_URIRef",options.vertexCollection ++ "_BNode",
      options.vertexCollection ++ "_Literal"]

end RdfOptions

def literalVertex (value : String) (datatype language : Option String) : Value :=
  .object ([("_key",.string (literalKey digest value datatype language))] ++
    (datatype.toList.map fun datatype => ("datatype",.string datatype)) ++
    (language.toList.map fun language => ("language",.string language)) ++ [("literal",.string value)])

def Placement.id (placement : Placement) : String := placement.collection ++ "/" ++ placement.key

def edgeDocument (source target : Placement) (predicate : String) (graph : Option String) : Value :=
  .object ([("_from",.string source.id),("_key",.string (edgeKey digest source.id predicate target.id graph)),
    ("_to",.string target.id)] ++ (graph.toList.map fun graph => ("graph",.string graph)) ++
      [("predicate",.string predicate)])

end Keys

def resourceTerm : RdfResource → RdfTerm
  | .iri iri => .iri iri
  | .blankNode label => .blankNode label

def termInput (options : RdfOptions) : RdfTerm → Bytes
  | .iri iri => resourceInput options.blankNodeScope (.iri iri)
  | .blankNode label => resourceInput options.blankNodeScope (.blankNode label)
  | .literal value datatype language => literalInput value datatype language

def termPlacement (digest : Bytes → Vector UInt8 32) (options : RdfOptions) : RdfTerm → Placement
  | .iri iri => options.resourcePlacement digest (.iri iri)
  | .blankNode label => options.resourcePlacement digest (.blankNode label)
  | .literal value datatype language => options.literalPlacement digest value datatype language

def termVertex (digest : Bytes → Vector UInt8 32) (options : RdfOptions) : RdfTerm → Value
  | .iri iri => options.resourceVertex digest (.iri iri)
  | .blankNode label => options.resourceVertex digest (.blankNode label)
  | .literal value datatype language => literalVertex digest value datatype language

section Hashing

theorem encode_inj {one two : List Char}
    (same : one.flatMap String.utf8EncodeChar = two.flatMap String.utf8EncodeChar) : one = two := by
  have bytes : one.utf8Encode = two.utf8Encode := by rw [List.utf8Encode,List.utf8Encode,same]
  have decoded := congrArg ByteArray.utf8Decode? bytes
  simpa using decoded

def joined (parts : List String) : List Char := parts.flatMap fun part => '\x00' :: part.toList

theorem hashInput_joined (domain : String) (parts : List String) :
    hashInput domain parts = (domain.toList ++ joined parts).flatMap String.utf8EncodeChar := by
  have zero : String.utf8EncodeChar '\x00' = [0] := by decide
  have body : (parts.flatMap fun part => 0 :: utf8 part) = (joined parts).flatMap String.utf8EncodeChar := by
    rw [joined,List.flatMap_assoc]
    refine List.flatMap_congr fun part _ => ?_
    rw [List.flatMap_cons,zero]
    rfl
  rw [hashInput,List.flatMap_append,body]
  rfl

theorem hashInput_inj {domain domain' : String} {parts parts' : List String} :
    hashInput domain parts = hashInput domain' parts' ↔
    domain.toList ++ joined parts = domain'.toList ++ joined parts' := by
  rw [hashInput_joined,hashInput_joined]
  exact ⟨encode_inj,fun same => by rw [same]⟩

theorem hashInput_same {domain : String} {parts parts' : List String} :
    hashInput domain parts = hashInput domain parts' ↔ joined parts = joined parts' := by
  rw [hashInput_inj,List.append_right_inj]

theorem hexDigit_inj : ∀ one < 16, ∀ two < 16, Dump.hexDigit one = Dump.hexDigit two → one = two := by decide

theorem hexDigit_slash : ∀ value < 16, Dump.hexDigit value ≠ '/' := by decide

theorem hex_toList (bytes : Bytes) :
    (hex bytes).toList = bytes.flatMap fun byte =>
    [Dump.hexDigit (byte.toNat / 16),Dump.hexDigit (byte.toNat % 16)] :=
  String.toList_ofList

theorem nibbles (byte : UInt8) : byte.toNat / 16 < 16 ∧ byte.toNat % 16 < 16 := by
  have small := byte.toNat_lt
  omega

theorem hex_length (bytes : Bytes) : (hex bytes).toList.length = 2 * bytes.length := by
  rw [hex_toList]
  induction bytes with
  | nil => rfl
  | cons byte rest ih =>
    rw [List.flatMap_cons,List.length_append,ih]
    simp only [List.length_cons,List.length_nil]
    omega

theorem hex_slash (bytes : Bytes) : '/' ∉ (hex bytes).toList := by
  rw [hex_toList]
  intro inside
  obtain ⟨byte,-,digit⟩ := List.mem_flatMap.mp inside
  simp only [List.mem_cons,List.not_mem_nil,or_false] at digit
  rcases digit with same | same
  · exact hexDigit_slash _ (nibbles byte).1 same.symm
  · exact hexDigit_slash _ (nibbles byte).2 same.symm

theorem hex_inj {one two : Bytes} (same : hex one = hex two) : one = two := by
  have digits := congrArg String.toList same
  rw [hex_toList,hex_toList] at digits
  clear same
  induction one generalizing two with
  | nil => cases two with
    | nil => rfl
    | cons byte rest => simp at digits
  | cons byte rest ih => cases two with
    | nil => simp at digits
    | cons other more =>
      simp only [List.flatMap_cons,List.cons_append,List.nil_append,List.cons.injEq] at digits
      have high := hexDigit_inj _ (nibbles byte).1 _ (nibbles other).1 digits.1
      have low := hexDigit_inj _ (nibbles byte).2 _ (nibbles other).2 digits.2.1
      have equal : byte = other := UInt8.toNat_inj.mp (by omega)
      rw [equal,ih digits.2.2]

variable {digest : Bytes → Vector UInt8 32} {one two : Bytes}

theorem hashKey_length (input : Bytes) : (hashKey digest input).toList.length = 64 := by
  rw [hashKey,hex_length,Vector.length_toList]

theorem hashKey_slash (input : Bytes) : '/' ∉ (hashKey digest input).toList := hex_slash _

theorem hashKey_digest (same : hashKey digest one = hashKey digest two) : digest one = digest two :=
  Vector.toList_inj.mp (hex_inj same)

end Hashing
end ArangoDataTools.Rdf
