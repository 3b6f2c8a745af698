import ArangoDataTools.RdfStores

namespace ArangoDataTools.Rdf

variable {digest : Bytes → Vector UInt8 32} {options : RdfOptions} {vertices : DocStore}
  {triples : List RdfTriple}
  {resources : List RdfResource} {values : String → String → List String}

def propertyOf (vertex : Value) (predicate : String) : Option Value :=
  (vertex.get "properties").bind fun properties => properties.get predicate

-- What counts as a record of a literal: its text, where it has nothing else, an object
-- with its parts, or one of several values.
inductive RecordsLiteral (value : String) (datatype language : Option String) : Value → Prop where
  | plain : datatype = none → language = none → RecordsLiteral value datatype language (.string value)
  | parts : textAt (.object entries) "value" = some value → textAt (.object entries) "datatype" = datatype →
      textAt (.object entries) "language" = language → RecordsLiteral value datatype language (.object entries)
  | among : item ∈ items → RecordsLiteral value datatype language item →
      RecordsLiteral value datatype language (.array items)

def SameValues (one two : Option Value) : Prop :=
  one = two ∨ ∃ items others, one = some (.array items) ∧ two = some (.array others) ∧ items.Perm others

structure SameVertex (one two : Value) : Prop where
  fields : ∀ name, name ≠ "properties" → one.get name = two.get name
  properties : ∀ predicate, SameValues (propertyOf one predicate) (propertyOf two predicate)

def SameStore (one two : DocStore) : Prop := ∀ collection key,
    Option.Rel SameVertex (one.find collection key) (two.find collection key)

structure KeepsLiterals (digest : Bytes → Vector UInt8 32) (options : RdfOptions)
    (triples : List RdfTriple) : Prop where
  recorded : ∀ triple ∈ triples, ∀ value datatype language,
    triple.object = .literal value datatype language → ∃ vertex property,
    (foldTriples digest options triples).vertices.find
      (options.resourcePlacement digest triple.subject).collection
        (options.resourcePlacement digest triple.subject).key = some vertex ∧
      propertyOf vertex triple.predicate = some property ∧ RecordsLiteral value datatype language property
  ordered : ∀ other, triples.Perm other →
    SameStore (foldTriples digest options triples).vertices (foldTriples digest options other).vertices

-- Literals without a datatype or a language, one for each subject and predicate.
structure OneValue (triples : List RdfTriple) : Prop where
  plain : ∀ triple ∈ triples, ∀ value datatype language, triple.object = .literal value datatype language →
    datatype = none ∧ language = none
  single : ∀ triple ∈ triples, ∀ other ∈ triples, triple.subject = other.subject →
    triple.predicate = other.predicate →
    ∀ value datatype language value' datatype' language', triple.object = .literal value datatype language →
      other.object = .literal value' datatype' language' → value = value'

section Property

theorem setProperty_property {key : String} {vertex : Value} (fits : Vertex key vertex)
    (predicate value other : String) :
    propertyOf (setProperty predicate value vertex) other =
      if other = predicate then some (.string value) else propertyOf vertex other := by
  obtain ⟨-,entries,properties,rfl,held⟩ := fits
  have before : propertyOf (.object entries) other = Value.lookup other properties := by
    unfold propertyOf
    rw [Value.get_object]
    cases found : Value.lookup "properties" entries with
    | none =>
      rw [found] at held
      cases held
      rfl
    | some object =>
      rw [found] at held
      obtain rfl : object = .object properties := held
      rfl
  have after : propertyOf (setProperty predicate value (.object entries)) other =
      Value.lookup other (insertEntry predicate (.string value) properties) := by
    simp only [setProperty,held,propertyOf,Value.get_object,lookup_insertEntry,if_pos,Option.bind_some]
  rw [after,before,lookup_insertEntry]

theorem vertex_property (resource : RdfResource) (predicate : String) :
    propertyOf (options.resourceVertex digest resource) predicate = none := by
  cases resource with
  | iri iri => simp [propertyOf,RdfOptions.resourceVertex]
  | blankNode label => cases scope : options.blankNodeScope <;>
      simp [propertyOf,RdfOptions.resourceVertex,scope]

end Property

section Describing

structure Describes (digest : Bytes → Vector UInt8 32) (options : RdfOptions) (resources : List RdfResource)
    (values : String → String → List String) (vertices : DocStore) : Prop where
  present : ∀ resource ∈ resources, ∃ vertex,
    vertices.find (options.resourcePlacement digest resource).collection
    (options.resourcePlacement digest resource).key = some vertex
  placed : ∀ key predicate, values key predicate ≠ [] → ∃ resource ∈ resources,
    (options.resourcePlacement digest resource).key = key
  vertex : ∀ collection key vertex, vertices.find collection key = some vertex → ∃ resource ∈ resources,
    options.resourcePlacement digest resource = ⟨collection,key⟩ ∧
    (∀ name, name ≠ "properties" → vertex.get name = (options.resourceVertex digest resource).get name) ∧
    ∀ predicate, propertyOf vertex predicate = (values key predicate).getLast?.map .string

theorem find_stored (write : DocWrite) (collection key : String) : (stored vertices write).find collection key =
    if write.1 = (collection,key) then some ((vertices.find collection key).getD write.2)
      else vertices.find collection key := by
  obtain ⟨⟨group,name⟩,value⟩ := write
  by_cases same : (group,name) = (collection,key)
  · obtain ⟨rfl,rfl⟩ := Prod.mk.inj same
    rw [if_pos rfl]
    exact FirstWrite.find_put_self
  · rw [if_neg same]
    exact FirstWrite.find_put_other fun both => same (Prod.ext both.1 both.2)

theorem pgt_collection (model : options.graphModel = .pgt) (resource : RdfResource) :
    (options.resourcePlacement digest resource).collection = options.vertexCollection := by
  simp [RdfOptions.resourcePlacement,model]

theorem describes_stored (model : options.graphModel = .pgt)
    (describes : Describes digest options resources values vertices)
    (resource : RdfResource) :
    Describes digest options (resources ++ [resource]) values
      (stored vertices (termWrite digest options (resourceTerm resource))) := by
  have place : (termWrite digest options (resourceTerm resource)).1 =
      ((options.resourcePlacement digest resource).collection,
      (options.resourcePlacement digest resource).key) := by
    simp only [termWrite,subject_placement]
  have made : (termWrite digest options (resourceTerm resource)).2 =
      options.resourceVertex digest resource := subject_vertex resource
  refine ⟨fun other inside => ?_,fun key predicate some_ => ?_,fun collection key vertex found => ?_⟩
  · rcases List.mem_append.mp inside with before | last
    · exact stored_kept (describes.present other before) _
    · obtain rfl := List.mem_singleton.mp last
      exact ⟨_,by rw [find_stored,if_pos place]⟩
  · obtain ⟨other,inside,same⟩ := describes.placed key predicate some_
    exact ⟨other,List.mem_append_left _ inside,same⟩
  · rw [find_stored,place,made] at found
    cases before : vertices.find collection key with
    | some old =>
      have kept : old = vertex := by
        rw [before] at found
        split at found <;> exact Option.some.inj found
      obtain ⟨other,inside,described⟩ := describes.vertex collection key old before
      exact ⟨other,List.mem_append_left _ inside,kept ▸ described⟩
    | none =>
      rw [before] at found
      split at found
      · next same =>
        obtain rfl := Option.some.inj found
        obtain ⟨rfl,rfl⟩ := Prod.mk.inj same
        refine ⟨resource,List.mem_append_right _ List.mem_cons_self,rfl,fun _ _ => rfl,fun predicate => ?_⟩
        -- Nothing was attached where there was no vertex.
        have nothing : values (options.resourcePlacement digest resource).key predicate = [] := by
          by_contra some_
          obtain ⟨other,inside,key⟩ := describes.placed _ _ some_
          obtain ⟨vertex,there⟩ := describes.present other inside
          rw [pgt_collection model,key,← pgt_collection model resource,before] at there
          cases there
        rw [nothing]
        exact vertex_property resource predicate
      · cases found

theorem describes_added (keyed : Keyed vertices) (model : options.graphModel = .pgt)
    (describes : Describes digest options resources values vertices) {resource : RdfResource}
      (inside : resource ∈ resources)
    (predicate value : String) :
    Describes digest options resources
      (fun key name => if key = (options.resourcePlacement digest resource).key ∧
      name = predicate then values key name ++ [value]
        else values key name)
      (addProperty vertices (options.resourcePlacement digest resource) predicate value) := by
  refine ⟨fun other held => addProperty_kept (describes.present other held) _ _ _,fun key name some_ => ?_,
    fun collection key vertex found => ?_⟩
  · by_cases here : key = (options.resourcePlacement digest resource).key ∧ name = predicate
    · exact ⟨resource,inside,here.1.symm⟩
    · simp only [if_neg here] at some_
      exact describes.placed key name some_
  · by_cases here : (options.resourcePlacement digest resource).collection = collection ∧
        (options.resourcePlacement digest resource).key = key
    · obtain ⟨rfl,rfl⟩ := here
      rw [addProperty,FirstWrite.find_modify_self] at found
      obtain ⟨old,before,rfl⟩ := Option.map_eq_some_iff.mp found
      have fits := keyed _ _ _ before
      obtain ⟨other,held,place,fields,properties⟩ := describes.vertex _ _ old before
      refine ⟨other,held,place,fun name apart => ?_,fun name => ?_⟩
      · rw [setProperty_get apart,fields name apart]
      · rw [setProperty_property fits]
        by_cases same : name = predicate
        · simp [same]
        · simp [same,properties]
    · rw [addProperty,FirstWrite.find_modify_other here] at found
      obtain ⟨other,held,place,fields,properties⟩ := describes.vertex _ _ vertex found
      have apart : key ≠ (options.resourcePlacement digest resource).key := by
        intro same
        have collections := congrArg Placement.collection place
        rw [pgt_collection model] at collections
        exact here ⟨(pgt_collection model resource).trans collections,same.symm⟩
      refine ⟨other,held,place,fields,fun name => ?_⟩
      rw [if_neg fun both => apart both.1]
      exact properties name

def resourcesOf (triples : List RdfTriple) : List RdfResource :=
  triples.flatMap fun triple => triple.subject :: (objectAsResource triple.object).toList

def attachment (digest : Bytes → Vector UInt8 32) (options : RdfOptions) (key predicate : String)
    (triple : RdfTriple) : Option String :=
  match triple.object with
  | .literal value _ _ =>
    if key = (options.resourcePlacement digest triple.subject).key ∧
      predicate = triple.predicate then some value else none
  | _ => none

def attached (digest : Bytes → Vector UInt8 32) (options : RdfOptions) (triples : List RdfTriple)
    (key predicate : String) : List String :=
  triples.filterMap (attachment digest options key predicate)

theorem linked_resource {object : RdfTerm} (attaching : Attaching options) (linked : Linked options object) :
    ∃ resource, objectAsResource object = some resource ∧ object = resourceTerm resource := by
  cases object with
  | iri iri => exact ⟨.iri iri,rfl,rfl⟩
  | blankNode label => exact ⟨.blankNode label,rfl,rfl⟩
  | literal value datatype language => simp [Linked,attaching.1,attaching.2] at linked

theorem describes_fold (attaching : Attaching options) (triples : List RdfTriple) :
    Describes digest options (resourcesOf triples) (attached digest options triples)
      (foldTriples digest options triples).vertices := by
  induction triples using List.reverseRecOn with
  | nil =>
    refine ⟨fun _ inside => absurd inside List.not_mem_nil,fun _ _ some_ => absurd rfl some_,
      fun collection key vertex found => ?_⟩
    rw [foldTriples,List.foldl_nil,FirstWrite.find_empty] at found
    cases found
  | append_singleton triples triple ih =>
    have subject := describes_stored attaching.1 ih triple.subject
    rw [foldTriples_step]
    have values : attached digest options (triples ++ [triple]) = fun key predicate =>
        attached digest options triples key predicate ++
          (attachment digest options key predicate triple).toList := by
      funext key predicate
      rw [attached,List.filterMap_append,attached]
      cases made : attachment digest options key predicate triple <;> simp [made]
    have more : resourcesOf (triples ++ [triple]) = resourcesOf triples ++ [triple.subject] ++
        (objectAsResource triple.object).toList := by
      simp [resourcesOf]
    rw [values,more]
    rcases foldTriple_cases digest triple options (foldTriples digest options triples).vertices with
      ⟨linked,same⟩ | ⟨-,plain,-⟩ | ⟨value,datatype,language,object,-,-,same⟩
    · obtain ⟨resource,made,object⟩ := linked_resource attaching linked
      have nothing : ∀ key predicate, attachment digest options key predicate triple = none := by
        intro key predicate
        rw [attachment,object]
        cases resource <;> rfl
      simp only [Folded.take,same,nothing,made,Option.toList_none,Option.toList_some,List.append_nil]
      rw [object]
      exact describes_stored attaching.1 subject resource
    · exact absurd attaching plain
    · have added := describes_added (stored_keyed (foldTriples_keyed triples) _) attaching.1 subject
        (List.mem_append_right _ List.mem_cons_self) triple.predicate value
      have both : (fun key predicate => attached digest options triples key predicate ++
          (attachment digest options key predicate triple).toList) = fun key name =>
          if key = (options.resourcePlacement digest triple.subject).key ∧ name = triple.predicate then
            attached digest options triples key name ++ [value]
              else attached digest options triples key name := by
        funext key predicate
        rw [attachment,object]
        by_cases here : key = (options.resourcePlacement digest triple.subject).key ∧
          predicate = triple.predicate
        · simp only [if_pos here,Option.toList_some]
        · simp only [if_neg here,Option.toList_none,List.append_nil]
      rw [both]
      simp only [Folded.take,same,object,objectAsResource,Option.toList_none,List.append_nil]
      exact added

end Describing

section Values

theorem attached_mem {key predicate value : String} : value ∈ attached digest options triples key predicate ↔
    ∃ triple ∈ triples, (∃ datatype language, triple.object = .literal value datatype language) ∧
      key = (options.resourcePlacement digest triple.subject).key ∧ predicate = triple.predicate := by
  rw [attached,List.mem_filterMap]
  refine exists_congr fun triple => and_congr_right fun _ => ?_
  unfold attachment
  cases triple.object with
  | literal held datatype language =>
    by_cases here : key = (options.resourcePlacement digest triple.subject).key ∧ predicate = triple.predicate
    · simp [here]
    · simp only [if_neg here,reduceCtorEq,false_iff,not_and]
      exact fun _ same other => here ⟨same,other⟩
  | _ => simp

theorem records_string {value text : String} {datatype language : Option String}
    (records : RecordsLiteral value datatype language (.string text)) : datatype = none ∧
    language = none ∧ value = text := by
  cases records with
  | plain datatype language => exact ⟨datatype,language,rfl⟩

def ResourceKeysApart (digest : Bytes → Vector UInt8 32) (options : RdfOptions)
    (triples : List RdfTriple) : Prop :=
  ∀ one ∈ resourcesOf triples, ∀ two ∈ resourcesOf triples,
    CollisionFree digest (resourceInput options.blankNodeScope one) (resourceInput options.blankNodeScope two)

theorem apart_resources (apart : ResourceKeysApart digest options triples) {one two : RdfResource}
    (inside : one ∈ resourcesOf triples)
    (inside' : two ∈ resourcesOf triples)
    (same : (options.resourcePlacement digest one).key =
    (options.resourcePlacement digest two).key) : one = two :=
  resourceInput_inj ((hashKey_iff (apart one inside two inside')).mp same)

theorem subject_resource {triple : RdfTriple} (inside : triple ∈ triples) :
    triple.subject ∈ resourcesOf triples :=
  List.mem_flatMap.mpr ⟨triple,inside,List.mem_cons_self⟩

theorem object_value {triple : RdfTriple} {value : String} {datatype language : Option String}
    (inside : triple ∈ triples)
    (object : triple.object = .literal value datatype language) :
    value ∈ attached digest options triples (options.resourcePlacement digest triple.subject).key
      triple.predicate :=
  attached_mem.mpr ⟨triple,inside,⟨datatype,language,object⟩,rfl,rfl⟩

theorem attached_found (attaching : Attaching options) {triple : RdfTriple} {value : String}
    {datatype language : Option String}
    (inside : triple ∈ triples) (object : triple.object = .literal value datatype language) :
    ∃ vertex text, (foldTriples digest options triples).vertices.find
      (options.resourcePlacement digest triple.subject).collection
        (options.resourcePlacement digest triple.subject).key = some vertex ∧
      propertyOf vertex triple.predicate = some (.string text) ∧
      text ∈ attached digest options triples (options.resourcePlacement digest triple.subject).key
        triple.predicate := by
  have describes : Describes digest options (resourcesOf triples) (attached digest options triples)
      (foldTriples digest options triples).vertices := describes_fold attaching triples
  obtain ⟨vertex,found⟩ := describes.present _ (subject_resource inside)
  obtain ⟨-,-,-,-,properties⟩ := describes.vertex _ _ vertex found
  have some_ : attached digest options triples (options.resourcePlacement digest triple.subject).key
      triple.predicate ≠ [] :=
    List.ne_nil_of_mem (object_value inside object)
  refine ⟨vertex,_,found,?_,List.getLast_mem some_⟩
  rw [properties,List.getLast?_eq_some_getLast some_]
  rfl

theorem single_attached (apart : ResourceKeysApart digest options triples) (one : OneValue triples)
    {key predicate first second : String}
    (held : first ∈ attached digest options triples key predicate)
      (held' : second ∈ attached digest options triples key predicate) :
    first = second := by
  obtain ⟨triple,inside,⟨datatype,language,object⟩,place,name⟩ := attached_mem.mp held
  obtain ⟨other,inside',⟨datatype',language',object'⟩,place',name'⟩ := attached_mem.mp held'
  have subjects := apart_resources apart (subject_resource inside) (subject_resource inside')
      (place.symm.trans place')
  exact one.single triple inside other inside' subjects (name.symm.trans name') _ _ _ _ _ _ object object'

theorem last_perm {first second : List String} (perm : first.Perm second)
    (one : ∀ x ∈ first, ∀ y ∈ first, x = y) :
    first.getLast? = second.getLast? := by
  cases second with
  | nil => rw [List.perm_nil.mp perm]
  | cons head rest =>
    have some_ : first ≠ [] := fun empty => List.cons_ne_nil _ _ (List.nil_perm.mp (empty ▸ perm))
    rw [List.getLast?_eq_some_getLast some_,List.getLast?_eq_some_getLast (List.cons_ne_nil _ _)]
    exact congrArg some (one _ (List.getLast_mem _) _ (perm.mem_iff.mpr (List.getLast_mem _)))

theorem rearranged_same (attaching : Attaching options)
    (apart : ResourceKeysApart digest options triples) (one : OneValue triples)
    {other : List RdfTriple} (perm : triples.Perm other) :
    SameStore (foldTriples digest options triples).vertices (foldTriples digest options other).vertices := by
  have here : Describes digest options (resourcesOf triples) (attached digest options triples)
      (foldTriples digest options triples).vertices := describes_fold attaching triples
  have there : Describes digest options (resourcesOf other) (attached digest options other)
      (foldTriples digest options other).vertices := describes_fold attaching other
  have resources : (resourcesOf triples).Perm (resourcesOf other) := perm.flatMap_right _
  have values : ∀ key predicate, (attached digest options triples key predicate).getLast? =
      (attached digest options other key predicate).getLast? := fun key predicate =>
    last_perm (perm.filterMap _) fun x held y held' => single_attached apart one held held'
  intro collection key
  cases found : (foldTriples digest options triples).vertices.find collection key with
  | none => cases found' : (foldTriples digest options other).vertices.find collection key with
    | none => exact .none
    | some vertex' =>
      obtain ⟨resource,inside,place,-⟩ := there.vertex _ _ vertex' found'
      obtain ⟨vertex,present⟩ := here.present resource (resources.mem_iff.mpr inside)
      rw [place,found] at present
      cases present
  | some vertex =>
    obtain ⟨resource,inside,place,fields,properties⟩ := here.vertex _ _ vertex found
    obtain ⟨vertex',found'⟩ := there.present resource (resources.mem_iff.mp inside)
    rw [place] at found'
    obtain ⟨resource',inside',place',fields',properties'⟩ := there.vertex _ _ vertex' found'
    obtain rfl := apart_resources apart inside (resources.mem_iff.mpr inside')
        (congrArg Placement.key (place.trans place'.symm))
    rw [found']
    refine .some ⟨fun name apart => (fields name apart).trans (fields' name apart).symm,
      fun predicate => .inl ?_⟩
    rw [properties,properties',values]

-- The policy keeps every literal exactly when they are plain texts, one for each subject and predicate.
theorem literals_kept_iff (digest : Bytes → Vector UInt8 32) (options : RdfOptions) (triples : List RdfTriple)
    (attaching : Attaching options) (apart : ResourceKeysApart digest options triples) :
    KeepsLiterals digest options triples ↔ OneValue triples := by
  constructor
  · intro kept
    have text : ∀ triple ∈ triples, ∀ value datatype language,
        triple.object = .literal value datatype language →
        datatype = none ∧ language = none ∧ ∃ vertex, (foldTriples digest options triples).vertices.find
          (options.resourcePlacement digest triple.subject).collection
            (options.resourcePlacement digest triple.subject).key = some vertex ∧
          propertyOf vertex triple.predicate = some (.string value) := by
      intro triple inside value datatype language object
      obtain ⟨vertex,property,found,held,records⟩ := kept.recorded triple inside value datatype language object
      obtain ⟨vertex',text,found',held',-⟩ := attached_found attaching inside object
      obtain rfl := Option.some.inj (found.symm.trans found')
      obtain rfl := Option.some.inj (held.symm.trans held')
      obtain ⟨plain,untagged,rfl⟩ := records_string records
      exact ⟨plain,untagged,vertex,found,held⟩
    refine ⟨fun triple inside value datatype language object => ?_,
      fun triple inside other inside' subjects predicates value datatype language value' datatype'
        language' object object' => ?_⟩
    · obtain ⟨plain,untagged,-⟩ := text triple inside value datatype language object
      exact ⟨plain,untagged⟩
    · obtain ⟨-,-,vertex,found,held⟩ := text triple inside value datatype language object
      obtain ⟨-,-,vertex',found',held'⟩ := text other inside' value' datatype' language' object'
      rw [subjects] at found
      obtain rfl := Option.some.inj (found.symm.trans found')
      rw [predicates] at held
      exact Value.string.inj (Option.some.inj (held.symm.trans held'))
  · intro one
    refine ⟨fun triple inside value datatype language object => ?_,fun other perm =>
      rearranged_same attaching apart one perm⟩
    obtain ⟨rfl,rfl⟩ := one.plain triple inside value datatype language object
    obtain ⟨vertex,text,found,held,attached_⟩ := attached_found attaching inside object
    obtain rfl := single_attached apart one attached_ (object_value inside object)
    exact ⟨vertex,_,found,held,.plain rfl rfl⟩

def attachingOptions : RdfOptions := {plainOptions with literalPolicy := .vertexProperty}
def namedTriple (name : String) : RdfTriple := ⟨.iri "s","p",.literal name none none,none⟩

theorem named_apart (names : List String) : ResourceKeysApart sampleDigest attachingOptions
    (names.map namedTriple) := by
  have only : ∀ resource ∈ resourcesOf (names.map namedTriple), resource = .iri "s" := by
    intro resource inside
    obtain ⟨triple,held,inside⟩ := List.mem_flatMap.mp inside
    obtain ⟨name,-,rfl⟩ := List.mem_map.mp held
    exact List.mem_singleton.mp inside
  intro one inside two inside' _
  rw [only one inside,only two inside']

theorem single_name_kept : KeepsLiterals sampleDigest attachingOptions [namedTriple "a"] := by
  refine (literals_kept_iff sampleDigest attachingOptions [namedTriple "a"] ⟨rfl,rfl⟩
    (named_apart ["a"])).mpr ⟨?_,?_⟩
  · intro triple inside value datatype language object
    obtain rfl := List.mem_singleton.mp inside
    obtain ⟨-,plain,untagged⟩ := RdfTerm.literal.inj object
    exact ⟨plain.symm,untagged.symm⟩
  · intro triple inside other inside' _ _ value datatype language value' datatype' language' object object'
    obtain rfl := List.mem_singleton.mp inside
    obtain rfl := List.mem_singleton.mp inside'
    exact (RdfTerm.literal.inj object).1.symm.trans (RdfTerm.literal.inj object').1

-- `<s> <p> "a" .` and `<s> <p> "b" .`
def nameLine (name : Char) : List Char := ['<','s','>',' ','<','p','>',' ','"',name,'"',' ','.']

theorem second_name_replaces_first :
    RdfReading.readRdfTriples (nameLine 'a' ++ '\n' :: nameLine 'b') .nTriples =
    ([namedTriple "a",namedTriple "b"],none) ∧
      ∀ digest, ¬ KeepsLiterals digest attachingOptions [namedTriple "a",namedTriple "b"] := by
  refine ⟨rfl,fun digest kept => ?_⟩
  have attaching : Attaching attachingOptions := ⟨rfl,rfl⟩
  have first : namedTriple "a" ∈ [namedTriple "a",namedTriple "b"] := List.mem_cons_self
  have second : namedTriple "b" ∈ [namedTriple "a",namedTriple "b"] := List.mem_cons_of_mem _ List.mem_cons_self
  obtain ⟨vertex,property,found,held,records⟩ := kept.recorded _ first _ _ _ rfl
  obtain ⟨vertex',property',found',held',records'⟩ := kept.recorded _ second _ _ _ rfl
  obtain ⟨last,text,there,left,-⟩ := attached_found attaching first rfl
  obtain rfl := Option.some.inj (found.symm.trans there)
  obtain rfl := Option.some.inj (held.symm.trans left)
  obtain rfl := Option.some.inj (found'.symm.trans found)
  obtain rfl := Option.some.inj (held'.symm.trans held)
  exact absurd ((records_string records).2.2.trans (records_string records').2.2.symm) (by decide)

end Values
end ArangoDataTools.Rdf
