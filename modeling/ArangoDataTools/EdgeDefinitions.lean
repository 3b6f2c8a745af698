import ArangoDataTools.FirstCut
import ArangoDataTools.Json
import ArangoDataTools.RdfLines

namespace ArangoDataTools.Catalog
open Segments

def names (list : List Char) : List (List Char) :=
  ((list.splitOn ',').map RdfLines.trim).filter fun name => name ≠ []

def badDefinition (spec reason : String) : Error := .config
  (s!"invalid --edge-definition '{spec}': {reason}. Expected " ++
    "'EDGE_COLLECTION:FROM[,FROM...]->TO[,TO...]', for example " ++
    "'orders_to_customers:orders->customers'")

def named (names : List (List Char)) : Value := .array (names.map fun name => .string (String.ofList name))

def parseEdgeDefinition (spec : String) : Except Error Value :=
  match splitOnce [':'] spec.toList with
  | none => .error (badDefinition spec "no ':' separator")
  | some (collection,rest) => match splitOnce ['-','>'] rest with
    | none => .error (badDefinition spec "no '->' separator")
    | some (sources,targets) =>
      if RdfLines.trim collection = [] then .error (badDefinition spec "the edge collection name is empty")
      else if names sources = [] then .error (badDefinition spec "the 'from' side names no collection")
      else if names targets = [] then .error (badDefinition spec "the 'to' side names no collection")
      else .ok (.object [("collection",.string (String.ofList (RdfLines.trim collection))),
        ("from",named (names sources)),
        ("to",named (names targets))])

def Plain (name : List Char) : Prop := name ≠ [] ∧ RdfLines.trim name = name

structure EdgeDefinition where
  collection : List Char
  sources : List (List Char)
  targets : List (List Char)
  plain : Plain collection
  whole : ':' ∉ collection
  leaves : sources ≠ []
  arrives : targets ≠ []
  sourceNames : ∀ name ∈ sources, Plain name ∧ ',' ∉ name ∧ ¬ ['-','>'] <:+: name
  targetNames : ∀ name ∈ targets, Plain name ∧ ',' ∉ name

namespace EdgeDefinition

def value (d : EdgeDefinition) : Value :=
  .object [("collection",.string (String.ofList d.collection)),("from",named d.sources),("to",named d.targets)]

def render (d : EdgeDefinition) : List Char :=
  d.collection ++ [':'] ++ (join ',' d.sources ++ ['-','>'] ++ join ',' d.targets)

end EdgeDefinition

theorem trim_trim (text : List Char) : RdfLines.trim (RdfLines.trim text) = RdfLines.trim text :=
  strip_idempotent _ _

theorem trim_within (text : List Char) : RdfLines.trim text <:+: text :=
  (List.rdropWhile_prefix _ _).isInfix.trans (List.dropWhile_suffix _).isInfix

theorem names_join {listed : List (List Char)} (some_ : listed ≠ [])
    (each : ∀ name ∈ listed, Plain name ∧ ',' ∉ name) :
    names (join ',' listed) = listed := by
  rw [names,split_join (fun name member => (each name member).2) some_,
    List.map_congr_left (fun name member => (each name member).1.2),List.map_id']
  exact List.filter_eq_self.mpr fun name member => decide_eq_true (each name member).1.1

theorem names_plain {list name : List Char} (member : name ∈ names list) : Plain name ∧ ',' ∉ name ∧
    name <:+: list := by
  obtain ⟨listed,visible⟩ := List.mem_filter.mp member
  obtain ⟨segment,cut,rfl⟩ := List.mem_map.mp listed
  have within := trim_within segment
  exact ⟨⟨of_decide_eq_true visible,trim_trim segment⟩,fun inside => split_whole list segment cut
    (within.subset inside),
    within.trans (split_within cut)⟩

theorem rendered_parses (d : EdgeDefinition) : parseEdgeDefinition (String.ofList d.render) = .ok d.value := by
  have first : splitOnce [':'] d.render =
      some (d.collection,join ',' d.sources ++ ['-','>'] ++ join ',' d.targets) :=
    (splitOnce_iff (List.cons_ne_nil _ _)).mpr ⟨rfl,first_single.mpr d.whole⟩
  -- The arrow holds no comma, so it could only stand within a name.
  have arrowless : ¬ ['-','>'] <:+: join ',' d.sources := by
    intro within
    obtain ⟨name,member,inside⟩ := infix_join (by decide) (List.cons_ne_nil _ _) within
    exact (d.sourceNames name member).2.2 inside
  have second : splitOnce ['-','>'] (join ',' d.sources ++ ['-','>'] ++ join ',' d.targets) =
      some (join ',' d.sources,join ',' d.targets) :=
    (splitOnce_iff (List.cons_ne_nil _ _)).mpr ⟨rfl,(first_pair (by decide)).mpr arrowless⟩
  have sources := names_join d.leaves fun name member =>
      ⟨(d.sourceNames name member).1,(d.sourceNames name member).2.1⟩
  have targets := names_join d.arrives d.targetNames
  simp only [parseEdgeDefinition,String.toList_ofList,first,second,d.plain.2,sources,targets,
    if_neg d.plain.1,if_neg d.leaves,if_neg d.arrives]
  rfl

theorem parsed_wellformed {spec : String} {value : Value} (parsed : parseEdgeDefinition spec = .ok value) :
    ∃ d : EdgeDefinition, d.value = value := by
  unfold parseEdgeDefinition at parsed
  split at parsed
  · cases parsed
  · rename_i collection rest cut
    obtain ⟨-,whole⟩ := (splitOnce_iff (List.cons_ne_nil _ _)).mp cut
    split at parsed
    · cases parsed
    · rename_i sources targets cut'
      obtain ⟨-,arrowless⟩ := (splitOnce_iff (List.cons_ne_nil _ _)).mp cut'
      split at parsed
      · cases parsed
      · rename_i some_
        split at parsed
        · cases parsed
        · rename_i leaves
          split at parsed
          · cases parsed
          · rename_i arrives
            cases parsed
            refine ⟨⟨RdfLines.trim collection,names sources,names targets,⟨some_,trim_trim collection⟩,
              fun inside => first_single.mp whole ((trim_within collection).subset inside),leaves,
              arrives,?_,?_⟩,rfl⟩
            · intro name member
              obtain ⟨plain,comma,within⟩ := names_plain member
              exact ⟨plain,comma,fun inside => (first_pair (by decide)).mp arrowless (inside.trans within)⟩
            · intro name member
              obtain ⟨plain,comma,-⟩ := names_plain member
              exact ⟨plain,comma⟩

-- What is accepted are the well formed definitions, and each of them is read from its rendering.
theorem edge_definitions_exact :
    (∀ value, (∃ spec, parseEdgeDefinition spec = .ok value) ↔ ∃ d : EdgeDefinition, d.value = value) ∧
    ∀ d : EdgeDefinition, parseEdgeDefinition (String.ofList d.render) = .ok d.value := by
  refine ⟨fun value => ⟨fun parsed => ?_,fun formed => ?_⟩,rendered_parses⟩
  · obtain ⟨spec,parsed⟩ := parsed
    exact parsed_wellformed parsed
  · obtain ⟨d,same⟩ := formed
    exact ⟨String.ofList d.render,same ▸ rendered_parses d⟩

end ArangoDataTools.Catalog
