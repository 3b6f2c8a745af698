import ArangoDataTools.DumpSnapshot

namespace ArangoDataTools.DumpPaths
open Interaction Interaction.Program Dump DumpClaim DumpRun StoredManifest DumpSnapshot

-- The names of an inventory are its own, and none has a slash.
structure Named (inventory : Inventory) : Prop where
  collections : (inventory.collections.filterMap InventoryCollection.name).Nodup
  views : (inventory.views.filterMap viewName).Nodup
  slashless : ∀ name ∈ inventory.collections.filterMap InventoryCollection.name ++
    inventory.views.filterMap viewName,
    '/' ∉ name.toList

section Names

theorem after_last {sep : Char} {a b r s : List Char} (equal : a ++ sep :: r = b ++ sep :: s)
    (first : sep ∉ r) (second : sep ∉ s) :
    a = b := by
  rcases List.append_eq_append_iff.mp equal with ⟨more,long,rest⟩ | ⟨more,long,rest⟩
  · cases more with
    | nil => rw [long,List.append_nil]
    | cons head tail =>
      obtain ⟨-,later⟩ := List.cons.inj rest
      exact absurd (later ▸ List.mem_append_right tail List.mem_cons_self) first
  · cases more with
    | nil => rw [long,List.append_nil]
    | cons head tail =>
      obtain ⟨-,later⟩ := List.cons.inj rest
      exact absurd (later ▸ List.mem_append_right tail List.mem_cons_self) second

theorem databaseTarget_apart {store : Nat} {one two first second : String}
    (plain : '/' ∉ first.toList) (plain' : '/' ∉ second.toList)
    (equal : (databaseTarget store one).pathPrefix ++ first =
    (databaseTarget store two).pathPrefix ++ second) : one = two := by
  have lists := congrArg String.toList equal
  simp only [databaseTarget,String.toList_append,List.append_assoc] at lists
  have cut := List.append_cancel_left lists
  exact String.toList_inj.mp (after_last cut plain plain')

end Names

def structureEnd : String := ".structure.json"
def viewEnd : String := ".view.json"
def dataEnd (compression : Compression) : String := "." ++ dataSuffix compression

def locals (compression : Compression) (collections views : List String) : List String :=
  collections.flatMap (fun name => [name ++ structureEnd,name ++ dataEnd compression]) ++ views.map
    (· ++ viewEnd)

section Locals
variable {compression : Compression} {collections views : List String}

theorem structure_data_apart (compression : Compression) (one two : String) :
    one ++ structureEnd ≠ two ++ dataEnd compression := by
  apply Ne.symm
  cases compression <;> exact append_apart (by decide) (by decide)

theorem view_structure_apart (one two : String) : one ++ viewEnd ≠ two ++ structureEnd :=
  append_apart (by decide) (by decide)

theorem view_data_apart (compression : Compression) (one two : String) :
    one ++ viewEnd ≠ two ++ dataEnd compression := by
  cases compression <;> exact append_apart (by decide) (by decide)

theorem mem_collection_locals {text : String}
    (member : text ∈ collections.flatMap fun name => [name ++ structureEnd,name ++ dataEnd compression]) :
    ∃ name ∈ collections, text = name ++ structureEnd ∨ text = name ++ dataEnd compression := by
  obtain ⟨name,listed,text⟩ := List.mem_flatMap.mp member
  exact ⟨name,listed,by simpa using text⟩

theorem locals_distinct (one : collections.Nodup) (two : views.Nodup) :
    (locals compression collections views).Nodup := by
  apply List.nodup_append.mpr
  refine ⟨List.nodup_flatMap.mpr ⟨?_,?_⟩,two.map fun _ _ => (String.append_left_inj _).mp,?_⟩
  · intro name _
    simpa using structure_data_apart compression name name
  · apply one.imp
    intro first second differs text left right
    simp only [List.mem_cons,List.not_mem_nil,or_false] at left right
    rcases left with rfl | rfl <;> rcases right with same | same
    · exact differs ((String.append_left_inj _).mp same)
    · exact structure_data_apart compression first second same
    · exact structure_data_apart compression second first same.symm
    · exact differs ((String.append_left_inj _).mp same)
  · intro text left other right equal
    subst equal
    obtain ⟨view,-,rfl⟩ := List.mem_map.mp right
    obtain ⟨name,-,same | same⟩ := mem_collection_locals left
    · exact view_structure_apart view name same
    · exact view_data_apart compression view name same

theorem locals_slashless (plain : ∀ name ∈ collections ++ views, '/' ∉ name.toList) :
    ∀ text ∈ locals compression collections views, '/' ∉ text.toList := by
  have longer : ∀ {name ending : String}, '/' ∉ name.toList → '/' ∉ ending.toList →
      '/' ∉ (name ++ ending).toList := by
    intro name ending first second
    rw [String.toList_append,List.mem_append]
    exact fun member => member.elim first second
  intro text member
  rcases List.mem_append.mp member with collection | view
  · obtain ⟨name,listed,rfl | rfl⟩ := mem_collection_locals collection
    · exact longer (plain name (List.mem_append_left _ listed)) (by decide)
    · exact longer (plain name (List.mem_append_left _ listed)) (by cases compression <;> decide)
  · obtain ⟨name,listed,rfl⟩ := List.mem_map.mp view
    exact longer (plain name (List.mem_append_right _ listed)) (by decide)

end Locals
section Snapshots
variable {codec : Codec} {options : DumpOptions} {held : Holdings} {store : Nat}

def viewNames (s : Snapshot) : List String := s.views.map fun view => (viewName view).getD ""

theorem pieces_paths (s : Snapshot) : ((s.pieces codec options).map Prod.fst).map Artifact.path =
    (locals options.compression (s.saved.map Saved.name) (viewNames s)).map (s.target.pathPrefix ++ ·) := by
  have data : ∀ name, dataPath s.target options.compression name = s.target.pathPrefix ++
      (name ++ dataEnd options.compression) := by
    intro name
    simp only [dataPath,dataEnd,String.append_assoc]
  have collections : ∀ saved : List Saved,
      ((Snapshot.collectionPieces codec options s.target saved).map Prod.fst).map Artifact.path =
      ((saved.map Saved.name).flatMap fun name =>
      [name ++ structureEnd,name ++ dataEnd options.compression]).map
        (s.target.pathPrefix ++ ·) := by
    intro saved
    induction saved with
    | nil => rfl
    | cons first rest ih =>
      simp only [Snapshot.collectionPieces,List.flatMap_cons,List.map_cons,List.map_append] at ih ⊢
      rw [ih]
      simp [structurePiece,dataPiece,structurePath,structureEnd,data,String.append_assoc]
  unfold Snapshot.pieces locals
  rw [List.map_append,List.map_append,List.map_append,collections]
  simp [viewPiece,viewPath,viewEnd,viewNames,Function.comp_def,String.append_assoc]

theorem saved_names {s : Snapshot} (complete : s.Complete options) :
    (s.saved.map Saved.name).Sublist (s.inventory.collections.filterMap InventoryCollection.name) := by
  have names : s.saved.map Saved.name = (s.saved.map Saved.source).map Prod.fst := by simp [Saved.source]
  rw [names,complete.collections]
  exact selected_names options s.inventory.collections

theorem view_names {s : Snapshot} (complete : s.Complete options) :
    (viewNames s).Sublist (s.inventory.views.filterMap viewName) := by
  have named : ∀ views : List Value, (∀ view ∈ views, (viewName view).isSome) →
      (views.map fun view => (viewName view).getD "") = views.filterMap viewName := by
    intro views all
    induction views with
    | nil => rfl
    | cons view rest ih =>
      obtain ⟨name,called⟩ := Option.isSome_iff_exists.mp (all view List.mem_cons_self)
      simp [called,ih fun other member => all other (List.mem_cons_of_mem _ member)]
  rw [viewNames,named s.views complete.views]
  exact List.filter_sublist.filterMap viewName

theorem snapshot_locals {s : Snapshot} (complete : s.Complete options) (named : Named s.inventory) :
    (locals options.compression (s.saved.map Saved.name) (viewNames s)).Nodup ∧
      ∀ text ∈ locals options.compression (s.saved.map Saved.name) (viewNames s), '/' ∉ text.toList := by
  refine ⟨locals_distinct (named.collections.sublist (saved_names complete))
    (named.views.sublist (view_names complete)),?_⟩
  apply locals_slashless
  intro name member
  apply named.slashless
  rcases List.mem_append.mp member with collection | view
  · exact List.mem_append_left _ ((saved_names complete).subset collection)
  · exact List.mem_append_right _ ((view_names complete).subset view)

theorem snapshot_distinct {s : Snapshot} (complete : s.Complete options) (named : Named s.inventory) :
    (((s.pieces codec options).map Prod.fst).map Artifact.path).Nodup := by
  rw [pieces_paths]
  exact (snapshot_locals complete named).1.map fun _ _ => (String.append_right_inj _).mp

theorem pieces_distinct {snapshots : List Snapshot} {client : Client}
    (listed : snapshots.map Snapshot.of = sources held client store options)
    (complete : ∀ s ∈ snapshots, s.Complete options) (databases : held.databases.Nodup)
      (named : ∀ database, Named (held.inventories database)) :
    (((allPieces codec options snapshots).map Prod.fst).map Artifact.path).Nodup := by
  have plain : ∀ s ∈ snapshots, Named s.inventory := by
    intro s member
    have source : s.of ∈ sources held client store options := listed ▸ List.mem_map_of_mem member
    unfold sources at source
    split at source
    · obtain ⟨database,-,same⟩ := List.mem_map.mp source
      have inventory : held.inventories database = s.inventory := congrArg Prod.snd same
      exact inventory ▸ named database
    · have inventory : s.inventory = held.inventories client.database :=
        congrArg Prod.snd (List.mem_singleton.mp source)
      exact inventory ▸ named client.database
  have apart : snapshots.Pairwise fun one two => ∀ first second, '/' ∉ first.toList → '/' ∉ second.toList →
      one.target.pathPrefix ++ first ≠ two.target.pathPrefix ++ second := by
    have targets : (snapshots.map Snapshot.of).Pairwise fun one two => ∀ first second,
        '/' ∉ first.toList → '/' ∉ second.toList →
        one.1.pathPrefix ++ first ≠ two.1.pathPrefix ++ second := by
      rw [listed]
      unfold sources
      split
      · apply List.pairwise_map.mpr
        apply databases.imp
        intro one two differs first second slashless slashless' equal
        exact differs (databaseTarget_apart slashless slashless' equal)
      · exact List.pairwise_singleton _ _
    exact List.pairwise_map.mp targets
  simp only [allPieces,List.map_flatMap]
  apply List.nodup_flatMap.mpr
  refine ⟨fun s member => snapshot_distinct (complete s member) (plain s member),?_⟩
  apply apart.imp_of_mem
  intro one two first second differs path left right
  dsimp only at left right
  rw [pieces_paths] at left right
  obtain ⟨local_,listed,rfl⟩ := List.mem_map.mp left
  obtain ⟨other,listed',same⟩ := List.mem_map.mp right
  exact differs local_ other ((snapshot_locals (complete one first) (plain one first)).2 local_ listed)
    ((snapshot_locals (complete two second) (plain two second)).2 other listed') same.symm

theorem mem_allPieces {snapshots : List Snapshot} {piece : Piece}
    (member : piece ∈ allPieces codec options snapshots) :
    ∃ s ∈ snapshots, (∃ saved ∈ s.saved, piece = structurePiece codec s.target saved ∨
    piece = dataPiece codec options s.target saved) ∨
      ∃ view ∈ s.views, piece = viewPiece codec s.target view := by
  obtain ⟨s,listed,inside⟩ := List.mem_flatMap.mp member
  refine ⟨s,listed,?_⟩
  rcases List.mem_append.mp inside with collection | viewed
  · obtain ⟨saved,present,same⟩ := List.mem_flatMap.mp collection
    exact .inl ⟨saved,present,by simpa using same⟩
  · obtain ⟨view,present,rfl⟩ := List.mem_map.mp viewed
    exact .inr ⟨view,present,rfl⟩

theorem piece_plain {snapshots : List Snapshot} {piece : Piece}
    (member : piece ∈ allPieces codec options snapshots) :
    Measured codec piece ∧ piece.1.path ≠ manifestName ∧ piece.1.path ≠ dumpLockName := by
  obtain ⟨s,-,⟨saved,-,rfl | rfl⟩ | ⟨view,-,rfl⟩⟩ := mem_allPieces member
  · exact ⟨⟨rfl,fun _ none_ => by cases none_⟩,structurePath_plain _ _⟩
  · exact ⟨⟨rfl,fun _ same => (Option.some.inj same).symm⟩,dataPath_plain _ _ _⟩
  · exact ⟨⟨rfl,fun _ none_ => by cases none_⟩,viewPath_plain _ _⟩

theorem pieces_stored {w' claimed written : Objects} {manifest : Manifest} {snapshots : List Snapshot}
    (distinct : (((allPieces codec options snapshots).map Prod.fst).map Artifact.path).Nodup)
    (landed : Landed codec store manifest (allPieces codec options snapshots) claimed written)
    (left : ∀ path, path ≠ dumpLockName → w' ⟨store,path⟩ = written ⟨store,path⟩) :
    w' ⟨store,manifestName⟩ = some (codec.manifestToJson manifest) ∧
      ∀ piece ∈ allPieces codec options snapshots, w' ⟨store,piece.1.path⟩ = some piece.2 := by
  constructor
  · rw [left manifestName (by decide),landed]
    exact Function.update_self _ _ _
  · intro piece member
    obtain ⟨-,other,unlocked⟩ := piece_plain member
    have differs : (⟨store,piece.1.path⟩ : ObjectRef) ≠ manifestAt store :=
      fun same => other (congrArg ObjectRef.path same)
    rw [left _ unlocked,landed,Function.update_of_ne differs]
    exact pieces_left distinct member claimed

theorem dump_exact {client : Client} {reporting : Bool} {manifest : Manifest} {w w' : Objects}
    (databases : held.databases.Nodup)
    (named : ∀ database, Named (held.inventories database))
    (reads : codec.manifestFromJson (codec.manifestToJson manifest) = .ok manifest)
    (runs : Runs (Keeps held) (runDumpWithProgress codec client store options reporting) w (done manifest) w') :
    Exact codec store manifestName [dumpLockName] manifest w' := by
  obtain ⟨snapshots,listed,complete,all,claimed,written,landed,left⟩ := dump_returns runs
  have distinct : (((allPieces codec options snapshots).map Prod.fst).map Artifact.path).Nodup :=
    pieces_distinct listed complete databases named
  obtain ⟨stored,pieces⟩ := pieces_stored distinct landed left
  have artifacts : manifest.artifacts = (allPieces codec options snapshots).map Prod.fst := by
    rw [all]
    exact List.nil_append _
  apply exact_of_pieces artifacts reads (artifacts ▸ distinct) _
    (fun piece member => (piece_plain member).1) stored pieces
  intro artifact member
  rw [artifacts] at member
  obtain ⟨piece,present,rfl⟩ := List.mem_map.mp member
  obtain ⟨-,other,unlocked⟩ := piece_plain present
  exact ⟨other,fun reserved => unlocked (List.mem_singleton.mp reserved)⟩

end Snapshots
end ArangoDataTools.DumpPaths
