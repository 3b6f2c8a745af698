import ArangoDataTools.LocalCalls

namespace ArangoDataTools.LocalStore

-- A relative path of normal segments, joined by a slash.
structure NormalPath where
  names : List Name
  named : names ≠ []
  normal : ∀ name ∈ names, name ≠ [] ∧ '/' ∉ name ∧ name ≠ ['.'] ∧ name ≠ ['.','.']
  deriving DecidableEq

def NormalPath.text (path : NormalPath) : String := String.ofList (relativize path.names)
def NormalPath.place (path : NormalPath) : Place := ⟨path.names,false⟩

section Paths

theorem pieces_word {word : List Char} (clean : '/' ∉ word) : pieces word = [word] := by
  induction word with
  | nil => rfl
  | cons c word ih =>
    rw [List.mem_cons,not_or] at clean
    rw [pieces,ih clean.2]
    exact fun same => clean.1 same.symm

theorem pieces_front {word rest : List Char} (clean : '/' ∉ word) : pieces (word ++ '/' :: rest) =
    word :: pieces rest := by
  induction word with
  | nil => rfl
  | cons c word ih =>
    rw [List.mem_cons,not_or] at clean
    rw [List.cons_append,pieces,ih clean.2]
    exact fun same => clean.1 same.symm

theorem pieces_relativize {names : List Name} (named : names ≠ []) (clean : ∀ name ∈ names, '/' ∉ name) :
    pieces (relativize names) = names := by
  induction names with
  | nil => exact absurd rfl named
  | cons name rest ih =>
    have first := clean name List.mem_cons_self
    cases rest with
    | nil => exact pieces_word first
    | cons next rest =>
      rw [relativize,pieces_front first,ih (List.cons_ne_nil _ _) fun other member =>
        clean other (List.mem_cons_of_mem _ member)]
      exact List.cons_ne_nil _ _

theorem component_normal {name : Name} {starts : Bool}
    (normal : name ≠ [] ∧ '/' ∉ name ∧ name ≠ ['.'] ∧ name ≠ ['.','.']) :
    component starts name = some (.normal name) := by
  obtain ⟨some_,-,here,up⟩ := normal
  unfold component
  split <;> first | contradiction | rfl

theorem relativize_head {names : List Name}
    (normal : ∀ name ∈ names, name ≠ [] ∧ '/' ∉ name ∧ name ≠ ['.'] ∧ name ≠ ['.','.']) :
    (relativize names).head? ≠ some '/' := by
  cases names with
  | nil => exact nofun
  | cons name rest =>
    obtain ⟨some_,clean,-⟩ := normal name List.mem_cons_self
    obtain ⟨c,tail,rfl⟩ := List.exists_cons_of_ne_nil some_
    have other : c ≠ '/' := fun same => clean (same ▸ List.mem_cons_self)
    cases rest <;> simpa [relativize] using other

theorem components_text (path : NormalPath) : components path.text.toList = path.names.map .normal := by
  have clean : ∀ name ∈ path.names, '/' ∉ name := fun name member => (path.normal name member).2.1
  unfold components NormalPath.text
  rw [String.toList_ofList,if_neg (relativize_head path.normal),pieces_relativize path.named clean,
    List.nil_append]
  obtain ⟨name,rest,whole⟩ := List.exists_cons_of_ne_nil path.named
  have normal := path.normal
  rw [whole] at normal ⊢
  have tail : rest.filterMap (component false) = rest.map .normal := by
    rw [← List.filterMap_eq_map]
    exact List.filterMap_congr fun other member =>
      component_normal (normal other (List.mem_cons_of_mem _ member))
  simp only [component_normal (normal name List.mem_cons_self),tail]
  rfl

theorem resolve_text (path : NormalPath) : resolve path.text = .ok path.place := by
  have clean : ∀ name ∈ path.names, '/' ∉ name := fun name member => (path.normal name member).2.1
  have inside : (path.names.map Component.normal).all Component.inside = true := by simp [Component.inside]
  have names : (path.names.map Component.normal).filterMap Component.name = path.names := by
    rw [List.filterMap_map]
    exact List.filterMap_some
  have last : (pieces path.text.toList).getLast? ∉ [none,some [],some ['.']] := by
    rw [NormalPath.text,String.toList_ofList,pieces_relativize path.named clean,
      List.getLast?_eq_some_getLast path.named]
    have normal := path.normal _ (List.getLast_mem path.named)
    simp [normal.1,normal.2.2.1]
  unfold resolve
  rw [components_text,if_pos inside,names,decide_eq_false last]
  rfl

theorem text_inj {one two : NormalPath} (same : one.text = two.text) : one = two := by
  have names := congrArg components (congrArg String.toList same)
  rw [components_text,components_text] at names
  have equal := List.map_injective_iff.mpr (fun _ _ => Component.normal.inj) names
  obtain ⟨names,_,_⟩ := one
  cases equal
  rfl

end Paths

section Frames
variable {disk made opened : Disk} {full : Place} {path : String} {names : List Name}

theorem parent_entries (parent : createParent disk full = .ok made) (named : full.names ≠ []) : made.entry =
    fun above => if above <+: full.names.dropLast ∧ disk.entry above = none then some .directory
      else disk.entry above := by
  unfold createParent Disk.createDirAll at parent
  rw [if_neg named] at parent
  split at parent
  · cases parent
    rfl
  · cases parent

theorem create_entry (created : disk.create full = .ok opened) :
    opened.entry = Function.update disk.entry full.names (some (.file [])) := by
  unfold Disk.create at created
  split at created
  · cases created
  · split at created
    · cases created
      rfl
    · cases created

theorem createNew_entry (created : disk.createNew path full = .ok opened) :
    opened.entry = Function.update disk.entry full.names (some (.file [])) := by
  unfold Disk.createNew at created
  split at created
  · cases created
  · split at created
    · cases created
    · exact create_entry created

theorem writeAll_other (other : names ≠ full.names) (input : ByteStream) (size : Nat) :
    (writeAll full disk size input).2.entry names = disk.entry names := by
  induction input generalizing disk size with
  | nil => rfl
  | cons chunk rest ih =>
    cases chunk with
    | error err => rfl
    | ok chunk => exact (ih _).trans (Function.update_of_ne other _ _)

theorem writeAll_done (chunks : List Bytes) (size : Nat) {old : Bytes}
    (found : opened.entry full.names = some (.file old)) :
    ∃ after, writeAll full opened size (chunks.map .ok) = (.ok (size + chunks.flatten.length),after) ∧
      after.entry full.names = some (.file (old ++ chunks.flatten)) := by
  induction chunks generalizing opened size old with
  | nil => exact ⟨opened,rfl,by rwa [List.flatten_nil,List.append_nil]⟩
  | cons chunk rest ih =>
    have appended : (opened.append full.names chunk).entry full.names = some (.file (old ++ chunk)) := by
      show Function.update opened.entry full.names _ full.names = _
      rw [Function.update_self,found]
      rfl
    obtain ⟨after,ran,holds⟩ := ih (size + chunk.length) appended
    refine ⟨after,?_,?_⟩
    · rw [List.map_cons,writeAll,ran,List.flatten_cons,List.length_append,Nat.add_assoc]
    · rw [holds,List.flatten_cons,List.append_assoc]

def OpensOnly (open_ : Disk → Place → Except Error Disk) : Prop := ∀ {disk full opened},
    open_ disk full = .ok opened →
  opened.entry = Function.update disk.entry full.names (some (.file []))

theorem put_frame {open_ : Disk → Place → Except Error Disk} (only : OpensOnly open_)
    (resolved : resolve path = .ok full)
    (named : full.names ≠ []) (aside : ¬ names <+: full.names) (input : ByteStream) :
    (putOpened open_ disk path input).2.entry names = disk.entry names := by
  unfold putOpened
  rw [resolved]
  cases parent : createParent disk full with
  | error err => simp only [parent]
  | ok made =>
    have kept : made.entry names = disk.entry names := by
      rw [parent_entries parent named]
      exact if_neg fun both => aside (both.1.trans (List.dropLast_prefix _))
    cases opening : open_ made full with
    | error err => simpa only [parent,opening] using kept
    | ok opened =>
      have other : names ≠ full.names := fun same => aside (same ▸ List.prefix_refl _)
      simp only [parent,opening]
      rw [writeAll_other other,only opening,Function.update_of_ne other,kept]

theorem put_placed {open_ : Disk → Place → Except Error Disk} (only : OpensOnly open_)
    (resolved : resolve path = .ok full)
    (named : full.names ≠ []) (parent : createParent disk full = .ok made)
      (opening : open_ made full = .ok opened)
    (chunks : List Bytes) : ∃ after, putOpened open_ disk path (chunks.map .ok) =
      (.ok chunks.flatten.length,after) ∧
      after.entry = fun above => if above = full.names then some (.file chunks.flatten)
        else if above <+: full.names.dropLast ∧ disk.entry above = none then some .directory
          else disk.entry above := by
  have fresh : opened.entry full.names = some (.file []) := by rw [only opening,Function.update_self]
  obtain ⟨after,ran,holds⟩ := writeAll_done chunks 0 fresh
  refine ⟨after,?_,?_⟩
  · unfold putOpened
    rw [resolved]
    simp only [parent,opening,ran,Nat.zero_add]
  · funext above
    by_cases here : above = full.names
    · rw [if_pos here,here,holds,List.nil_append]
    · have others : (writeAll full opened 0 (chunks.map .ok)).2.entry above = opened.entry above :=
        writeAll_other here _ 0
      rw [ran] at others
      rw [if_neg here,others,only opening,Function.update_of_ne here,parent_entries parent named]

theorem delete_frame : (delete disk path).2.entry names = disk.entry names ∨
    (delete disk path).2.entry names = none := by
  unfold delete
  split
  · exact .inl rfl
  · rename_i full _
    split
    · rename_i after removed
      unfold Disk.removeFile at removed
      split at removed
      · cases removed
        by_cases here : names = full.names
        · exact .inr (by rw [here]; exact Function.update_self _ _ _)
        · exact .inl (Function.update_of_ne here _ _)
      · split at removed <;> cases removed
    · exact .inl rfl
    · exact .inl rfl

end Frames

section Trees
variable {disk : Disk} {root : Root} {names above below : List Name} {name : Name}

theorem above_directory (present : disk.entry names ≠ none) (part : above <+: names) (other : above ≠ names) :
    disk.entry above = some .directory := by
  obtain ⟨tail,rfl⟩ := part
  induction tail using List.reverseRecOn with
  | nil => exact absurd (List.append_nil above).symm other
  | append_singleton tail last ih =>
    rw [← List.append_assoc] at present
    have parent := disk.held _ _ present
    by_cases here : tail = []
    · rw [here,List.append_nil] at parent
      exact parent
    · refine ih (by rw [parent]; exact nofun) ?_
      simpa using here

theorem isFile_iff : disk.isFile names = true ↔ ∃ bytes, disk.entry names = some (.file bytes) := by
  unfold Disk.isFile
  split
  · rename_i bytes found
    exact ⟨fun _ => ⟨bytes,found⟩,fun _ => rfl⟩
  · rename_i other
    exact ⟨nofun,fun ⟨bytes,found⟩ => absurd found (other bytes)⟩

theorem blocked_iff : disk.blocked names = true ↔ ∃ above bytes, above <+: names ∧
    disk.entry above = some (.file bytes) := by
  unfold Disk.blocked
  simp only [List.any_eq_true,List.mem_inits,isFile_iff]
  exact ⟨fun ⟨above,part,bytes,found⟩ => ⟨above,bytes,part,found⟩,fun ⟨above,bytes,part,found⟩ =>
    ⟨above,part,bytes,found⟩⟩

theorem dropLast_shorter (named : names ≠ []) (part : above <+: names.dropLast) : above ≠ names := by
  rintro rfl
  have bound := part.length_le
  have some_ := List.length_pos_iff.mpr named
  rw [List.length_dropLast] at bound
  omega

theorem present_free (named : names ≠ []) (present : disk.entry names ≠ none) :
    disk.blocked names.dropLast = false := by
  by_contra stuck
  rw [Bool.not_eq_false,blocked_iff] at stuck
  obtain ⟨above,bytes,part,found⟩ := stuck
  have directory := above_directory present (part.trans (List.dropLast_prefix names))
      (dropLast_shorter named part)
  rw [directory] at found
  cases found

theorem absent_free (free : disk.blocked names.dropLast = false)
    (absent : disk.entry names = none) : disk.blocked names = false := by
  rcases List.eq_nil_or_concat' names with rfl | ⟨init,last,rfl⟩
  · exact free
  · rw [List.dropLast_concat] at free
    by_contra stuck
    rw [Bool.not_eq_false,blocked_iff] at stuck
    obtain ⟨above,bytes,part,found⟩ := stuck
    rcases List.prefix_concat_iff.mp part with rfl | within
    · rw [absent] at found
      cases found
    · have stuck := blocked_iff.mpr ⟨above,bytes,within,found⟩
      rw [free] at stuck
      cases stuck

theorem blocked_above (stuck : disk.blocked names.dropLast = true) : disk.blocked names = true := by
  obtain ⟨above,bytes,part,found⟩ := blocked_iff.mp stuck
  exact blocked_iff.mpr ⟨above,bytes,part.trans (List.dropLast_prefix names),found⟩

theorem metadata_free (free : disk.blocked names.dropLast = false) :
    disk.metadata ⟨names,false⟩ = (disk.entry names).elim (.error .noEntry) .ok := by
  unfold Disk.metadata
  cases found : disk.entry names with
  | none => simp only [absent_free free found]; rfl
  | some entry => cases entry <;> rfl

theorem metadata_blocked (named : names ≠ []) (stuck : disk.blocked names.dropLast = true) :
    disk.metadata ⟨names,false⟩ = .error .notDirectory := by
  have absent : disk.entry names = none := by
    by_contra present
    rw [present_free named present] at stuck
    cases stuck
  unfold Disk.metadata
  simp only [absent,blocked_above stuck,if_true]

theorem mem_entries : name ∈ root.entries names ↔ root.disk.entry (names ++ [name]) ≠ none := by
  unfold Root.entries
  rw [List.mem_dedup,List.mem_filterMap]
  constructor
  · rintro ⟨below,-,found⟩
    split at found
    · rename_i child
      obtain ⟨init,rfl⟩ := List.getLast?_eq_some_iff.mp found
      rw [List.dropLast_concat] at child
      obtain ⟨rfl,present⟩ := child
      exact Option.isSome_iff_ne_none.mp present
    · cases found
  · intro present
    refine ⟨names ++ [name],root.complete _ present,?_⟩
    rw [if_pos ⟨List.dropLast_concat,Option.isSome_iff_ne_none.mpr present⟩,List.getLast?_concat]

def Root.under (root : Root) (names : List Name) : List (List Name) :=
  root.known.dedup.filter fun below => names <+: below ∧ (root.disk.entry below).isSome

theorem mem_under : below ∈ root.under names ↔ names <+: below ∧ root.disk.entry below ≠ none := by
  unfold Root.under
  rw [List.mem_filter,List.mem_dedup,decide_eq_true_eq,Option.isSome_iff_ne_none]
  exact ⟨And.right,fun both => ⟨root.complete _ both.2,both⟩⟩

theorem under_nodup : (root.under names).Nodup := (List.nodup_dedup _).filter _

theorem under_file {bytes : Bytes} (found : root.disk.entry names = some (.file bytes)) :
    root.under names = [names] := by
  refine List.perm_singleton.mp
    ((List.perm_ext_iff_of_nodup under_nodup (List.nodup_singleton _)).mpr fun below => ?_)
  rw [mem_under,List.mem_singleton]
  constructor
  · intro both
    by_contra other
    have directory := above_directory both.2 both.1 (Ne.symm other)
    rw [found] at directory
    cases directory
  · rintro rfl
    exact ⟨List.prefix_refl _,by rw [found]; exact nofun⟩

theorem under_directory (found : root.disk.entry names = some .directory) :
    (root.under names).Perm (names :: (root.entries names).flatMap fun name =>
    root.under (names ++ [name])) := by
  have longer : ∀ name below, below ∈ root.under (names ++ [name]) → below ≠ names := by
    rintro name below member rfl
    have bound := (mem_under.mp member).1.length_le
    rw [List.length_append,List.length_singleton] at bound
    omega
  refine (List.perm_ext_iff_of_nodup under_nodup (List.nodup_cons.mpr ⟨?_,?_⟩)).mpr fun below => ?_
  · rw [List.mem_flatMap]
    exact fun ⟨name,_,member⟩ => longer name names member rfl
  · refine List.nodup_flatMap.mpr ⟨fun _ _ => under_nodup,?_⟩
    refine (List.nodup_dedup _).imp fun {one two} differ below first second => differ ?_
    obtain ⟨restOne,rfl⟩ := (mem_under.mp first).1
    have part := (mem_under.mp second).1
    rw [List.append_assoc,List.prefix_append_right_inj] at part
    exact (List.cons_prefix_cons.mp part).1.symm
  · rw [mem_under,List.mem_cons,List.mem_flatMap]
    constructor
    · rintro ⟨⟨tail,rfl⟩,present⟩
      cases tail with
      | nil => exact .inl (List.append_nil names)
      | cons name rest =>
        have part : names ++ [name] <+: names ++ name :: rest := ⟨rest,by simp⟩
        have child : root.disk.entry (names ++ [name]) ≠ none := by
          by_cases here : names ++ [name] = names ++ name :: rest
          · rwa [here]
          · rw [above_directory present part here]
            exact nofun
        exact .inr ⟨name,mem_entries.mpr child,mem_under.mpr ⟨part,present⟩⟩
    · rintro (rfl | ⟨name,-,member⟩)
      · exact ⟨List.prefix_refl _,by rw [found]; exact nofun⟩
      · obtain ⟨part,present⟩ := mem_under.mp member
        exact ⟨(List.prefix_append names [name]).trans part,present⟩

def Root.report (root : Root) (names : List Name) : Option ObjectMetadata := match root.disk.entry names with
  | some (.file bytes) => some ⟨String.ofList (relativize names),bytes.length⟩
  | _ => none

theorem report_file {bytes : Bytes} (found : root.disk.entry names = some (.file bytes)) :
    root.report names = some ⟨String.ofList (relativize names),bytes.length⟩ := by
  unfold Root.report
  rw [found]

theorem report_directory (found : root.disk.entry names = some .directory) : root.report names = none := by
  unfold Root.report
  rw [found]

variable {order : ReadOrder} {stack : List Place}

def Root.ahead (root : Root) (stack : List Place) : List (List Name) :=
  stack.flatMap fun place => root.under place.names

def pushed (order : ReadOrder) (root : Root) (names : List Name) (stack : List Place) : List Place :=
  ((order.arrange names (root.entries names)).map fun name =>
    (⟨names ++ [name],false⟩ : Place)).reverse ++ stack

theorem ahead_file {bytes : Bytes} (found : root.disk.entry names = some (.file bytes)) :
    root.ahead (⟨names,false⟩ :: stack) = names :: root.ahead stack := by
  unfold Root.ahead
  rw [List.flatMap_cons,under_file found]
  rfl

theorem ahead_directory (found : root.disk.entry names = some .directory) :
    (root.ahead (⟨names,false⟩ :: stack)).Perm (names :: root.ahead (pushed order root names stack)) := by
  have children : (root.ahead ((order.arrange names (root.entries names)).map fun name =>
      (⟨names ++ [name],false⟩ : Place)).reverse).Perm
      ((root.entries names).flatMap fun name => root.under (names ++ [name])) := by
    refine ((List.reverse_perm _).flatMap_right _).trans ?_
    rw [List.flatMap_map]
    exact (order.same names (root.entries names)).flatMap_right _
  unfold pushed
  have split : ∀ one two, root.ahead (one ++ two) = root.ahead one ++ root.ahead two :=
    fun _ _ => List.flatMap_append
  rw [split]
  exact (under_directory found).append_right _ |>.trans ((children.symm.append_right _).cons _)

def Visited (root : Root) (place : Place) : Prop :=
  place.directory = false ∧ place.names ≠ [] ∧ root.disk.entry place.names ≠ none

theorem pushed_visited (later : ∀ place ∈ stack, Visited root place) :
    ∀ place ∈ pushed order root names stack, Visited root place := by
  intro place member
  rcases List.mem_append.mp member with below | member
  · obtain ⟨name,child,rfl⟩ := List.mem_map.mp (List.mem_reverse.mp below)
    exact ⟨rfl,by simp,mem_entries.mp ((order.same _ _).mem_iff.mp child)⟩
  · exact later place member

theorem walk_reports {fuel : Nat} (out : List ObjectMetadata) (visited : ∀ place ∈ stack, Visited root place)
    (enough : (root.ahead stack).length ≤ fuel) :
    ∃ found, walk order root fuel stack out = .ok (out ++ found) ∧
    found.Perm ((root.ahead stack).filterMap root.report) := by
  induction fuel generalizing stack out with
  | zero =>
    cases stack with
    | nil => exact ⟨[],by rw [walk,List.append_nil],List.Perm.refl _⟩
    | cons current stack =>
      obtain ⟨-,-,present⟩ := visited current List.mem_cons_self
      have itself : current.names ∈ root.ahead (current :: stack) :=
        List.mem_flatMap.mpr ⟨current,List.mem_cons_self,mem_under.mpr ⟨List.prefix_refl _,present⟩⟩
      exact absurd (List.length_pos_of_mem itself) (by omega)
  | succ fuel ih =>
    cases stack with
    | nil => exact ⟨[],by rw [walk,List.append_nil],List.Perm.refl _⟩
    | cons current stack =>
      obtain ⟨names,directory⟩ := current
      obtain ⟨rfl,named,present⟩ := visited _ List.mem_cons_self
      have later := fun place member => visited place (List.mem_cons_of_mem _ member)
      have seen : root.disk.metadata ⟨names,false⟩ = _ := metadata_free (present_free named present)
      unfold walk
      cases found : root.disk.entry names with
      | none => exact absurd found present
      | some entry =>
        rw [found,Option.elim_some] at seen
        simp only [seen]
        cases entry with
        | file bytes =>
          rw [ahead_file found] at enough ⊢
          obtain ⟨rest,ran,holds⟩ :=
            ih (out ++ [⟨String.ofList (relativize names),bytes.length⟩]) later (Nat.le_of_succ_le_succ enough)
          rw [List.append_assoc] at ran
          rw [List.filterMap_cons,report_file found]
          exact ⟨_ :: rest,ran,holds.cons _⟩
        | directory =>
          have opened : (root.ahead (⟨names,false⟩ :: stack)).Perm
              (names :: root.ahead (pushed order root names stack)) :=
            ahead_directory found
          rw [opened.length_eq] at enough
          obtain ⟨rest,ran,holds⟩ := ih out (pushed_visited later) (Nat.le_of_succ_le_succ enough)
          refine ⟨rest,ran,holds.trans ?_⟩
          have silent := opened.symm.filterMap root.report
          rwa [List.filterMap_cons,report_directory found] at silent

theorem under_absent (absent : root.disk.entry names = none) : root.under names = [] := by
  refine List.eq_nil_iff_forall_not_mem.mpr fun below member => ?_
  obtain ⟨part,present⟩ := mem_under.mp member
  by_cases here : names = below
  · exact present (here ▸ absent)
  · rw [above_directory present part here] at absent
    cases absent

theorem walk_base (named : names ≠ []) (free : root.disk.blocked names.dropLast = false) :
    ∃ found, walk order root (root.known.length + 1) [⟨names,false⟩] [] = .ok found ∧
      found.Perm ((root.under names).filterMap root.report) := by
  by_cases absent : root.disk.entry names = none
  · have seen := metadata_free free
    rw [absent] at seen
    refine ⟨[],?_,by rw [under_absent absent]; exact List.Perm.refl _⟩
    unfold walk
    simp only [seen,Option.elim_none]
    rw [walk]
  · have single : root.ahead [⟨names,false⟩] = root.under names := List.flatMap_singleton _ _
    have few : (root.ahead [⟨names,false⟩]).length ≤ root.known.length + 1 := by
      rw [single]
      exact (List.length_filter_le _ _).trans ((List.dedup_sublist _).length_le.trans (Nat.le_succ _))
    have visited : ∀ place ∈ [(⟨names,false⟩ : Place)], Visited root place := by
      intro place member
      cases List.mem_singleton.mp member
      exact ⟨rfl,named,absent⟩
    obtain ⟨found,ran,holds⟩ := walk_reports [] visited few
    exact ⟨found,ran,single ▸ holds⟩

end Trees

section Calls

inductive Call where
  | putStream (path : NormalPath) (input : List Bytes)
  | putIfAbsent (path : NormalPath) (input : List Bytes)
  | getStream (path : NormalPath) (range : Option ByteRange)
  | head (path : NormalPath)
  | list (path : NormalPath)
  | delete (path : NormalPath)

inductive Reply where
  | stored (result : Except Error ObjectMetadata)
  | read (result : Except Error Bytes)
  | found (result : Except Error (Option ObjectMetadata))
  | listed (result : Except Error (List ObjectMetadata))
  | deleted (result : Except Error Unit)

def Root.written (root : Root) (names : List Name) (disk : Disk)
    (frame : ∀ below, ¬ below <+: names → disk.entry below = root.disk.entry below) : Root where
  disk := disk
  known := root.known ++ names.inits
  complete := by
    intro below present
    by_cases within : below <+: names
    · exact List.mem_append.mpr (.inr ((List.mem_inits _ _).mpr within))
    · exact List.mem_append.mpr (.inl (root.complete below (frame below within ▸ present)))

def Root.thinned (root : Root) (disk : Disk)
    (frame : ∀ names, disk.entry names = root.disk.entry names ∨ disk.entry names = none) : Root where
  disk := disk
  known := root.known
  complete := by
    intro names present
    exact root.complete names ((frame names).resolve_right present ▸ present)

def metadataOf (path : NormalPath) (stored : Except Error Nat) : Reply :=
  .stored (stored.map fun size => ⟨path.text,size⟩)

def perform (order : ReadOrder) (root : Root) : Call → Reply × Root
  | .putStream path input =>
    (metadataOf path (putStream root.disk path.text (input.map .ok)).1,
      root.written path.names (putStream root.disk path.text (input.map .ok)).2
      fun _ aside => put_frame create_entry (resolve_text path) path.named aside _)
  | .putIfAbsent path input =>
    (metadataOf path (putIfAbsent root.disk path.text (input.map .ok)).1,
      root.written path.names (putIfAbsent root.disk path.text (input.map .ok)).2
        fun _ aside => put_frame createNew_entry (resolve_text path) path.named aside _)
  | .getStream path range => (.read (getRanged root.disk path.text range),root)
  | .head path => (.found (head root.disk path.text),root)
  | .list path => (.listed (list order root path.text),root)
  | .delete path => (.deleted (delete root.disk path.text).1,
      root.thinned (delete root.disk path.text).2 fun _ => delete_frame)

end Calls

section Store

abbrev Objects := NormalPath → Option Bytes

def Objects.after (store : Objects) : Call → Objects
  | .putStream path input => Function.update store path (some input.flatten)
  | .putIfAbsent path input => if (store path).isSome then store
      else Function.update store path (some input.flatten)
  | .delete path => Function.update store path none
  | _ => store

def described (path : NormalPath) (bytes : Bytes) : ObjectMetadata := ⟨path.text,bytes.length⟩

def Within (bytes : Bytes) : Option ByteRange → Prop
  | none => True
  | some ⟨start,none⟩ => start ≤ bytes.length
  | some ⟨start,some end_⟩ => start ≤ end_ ∧ end_ ≤ bytes.length

def Lists (store : Objects) (path : NormalPath) (listed : List ObjectMetadata) : Prop :=
  (listed.map ObjectMetadata.path).Pairwise (· < ·) ∧
  ∀ metadata, metadata ∈ listed ↔ ∃ below bytes, path.names <+: below.names ∧
    store below = some bytes ∧ metadata = described below bytes

def Answers (store : Objects) : Call → Reply → Prop
  | .putStream path input, .stored result => result = .ok (described path input.flatten)
  | .putIfAbsent path input, .stored result =>
    if (store path).isSome then result = .error (.alreadyExists path.text)
      else result = .ok (described path input.flatten)
  | .getStream path range, .read result => match store path with
    | some bytes => Within bytes range → result = .ok (cut range bytes)
    | none => range = none → ∃ err, result = .error err
  | .head path, .found result => result = .ok ((store path).map (described path))
  | .list path, .listed result => ∃ listed, result = .ok listed ∧ Lists store path listed
  | .delete _, .deleted result => result = .ok ()
  | _, _ => False

-- Where the tree can serve a call like a map: nothing above the path is an object, and no
-- directory stands in the place of an object that is written or deleted.
def Clear (disk : Disk) : Call → Prop
  | .putStream path _ | .putIfAbsent path _ | .delete path =>
    disk.blocked path.names.dropLast = false ∧ disk.entry path.names ≠ some .directory
  | .head path | .list path => disk.blocked path.names.dropLast = false
  | .getStream .. => True

structure Mirrors (root : Root) (store : Objects) : Prop where
  base : root.disk.entry [] = some .directory
  normal : ∀ names, root.disk.entry names ≠ none → ∀ name ∈ names, name ≠ [] ∧ '/' ∉ name ∧
    name ≠ ['.'] ∧ name ≠ ['.','.']
  files : ∀ path bytes, store path = some bytes ↔ root.disk.entry path.names = some (.file bytes)

def Serves (order : ReadOrder) (root : Root) (store : Objects) : List Call → Prop
  | [] => True
  | call :: rest => Answers store call (perform order root call).1 ∧
      Serves order (perform order root call).2 (store.after call) rest

def Clears (order : ReadOrder) (root : Root) : List Call → Prop
  | [] => True
  | call :: rest => Clear root.disk call ∧ Clears order (perform order root call).2 rest

end Store

section Steps
variable {order : ReadOrder} {root after : Root} {store : Objects} {path : NormalPath} {bytes : Bytes}

theorem names_inj {one two : NormalPath} (same : one.names = two.names) : one = two := by
  obtain ⟨names,_,_⟩ := one
  cases same
  rfl

theorem Mirrors.missing (mirrors : Mirrors root store) (absent : store path = none)
    (other : root.disk.entry path.names ≠ some .directory) :
    root.disk.entry path.names = none := by
  cases found : root.disk.entry path.names with
  | none => rfl
  | some entry =>
    cases entry with
    | file bytes => rw [(mirrors.files path bytes).mpr found] at absent; cases absent
    | directory => exact absurd found other

theorem Mirrors.placed (mirrors : Mirrors root store)
    (entries : after.disk.entry = fun above => if above = path.names then some (.file bytes)
      else if above <+: path.names.dropLast ∧ root.disk.entry above = none then some .directory
        else root.disk.entry above) :
    Mirrors after (Function.update store path (some bytes)) where
  base := by
    rw [entries]
    simp only [if_neg path.named.symm,mirrors.base]
    rfl
  normal := by
    intro names present
    rw [entries] at present
    simp only at present
    split at present
    · rename_i here
      exact here ▸ path.normal
    · split at present
      · rename_i new
        exact fun name member => path.normal name (List.mem_of_mem_dropLast (new.1.subset member))
      · exact mirrors.normal names present
  files := by
    intro other content
    rw [entries]
    by_cases here : other = path
    · subst here
      simp only [Function.update_self,if_true,Option.some.injEq,Entry.file.injEq]
    · have names : other.names ≠ path.names := fun same => here (names_inj same)
      simp only [Function.update_of_ne here,if_neg names]
      split
      · rename_i new
        constructor
        · intro stored
          rw [(mirrors.files other content).mp stored] at new
          cases new.2
        · exact nofun
      · exact mirrors.files other content

theorem Mirrors.same (mirrors : Mirrors root store) (entries : after.disk.entry = root.disk.entry) :
    Mirrors after store where
  base := entries ▸ mirrors.base
  normal := entries ▸ mirrors.normal
  files := entries ▸ mirrors.files

theorem Mirrors.removed (mirrors : Mirrors root store)
    (entries : after.disk.entry = Function.update root.disk.entry path.names none) :
    Mirrors after (Function.update store path none) where
  base := by rw [entries,Function.update_of_ne path.named.symm,mirrors.base]
  normal := by
    intro names present
    rw [entries] at present
    by_cases here : names = path.names
    · rw [here,Function.update_self] at present
      exact absurd rfl present
    · rw [Function.update_of_ne here] at present
      exact mirrors.normal names present
  files := by
    intro other content
    rw [entries]
    by_cases here : other = path
    · subst here
      simp only [Function.update_self]
      exact ⟨nofun,nofun⟩
    · have names : other.names ≠ path.names := fun same => here (names_inj same)
      rw [Function.update_of_ne here,Function.update_of_ne names]
      exact mirrors.files other content

theorem putStream_serves (mirrors : Mirrors root store) (input : List Bytes)
    (clear : Clear root.disk (.putStream path input)) :
    Answers store (.putStream path input) (perform order root (.putStream path input)).1 ∧
    Mirrors (perform order root (.putStream path input)).2 (store.after (.putStream path input)) := by
  obtain ⟨free,plain⟩ := clear
  obtain ⟨made,parent,above⟩ := @parent_made root.disk path.place path.named free
  have place : made.entry path.place.names ≠ some .directory := by rw [parent_entry parent]; exact plain
  obtain ⟨opened,created,-⟩ := create_opens rfl path.named above place
  obtain ⟨after,ran,entries⟩ := put_placed create_entry (resolve_text path) path.named parent created input
  have ran : putStream root.disk path.text (input.map .ok) = _ := ran
  refine ⟨?_,mirrors.placed ?_⟩
  · show Except.map _ (putStream root.disk path.text (input.map .ok)).1 = _
    rw [ran]
    rfl
  · show (putStream root.disk path.text (input.map .ok)).2.entry = _
    rw [ran]
    exact entries

theorem putIfAbsent_serves (mirrors : Mirrors root store) (input : List Bytes)
    (clear : Clear root.disk (.putIfAbsent path input)) :
    Answers store (.putIfAbsent path input) (perform order root (.putIfAbsent path input)).1 ∧
    Mirrors (perform order root (.putIfAbsent path input)).2 (store.after (.putIfAbsent path input)) := by
  obtain ⟨free,plain⟩ := clear
  obtain ⟨made,parent,above⟩ := @parent_made root.disk path.place path.named free
  cases held : store path with
  | none =>
    have missing : made.entry path.place.names = none := by
      rw [parent_entry parent]
      exact mirrors.missing held plain
    obtain ⟨opened,(created : made.createNew path.text path.place = .ok opened),-⟩ :=
      createNew_opens rfl path.named above missing
    obtain ⟨after,ran,entries⟩ := put_placed createNew_entry (resolve_text path) path.named parent created input
    have ran : putIfAbsent root.disk path.text (input.map .ok) = _ := ran
    have unheld : ¬ (store path).isSome = true := by simp [held]
    have updated : store.after (.putIfAbsent path input) = Function.update store path
        (some input.flatten) := if_neg unheld
    rw [updated]
    refine ⟨(if_neg unheld).mpr ?_,mirrors.placed ?_⟩
    · show Except.map _ (putIfAbsent root.disk path.text (input.map .ok)).1 = _
      rw [ran]
      rfl
    · show (putIfAbsent root.disk path.text (input.map .ok)).2.entry = _
      rw [ran]
      exact entries
  | some bytes =>
    have found := (mirrors.files path bytes).mp held
    have there : made.entry path.place.names = some (.file bytes) := by
      rw [parent_entry parent]
      exact found
    have ran : putIfAbsent root.disk path.text (input.map .ok) = (.error (.alreadyExists path.text),made) := by
      unfold putIfAbsent putOpened Disk.createNew
      rw [resolve_text]
      simp only [parent,there,Option.isSome_some,if_true]
      rfl
    have present : (store path).isSome = true := by rw [held]; rfl
    have unchanged : store.after (.putIfAbsent path input) = store := if_pos present
    rw [unchanged]
    refine ⟨(if_pos present).mpr ?_,mirrors.same ?_⟩
    · show Except.map _ (putIfAbsent root.disk path.text (input.map .ok)).1 = _
      rw [ran]
      rfl
    · show (putIfAbsent root.disk path.text (input.map .ok)).2.entry = _
      rw [ran,parent_entries parent path.named]
      funext above
      refine if_neg fun new => ?_
      have shorter := dropLast_shorter path.named new.1
      have present : root.disk.entry path.names ≠ none := by rw [found]; exact nofun
      have directory := above_directory present (new.1.trans (List.dropLast_prefix _)) shorter
      rw [directory] at new
      cases new.2

theorem getStream_serves (mirrors : Mirrors root store) (range : Option ByteRange) :
    Answers store (.getStream path range) (perform order root (.getStream path range)).1 := by
  simp only [Answers,perform,getRanged,resolve_text]
  cases held : store path with
  | none =>
    rintro rfl
    cases found : root.disk.metadata path.place with
    | error errno => exact ⟨errno.error,rfl⟩
    | ok entry =>
      cases entry with
      | directory => exact ⟨isADirectory,rfl⟩
      | file bytes =>
        have stored : root.disk.entry path.names = some (.file bytes) := by
          unfold Disk.metadata at found
          split at found
          · rename_i present
            cases found
            exact present
          · cases found
          · cases found
        rw [(mirrors.files path bytes).mpr stored] at held
        cases held
  | some bytes =>
    have found : root.disk.metadata path.place = .ok (.file bytes) := by
      unfold Disk.metadata
      rw [show root.disk.entry path.place.names = _ from (mirrors.files path bytes).mp held]
      rfl
    simp only [found,implies_true]

theorem head_serves (mirrors : Mirrors root store) (clear : Clear root.disk (.head path)) :
    Answers store (.head path) (perform order root (.head path)).1 := by
  have seen : root.disk.metadata path.place = _ := metadata_free clear
  simp only [Answers,perform,head,resolve_text,seen]
  cases held : store path with
  | some bytes =>
    rw [(mirrors.files path bytes).mp held]
    rfl
  | none =>
    cases found : root.disk.entry path.names with
    | none => rfl
    | some entry =>
      cases entry with
      | directory => rfl
      | file bytes => rw [(mirrors.files path bytes).mpr found] at held; cases held

theorem delete_serves (mirrors : Mirrors root store) (clear : Clear root.disk (.delete path)) :
    Answers store (.delete path) (perform order root (.delete path)).1 ∧
    Mirrors (perform order root (.delete path)).2 (store.after (.delete path)) := by
  obtain ⟨free,plain⟩ := clear
  cases held : store path with
  | some bytes =>
    have file : root.disk.isFile path.place.names = true :=
      isFile_iff.mpr ⟨bytes,(mirrors.files path bytes).mp held⟩
    have ran : delete root.disk path.text = (.ok (),root.disk.remove path.names file) := by
      unfold delete Disk.removeFile
      rw [resolve_text]
      simp only [dif_pos (show path.place.directory = false ∧ _ from ⟨rfl,file⟩)]
      rfl
    refine ⟨congrArg Prod.fst ran,mirrors.removed ?_⟩
    show (delete root.disk path.text).2.entry = _
    rw [ran]
    rfl
  | none =>
    have missing := mirrors.missing held plain
    have seen : root.disk.metadata path.place = .error .noEntry := by
      rw [show root.disk.metadata path.place = _ from metadata_free free,missing]
      rfl
    have file : ¬ (path.place.directory = false ∧ root.disk.isFile path.place.names = true) := by
      intro both
      obtain ⟨bytes,found⟩ := isFile_iff.mp both.2
      rw [show root.disk.entry path.place.names = none from missing] at found
      cases found
    have ran : delete root.disk path.text = (.ok (),root.disk) := by
      unfold delete Disk.removeFile
      rw [resolve_text]
      simp only [dif_neg file,seen]
    refine ⟨congrArg Prod.fst ran,?_⟩
    have unchanged : store.after (.delete path) = store := by
      show Function.update store path none = store
      rw [← held,Function.update_eq_self]
    rw [unchanged]
    refine mirrors.same ?_
    show (delete root.disk path.text).2.entry = _
    rw [ran]

theorem Mirrors.named (mirrors : Mirrors root store) {below : List Name}
    (member : below ∈ root.under path.names) :
    ∃ found : NormalPath, found.names = below := by
  obtain ⟨part,present⟩ := mem_under.mp member
  have named : below ≠ [] := by
    rintro rfl
    exact path.named (List.prefix_nil.mp part)
  exact ⟨⟨below,named,mirrors.normal below present⟩,rfl⟩

theorem report_iff {names : List Name} {metadata : ObjectMetadata} : root.report names = some metadata ↔
    ∃ bytes, root.disk.entry names = some (.file bytes) ∧
    metadata = ⟨String.ofList (relativize names),bytes.length⟩ := by
  unfold Root.report
  constructor
  · intro reported
    split at reported
    · rename_i bytes found
      exact ⟨bytes,found,(Option.some.inj reported).symm⟩
    · cases reported
  · rintro ⟨bytes,found,rfl⟩
    rw [found]

theorem Mirrors.reports (mirrors : Mirrors root store) {metadata : ObjectMetadata} :
    metadata ∈ (root.under path.names).filterMap root.report ↔
      ∃ below bytes, path.names <+: below.names ∧ store below = some bytes ∧
      metadata = described below bytes := by
  rw [List.mem_filterMap]
  constructor
  · rintro ⟨names,member,reported⟩
    obtain ⟨below,rfl⟩ := mirrors.named member
    obtain ⟨bytes,found,rfl⟩ := report_iff.mp reported
    exact ⟨below,bytes,(mem_under.mp member).1,(mirrors.files below bytes).mpr found,rfl⟩
  · rintro ⟨below,bytes,part,held,rfl⟩
    have found := (mirrors.files below bytes).mp held
    exact ⟨below.names,mem_under.mpr ⟨part,by rw [found]; exact nofun⟩,report_iff.mpr ⟨bytes,found,rfl⟩⟩

theorem Mirrors.distinct (mirrors : Mirrors root store) :
    ((root.under path.names).filterMap root.report).Pairwise fun one two => one.path ≠ two.path := by
  rw [List.pairwise_filterMap]
  refine under_nodup.imp_of_mem fun {one two} first second differ one' reported two' reported' same => ?_
  obtain ⟨p,rfl⟩ := mirrors.named first
  obtain ⟨q,rfl⟩ := mirrors.named second
  obtain ⟨_,_,rfl⟩ := report_iff.mp reported
  obtain ⟨_,_,rfl⟩ := report_iff.mp reported'
  exact differ (congrArg NormalPath.names (text_inj same))

theorem list_serves (mirrors : Mirrors root store) (clear : Clear root.disk (.list path)) :
    Answers store (.list path) (perform order root (.list path)).1 := by
  obtain ⟨found,(ran : walk order root _ [path.place] [] = .ok found),holds⟩ := walk_base path.named clear
  have sorting := List.perm_insertionSort (fun one two : ObjectMetadata => one.path ≤ two.path) found
  refine ⟨found.insertionSort fun one two => one.path ≤ two.path,?_,?_,fun metadata => ?_⟩
  · show list order root path.text = _
    unfold list
    rw [resolve_text]
    show (walk order root (root.known.length + 1) [path.place] []).map _ = _
    rw [ran]
    rfl
  · have total : Std.Total fun one two : ObjectMetadata => one.path ≤ two.path :=
      ⟨fun one two => le_total one.path two.path⟩
    have trans : IsTrans ObjectMetadata fun one two => one.path ≤ two.path := ⟨fun _ _ _ => le_trans⟩
    have ordered := List.pairwise_insertionSort (fun one two : ObjectMetadata => one.path ≤ two.path) found
    have apart := ((sorting.trans holds).pairwise_iff fun differ => Ne.symm differ).mpr mirrors.distinct
    rw [List.pairwise_map]
    exact (ordered.and apart).imp fun both => lt_of_le_of_ne both.1 both.2
  · rw [(sorting.trans holds).mem_iff,mirrors.reports]

theorem call_serves (mirrors : Mirrors root store) {call : Call} (clear : Clear root.disk call) :
    Answers store call (perform order root call).1 ∧
    Mirrors (perform order root call).2 (store.after call) := by
  cases call with
  | putStream path input => exact putStream_serves mirrors input clear
  | putIfAbsent path input => exact putIfAbsent_serves mirrors input clear
  | getStream path range => exact ⟨getStream_serves mirrors range,mirrors⟩
  | head path => exact ⟨head_serves mirrors clear,mirrors⟩
  | list path => exact ⟨list_serves mirrors clear,mirrors⟩
  | delete path => exact delete_serves mirrors clear

theorem shut_path {disk : Disk}
    (shut : ¬ (disk.blocked path.names.dropLast = false ∧ disk.entry path.names ≠ some .directory)) :
    ¬ Opens disk path.text := by
  rintro ⟨full,resolved,-,-,free,plain⟩
  rw [resolve_text] at resolved
  cases resolved
  exact shut ⟨free,plain⟩

theorem put_shut {disk : Disk} (shut : ¬ Opens disk path.text) (input : List Bytes) :
    (∃ err, (putStream disk path.text (input.map .ok)).1 = .error err) ∧ ∃ err,
    (putIfAbsent disk path.text (input.map .ok)).1 = .error err :=
  ⟨(shut_keeps _ fun _ _ resolved parent => create_refused resolved parent shut).1,
    (shut_keeps _ fun _ _ resolved parent => createNew_refused resolved parent shut).1⟩

theorem stuck_metadata {disk : Disk} (stuck : ¬ disk.blocked path.names.dropLast = false) :
    disk.metadata path.place = .error .notDirectory :=
    metadata_blocked path.named (Bool.eq_true_of_not_eq_false stuck)

theorem delete_shut {disk : Disk}
    (shut : ¬ (disk.blocked path.names.dropLast = false ∧ disk.entry path.names ≠ some .directory)) :
    ∃ err, (delete disk path.text).1 = .error err := by
  have file : ¬ (path.place.directory = false ∧ disk.isFile path.place.names = true) := by
    intro both
    obtain ⟨bytes,found⟩ := isFile_iff.mp both.2
    have found : disk.entry path.names = some (.file bytes) := found
    exact shut ⟨present_free path.named (by rw [found]; exact nofun),by rw [found]; exact nofun⟩
  unfold delete Disk.removeFile
  rw [resolve_text]
  simp only [dif_neg file]
  by_cases free : disk.blocked path.names.dropLast = false
  · have directory : disk.entry path.names = some .directory := by
      by_contra plain
      exact shut ⟨free,plain⟩
    have seen : disk.metadata path.place = .ok .directory := by
      rw [show disk.metadata path.place = _ from metadata_free free,directory]
      rfl
    simp only [seen]
    exact ⟨_,rfl⟩
  · simp only [stuck_metadata free]
    exact ⟨_,rfl⟩

theorem call_refused (mirrors : Mirrors root store) {call : Call} (shut : ¬ Clear root.disk call) :
    ¬ Answers store call (perform order root call).1 := by
  cases call with
  | putStream path input =>
    obtain ⟨⟨err,failed⟩,-⟩ := put_shut (shut_path shut) input
    intro answered
    have answered : Except.map _ (putStream root.disk path.text (input.map .ok)).1 = .ok _ := answered
    rw [failed] at answered
    cases answered
  | putIfAbsent path input =>
    obtain ⟨-,err,failed⟩ := put_shut (shut_path shut) input
    have absent : ¬ (store path).isSome = true := by
      intro present
      obtain ⟨bytes,held⟩ := Option.isSome_iff_exists.mp present
      have found := (mirrors.files path bytes).mp held
      exact shut ⟨present_free path.named (by rw [found]; exact nofun),by rw [found]; exact nofun⟩
    intro answered
    have answered : Except.map _ (putIfAbsent root.disk path.text (input.map .ok)).1 = .ok _ :=
      (if_neg absent).mp answered
    rw [failed] at answered
    cases answered
  | getStream path range => exact absurd trivial shut
  | head path =>
    intro answered
    have answered : head root.disk path.text = .ok _ := answered
    unfold head at answered
    rw [resolve_text] at answered
    simp only [stuck_metadata shut] at answered
    cases answered
  | list path =>
    rintro ⟨listed,answered,-⟩
    unfold list walk at answered
    rw [resolve_text] at answered
    simp only [stuck_metadata shut] at answered
    cases answered
  | delete path =>
    obtain ⟨err,failed⟩ := delete_shut shut
    intro answered
    have answered : (delete root.disk path.text).1 = .ok () := answered
    rw [failed] at answered
    cases answered

theorem serves_iff (mirrors : Mirrors root store) (calls : List Call) :
    Serves order root store calls ↔ Clears order root calls := by
  induction calls generalizing root store with
  | nil => exact Iff.rfl
  | cons call rest ih =>
    by_cases clear : Clear root.disk call
    · obtain ⟨answered,later⟩ := @call_serves order _ _ mirrors _ clear
      exact and_congr (iff_of_true answered clear) (ih later)
    · exact iff_of_false (fun served => call_refused mirrors clear served.1) fun clears => clear clears.1

theorem empty_mirrors : Mirrors Root.empty fun _ => none where
  base := rfl
  normal := by
    intro names present
    by_cases empty : names = []
    · subst empty
      exact fun _ member => absurd member List.not_mem_nil
    · exact absurd (if_neg empty) present
  files := by
    intro path bytes
    refine ⟨nofun,fun found => ?_⟩
    have absent : Root.empty.disk.entry path.names = none := if_neg path.named
    rw [absent] at found
    cases found

end Steps

-- Over a root that was empty, the replies are those of a map exactly as long as no path
-- runs through an object, and no object is put or deleted where a directory is left.
theorem local_store_refines_iff (order : ReadOrder) (calls : List Call) :
    Serves order Root.empty (fun _ => none) calls ↔ Clears order Root.empty calls :=
    serves_iff empty_mirrors calls

def listedOrder : ReadOrder := ⟨fun _ entries => entries,fun _ _ => List.Perm.refl _⟩

theorem letters_normal : ∀ name ∈ [['a'],['b']], name ≠ [] ∧ '/' ∉ name ∧ name ≠ ['.'] ∧ name ≠ ['.','.'] :=
  List.forall_iff_forall_mem.mp (by decide)

def outerPath : NormalPath :=
  ⟨[['a']],List.cons_ne_nil _ _,fun name member =>
    letters_normal name (List.mem_cons.mpr (.inl (List.mem_singleton.mp member)))⟩
def nestedPath : NormalPath := ⟨[['a'],['b']],List.cons_ne_nil _ _,letters_normal⟩

-- No object is below an object, yet asking for one fails.
theorem head_below_object_fails : ¬ ∀ order calls, Serves order Root.empty (fun _ => none) calls := by
  intro always
  obtain ⟨-,answered,-⟩ := always listedOrder [.putStream outerPath [[7]],.head nestedPath]
  have failed : (perform listedOrder (perform listedOrder Root.empty (.putStream outerPath [[7]])).2
      (.head nestedPath)).1 =
      .found (.error notADirectory) := by rfl
  rw [failed] at answered
  cases answered

end ArangoDataTools.LocalStore
