import ArangoDataTools.ObjectStoreBackend

namespace ArangoDataTools.ListedPaths
open Interaction Interaction.Program Resumable Segments Percent ObjectStoreBackend

variable {reserved : Char → Bool}

def weight (text : List Char) : Nat := (text.filter fun c => c != '/').length

section Keys

theorem keyFrom_segments (text : List Char) : (keyFrom reserved text).segments =
    ((text.splitOn '/').map (part reserved)).filter fun segment => segment ≠ [] := rfl

theorem keyFrom_append (one two : List Char) :
    (keyFrom reserved (one ++ '/' :: two)).segments = (keyFrom reserved one).segments ++
      (keyFrom reserved two).segments := by
  rw [keyFrom_segments,split_append,List.map_append,List.filter_append]
  rfl

theorem parts_length (segments : List (List Char)) :
    segments.flatten.length ≤ (segments.map (part reserved)).flatten.length := by
  induction segments with
  | nil => exact Nat.le_refl _
  | cons segment rest ih =>
    have first := @part_length reserved segment
    simp only [List.map_cons,List.flatten_cons,List.length_append]
    omega

theorem parts_plain {segments : List (List Char)}
    (short : (segments.map (part reserved)).flatten.length ≤ segments.flatten.length) :
    ∀ segment ∈ segments, Plain reserved segment := by
  induction segments with
  | nil => simp
  | cons segment rest ih =>
    have first := @part_length reserved segment
    have later := @parts_length reserved rest
    simp only [List.map_cons,List.flatten_cons,List.length_append] at short
    intro other member
    rcases List.mem_cons.mp member with rfl | inside
    · exact plain_of_part (by omega)
    · exact ih (by omega) other inside

theorem keyFrom_flatten (text : List Char) :
    (keyFrom reserved text).segments.flatten = ((text.splitOn '/').map (part reserved)).flatten :=
    List.flatten_filter_ne_nil

theorem keyFrom_weight (text : List Char) : weight text ≤ (keyFrom reserved text).segments.flatten.length := by
  rw [keyFrom_flatten,weight,← split_flatten]
  exact parts_length _

theorem keyFrom_tight {text : List Char}
    (short : (keyFrom reserved text).segments.flatten.length ≤ weight text) :
    ∀ segment ∈ text.splitOn '/', Plain reserved segment := by
  rw [keyFrom_flatten,weight,← split_flatten] at short
  exact parts_plain short

theorem raw_split {key : Key} (some_ : key.segments ≠ []) : key.raw.splitOn '/' = key.segments :=
  split_join (fun segment member => (key.whole segment member).2.1) some_

theorem raw_weight {key : Key} (some_ : key.segments ≠ []) : weight key.raw = key.segments.flatten.length := by
  rw [weight,← split_flatten,raw_split some_]

theorem keyFrom_raw {key : Key} (some_ : key.segments ≠ []) :
    (keyFrom reserved key.raw).segments = key.segments.map (part reserved) := by
  rw [keyFrom_segments,raw_split some_]
  apply List.filter_eq_self.mpr
  intro segment member
  obtain ⟨own,listed,rfl⟩ := List.mem_map.mp member
  have whole := List.length_pos_iff.mpr (key.whole own listed).1
  have long := @part_length reserved own
  have left : part reserved own ≠ [] := List.length_pos_iff.mp (by omega)
  simpa using left

theorem map_part_same {segments : List (List Char)} :
    segments.map (part reserved) = segments ↔ ∀ segment ∈ segments, Plain reserved segment := by
  constructor
  · intro same
    exact parts_plain (Nat.le_of_eq (by rw [same]))
  · intro plain
    calc segments.map (part reserved) = segments.map id := List.map_congr_left fun segment member =>
      part_plain (plain segment member)
      _ = segments := List.map_id _

theorem dropWhile_weight (text : List Char) : weight (text.dropWhile fun c => c = '/') = weight text := by
  induction text with
  | nil => rfl
  | cons c rest ih =>
    by_cases slash : c = '/'
    · rw [List.dropWhile_cons_of_pos (by simpa using slash),ih]
      simp [weight,slash]
    · rw [List.dropWhile_cons_of_neg (by simpa using slash)]

theorem raw_starts {key : Key} (some_ : key.segments ≠ []) : key.raw.dropWhile (fun c => c = '/') =
    key.raw := by
  obtain ⟨head,tail,parts⟩ := List.exists_cons_of_ne_nil some_
  have whole := key.whole head (by rw [parts]; exact List.mem_cons_self)
  obtain ⟨c,more,rfl⟩ := List.exists_cons_of_ne_nil whole.1
  have apart : c ≠ '/' := fun same => whole.2.1 (by simp [same])
  have first : ∃ rest, key.raw = c :: rest := by
    unfold Key.raw
    rw [parts]
    cases tail with
    | nil => exact ⟨more,by simp [join]⟩
    | cons next rest => exact ⟨_,by rw [join_cons _ (by simp)]; rfl⟩
  obtain ⟨rest,shape⟩ := first
  rw [shape,List.dropWhile_cons_of_neg (by simpa using apart)]

end Keys

section Paths
variable {backend : Backend} {key location : Key} {listed : String}

def PlainText (reserved : Char → Bool) (text : List Char) : Prop :=
  ∀ segment ∈ text.splitOn '/', segment ≠ [] ∧ Plain reserved segment

theorem plainText_key {text : List Char} (plain : PlainText reserved text) :
    (keyFrom reserved text).segments = text.splitOn '/' := by
  rw [keyFrom_segments,map_part_same.mpr fun segment member => (plain segment member).2]
  apply List.filter_eq_self.mpr
  intro segment member
  simpa using (plain segment member).1

theorem location_some {path : String} {text : List Char}
    (configured : backend.keyPrefix = some text) {target : Key}
    (ok : backend.location reserved path = .ok target) :
    target = keyFrom reserved (text ++ '/' :: path.toList.dropWhile fun c => c = '/') := by
  unfold Backend.location at ok
  rw [configured] at ok
  split at ok
  · cases ok
  · exact (Except.ok.inj ok).symm

theorem location_raw {key : Key} (some_ : key.segments ≠ []) :
    backend.location reserved (String.ofList key.raw) =
    .ok (keyFrom reserved (backend.keyPrefix.elim key.raw fun text => text ++ '/' :: key.raw)) := by
  have free : ((key.raw.splitOn '/').any fun segment => segment = ['.','.'] ∨ segment = ['.']) = false := by
    rw [raw_split some_,List.any_eq_false]
    intro segment member
    have whole := key.whole segment member
    simp [whole.2.2.1,whole.2.2.2]
  unfold Backend.location
  rw [String.toList_ofList,if_neg (by rw [free]; exact Bool.false_ne_true),raw_starts some_]
  cases backend.keyPrefix <;> rfl

theorem under_more (below : Bucket.under location key = true) : ∃ more, more ≠ [] ∧
    key.segments = location.segments ++ more := by
  unfold Bucket.under at below
  rw [Bool.and_eq_true,List.isPrefixOf_iff_prefix,decide_eq_true_iff] at below
  obtain ⟨⟨more,parts⟩,longer⟩ := below
  refine ⟨more,?_,parts.symm⟩
  rintro rfl
  rw [← parts,List.append_nil] at longer
  exact Nat.lt_irrefl _ longer

theorem back_none (configured : backend.keyPrefix = none) (some_ : key.segments ≠ []) :
    backend.location reserved (backend.listedPath key) = .ok key ↔ ∀ segment ∈ key.segments,
    Plain reserved segment := by
  have listed : backend.listedPath key = String.ofList key.raw := by
    unfold Backend.listedPath Backend.relative
    rw [configured]
  rw [listed,location_raw some_,configured,← map_part_same]
  constructor
  · intro ok
    rw [← keyFrom_raw some_]
    exact congrArg Key.segments (Except.ok.inj ok)
  · intro same
    exact congrArg Except.ok (Key.ext ((keyFrom_raw some_).trans same))

theorem back_plain {text : List Char} (configured : backend.keyPrefix = some text)
    (plain : PlainText reserved text)
    {rest : List (List Char)} (some_ : rest ≠ []) (parts : key.segments = text.splitOn '/' ++ rest) :
    backend.location reserved (backend.listedPath key) = .ok key ↔ ∀ segment ∈ key.segments,
    Plain reserved segment := by
  let own : Key := ⟨rest,fun segment member =>
      key.whole segment (by rw [parts]; exact List.mem_append_right _ member)⟩
  have raw : key.raw = text ++ '/' :: own.raw := by
    unfold Key.raw
    rw [parts,join_append (List.splitOn_ne_nil _ _) some_,join_split]
  have listed : backend.listedPath key = String.ofList own.raw := by
    unfold Backend.listedPath Backend.relative
    simp only [configured]
    rw [raw,if_pos (by rw [List.isPrefixOf_iff_prefix]; exact List.prefix_append _ _),List.drop_left,
      List.dropWhile_cons_of_pos (by simp),@raw_starts own some_]
  have target : (keyFrom reserved (text ++ '/' :: own.raw)).segments = text.splitOn '/' ++ rest.map
      (part reserved) := by
    rw [keyFrom_append,plainText_key plain,@keyFrom_raw reserved own some_]
  have fixed : (∀ segment ∈ key.segments, Plain reserved segment) ↔ ∀ segment ∈ rest,
      Plain reserved segment := by
    rw [parts]
    constructor
    · exact fun all segment member => all segment (List.mem_append_right _ member)
    · intro all segment member
      rcases List.mem_append.mp member with early | late
      · exact (plain segment early).2
      · exact all segment late
  rw [listed,@location_raw reserved backend own some_,configured,fixed,← map_part_same]
  constructor
  · intro ok
    have same := congrArg Key.segments (Except.ok.inj ok)
    exact List.append_cancel_left ((target.symm.trans same).trans parts)
  · intro same
    exact congrArg Except.ok (Key.ext (by rw [parts]; exact target.trans (congrArg _ same)))

theorem back_rough {text : List Char} (configured : backend.keyPrefix = some text)
    (rough : ¬ PlainText reserved text)
    {more : List (List Char)} (some_ : more ≠ [])
      (parts : key.segments = (keyFrom reserved text).segments ++ more) :
    backend.location reserved (backend.listedPath key) ≠ .ok key := by
  obtain ⟨given,starts,ends⟩ := backend.trimmed text configured
  have filled : key.segments ≠ [] := by
    rw [parts]
    exact List.append_ne_nil_of_right_ne_nil _ some_
  intro back
  have target := location_some configured back
  by_cases cut : text.isPrefixOf key.raw = true
  · obtain ⟨rest,shape⟩ := List.isPrefixOf_iff_prefix.mp cut
    let left := rest.dropWhile fun c => c = '/'
    have listed : backend.listedPath key = String.ofList left := by
      unfold Backend.listedPath Backend.relative
      simp only [configured]
      rw [if_pos cut,← shape,List.drop_left]
    rw [listed,String.toList_ofList] at target
    have same := congrArg Key.segments target
    rw [keyFrom_append,parts] at same
    have behind := List.append_cancel_left same
    -- Nothing but slashes is lost on the way, so the prefix had nothing to escape.
    have long : weight left ≤ more.flatten.length := by
      rw [behind,← dropWhile_weight left]
      exact keyFrom_weight _
    have whole : weight text + weight left = (keyFrom reserved text).segments.flatten.length +
        more.flatten.length := by
      have total := raw_weight filled
      rw [parts,List.flatten_append,List.length_append] at total
      rw [← total,← shape,weight,weight,weight,List.filter_append,List.length_append]
      exact congrArg _ (dropWhile_weight rest)
    have plain := @keyFrom_tight reserved text (by omega)
    have empty : [] ∈ text.splitOn '/' := by
      by_contra none_
      exact rough fun segment member => ⟨fun nothing => none_ (nothing ▸ member),plain segment member⟩
    have inside := empty_inside starts ends given empty rest
    rw [shape,raw_split filled] at inside
    exact (key.whole [] inside).1 rfl
  · have listed : backend.listedPath key = String.ofList key.raw := by
      unfold Backend.listedPath Backend.relative
      simp only [configured]
      rw [if_neg cut]
    rw [listed,String.toList_ofList,raw_starts filled] at target
    have same := congrArg Key.segments target
    rw [keyFrom_append,keyFrom_raw filled] at same
    have longer := congrArg List.length same
    rw [List.length_append,List.length_map] at longer
    obtain ⟨head,tail,first,nonempty⟩ := split_first starts given
    have least : 0 < (keyFrom reserved text).segments.length := by
      rw [List.length_pos_iff,keyFrom_segments,first,List.map_cons]
      have length := @part_length reserved head
      have positive := List.length_pos_iff.mpr nonempty
      have kept : part reserved head ≠ [] := List.length_pos_iff.mp (by omega)
      rw [List.filter_cons_of_pos (by simpa using kept)]
      exact List.cons_ne_nil _ _
    omega

-- What is asked of the backend's prefix.
def PlainPrefix (reserved : Char → Bool) (backend : Backend) : Prop :=
  ∀ text, backend.keyPrefix = some text → PlainText reserved text

theorem back_iff (ok : backend.location reserved listed = .ok location)
    (below : Bucket.under location key = true) :
    backend.location reserved (backend.listedPath key) = .ok key ↔
      PlainPrefix reserved backend ∧ ∀ segment ∈ key.segments, Plain reserved segment := by
  obtain ⟨more,some_,parts⟩ := under_more below
  cases configured : backend.keyPrefix with
  | none =>
    rw [back_none configured (by rw [parts]; exact List.append_ne_nil_of_right_ne_nil _ some_)]
    exact ⟨fun plain => ⟨fun text same => (by rw [configured] at same; cases same),plain⟩,fun holds => holds.2⟩
  | some text =>
    rw [location_some configured ok,keyFrom_append,List.append_assoc] at parts
    have left : (keyFrom reserved (listed.toList.dropWhile fun c => c = '/')).segments ++ more ≠ [] :=
      List.append_ne_nil_of_right_ne_nil _ some_
    by_cases plain : PlainText reserved text
    · have straight := parts
      rw [plainText_key plain] at straight
      rw [back_plain configured plain left straight]
      exact ⟨fun all => ⟨fun other same => (by rw [configured] at same; cases same; exact plain),
        all⟩,fun holds => holds.2⟩
    · constructor
      · exact fun back => absurd back (back_rough configured plain left parts)
      · exact fun holds => absurd (holds.1 text configured) plain

end Paths

section Calls
variable {notFound : Key → String} {backend : Backend} {bucket : Bucket} {key location : Key}

theorem get_entry {entry : Key × Bytes} (member : entry ∈ bucket.entries) : bucket.get entry.1 =
    some entry.2 := by
  unfold Bucket.get
  cases found : bucket.entries.find? fun other => other.1 = entry.1 with
  | none => exact absurd (List.find?_eq_none.mp found entry member) (by simp)
  | some other =>
    have listed := List.mem_of_find?_eq_some found
    have same : other.1 = entry.1 := by simpa using List.find?_some found
    rw [List.inj_on_of_nodup_map bucket.distinct listed member same]
    rfl

theorem delete_run {path : String} (back : backend.location reserved path = .ok key) (bucket : Bucket) :
    run (backend.handle reserved notFound) (store (.delete path)) bucket = (.ok (),bucket.delete key) := by
  unfold store
  rw [run_bind_ok _ (run_perform _ _ _)]
  simp [Backend.handle,back,lift]

theorem deletes_run {keys : List Key}
    (back : ∀ key ∈ keys, backend.location reserved (backend.listedPath key) = .ok key)
    (bucket : Bucket) : ∃ after, run (backend.handle reserved notFound)
        (each (keys.map backend.listedPath) fun path => store (.delete path)) bucket = (.ok (),after) ∧
      after.entries = bucket.entries.filter fun entry => entry.1 ∉ keys := by
  induction keys generalizing bucket with
  | nil => exact ⟨bucket,rfl,by simp⟩
  | cons key rest ih =>
    obtain ⟨after,ran,left⟩ := ih (fun other member => back other (List.mem_cons_of_mem _ member))
        (bucket.delete key)
    refine ⟨after,?_,?_⟩
    · rw [List.map_cons,each,run_bind_ok _ (delete_run (back key List.mem_cons_self) bucket)]
      exact ran
    · rw [left,Bucket.delete,List.filter_filter]
      apply List.filter_congr
      intro entry _
      by_cases own : entry.1 = key <;> simp [own]

end Calls

section Listing

-- Every path of a listing names the object it was listed for, in each operation of the store.
structure Addressed (reserved : Char → Bool) (notFound : Key → String) (backend : Backend)
    (bucket : Bucket) (listed : String)
    (location : Key) : Prop where
  back : ∀ entry ∈ bucket.list location, backend.location reserved (backend.listedPath entry.1) = .ok entry.1
  head : ∀ entry ∈ bucket.list location,
    backend.handle reserved notFound (.head (backend.listedPath entry.1)) bucket =
    (.ok (some entry.2.length),bucket)
  read : ∀ entry ∈ bucket.list location,
    backend.handle reserved notFound (.getStream (backend.listedPath entry.1)) bucket = (.ok entry.2,bucket)
  removed : ∀ entry ∈ bucket.list location,
    backend.handle reserved notFound (.delete (backend.listedPath entry.1)) bucket =
    (.ok (),bucket.delete entry.1)
  cleared : ∀ base, listed = base ++ ".upload/" → ∃ after,
    run (backend.handle reserved notFound) (deleteResumable base) bucket = (.ok (),after) ∧
      after.entries = bucket.entries.filter fun entry => !Bucket.under location entry.1

variable {notFound : Key → String} {given : Option String} {bucket : Bucket} {listed : String} {location : Key}

theorem addressed_of_back {backend : Backend} (ok : backend.location reserved listed = .ok location)
    (back : ∀ entry ∈ bucket.list location, backend.location reserved (backend.listedPath entry.1) =
    .ok entry.1) :
    Addressed reserved notFound backend bucket listed location := by
  have stored : ∀ entry ∈ bucket.list location, bucket.get entry.1 = some entry.2 :=
    fun entry member => get_entry (List.mem_of_mem_filter member)
  refine ⟨back,?_,?_,?_,?_⟩
  · intro entry member
    simp only [Backend.handle,back entry member,stored entry member]
    rfl
  · intro entry member
    simp only [Backend.handle,back entry member,stored entry member]
  · intro entry member
    simp only [Backend.handle,back entry member]
  · intro base same
    obtain ⟨after,ran,left⟩ := @deletes_run reserved notFound backend ((bucket.list location).map Prod.fst) (by
      intro key member
      obtain ⟨entry,listed,rfl⟩ := List.mem_map.mp member
      exact back entry listed) bucket
    refine ⟨after,?_,?_⟩
    · unfold deleteResumable store
      rw [bind_assoc,run_bind_ok _ (run_perform _ _ _)]
      simp only [Backend.handle,← same,ok,lift,done_bind]
      rw [List.map_map] at ran
      exact ran
    · rw [left]
      apply List.filter_congr
      intro entry member
      rw [Bool.eq_iff_iff,decide_eq_true_iff,Bool.not_eq_true']
      constructor
      · intro absent
        by_contra below
        exact absent (List.mem_map_of_mem (List.mem_filter.mpr ⟨member,by simpa using below⟩))
      · intro apart inside
        obtain ⟨other,found,same⟩ := List.mem_map.mp inside
        have below := (List.mem_filter.mp found).2
        rw [same,apart] at below
        cases below

theorem listed_paths_lead_back_iff (ok : (Backend.new given).location reserved listed = .ok location) :
    Addressed reserved notFound (Backend.new given) bucket listed location ↔
      bucket.list location = [] ∨ (PlainPrefix reserved (Backend.new given) ∧
        ∀ entry ∈ bucket.list location, ∀ segment ∈ entry.1.segments, ∀ c ∈ segment, reserved c = false) := by
  have each_ : ∀ entry ∈ bucket.list location,
      ((Backend.new given).location reserved ((Backend.new given).listedPath entry.1) = .ok entry.1 ↔
        PlainPrefix reserved (Backend.new given) ∧ ∀ segment ∈ entry.1.segments, ∀ c ∈ segment,
        reserved c = false) := by
    intro entry member
    rw [back_iff ok (List.mem_filter.mp member).2]
    have dotless : (∀ segment ∈ entry.1.segments, Plain reserved segment) ↔
        ∀ segment ∈ entry.1.segments, ∀ c ∈ segment, reserved c = false :=
      ⟨fun plain segment inside => (plain segment inside).2.2,
        fun plain segment inside =>
        ⟨(entry.1.whole segment inside).2.2.1,(entry.1.whole segment inside).2.2.2,plain segment inside⟩⟩
    rw [dotless]
  constructor
  · intro addressed
    rcases List.eq_nil_or_concat (bucket.list location) with none_ | ⟨before,last,some_⟩
    · exact .inl none_
    · have present : last ∈ bucket.list location := by rw [some_]; simp
      exact .inr ⟨((each_ last present).mp (addressed.back last present)).1,
        fun entry member => ((each_ entry member).mp (addressed.back entry member)).2⟩
  · intro either
    apply addressed_of_back ok
    intro entry member
    rcases either with none_ | ⟨plain,keys⟩
    · rw [none_] at member
      cases member
    · exact (each_ entry member).mpr ⟨plain,keys entry member⟩

-- The characters the key type documents as escaped.
def documented (c : Char) : Bool :=
  c.toNat < 32 || 127 ≤ c.toNat || "/\\\x7b^\x7d%`]\">[~<#|*?".toList.contains c

def noObject (_ : Key) : String := "object not found"

-- The state of an upload written through the backend.
def uploaded (given : Option String) : Bucket :=
  ((Backend.new given).handle documented noObject (.putStream "c.upload/state.json" []) ⟨[],List.nodup_nil⟩).2

theorem uploaded_listed : (uploaded (some "backups//nightly")).list
    (keyFrom documented "backups//nightly/c.upload/".toList) =
    [(keyFrom documented "backups//nightly/c.upload/state.json".toList,[])] := by
  decide

theorem doubled_slash_left_behind : ∃ location,
    (Backend.new (some "backups//nightly")).location documented "c.upload/" = .ok location ∧
    (∃ entry ∈ (uploaded (some "backups//nightly")).entries, Bucket.under location entry.1 = true) ∧
    ¬ Addressed documented noObject (Backend.new (some "backups//nightly"))
      (uploaded (some "backups//nightly")) "c.upload/" location := by
  have ok : (Backend.new (some "backups//nightly")).location documented "c.upload/" =
      .ok (keyFrom documented "backups//nightly/c.upload/".toList) := rfl
  have stored : (keyFrom documented "backups//nightly/c.upload/state.json".toList,[]) ∈
      (uploaded (some "backups//nightly")).list (keyFrom documented "backups//nightly/c.upload/".toList) := by
    rw [uploaded_listed]
    exact List.mem_cons_self
  have below := (List.mem_filter.mp stored).2
  refine ⟨_,ok,⟨_,List.mem_of_mem_filter stored,below⟩,?_⟩
  intro addressed
  have plain := ((back_iff ok below).mp (addressed.back _ stored)).1
  have empty : [] ∈ "backups//nightly".toList.splitOn '/' := by decide
  exact (plain "backups//nightly".toList rfl [] empty).1 rfl

theorem plain_prefix_addressed : ∃ location,
    (Backend.new (some "backups/nightly")).location documented "c.upload/" = .ok location ∧
    Addressed documented noObject (Backend.new (some "backups/nightly"))
      (uploaded (some "backups/nightly")) "c.upload/" location := by
  have ok : (Backend.new (some "backups/nightly")).location documented "c.upload/" =
      .ok (keyFrom documented "backups/nightly/c.upload/".toList) := rfl
  have listed : (uploaded (some "backups/nightly")).list
      (keyFrom documented "backups/nightly/c.upload/".toList) =
      [(keyFrom documented "backups/nightly/c.upload/state.json".toList,[])] := by decide
  refine ⟨_,ok,(listed_paths_lead_back_iff ok).mpr (.inr ⟨?_,?_⟩)⟩
  · intro text same
    have own : some "backups/nightly".toList = some text := same
    cases own
    have all : ∀ segment ∈ "backups/nightly".toList.splitOn '/', segment ≠ [] ∧ segment ≠ ['.'] ∧
        segment ≠ ['.','.'] ∧
        segment.all (fun c => !documented c) = true := by decide
    intro segment member
    obtain ⟨some_,dot,dots,plain⟩ := all segment member
    exact ⟨some_,dot,dots,fun c inside => by simpa using List.all_eq_true.mp plain c inside⟩
  · intro entry member segment inside
    rw [listed] at member
    rw [List.mem_singleton.mp member] at inside
    have all : ∀ segment ∈ (keyFrom documented "backups/nightly/c.upload/state.json".toList).segments,
        segment.all (fun c => !documented c) = true := by decide
    exact fun c here => by simpa using List.all_eq_true.mp (all segment inside) c here

end Listing

end ArangoDataTools.ListedPaths
