import ArangoDataTools.LineScan
import ArangoDataTools.StackedScan
import ArangoDataTools.TurtleScanStructure

namespace ArangoDataTools.TurtleScan
open TextScan CheckedScan Turtle

section Stacked

variable {less more : Nat}

theorem agrees_object (lists : Agrees (blankNodePropertyList less) (blankNodePropertyList more))
    (collections : Agrees (collection less) (collection more)) :
    Agrees (object (less + 1)) (object (more + 1)) := by
  unfold object
  refine agrees_after fun _ => agrees_after fun first => ?_
  split
  · exact agrees_bind lists fun _ => agrees_refl
  · exact agrees_bind collections fun _ => agrees_refl
  · exact agrees_refl

theorem agrees_blankNodePropertyList
    (lists : ∀ node, Agrees (predicateObjectList less node) (predicateObjectList more node)) :
    Agrees (blankNodePropertyList (less + 1)) (blankNodePropertyList (more + 1)) := by
  unfold blankNodePropertyList
  refine agrees_after fun entry => agrees_after fun _ => agrees_after fun node =>
    agrees_after fun _ => agrees_after fun first => ?_
  split_ifs
  · exact agrees_refl
  · exact agrees_bind (agrees_deeper (lists node)) fun _ => agrees_refl

theorem agrees_itemRound (entry : Nat) (objects : Agrees (object less) (object more)) (items : List RdfTerm) :
    Agrees (itemRound entry (object less) items) (itemRound entry (object more) items) := by
  unfold itemRound
  refine agrees_after fun _ => agrees_after fun first => ?_
  split
  · exact agrees_refl
  · exact agrees_refl
  · exact agrees_bind (agrees_deeper objects) fun _ => agrees_refl

theorem agrees_collection (objects : Agrees (object less) (object more)) :
    Agrees (collection (less + 1)) (collection (more + 1)) := by
  unfold collection
  refine agrees_after fun entry => agrees_after fun _ => ?_
  exact agrees_bind (agrees_loop (agrees_itemRound entry objects) _) fun _ => agrees_refl

theorem agrees_entryRound {node : Node}
    (lists : ∀ predicate, Agrees (objectList less node predicate) (objectList more node predicate))
    (turn : Unit) : Agrees (entryRound (objectList less node) turn)
      (entryRound (objectList more node) turn) := by
  unfold entryRound
  exact agrees_after fun _ => agrees_after fun predicate => agrees_bind (lists predicate) fun _ => agrees_refl

theorem agrees_objectRound {node : Node} {predicate : String}
    (objects : Agrees (object less) (object more)) (turn : Unit) :
    Agrees (objectRound node predicate (object less) turn) (objectRound node predicate (object more) turn) := by
  unfold objectRound
  exact agrees_after fun _ => agrees_bind objects fun _ => agrees_refl

theorem calls_stacked (depth : Nat) : Agrees (object depth) (object (depth + 1)) ∧
    Agrees (blankNodePropertyList depth) (blankNodePropertyList (depth + 1)) ∧
    Agrees (collection depth) (collection (depth + 1)) ∧
    (∀ node, Agrees (predicateObjectList depth node) (predicateObjectList (depth + 1) node)) ∧
    ∀ node predicate, Agrees (objectList depth node predicate) (objectList (depth + 1) node predicate) := by
  induction depth with
  | zero => exact ⟨agrees_overflow,agrees_overflow,agrees_overflow,fun _ => agrees_overflow,
      fun _ _ => agrees_overflow⟩
  | succ depth ih =>
    obtain ⟨objects,lists,collections,predicates,many⟩ := ih
    exact ⟨agrees_object lists collections,agrees_blankNodePropertyList predicates,agrees_collection objects,
      fun node => agrees_loop (agrees_entryRound (many node)) (),
      fun _ _ => agrees_loop (agrees_objectRound objects) ()⟩

theorem object_stacked : Stacked object := fun depth => (calls_stacked depth).1
theorem predicateObjectList_stacked (node : Node) : Stacked fun depth => predicateObjectList depth node :=
  fun depth => (calls_stacked depth).2.2.2.1 node

theorem itemRound_stacked (entry : Nat) (items : List RdfTerm) : Stacked fun depth =>
    itemRound entry (object depth) items :=
  fun depth => agrees_itemRound entry (object_stacked depth) items

theorem entryRound_stacked (node : Node) (turn : Unit) : Stacked fun depth =>
    entryRound (objectList depth node) turn :=
  fun depth => agrees_entryRound ((calls_stacked depth).2.2.2.2 node) turn

theorem objectRound_stacked (node : Node) (predicate : String) (turn : Unit) :
    Stacked fun depth => objectRound node predicate (object depth) turn :=
  fun depth => agrees_objectRound (object_stacked depth) turn

theorem subject_stacked : Stacked subject := by
  intro depth
  obtain ⟨-,lists,collections,-⟩ := calls_stacked depth
  unfold subject
  refine agrees_after fun _ => agrees_after fun first => ?_
  split
  · exact lists
  · exact collections
  · exact agrees_refl

theorem statement_stacked : Stacked statement := by
  intro depth
  unfold statement
  refine agrees_bind (subject_stacked depth) fun node => agrees_after fun _ => ?_
  exact agrees_bind (predicateObjectList_stacked node depth) fun _ => agrees_refl

theorem documentRound_stacked (turn : Unit) : Stacked fun depth => documentRound (statement depth) turn := by
  intro depth
  unfold documentRound
  refine agrees_after fun _ => agrees_after fun first => ?_
  split
  · exact agrees_refl
  · split_ifs
    · exact agrees_refl
    · refine agrees_after fun keyword => ?_
      split_ifs
      · exact agrees_refl
      · exact agrees_bind (statement_stacked depth) fun _ => agrees_refl

theorem document_stacked : Stacked document :=
  fun depth => agrees_loop (fun turn => documentRound_stacked turn depth) ()

end Stacked

section Taking

variable {s : Parser}

theorem itemRound_taking {entry : Nat} (moved : entry < s.pos) :
    Taking (fun depth => itemRound entry (object depth)) s := by
  intro depth items next t u chars from_ within ran
  obtain ⟨objects,-⟩ := nested_safe (4 * t.chars.length + 4)
  exact stacked_safe (itemRound_stacked entry items) (safe_itemRound objects within (by omega) (by omega)) ran

theorem entryRound_taking {node : Node} : Taking (fun depth => entryRound (objectList depth node)) s := by
  intro depth turn next t u chars from_ within ran
  obtain ⟨-,-,-,-,many⟩ := nested_safe (4 * t.chars.length + 4)
  exact stacked_safe (entryRound_stacked node turn) (safe_entryRound (many node) within (by omega)) ran

theorem objectRound_taking {node : Node} {predicate : String} :
    Taking (fun depth => objectRound node predicate (object depth)) s := by
  intro depth turn next t u chars from_ within ran
  obtain ⟨objects,-⟩ := nested_safe (4 * t.chars.length + 4)
  exact stacked_safe (objectRound_stacked node predicate turn) (safe_objectRound objects within (by omega)) ran

theorem documentRound_taking : Taking (fun depth => documentRound (statement depth)) s := by
  intro depth turn next t u chars from_ within ran
  exact stacked_safe (documentRound_stacked turn)
    (@safe_documentRound t (4 * t.chars.length + 4) within (by omega)) ran

end Taking

section Nesting

inductive Call where
  | object
  | blankNodePropertyList
  | collection
  | predicateObjectList (node : Node)
  | objectList (node : Node) (predicate : String)

def Overflows (depth : Nat) (s : Parser) : Call → Prop
  | .object => object depth s = .error .overflow
  | .blankNodePropertyList => blankNodePropertyList depth s = .error .overflow
  | .collection => collection depth s = .error .overflow
  | .predicateObjectList node => predicateObjectList depth node s = .error .overflow
  | .objectList node predicate => objectList depth node predicate s = .error .overflow

-- More than `depth` calls come to stand open in a call from here, itself among them. What a call reads
-- before the one that stays open is read on as deep a stack as it takes.
inductive Nests : Call → Nat → Parser → Prop where
  | one {call : Call} {s : Parser} : Nests call 0 s
  | bracket {depth : Nat} {s t : Parser} : skipWs s = .ok ((),t) → t.chars[t.pos]? = some '[' →
      Nests .blankNodePropertyList depth t →
      Nests .object (depth + 1) s
  | parenthesis {depth : Nat} {s t : Parser} : skipWs s = .ok ((),t) → t.chars[t.pos]? = some '(' →
      Nests .collection depth t →
      Nests .object (depth + 1) s
  | entries {depth : Nat} {node : Node} {s t u v : Parser} : expect '[' s = .ok ((),t) →
      freshBlank t = .ok (node,u) →
      skipWs u = .ok ((),v) → v.chars[v.pos]? ≠ some ']' → Nests (.predicateObjectList node) depth v →
      Nests .blankNodePropertyList (depth + 1) s
  | items {depth : Nat} {items : List RdfTerm} {c : Char} {s t u v : Parser} : expect '(' s = .ok ((),t) →
      Rounds (fun depth => itemRound s.pos (object depth)) [] t items u → skipWs u = .ok ((),v) →
      v.chars[v.pos]? = some c → c ≠ ')' →
      Nests .object depth v → Nests .collection (depth + 1) s
  | entry {depth : Nat} {node : Node} {predicate : String} {s t u v : Parser} :
      Rounds (fun depth => entryRound (objectList depth node)) () s () t → skipWs t = .ok ((),u) →
      verb u = .ok (predicate,v) →
      Nests (.objectList node predicate) depth v → Nests (.predicateObjectList node) (depth + 1) s
  | another {depth : Nat} {node : Node} {predicate : String} {s t u : Parser} :
      Rounds (fun depth => objectRound node predicate (object depth)) () s () t →
      skipWs t = .ok ((),u) → Nests .object depth u →
      Nests (.objectList node predicate) (depth + 1) s

variable {s t : Parser} {depth : Nat}

theorem fits_after {first : Scanner α} {next : α → Scanner β} {post : α → Parser → Prop}
    (safe : Safe first s post) :
    (first >>= next) s = .error .overflow ↔ ∃ a t, first s = .ok (a,t) ∧ next a t = .error .overflow := by
  rw [overflow_bind]
  exact or_iff_right (safe_fits safe)

theorem overflow_first {first : Scanner α} {next : α → Scanner β}
    (later : ∀ a t, first s = .ok (a,t) → next a t ≠ .error .overflow) :
    (first >>= next) s = .error .overflow ↔ first s = .error .overflow := by
  rw [overflow_bind]
  exact or_iff_left fun ⟨a,t,ran,overflows⟩ => later a t ran overflows

theorem overflow_return {first : Scanner α} {result : α → β} :
    (first >>= fun a => (pure (result a) : Scanner β)) s = .error .overflow ↔ first s = .error .overflow :=
  overflow_first fun _ _ _ same => by cases same

theorem object_overflow (within : s.pos ≤ s.chars.length) : object (depth + 1) s = .error .overflow ↔
    ∃ t, skipWs s = .ok ((),t) ∧
    (t.chars[t.pos]? = some '[' ∧ blankNodePropertyList depth t = .error .overflow ∨
      t.chars[t.pos]? = some '(' ∧ collection depth t = .error .overflow) := by
  unfold object
  rw [fits_after (safe_skipWs within)]
  constructor
  · rintro ⟨⟨⟩,t,gap,rest⟩
    obtain ⟨-,inside,-⟩ := safe_ok (safe_skipWs within) gap
    have rest := (bind_ok (show peek t = .ok (t.chars[t.pos]?,t) from rfl)).symm.trans rest
    refine ⟨t,gap,?_⟩
    generalize found : t.chars[t.pos]? = first at rest
    split at rest
    · exact .inl ⟨rfl,overflow_return.mp rest⟩
    · exact .inr ⟨rfl,overflow_return.mp rest⟩
    · exact absurd rest (safe_fits (safe_plainObject inside found))
  · rintro ⟨t,gap,rest⟩
    refine ⟨(),t,gap,(bind_ok (show peek t = .ok (t.chars[t.pos]?,t) from rfl)).trans ?_⟩
    rcases rest with ⟨found,overflows⟩ | ⟨found,overflows⟩
    · rw [found]
      exact overflow_return.mpr overflows
    · rw [found]
      exact overflow_return.mpr overflows

theorem blankNodePropertyList_overflow : blankNodePropertyList (depth + 1) s = .error .overflow ↔
    ∃ t node u v, expect '[' s = .ok ((),t) ∧ freshBlank t = .ok (node,u) ∧ skipWs u = .ok ((),v) ∧
    v.chars[v.pos]? ≠ some ']' ∧
      predicateObjectList depth node v = .error .overflow := by
  have listed : ∀ t node u v, expect '[' s = .ok ((),t) → freshBlank t = .ok (node,u) → skipWs u = .ok ((),v) →
      s.pos < v.pos ∧ v.pos ≤ v.chars.length := by
    intro t node u v opened fresh gap
    obtain ⟨-,inside,moved⟩ := safe_ok safe_expect opened
    obtain ⟨-,inside',same⟩ := safe_ok (safe_freshBlank inside) fresh
    obtain ⟨-,inside'',onward⟩ := safe_ok (safe_skipWs inside') gap
    exact ⟨by omega,inside''⟩
  have entries : ∀ node v, s.pos < v.pos → v.pos ≤ v.chars.length → ((do
      deeper s.pos (predicateObjectList depth node)
      skipWs
      expect ']'
      return node : Scanner Node) v = .error .overflow ↔ predicateObjectList depth node v =
        .error .overflow) := by
    intro node v moved within
    rw [overflow_first,deeper_moved moved]
    intro _ w ran
    rw [deeper_moved moved] at ran
    obtain ⟨-,-,-,predicates,-⟩ := nested_safe (4 * v.chars.length + 4)
    obtain ⟨-,inside,-⟩ := stacked_safe (predicateObjectList_stacked node)
        (predicates node v within (by omega)) ran
    have ended : Safe (do skipWs; expect ']'; return node : Scanner Node) w fun _ _ => True :=
      safe_bind (safe_skipWs inside) fun _ _ _ _ _ => safe_bind safe_expect fun _ _ _ within _ =>
        safe_pure.mpr ⟨within,trivial⟩
    exact safe_fits ended
  unfold blankNodePropertyList
  rw [bind_ok (show here s = .ok (s.pos,s) from rfl),fits_after safe_expect]
  constructor
  · rintro ⟨⟨⟩,t,opened,rest⟩
    obtain ⟨-,inside,-⟩ := safe_ok safe_expect opened
    obtain ⟨node,u,fresh,rest⟩ := (fits_after (safe_freshBlank inside)).mp rest
    obtain ⟨-,inside',-⟩ := safe_ok (safe_freshBlank inside) fresh
    obtain ⟨⟨⟩,v,gap,rest⟩ := (fits_after (safe_skipWs inside')).mp rest
    obtain ⟨moved,within⟩ := listed t node u v opened fresh gap
    have rest := (bind_ok (show peek v = .ok (v.chars[v.pos]?,v) from rfl)).symm.trans rest
    split_ifs at rest with closed
    · cases rest
    · exact ⟨t,node,u,v,opened,fresh,gap,closed,(entries node v moved within).mp rest⟩
  · rintro ⟨t,node,u,v,opened,fresh,gap,open_,overflows⟩
    obtain ⟨moved,within⟩ := listed t node u v opened fresh gap
    refine ⟨(),t,opened,(bind_ok fresh).trans
      ((bind_ok gap).trans ((bind_ok (show peek v = .ok (v.chars[v.pos]?,v) from rfl)).trans ?_))⟩
    rw [if_neg open_]
    exact (entries node v moved within).mpr overflows

theorem itemRound_overflow {entry : Nat} {items : List RdfTerm} (within : s.pos ≤ s.chars.length)
    (moved : entry < s.pos) :
    itemRound entry (object depth) items s = .error .overflow ↔
      ∃ t c, skipWs s = .ok ((),t) ∧ t.chars[t.pos]? = some c ∧ c ≠ ')' ∧
      object depth t = .error .overflow := by
  unfold itemRound
  rw [fits_after (safe_skipWs within)]
  constructor
  · rintro ⟨⟨⟩,t,gap,rest⟩
    obtain ⟨-,-,onward⟩ := safe_ok (safe_skipWs within) gap
    have rest := (bind_ok (show peek t = .ok (t.chars[t.pos]?,t) from rfl)).symm.trans rest
    generalize found : t.chars[t.pos]? = first at rest
    split at rest
    · cases rest
    · cases rest
    · rename_i c other
      rw [overflow_return,deeper_moved (Nat.lt_of_lt_of_le moved onward)] at rest
      exact ⟨t,c,gap,found,other,rest⟩
  · rintro ⟨t,c,gap,found,other,overflows⟩
    obtain ⟨-,-,onward⟩ := safe_ok (safe_skipWs within) gap
    refine ⟨(),t,gap,(bind_ok (show peek t = .ok (t.chars[t.pos]?,t) from rfl)).trans ?_⟩
    generalize t.chars[t.pos]? = first at found
    split
    · exact absurd (Option.some.inj found).symm other
    · cases found
    · rw [overflow_return,deeper_moved (Nat.lt_of_lt_of_le moved onward)]
      exact overflows

theorem collection_overflow : collection (depth + 1) s = .error .overflow ↔
    ∃ t items u v c, expect '(' s = .ok ((),t) ∧
    Rounds (fun depth => itemRound s.pos (object depth)) [] t items u ∧
      skipWs u = .ok ((),v) ∧ v.chars[v.pos]? = some c ∧ c ≠ ')' ∧ object depth v = .error .overflow := by
  have items_ : ∀ t, expect '(' s = .ok ((),t) →
      (loop (itemRound s.pos (object depth)) [] t = .error .overflow ↔
      ∃ items u v c, Rounds (fun depth => itemRound s.pos (object depth)) [] t items u ∧
        skipWs u = .ok ((),v) ∧ v.chars[v.pos]? = some c ∧ c ≠ ')' ∧ object depth v = .error .overflow) := by
    intro t opened
    obtain ⟨-,inside,moved⟩ := safe_ok safe_expect opened
    rw [loop_overflow_iff (itemRound_stacked s.pos) (itemRound_taking moved) inside]
    refine exists_congr fun items => exists_congr fun u => ?_
    constructor
    · rintro ⟨rounds,overflows⟩
      obtain ⟨-,onward,within⟩ := rounds_onward (itemRound_taking moved) rfl (Nat.le_refl _) inside rounds
      obtain ⟨v,c,rest⟩ := (itemRound_overflow within (Nat.lt_of_lt_of_le moved onward)).mp overflows
      exact ⟨v,c,rounds,rest⟩
    · rintro ⟨v,c,rounds,rest⟩
      obtain ⟨-,onward,within⟩ := rounds_onward (itemRound_taking moved) rfl (Nat.le_refl _) inside rounds
      exact ⟨rounds,(itemRound_overflow within (Nat.lt_of_lt_of_le moved onward)).mpr ⟨v,c,rest⟩⟩
  have stacked : Stacked fun depth => loop (itemRound s.pos (object depth)) [] :=
    fun depth => agrees_loop (agrees_itemRound s.pos (object_stacked depth)) _
  unfold collection
  rw [bind_ok (show here s = .ok (s.pos,s) from rfl),fits_after safe_expect]
  constructor
  · rintro ⟨⟨⟩,t,opened,rest⟩
    obtain ⟨-,inside,moved⟩ := safe_ok safe_expect opened
    rw [overflow_first,items_ t opened] at rest
    · obtain ⟨items,u,v,c,rest⟩ := rest
      exact ⟨t,items,u,v,c,opened,rest⟩
    · intro items u ran
      obtain ⟨objects,-⟩ := nested_safe (4 * t.chars.length + 4)
      obtain ⟨-,within,-⟩ := stacked_safe stacked (safe_items objects inside moved (by omega)) ran
      split_ifs
      · exact fun same => by cases same
      · exact safe_fits (safe_bind (safe_freshBlank within) fun head v _ inside' _ =>
          safe_bind (safe_chain inside') fun _ w _ within' _ => safe_pure.mpr ⟨within',trivial⟩)
  · rintro ⟨t,items,u,v,c,opened,rest⟩
    exact ⟨(),t,opened,bind_error ((items_ t opened).mpr ⟨items,u,v,c,rest⟩)⟩

theorem entryRound_overflow {node : Node} (within : s.pos ≤ s.chars.length) :
    entryRound (objectList depth node) () s = .error .overflow ↔
      ∃ t predicate u, skipWs s = .ok ((),t) ∧ verb t = .ok (predicate,u) ∧
      objectList depth node predicate u = .error .overflow := by
  have listed : ∀ predicate u, u.pos ≤ u.chars.length →
      ((do objectList depth node predicate; entryEnd : Scanner _) u = .error .overflow ↔
      objectList depth node predicate u = .error .overflow) := by
    intro predicate u inside
    refine overflow_first fun _ v ran => ?_
    obtain ⟨-,-,-,-,many⟩ := nested_safe (4 * u.chars.length + 4)
    have stacked : Stacked fun depth => objectList depth node predicate :=
      fun depth => (calls_stacked depth).2.2.2.2 node predicate
    obtain ⟨-,inside',-⟩ := stacked_safe stacked (many node predicate u inside (by omega)) ran
    exact safe_fits (safe_entryEnd inside')
  unfold entryRound
  rw [fits_after (safe_skipWs within)]
  constructor
  · rintro ⟨⟨⟩,t,gap,rest⟩
    obtain ⟨-,inside,-⟩ := safe_ok (safe_skipWs within) gap
    obtain ⟨predicate,u,named,rest⟩ := (fits_after (safe_verb inside)).mp rest
    obtain ⟨-,inside',-⟩ := safe_ok (safe_verb inside) named
    exact ⟨t,predicate,u,gap,named,(listed predicate u inside').mp rest⟩
  · rintro ⟨t,predicate,u,gap,named,overflows⟩
    obtain ⟨-,inside,-⟩ := safe_ok (safe_skipWs within) gap
    obtain ⟨-,inside',-⟩ := safe_ok (safe_verb inside) named
    exact ⟨(),t,gap,(bind_ok named).trans ((listed predicate u inside').mpr overflows)⟩

theorem objectRound_overflow {node : Node} {predicate : String} (within : s.pos ≤ s.chars.length) :
    objectRound node predicate (object depth) () s = .error .overflow ↔
      ∃ t, skipWs s = .ok ((),t) ∧ object depth t = .error .overflow := by
  have read : ∀ t, t.pos ≤ t.chars.length → ((do
      let item ← object depth
      pushTriple node predicate item.term
      objectEnd : Scanner _) t = .error .overflow ↔ object depth t = .error .overflow) := by
    intro t inside
    refine overflow_first fun item u ran => ?_
    obtain ⟨objects,-⟩ := nested_safe (4 * t.chars.length + 4)
    obtain ⟨-,inside',-⟩ := stacked_safe object_stacked (objects t inside (by omega)) ran
    have ended : Safe (do pushTriple node predicate item.term; objectEnd : Scanner _) u fun _ _ => True :=
      safe_bind (safe_pushTriple inside') fun _ _ _ within' _ => safe_mono (safe_objectEnd within')
        fun _ _ _ _ _ => trivial
    exact safe_fits ended
  unfold objectRound
  rw [fits_after (safe_skipWs within)]
  constructor
  · rintro ⟨⟨⟩,t,gap,rest⟩
    obtain ⟨-,inside,-⟩ := safe_ok (safe_skipWs within) gap
    exact ⟨t,gap,(read t inside).mp rest⟩
  · rintro ⟨t,gap,overflows⟩
    obtain ⟨-,inside,-⟩ := safe_ok (safe_skipWs within) gap
    exact ⟨(),t,gap,(read t inside).mpr overflows⟩

theorem predicateObjectList_overflow {node : Node} (within : s.pos ≤ s.chars.length) :
    predicateObjectList (depth + 1) node s = .error .overflow ↔
      ∃ t u predicate v, Rounds (fun depth => entryRound (objectList depth node)) () s () t ∧
      skipWs t = .ok ((),u) ∧
        verb u = .ok (predicate,v) ∧ objectList depth node predicate v = .error .overflow := by
  unfold predicateObjectList
  rw [loop_overflow_iff (entryRound_stacked node) entryRound_taking within]
  constructor
  · rintro ⟨_,t,rounds,overflows⟩
    obtain ⟨-,-,inside⟩ := rounds_onward entryRound_taking rfl (Nat.le_refl _) within rounds
    obtain ⟨u,predicate,v,rest⟩ := (entryRound_overflow inside).mp overflows
    exact ⟨t,u,predicate,v,rounds,rest⟩
  · rintro ⟨t,u,predicate,v,rounds,rest⟩
    obtain ⟨-,-,inside⟩ := rounds_onward entryRound_taking rfl (Nat.le_refl _) within rounds
    exact ⟨(),t,rounds,(entryRound_overflow inside).mpr ⟨u,predicate,v,rest⟩⟩

theorem objectList_overflow {node : Node} {predicate : String} (within : s.pos ≤ s.chars.length) :
    objectList (depth + 1) node predicate s = .error .overflow ↔
      ∃ t u, Rounds (fun depth => objectRound node predicate (object depth)) () s () t ∧ skipWs t = .ok ((),u) ∧
        object depth u = .error .overflow := by
  unfold objectList
  rw [loop_overflow_iff (objectRound_stacked node predicate) objectRound_taking within]
  constructor
  · rintro ⟨_,t,rounds,overflows⟩
    obtain ⟨-,-,inside⟩ := rounds_onward objectRound_taking rfl (Nat.le_refl _) within rounds
    obtain ⟨u,rest⟩ := (objectRound_overflow inside).mp overflows
    exact ⟨t,u,rounds,rest⟩
  · rintro ⟨t,u,rounds,rest⟩
    obtain ⟨-,-,inside⟩ := rounds_onward objectRound_taking rfl (Nat.le_refl _) within rounds
    exact ⟨(),t,rounds,(objectRound_overflow inside).mpr ⟨u,rest⟩⟩

theorem overflows_iff (call : Call) (within : s.pos ≤ s.chars.length) : Overflows depth s call ↔
    Nests call depth s := by
  induction depth generalizing call s with
  | zero =>
    refine ⟨fun _ => .one,fun _ => ?_⟩
    cases call <;> rfl
  | succ depth ih =>
    cases call with
    | object =>
      refine (object_overflow within).trans ⟨?_,?_⟩
      · rintro ⟨t,gap,⟨found,overflows⟩ | ⟨found,overflows⟩⟩
        · exact .bracket gap found
            ((ih .blankNodePropertyList (safe_ok (safe_skipWs within) gap).2.1).mp overflows)
        · exact .parenthesis gap found ((ih .collection (safe_ok (safe_skipWs within) gap).2.1).mp overflows)
      · intro nests
        cases nests with
        | bracket gap found nests =>
          exact ⟨_,gap,.inl ⟨found,
            (ih .blankNodePropertyList (safe_ok (safe_skipWs within) gap).2.1).mpr nests⟩⟩
        | parenthesis gap found nests =>
          exact ⟨_,gap,.inr ⟨found,(ih .collection (safe_ok (safe_skipWs within) gap).2.1).mpr nests⟩⟩
    | blankNodePropertyList =>
      have inside : ∀ {t node u v}, expect '[' s = .ok ((),t) → freshBlank t = .ok (node,u) →
          skipWs u = .ok ((),v) →
          v.pos ≤ v.chars.length := fun opened fresh gap =>
        (safe_ok (safe_skipWs (safe_ok (safe_freshBlank (safe_ok safe_expect opened).2.1) fresh).2.1) gap).2.1
      refine blankNodePropertyList_overflow.trans ⟨?_,?_⟩
      · rintro ⟨t,node,u,v,opened,fresh,gap,open_,overflows⟩
        exact .entries opened fresh gap open_
          ((ih (.predicateObjectList node) (inside opened fresh gap)).mp overflows)
      · intro nests
        cases nests with
        | entries opened fresh gap open_ nests =>
          exact ⟨_,_,_,_,opened,fresh,gap,open_,
            (ih (.predicateObjectList _) (inside opened fresh gap)).mpr nests⟩
    | collection =>
      have inside : ∀ {t items u v}, expect '(' s = .ok ((),t) →
          Rounds (fun depth => itemRound s.pos (object depth)) [] t items u →
          skipWs u = .ok ((),v) → v.pos ≤ v.chars.length := by
        intro t items u v opened rounds gap
        obtain ⟨-,within,moved⟩ := safe_ok safe_expect opened
        obtain ⟨-,-,within⟩ := rounds_onward (itemRound_taking moved) rfl (Nat.le_refl _) within rounds
        exact (safe_ok (safe_skipWs within) gap).2.1
      refine collection_overflow.trans ⟨?_,?_⟩
      · rintro ⟨t,items,u,v,c,opened,rounds,gap,found,other,overflows⟩
        exact .items opened rounds gap found other ((ih .object (inside opened rounds gap)).mp overflows)
      · intro nests
        cases nests with
        | items opened rounds gap found other nests =>
          exact ⟨_,_,_,_,_,opened,rounds,gap,found,other,(ih .object (inside opened rounds gap)).mpr nests⟩
    | predicateObjectList node =>
      have inside : ∀ {t u predicate v}, Rounds (fun depth => entryRound (objectList depth node))
          () s () t → skipWs t = .ok ((),u) →
          verb u = .ok (predicate,v) → v.pos ≤ v.chars.length := by
        intro t u predicate v rounds gap named
        obtain ⟨-,-,within⟩ := rounds_onward entryRound_taking rfl (Nat.le_refl _) within rounds
        exact (safe_ok (safe_verb (safe_ok (safe_skipWs within) gap).2.1) named).2.1
      refine (predicateObjectList_overflow within).trans ⟨?_,?_⟩
      · rintro ⟨t,u,predicate,v,rounds,gap,named,overflows⟩
        exact .entry rounds gap named ((ih (.objectList node predicate) (inside rounds gap named)).mp overflows)
      · intro nests
        cases nests with
        | entry rounds gap named nests =>
          exact ⟨_,_,_,_,rounds,gap,named,(ih (.objectList node _) (inside rounds gap named)).mpr nests⟩
    | objectList node predicate =>
      have inside : ∀ {t u}, Rounds (fun depth => objectRound node predicate (object depth)) () s
          () t → skipWs t = .ok ((),u) →
          u.pos ≤ u.chars.length := by
        intro t u rounds gap
        obtain ⟨-,-,within⟩ := rounds_onward objectRound_taking rfl (Nat.le_refl _) within rounds
        exact (safe_ok (safe_skipWs within) gap).2.1
      refine (objectList_overflow within).trans ⟨?_,?_⟩
      · rintro ⟨t,u,rounds,gap,overflows⟩
        exact .another rounds gap ((ih .object (inside rounds gap)).mp overflows)
      · intro nests
        cases nests with
        | another rounds gap nests => exact ⟨_,_,rounds,gap,(ih .object (inside rounds gap)).mpr nests⟩

-- A statement comes to have more than `depth` calls open at once.
inductive StatementNests : Nat → Parser → Prop where
  | bracket {depth : Nat} {s t : Parser} : skipWs s = .ok ((),t) → t.chars[t.pos]? = some '[' →
      Nests .blankNodePropertyList depth t →
      StatementNests depth s
  | parenthesis {depth : Nat} {s t : Parser} : skipWs s = .ok ((),t) → t.chars[t.pos]? = some '(' →
      Nests .collection depth t →
      StatementNests depth s
  | entries {deep depth : Nat} {node : Node} {s t u : Parser} : subject deep s = .ok (node,t) →
      skipWs t = .ok ((),u) →
      Nests (.predicateObjectList node) depth u → StatementNests depth s

-- The text nests deeper than `frames` calls, in the statement after those that are read.
def Overruns (frames : Nat) (input : List Char) : Prop :=
  ∃ s t c, Rounds (fun depth => documentRound (statement depth)) () ⟨input,0,{}⟩ () s ∧ skipWs s = .ok ((),t) ∧
    t.chars[t.pos]? = some c ∧ c ≠ '@' ∧ sparqlKeyword t = .ok (false,t) ∧ StatementNests frames t

theorem subject_overflow (within : s.pos ≤ s.chars.length) : subject depth s = .error .overflow ↔
    ∃ t, skipWs s = .ok ((),t) ∧ (t.chars[t.pos]? = some '[' ∧ Nests .blankNodePropertyList depth t ∨
      t.chars[t.pos]? = some '(' ∧ Nests .collection depth t) := by
  unfold subject
  rw [fits_after (safe_skipWs within)]
  constructor
  · rintro ⟨⟨⟩,t,gap,rest⟩
    obtain ⟨-,inside,-⟩ := safe_ok (safe_skipWs within) gap
    have rest := (bind_ok (show peek t = .ok (t.chars[t.pos]?,t) from rfl)).symm.trans rest
    refine ⟨t,gap,?_⟩
    generalize t.chars[t.pos]? = first at rest
    split at rest
    · exact .inl ⟨rfl,(overflows_iff .blankNodePropertyList inside).mp rest⟩
    · exact .inr ⟨rfl,(overflows_iff .collection inside).mp rest⟩
    · exact absurd rest (safe_fits (safe_iriOrBlank inside))
  · rintro ⟨t,gap,rest⟩
    obtain ⟨-,inside,-⟩ := safe_ok (safe_skipWs within) gap
    refine ⟨(),t,gap,(bind_ok (show peek t = .ok (t.chars[t.pos]?,t) from rfl)).trans ?_⟩
    rcases rest with ⟨found,nests⟩ | ⟨found,nests⟩
    · rw [found]
      exact (overflows_iff .blankNodePropertyList inside).mpr nests
    · rw [found]
      exact (overflows_iff .collection inside).mpr nests

theorem statement_overflow (within : s.pos ≤ s.chars.length) : statement depth s =
    .error .overflow ↔ StatementNests depth s := by
  have enough : 4 * (s.chars.length - s.pos) + 3 ≤ 4 * s.chars.length + 4 := by omega
  have entries : ∀ {deep node t u}, subject deep s = .ok (node,t) → skipWs t = .ok ((),u) →
      u.pos ≤ u.chars.length := by
    intro deep node t u named gap
    obtain ⟨-,inside,-⟩ := stacked_safe subject_stacked (safe_subject within enough) named
    exact (safe_ok (safe_skipWs inside) gap).2.1
  unfold statement
  constructor
  · intro overflows
    rcases overflow_bind.mp overflows with first | ⟨node,t,named,rest⟩
    · obtain ⟨t,gap,⟨found,nests⟩ | ⟨found,nests⟩⟩ := (subject_overflow within).mp first
      · exact .bracket gap found nests
      · exact .parenthesis gap found nests
    · obtain ⟨-,inside,-⟩ := stacked_safe subject_stacked (safe_subject within enough) named
      obtain ⟨⟨⟩,u,gap,rest⟩ := (fits_after (safe_skipWs inside)).mp rest
      have within' := entries named gap
      rw [overflow_first] at rest
      · exact .entries named gap ((overflows_iff (.predicateObjectList node) within').mp rest)
      · intro _ v ran
        obtain ⟨-,-,-,predicates,-⟩ := nested_safe (4 * u.chars.length + 4)
        obtain ⟨-,inside',-⟩ := stacked_safe (predicateObjectList_stacked node)
            (predicates node u within' (by omega)) ran
        have ended : Safe (do skipWs; expect '.' : Scanner Unit) v fun _ _ => True :=
          safe_bind (safe_skipWs inside') fun _ _ _ _ _ => safe_mono safe_expect fun _ _ _ _ _ => trivial
        exact safe_fits ended
  · intro nests
    cases nests with
    | bracket gap found nests => exact bind_error ((subject_overflow within).mpr ⟨_,gap,.inl ⟨found,nests⟩⟩)
    | parenthesis gap found nests => exact bind_error ((subject_overflow within).mpr ⟨_,gap,.inr ⟨found,nests⟩⟩)
    | entries named gap nests =>
      rcases stacked_ok subject_stacked named depth with first | again
      · exact bind_error first
      · refine (bind_ok again).trans ((bind_ok gap).trans (bind_error ?_))
        exact (overflows_iff (.predicateObjectList _) (entries named gap)).mpr nests

theorem documentRound_overflow (within : s.pos ≤ s.chars.length) :
    documentRound (statement depth) () s = .error .overflow ↔
    ∃ t c, skipWs s = .ok ((),t) ∧ t.chars[t.pos]? = some c ∧ c ≠ '@' ∧
    sparqlKeyword t = .ok (false,t) ∧ StatementNests depth t := by
  unfold documentRound
  rw [fits_after (safe_skipWs within)]
  constructor
  · rintro ⟨⟨⟩,t,gap,rest⟩
    obtain ⟨-,inside,-⟩ := safe_ok (safe_skipWs within) gap
    have rest := (bind_ok (show peek t = .ok (t.chars[t.pos]?,t) from rfl)).symm.trans rest
    cases found : t.chars[t.pos]? with
    | none =>
      rw [found] at rest
      cases rest
    | some c =>
      rw [found] at rest
      dsimp only at rest
      split_ifs at rest with declared
      · exact absurd (overflow_return.mp rest) (safe_fits safe_directive)
      · obtain ⟨keyword,u,reads,rest⟩ := (fits_after (safe_sparqlKeyword inside)).mp rest
        obtain ⟨-,-,rfl,guarded⟩ := safe_ok (safe_sparqlKeyword inside) reads
        cases keyword with
        | true => exact absurd (overflow_return.mp rest) (safe_fits (safe_sparqlDirective inside (guarded rfl)))
        | false => exact ⟨u,c,gap,found,declared,reads,(statement_overflow inside).mp (overflow_return.mp rest)⟩
  · rintro ⟨t,c,gap,found,undeclared,reads,nests⟩
    obtain ⟨-,inside,-⟩ := safe_ok (safe_skipWs within) gap
    refine ⟨(),t,gap,(bind_ok (show peek t = .ok (t.chars[t.pos]?,t) from rfl)).trans ?_⟩
    rw [found]
    dsimp only
    rw [if_neg undeclared]
    exact (bind_ok reads).trans (overflow_return.mpr ((statement_overflow inside).mpr nests))

theorem document_overflow (frames : Nat) (input : List Char) :
    document frames ⟨input,0,{}⟩ = .error .overflow ↔ Overruns frames input := by
  have within : (⟨input,0,{}⟩ : Parser).pos ≤ (⟨input,0,{}⟩ : Parser).chars.length := Nat.zero_le _
  unfold document
  rw [loop_overflow_iff documentRound_stacked documentRound_taking within]
  constructor
  · rintro ⟨_,s,rounds,overflows⟩
    obtain ⟨-,-,inside⟩ := rounds_onward documentRound_taking rfl (Nat.le_refl _) within rounds
    obtain ⟨t,c,rest⟩ := (documentRound_overflow inside).mp overflows
    exact ⟨s,t,c,rounds,rest⟩
  · rintro ⟨s,t,c,rounds,rest⟩
    obtain ⟨-,-,inside⟩ := rounds_onward documentRound_taking rfl (Nat.le_refl _) within rounds
    exact ⟨(),s,rounds,(documentRound_overflow inside).mpr ⟨t,c,rest⟩⟩

theorem parseTurtle_returns_iff (frames : Nat) (input : List Char) :
    Returns (parseTurtle frames input) ↔ ¬Overruns frames input := by
  have safe : Safe (document (4 * input.length + 4)) ⟨input,0,{}⟩ fun _ _ => True :=
    safe_document (Nat.zero_le _) (by show 4 * (input.length - 0) + 3 ≤ _; omega)
  rw [← document_overflow]
  constructor
  · intro returns overflows
    rw [parseTurtle,overflows] at returns
    rcases returns with ⟨_,same⟩ | ⟨_,same⟩ <;> cases same
  · intro fits
    have deeper_ : Agrees (document frames) (document (max frames (4 * input.length + 4))) :=
      stacked_le document_stacked (Nat.le_max_left _ _)
    have enough : Agrees (document (4 * input.length + 4)) (document (max frames (4 * input.length + 4))) :=
      stacked_le document_stacked (Nat.le_max_right _ _)
    have same : document frames ⟨input,0,{}⟩ = document (4 * input.length + 4) ⟨input,0,{}⟩ :=
      ((deeper_ _).resolve_left fits).trans ((enough _).resolve_left (safe_fits safe)).symm
    rw [parseTurtle,same]
    exact safe_returns safe

end Nesting

section Brackets

variable {s t : Parser} {call : Call} {depth frames : Nat} {input : List Char}

def isBracket (c : Char) : Bool := c = '[' || c = '('

def brackets (s : Parser) : Nat := (s.chars.drop s.pos).countP isBracket

theorem brackets_onward (chars : t.chars = s.chars) (onward : s.pos ≤ t.pos) : brackets t ≤ brackets s := by
  obtain ⟨more,same⟩ := Nat.exists_eq_add_of_le onward
  rw [brackets,brackets,chars,same,← List.drop_drop]
  exact (List.drop_sublist _ _).countP_le

theorem brackets_taken {c : Char} (found : s.chars[s.pos]? = some c) (bracket : isBracket c = true)
    (chars : t.chars = s.chars)
    (onward : s.pos < t.pos) : brackets t + 1 ≤ brackets s := by
  obtain ⟨inside,here_⟩ := List.getElem?_eq_some_iff.mp found
  have next : brackets {s with pos := s.pos + 1} + 1 = brackets s := by
    rw [brackets,brackets,← List.getElem_cons_drop inside,List.countP_cons,here_,if_pos bracket]
  have rest : brackets t ≤ brackets {s with pos := s.pos + 1} := brackets_onward chars onward
  omega

theorem brackets_expected {c : Char} (bracket : isBracket c = true)
    (opened : expect c s = .ok ((),t)) : brackets t + 1 ≤ brackets s := by
  obtain ⟨chars,-,found,moved⟩ := safe_ok safe_expected opened
  exact brackets_taken found bracket chars (by omega)

-- How many calls more a call may come to have open, with `count` brackets ahead.
def most (count : Nat) : Call → Nat
  | .object => 4 * count
  | .objectList _ _ => 4 * count + 1
  | .predicateObjectList _ => 4 * count + 2
  | .blankNodePropertyList => 4 * count - 1
  | .collection => 4 * count - 1

theorem brackets_gap (within : s.pos ≤ s.chars.length) (gap : skipWs s = .ok ((),t)) :
    brackets t ≤ brackets s := by
  obtain ⟨chars,-,onward⟩ := safe_ok (safe_skipWs within) gap
  exact brackets_onward chars onward

theorem nests_most (nests : Nests call depth s) (within : s.pos ≤ s.chars.length) :
    depth ≤ most (brackets s) call := by
  induction nests with
  | one => exact Nat.zero_le _
  | @bracket depth s t gap found nests ih =>
    have inside := ih (safe_ok (safe_skipWs within) gap).2.1
    have fewer := brackets_gap within gap
    have opened := @brackets_taken t {t with pos := t.pos + 1} '[' found rfl rfl (Nat.lt_succ_self _)
    simp only [most] at inside ⊢
    omega
  | @parenthesis depth s t gap found nests ih =>
    have inside := ih (safe_ok (safe_skipWs within) gap).2.1
    have fewer := brackets_gap within gap
    have opened := @brackets_taken t {t with pos := t.pos + 1} '(' found rfl rfl (Nat.lt_succ_self _)
    simp only [most] at inside ⊢
    omega
  | @entries depth node s t u v opened fresh gap open_ nests ih =>
    obtain ⟨-,within',-⟩ := safe_ok safe_expect opened
    obtain ⟨chars,within'',same⟩ := safe_ok (safe_freshBlank within') fresh
    have inside := ih (safe_ok (safe_skipWs within'') gap).2.1
    have first := brackets_expected rfl opened
    have second := brackets_onward chars (Nat.le_of_eq same.symm)
    have third := brackets_gap within'' gap
    simp only [most] at inside ⊢
    omega
  | @items depth items c s t u v opened rounds gap found other nests ih =>
    obtain ⟨-,within',moved⟩ := safe_ok safe_expect opened
    obtain ⟨chars,onward,within''⟩ := rounds_onward (itemRound_taking moved) rfl (Nat.le_refl _) within' rounds
    have inside := ih (safe_ok (safe_skipWs within'') gap).2.1
    have first := brackets_expected rfl opened
    have second := brackets_onward chars onward
    have third := brackets_gap within'' gap
    simp only [most] at inside ⊢
    omega
  | @entry depth node predicate s t u v rounds gap named nests ih =>
    obtain ⟨chars,onward,within'⟩ := rounds_onward entryRound_taking rfl (Nat.le_refl _) within rounds
    obtain ⟨-,within'',-⟩ := safe_ok (safe_skipWs within') gap
    obtain ⟨chars',within₃,moved⟩ := safe_ok (safe_verb within'') named
    have inside := ih within₃
    have first := brackets_onward chars onward
    have second := brackets_gap within' gap
    have third := brackets_onward chars' (Nat.le_of_lt moved)
    simp only [most] at inside ⊢
    omega
  | @another depth node predicate s t u rounds gap nests ih =>
    obtain ⟨chars,onward,within'⟩ := rounds_onward objectRound_taking rfl (Nat.le_refl _) within rounds
    have inside := ih (safe_ok (safe_skipWs within') gap).2.1
    have first := brackets_onward chars onward
    have second := brackets_gap within' gap
    simp only [most] at inside ⊢
    omega

theorem statement_most (nests : StatementNests depth s) (within : s.pos ≤ s.chars.length) :
    depth ≤ 4 * brackets s + 2 := by
  cases nests with
  | bracket gap found nests =>
    have inside := nests_most nests (safe_ok (safe_skipWs within) gap).2.1
    have fewer := brackets_gap within gap
    simp only [most] at inside
    omega
  | parenthesis gap found nests =>
    have inside := nests_most nests (safe_ok (safe_skipWs within) gap).2.1
    have fewer := brackets_gap within gap
    simp only [most] at inside
    omega
  | entries named gap nests =>
    have enough : 4 * (s.chars.length - s.pos) + 3 ≤ 4 * s.chars.length + 4 := by omega
    obtain ⟨chars,within',moved⟩ := stacked_safe subject_stacked (safe_subject within enough) named
    have inside := nests_most nests (safe_ok (safe_skipWs within') gap).2.1
    have first := brackets_onward chars (Nat.le_of_lt moved)
    have second := brackets_gap within' gap
    simp only [most] at inside
    omega

-- A text with few brackets, wherever they stand, fits.
theorem few_brackets_return (few : 4 * input.countP isBracket + 2 < frames) :
    Returns (parseTurtle frames input) := by
  refine (parseTurtle_returns_iff frames input).mpr ?_
  rintro ⟨s,t,c,rounds,gap,-,-,-,nests⟩
  have start : (⟨input,0,{}⟩ : Parser).pos ≤ (⟨input,0,{}⟩ : Parser).chars.length := Nat.zero_le _
  obtain ⟨chars,onward,within⟩ := rounds_onward documentRound_taking rfl (Nat.le_refl _) start rounds
  have inside := statement_most nests (safe_ok (safe_skipWs within) gap).2.1
  have first := brackets_onward chars onward
  have second := brackets_gap within gap
  have all : brackets ⟨input,0,{}⟩ = input.countP isBracket := rfl
  omega

end Brackets

section Parentheses

variable {s : Parser}

theorem skipWs_stays {c : Char} (found : s.chars[s.pos]? = some c)
    (visible : isWhitespace c = false) (other : c ≠ '#') :
    skipWs s = .ok ((),s) := by
  refine loop_leave ((bind_ok (show peek s = .ok (s.chars[s.pos]?,s) from rfl)).trans ?_)
  rw [found]
  dsimp only
  rw [visible,if_neg Bool.false_ne_true,if_neg other]
  rfl

theorem expect_found {c : Char} (found : s.chars[s.pos]? = some c) :
    expect c s = .ok ((),{s with pos := s.pos + 1}) := by
  have taken : (nextChar : Scanner _) s = .ok (some c,{s with pos := s.pos + 1}) := by rw [nextChar,found]
  refine (bind_ok taken).trans ?_
  dsimp only
  rw [if_pos rfl]
  rfl

theorem matchesKeywordCi_other {c first : Char} {word : List Char}
    (found : s.chars[s.pos]? = some c) (other : toAsciiLowercase c ≠ first) :
    matchesKeywordCi (first :: word) s = .ok (false,s) := by
  unfold matchesKeywordCi
  refine (bind_ok (show here s = .ok (s.pos,s) from rfl)).trans
    ((bind_ok (show size s = .ok (s.chars.length,s) from rfl)).trans ?_)
  split_ifs with short
  · rfl
  · have cut : (slice s.pos (s.pos + (first :: word).length) : Scanner _) s =
        .ok ((s.chars.take (s.pos + (first :: word).length)).drop s.pos,s) :=
        if_pos ⟨Nat.le_add_right _ _,Nat.not_lt.mp short⟩
    refine (bind_ok cut).trans ?_
    have unlike : ((s.chars.take (s.pos + (first :: word).length)).drop s.pos).map
        toAsciiLowercase ≠ first :: word := by
      intro same
      have head := congrArg List.head? same
      rw [List.head?_map,List.head?_drop,List.getElem?_take_of_lt (by simp),found] at head
      exact other (Option.some.inj head)
    rw [if_neg unlike]
    rfl

theorem parentheses_nest (depth : Nat) (opened : ∀ j ≤ depth, s.chars[s.pos + j]? = some '(') :
    Nests .collection depth s ∧ Nests .object depth s := by
  induction depth generalizing s with
  | zero => exact ⟨.one,.one⟩
  | succ depth ih =>
    have first : s.chars[s.pos]? = some '(' := opened 0 (Nat.zero_le _)
    have second : s.chars[s.pos + 1]? = some '(' := opened 1 (Nat.succ_le_succ (Nat.zero_le _))
    have within : Nests .object depth {s with pos := s.pos + 1} := by
      refine (ih fun j less => ?_).2
      show s.chars[s.pos + 1 + j]? = some '('
      rw [Nat.add_assoc,Nat.add_comm 1 j]
      exact opened (j + 1) (Nat.succ_le_succ less)
    have gap : skipWs {s with pos := s.pos + 1} = .ok ((),{s with pos := s.pos + 1}) :=
      skipWs_stays second rfl (by decide)
    exact ⟨.items (expect_found first) .none gap second (by decide) within,
      .parenthesis (skipWs_stays first rfl (by decide)) first
        (ih fun j less => opened j (Nat.le_succ_of_le less)).1⟩

theorem parentheses_overrun (frames : Nat) : Overruns frames (List.replicate (frames + 1) '(') := by
  have opened : ∀ j ≤ frames, (List.replicate (frames + 1) '(')[0 + j]? = some '(' := by
    intro j less
    rw [Nat.zero_add,List.getElem?_replicate_of_lt (Nat.lt_succ_of_le less)]
  have first : (List.replicate (frames + 1) '(')[0]? = some '(' := opened 0 (Nat.zero_le _)
  have gap : skipWs ⟨List.replicate (frames + 1) '(',0,{}⟩ = .ok ((),⟨List.replicate (frames + 1) '(',0,{}⟩) :=
    skipWs_stays first rfl (by decide)
  have keyword : sparqlKeyword ⟨List.replicate (frames + 1) '(',0,{}⟩ =
      .ok (false,⟨List.replicate (frames + 1) '(',0,{}⟩) :=
    (bind_ok (matchesKeywordCi_other first (by decide))).trans (matchesKeywordCi_other first (by decide))
  exact ⟨_,_,'(',.none,gap,first,by decide,keyword,.parenthesis gap first (parentheses_nest frames opened).1⟩

end Parentheses

section Totality

-- The Turtle parser returns exactly where its calls fit the stack; apart from that no input makes a parser
-- panic, stall or go on without end. A call that nests takes characters before it does, and no name is given
-- back as far as its colon.
theorem parsers_return_iff (frames : Nat) (input : List Char) :
    (Returns (parseTurtle frames input) ∧
      (∀ depth, Onward 1 depth (object depth) ∧ Bracketed depth (blankNodePropertyList depth) ∧
      Bracketed depth (collection depth)) ∧
      Ensures readPrefixedName (fun s t => ∃ start, LocalStart s start ∧ start ≤ t.pos) ∧
      ∀ line format, Returns (LineScan.parseStatement line format)) ↔ ¬Overruns frames input := by
  rw [parseTurtle_returns_iff]
  refine and_iff_left ⟨fun depth => ?_,fun s within => safe_localPart within,LineScan.parseStatement_returns⟩
  obtain ⟨objects,lists,collections,-⟩ := nested_safe depth
  exact ⟨objects,lists,collections⟩

-- A call takes at least the eight bytes of the address it returns to, so eight megabytes hold no more than
-- `2 ^ 20` of them.
theorem parentheses_never_return : ¬Returns (parseTurtle (2 ^ 20) (List.replicate (2 ^ 20 + 1) '(')) :=
  fun returns => (parseTurtle_returns_iff _ _).mp returns (parentheses_overrun _)

end Totality
end ArangoDataTools.TurtleScan
