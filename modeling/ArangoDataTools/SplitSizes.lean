import ArangoDataTools.SplitPartition

namespace ArangoDataTools.SplitSizes
open Interaction Interaction.Program DumpSnapshot SplitExport SplitPartition

-- The objects an export has put, and whether the store refused one.
structure Puts where
  objects : List (ObjectRef × Bytes) := []
  refused : Bool := false

def Puts.after (w : Puts) : (op : Op) → op.Answer → Puts
  | .putStream object body,.ok _ => {w with objects := w.objects ++ [(object,body)]}
  | .putStream object body,.error _ => {objects := w.objects ++ [(object,body)],refused := true}
  | _,_ => w

-- Any store: each operation is answered in any way.
def Logs : Answering Op Op.Answer Puts := fun op w answer w' => w' = w.after op answer

-- The puts of the parts, numbered from `cut` on.
def entries (codec : Codec) (store : Nat) (options : SplitOptions) : Nat → List Part → List (ObjectRef × Bytes)
  | _,[] => []
  | cut,part :: rest => (⟨store,partPath options (UInt32.ofNat cut)⟩,
      codec.encode options.compression part.payload) ::
      entries codec store options (cut+1) rest

variable {codec : Codec} {options : SplitOptions} {store : Nat} {reporting : Bool} {w w' : Puts}
  {kept : List Value} {cut : Nat}

theorem entries_append (parts more : List Part) : entries codec store options cut (parts ++ more) =
    entries codec store options cut parts ++ entries codec store options (cut + parts.length) more := by
  induction parts generalizing cut with
  | nil => rfl
  | cons part rest ih =>
    simp only [List.cons_append,entries,ih,List.length_cons]
    rw [Nat.add_assoc,Nat.add_comm 1]

section Runs

theorem put_logs {object : ObjectRef} {body : Bytes} {q : Tool Nat}
    (runs : Runs Logs (object.putStream body) w q w') :
    (w'.objects = w.objects ∨ w'.objects = w.objects ++ [(object,body)]) ∧
    (∀ size, q = done size → w'.objects = w.objects ++ [(object,body)] ∧ w'.refused = w.refused) ∧
    ∀ err, q = fail err → w'.refused = true := by
  cases runs with
  | here => exact ⟨.inl rfl,nofun,nofun⟩
  | call _ _ answer middle answered rest =>
    cases answered
    cases answer with
    | ok size =>
      obtain ⟨rfl,rfl⟩ := runs_done rest
      exact ⟨.inr rfl,fun _ _ => ⟨rfl,rfl⟩,nofun⟩
    | error err =>
      obtain ⟨rfl,rfl⟩ := runs_fail rest
      exact ⟨.inr rfl,nofun,fun _ _ => rfl⟩

theorem progress_logs {manifest : Manifest} {total : Nat} {q : Tool Nat}
    (runs : Runs Logs (emitPartProgress reporting manifest total) w q w') : w' = w ∧ ∀ err, q ≠ fail err := by
  unfold emitPartProgress at runs
  cases reporting with
  | true =>
    cases runs with
    | here => exact ⟨rfl,nofun⟩
    | call _ _ answer middle answered rest =>
      obtain ⟨rfl,rfl⟩ := runs_done rest
      exact ⟨answered,nofun⟩
  | false =>
    obtain ⟨rfl,rfl⟩ := runs_done runs
    exact ⟨rfl,nofun⟩

def entry (codec : Codec) (store : Nat) (options : SplitOptions) (s : Splitting) : ObjectRef × Bytes :=
  (⟨store,partPath options s.part⟩,codec.encode options.compression (s.buffer ++ s.framer.close))

theorem flush_logs {s : Splitting} {q : Tool Splitting}
    (runs : Runs Logs (flushPart codec store options reporting s) w q w') :
    (w'.objects = w.objects ∨ w'.objects = w.objects ++ [entry codec store options s]) ∧
    (∀ s', q = done s' → w'.objects = w.objects ++ [entry codec store options s] ∧ w'.refused = w.refused ∧
      s'.framer = s.framer ∧ s'.part = s.part) ∧
    ∀ err, q = fail err → w'.refused = true := by
  rcases runs_split runs with ⟨p,rfl,unfinished,inside⟩ | ⟨manifest,middle,written,runs₁⟩
  · rcases runs_split inside with ⟨p',rfl,open_,part⟩ | ⟨size,middle,sent,runs₂⟩
    · obtain ⟨logged,-,failed⟩ := put_logs part
      refine ⟨logged,fun s' absurd_ => ?_,fun err ends => ?_⟩
      · cases p' with
        | done value => exact absurd rfl (open_ value)
        | fail err => cases absurd_
        | call op next => cases absurd_
      · cases p' with
        | done value => exact absurd rfl (open_ value)
        | fail err => exact failed err rfl
        | call op next => cases ends
    · obtain ⟨rfl,rfl⟩ := runs_done runs₂
      exact absurd rfl (unfinished _)
  · obtain ⟨size,earlier,sent,runs₂⟩ := runs_bind_done written
    obtain ⟨same,rfl⟩ := runs_done runs₂
    cases same
    obtain ⟨-,logged,-⟩ := put_logs sent
    obtain ⟨put,accepted⟩ := logged size rfl
    rcases runs_split runs₁ with ⟨p,rfl,unfinished,inside⟩ | ⟨total,last,shown,runs₃⟩
    · obtain ⟨rfl,unfailing⟩ := progress_logs inside
      refine ⟨.inr put,fun s' absurd_ => ?_,fun err absurd_ => ?_⟩ <;> cases p with
        | done value => exact absurd rfl (unfinished value)
        | fail err => exact absurd rfl (unfailing err)
        | call op next => cases absurd_
    · obtain ⟨rfl,-⟩ := progress_logs shown
      obtain ⟨rfl,rfl⟩ := runs_done runs₃
      refine ⟨.inr put,fun s' same => ?_,nofun⟩
      cases same
      exact ⟨put,accepted,rfl,rfl⟩

theorem bind_going {α β : Type} {p : Tool α} {f : α → Tool β} (unfinished : ∀ value, p ≠ done value)
    (value : β) : p.bind f ≠ done value := by
  cases p with
  | done first => exact absurd rfl (unfinished first)
  | fail err => nofun
  | call op next => nofun

theorem bind_failing {α β : Type} {p : Tool α} {f : α → Tool β} {err : Error}
    (unfinished : ∀ value, p ≠ done value)
    (ends : p.bind f = fail err) : p = fail err := by
  cases p with
  | done first => exact absurd rfl (unfinished first)
  | fail other =>
    cases ends
    rfl
  | call op next => cases ends

-- Where the loop stands: the parts put so far, those to come and, once it is through, the
-- documents of the part at hand.
structure Looped (codec : Codec) (store : Nat) (options : SplitOptions) (cut : Nat)
    (parts : List Part) (w : Puts) (q : Tool Splitting)
    (w' : Puts) : Prop where
  split : ∃ front rest, parts = front ++ rest ∧
    w'.objects = w.objects ++ entries codec store options cut front ∧
    (∀ s', q = done s' → w'.refused = w.refused ∧ s'.part = UInt32.ofNat (cut + front.length) ∧
      ∃ kept : List Value, kept.length = s'.recordsInPart ∧
      rest = cutting options [] s'.framer s'.buffer kept (cut + front.length)) ∧
    ∀ err, q = fail err → w'.refused = false → rest = []

theorem looped_still {parts : List Part} {q : Tool Splitting} (unfinished : ∀ s', q ≠ done s')
    (stopped : ∀ err, q = fail err → w.refused = false → parts = []) :
    Looped codec store options cut parts w q w :=
  ⟨[],parts,rfl,by simp [entries],fun s' ends => absurd ends (unfinished s'),stopped⟩

theorem documents_logs {documents : List (Except Error Value)} {s : Splitting} {q : Tool Splitting}
    (numbered : s.part = UInt32.ofNat cut) (counted : kept.length = s.recordsInPart)
    (runs : Runs Logs (splitDocuments codec store options reporting documents s) w q w') :
    Looped codec store options cut (cutting options documents s.framer s.buffer kept cut) w q w' := by
  induction documents generalizing s w cut kept with
  | nil =>
    obtain ⟨rfl,rfl⟩ := runs_done runs
    refine ⟨[],_,rfl,by simp [entries],fun s' ends => ?_,nofun⟩
    cases ends
    exact ⟨rfl,numbered,kept,counted,rfl⟩
  | cons item rest ih => cases item with
    | error err =>
      obtain ⟨rfl,rfl⟩ := runs_fail runs
      exact looped_still nofun fun _ _ _ => rfl
    | ok document =>
      unfold splitDocuments at runs
      rw [cutting]
      simp only [lift,done_bind] at runs
      cases recorded : s.framer.record options.encoder document with
      | error err =>
        rw [recorded] at runs
        obtain ⟨rfl,rfl⟩ := runs_fail runs
        exact looped_still nofun fun _ _ _ => rfl
      | ok result =>
        obtain ⟨chunk,framer⟩ := result
        simp only [recorded,done_bind] at runs ⊢
        have more : (kept ++ [document]).length = s.recordsInPart + 1 := by
          rw [List.length_append,List.length_singleton,counted]
        by_cases full : (s.buffer ++ chunk).length ≥ threshold options
        · simp only [if_pos full] at runs ⊢
          rcases runs_split runs with ⟨p,stopped,unfinished,inside⟩ | ⟨s₁,middle,flushed,runs₁⟩
          · obtain ⟨logged,-,failed⟩ := flush_logs inside
            have going : ∀ s', q ≠ done s' := fun s' ends => bind_going unfinished s' (stopped.symm.trans ends)
            have refusals : ∀ err, q = fail err → w'.refused = true := fun err ends =>
              failed err (bind_failing unfinished (stopped.symm.trans ends))
            rcases logged with same | same
            · refine ⟨[],_,rfl,by rw [same]; simp [entries],fun s' ends => absurd ends (going s'),
                fun err ends accepted => ?_⟩
              rw [refusals err ends] at accepted
              cases accepted
            · refine ⟨[_],_,rfl,?_,fun s' ends => absurd ends (going s'),fun err ends accepted => ?_⟩
              · rw [same,entry,numbered]
                rfl
              · rw [refusals err ends] at accepted
                cases accepted
          · obtain ⟨-,logged,-⟩ := flush_logs flushed
            obtain ⟨put,accepted,framer_,part⟩ := logged s₁ rfl
            have first : middle.objects = w.objects ++ entries codec store options cut
                [⟨kept ++ [document],s.buffer ++ chunk ++ framer.close⟩] := by
              rw [put,entry,numbered]
              rfl
            rw [framer_] at runs₁
            cases reopened : framer.open options.encoder with
            | error err =>
              rw [reopened] at runs₁
              obtain ⟨rfl,rfl⟩ := runs_fail runs₁
              exact ⟨[_],[],rfl,first,nofun,fun _ _ _ => rfl⟩
            | ok result =>
              obtain ⟨opened,next⟩ := result
              simp only [reopened,done_bind] at runs₁
              have following : s₁.part + 1 = UInt32.ofNat (cut+1) := by
                rw [part,numbered]
                apply UInt32.toNat_inj.mp
                simp
              obtain ⟨front,later,split,objects,returned,stopped⟩ := @ih middle [] (cut+1) _ following rfl runs₁
              refine ⟨_ :: front,later,congrArg _ split,?_,fun s' ends => ?_,stopped⟩
              · rw [objects,first,List.append_assoc]
                rfl
              · obtain ⟨still,reached,kept',counted',tail⟩ := returned s' ends
                have place : cut + 1 + front.length = cut + (front.length + 1) := by omega
                rw [place] at reached tail
                exact ⟨still.trans accepted,reached,kept',counted',tail⟩
        · simp only [if_neg full] at runs ⊢
          exact @ih w (kept ++ [document]) cut {s with framer := framer,buffer := s.buffer ++ chunk,recordsInPart := s.recordsInPart + 1}
            numbered more runs

theorem tail_parts (options : SplitOptions) (framer : PartFramer) (buffer : Bytes)
    (kept : List Value) (cut : Nat) :
    cutting options [] framer buffer kept cut =
      if kept ≠ [] ∨ cut % 2^32 = 0 then [⟨kept,buffer ++ framer.close⟩] else [] := rfl

-- The puts of an export: some of its parts in order and, after all of them, the manifest.
def Wrote (codec : Codec) (store : Nat) (options : SplitOptions) (parts : List Part)
    (objects : List (ObjectRef × Bytes)) : Prop :=
  objects = entries codec store options 0 parts ∨
    ∃ body, objects = entries codec store options 0 parts ++ [(⟨store,manifestPath options⟩,body)]

theorem wrote_parts {parts : List Part} {objects : List (ObjectRef × Bytes)}
    (put : objects = entries codec store options 0 parts) :
    Wrote codec store options parts objects := .inl put

theorem manifest_logs {parts : List Part} {manifest : Manifest} {q : Tool Manifest} {body : Bytes}
    (put : w.objects = entries codec store options 0 parts)
    (runs : Runs Logs (((⟨store,manifestPath options⟩ : ObjectRef).putStream body).bind fun _ =>
    done manifest) w q w') :
    Wrote codec store options parts w'.objects := by
  rcases runs_split runs with ⟨p,-,-,inside⟩ | ⟨size,middle,sent,runs₁⟩
  · rcases (put_logs inside).1 with same | same
    · exact wrote_parts (same.trans put)
    · exact .inr ⟨body,by rw [same,put]⟩
  · obtain ⟨-,rfl⟩ := runs_done runs₁
    exact .inr ⟨body,by rw [((put_logs sent).2.1 size rfl).1,put]⟩

theorem tail_logs {s : Splitting} {front rest : List Part} {q : Tool Manifest}
    (put : w.objects = entries codec store options 0 front) (part : s.part = UInt32.ofNat front.length)
    (counted : kept.length = s.recordsInPart)
      (tail : rest = cutting options [] s.framer s.buffer kept front.length)
    (runs : Runs Logs ((if s.recordsInPart > 0 ∨ s.part = 0 then
      flushPart codec store options reporting s else done s).bind fun s =>
      ((⟨store,manifestPath options⟩ : ObjectRef).putStream (codec.manifestToJson s.manifest)).bind
        fun _ => done s.manifest) w q w') :
    ∃ more left, rest = more ++ left ∧ Wrote codec store options (front ++ more) w'.objects ∧
      ((∃ manifest, q = done manifest) ∨ (∃ err, q = fail err) → w'.refused = false → left = []) := by
  have condition : s.recordsInPart > 0 ∨ s.part = 0 ↔ kept ≠ [] ∨ front.length % 2^32 = 0 := by
    rw [part,SplitParts.part_zero,← counted,← List.length_pos_iff]
  have pushed : entries codec store options 0 front ++ [entry codec store options s] =
      entries codec store options 0 (front ++ [⟨kept,s.buffer ++ s.framer.close⟩]) := by
    rw [entries_append,Nat.zero_add,entry,part]
    rfl
  rw [tail_parts] at tail
  by_cases more : s.recordsInPart > 0 ∨ s.part = 0
  · rw [if_pos more] at runs
    rw [if_pos (condition.mp more)] at tail
    rcases runs_split runs with ⟨p,stopped,unfinished,inside⟩ | ⟨s₁,middle,flushed,runs₁⟩
    · obtain ⟨logged,-,failed⟩ := flush_logs inside
      have ended : (∃ manifest, q = done manifest) ∨ (∃ err, q = fail err) → w'.refused = true := by
        rintro (⟨manifest,ends⟩ | ⟨err,ends⟩)
        · exact absurd (stopped.symm.trans ends) (bind_going unfinished manifest)
        · exact failed err (bind_failing unfinished (stopped.symm.trans ends))
      rcases logged with same | same
      · refine ⟨[],rest,rfl,wrote_parts (by rw [same,put,List.append_nil]),fun finished accepted => ?_⟩
        rw [ended finished] at accepted
        cases accepted
      · exact ⟨rest,[],(List.append_nil _).symm,wrote_parts (by rw [same,put,pushed,tail]),fun _ _ => rfl⟩
    · obtain ⟨same,-⟩ := (flush_logs flushed).2.1 s₁ rfl
      refine ⟨rest,[],(List.append_nil _).symm,manifest_logs ?_ runs₁,fun _ _ => rfl⟩
      rw [same,put,pushed,tail]
  · rw [if_neg more,done_bind] at runs
    rw [if_neg (condition.not.mp more)] at tail
    exact ⟨[],[],tail,manifest_logs (by rw [put,List.append_nil]) runs,fun _ _ => rfl⟩

theorem export_logs {documents : List (Except Error Value)} {q : Tool Manifest}
    (runs : Runs Logs (runSplitExportWithProgress codec documents store options reporting) {} q w') :
    ∃ front rest, written options documents = front ++ rest ∧ Wrote codec store options front w'.objects ∧
      ((∃ manifest, q = done manifest) ∨ (∃ err, q = fail err) → w'.refused = false → rest = []) := by
  unfold runSplitExportWithProgress at runs
  unfold written
  cases built : PartFramer.new options.format options.fields with
  | error err =>
    rw [built] at runs
    obtain ⟨rfl,rfl⟩ := runs_fail runs
    exact ⟨[],[],rfl,.inl rfl,fun _ _ => rfl⟩
  | ok framer =>
    simp only [built,lift,done_bind] at runs ⊢
    cases begun : framer.open options.encoder with
    | error err =>
      rw [begun] at runs
      obtain ⟨rfl,rfl⟩ := runs_fail runs
      exact ⟨[],[],rfl,.inl rfl,fun _ _ => rfl⟩
    | ok result =>
      obtain ⟨opened,next⟩ := result
      simp only [begun,done_bind] at runs ⊢
      rcases runs_split runs with ⟨p,stopped,unfinished,inside⟩ | ⟨s,middle,looped,runs₁⟩
      · have reached : Looped codec store options 0 (cutting options documents next opened [] 0)
            {} p w' := documents_logs rfl rfl inside
        obtain ⟨front,rest,split,objects,-,failed⟩ := reached
        refine ⟨front,rest,split,wrote_parts (by simpa using objects),?_⟩
        rintro (⟨manifest,ends⟩ | ⟨err,ends⟩)
        · exact absurd (stopped.symm.trans ends) (bind_going unfinished manifest)
        · exact failed err (bind_failing unfinished (stopped.symm.trans ends))
      · have through : Looped codec store options 0 (cutting options documents next opened [] 0) {}
            (done s) middle :=
          documents_logs rfl rfl looped
        obtain ⟨front,rest,split,objects,returned,-⟩ := through
        obtain ⟨-,part,kept,counted,tail⟩ := returned s rfl
        rw [Nat.zero_add] at part tail
        obtain ⟨more,left,whole,put,ended⟩ := tail_logs (by simpa using objects) part counted tail runs₁
        exact ⟨front ++ more,left,by rw [split,whole,List.append_assoc],put,ended⟩

def accepted : (op : Op) → op.Answer
  | .putStream _ body => .ok body.length
  | op => op.refuse

theorem accepted_kept (op : Op) (w : Puts) : (w.after op (accepted op)).refused = w.refused := by
  cases op <;> rfl

theorem run_ends {α : Type} (p : Tool α) (w : Puts) : ∃ result w', Runs Logs p w (lift result) w' ∧
    w'.refused = w.refused := by
  induction p generalizing w with
  | done value => exact ⟨.ok value,w,.here _ _,rfl⟩
  | fail err => exact ⟨.error err,w,.here _ _,rfl⟩
  | call op next ih =>
    obtain ⟨result,w',rest,kept⟩ := ih (accepted op) (w.after op (accepted op))
    exact ⟨result,w',.call op next (accepted op) _ rfl rest,kept.trans (accepted_kept op w)⟩

theorem export_writes (codec : Codec) (documents : List (Except Error Value)) (store : Nat)
    (options : SplitOptions) (reporting : Bool) :
    ∃ q w', Runs Logs (runSplitExportWithProgress codec documents store options reporting) {} q w' ∧
      Wrote codec store options (written options documents) w'.objects := by
  obtain ⟨result,w',runs,kept⟩ :=
    run_ends (runSplitExportWithProgress codec documents store options reporting) {}
  obtain ⟨front,rest,split,put,ended⟩ := export_logs runs
  have finished : (∃ manifest, lift result = (done manifest : Tool Manifest)) ∨ ∃ err,
      lift result = (fail err : Tool Manifest) := by
    cases result with
    | ok manifest => exact .inl ⟨manifest,rfl⟩
    | error err => exact .inr ⟨err,rfl⟩
  obtain rfl := ended finished kept
  rw [List.append_nil] at split
  exact ⟨_,w',runs,split ▸ put⟩

end Runs
section Sizes

variable {framer next : PartFramer} {buffer bytes : Bytes} {document : Value}

structure Full (options : SplitOptions) (documents : List Value) (bytes : Bytes) : Prop where
  holds : ∃ framer, Holds options documents bytes framer
  reached : threshold options ≤ bytes.length
  early : Early options documents
  some_ : documents ≠ []

-- Where the documents begin with groups that each reach the threshold with their last
-- document, a group of several comes to the limit exactly and has no closing bytes.
def Snug (options : SplitOptions) (documents : List (Except Error Value)) : Prop :=
  ∀ (framer : PartFramer) (groups : List (List Value)) (group : List Value) (bytes : Bytes)
    (rest : List (Except Error Value)),
    PartFramer.new options.format options.fields = .ok framer →
    documents = (groups.flatten ++ group).map .ok ++ rest →
    (∀ other ∈ groups, ∃ bytes, Full options other bytes) → Full options group bytes → 2 ≤ group.length →
    bytes.length = options.maxPartBytes ∧ options.format ≠ .jsonArray

theorem full_opened (full : Full options kept bytes) : ∃ opened next,
    (freshFramer options).open options.encoder = .ok (opened,next) := by
  obtain ⟨framer,holds⟩ := full.holds
  obtain ⟨opened,next,start,-⟩ := @unclosed_shorter _ _ _ [] _ kept holds
  generalize none_ : ([] : List Value) = documents at start
  cases start with
  | opened begun => exact ⟨_,_,begun⟩
  | recorded => simp at none_

theorem full_cut {more : List Value} (rest : List (Except Error Value))
    (holding : Holding options framer buffer kept) (some_ : more ≠ [])
    (full : Full options (kept ++ more) bytes) :
    ∃ last, Holds options (kept ++ more) bytes last ∧
    cutting options (more.map .ok ++ rest) framer buffer kept cut =
      ⟨kept ++ more,bytes ++ last.close⟩ :: match last.open options.encoder with
        | .error _ => []
        | .ok (opened,next) => cutting options rest next opened [] (cut+1) := by
  induction more generalizing framer buffer kept with
  | nil => exact absurd rfl some_
  | cons document tail ih =>
    obtain ⟨last,holds⟩ := full.holds
    rw [List.append_cons] at holds full ⊢
    obtain ⟨shorter,earlier,start,-⟩ := unclosed_shorter holds
    obtain ⟨before,framer',chunk,opened,recorded,rfl⟩ := unclosed_before start
    obtain ⟨rfl,rfl⟩ := unclosed_unique opened holding.holds
    rw [List.map_cons,List.cons_append,cutting]
    simp only [recorded]
    cases tail with
    | nil =>
      rw [List.append_nil] at holds full ⊢
      obtain ⟨rfl,rfl⟩ := unclosed_unique start holds
      exact ⟨earlier,start,by rw [if_pos full.reached]; rfl⟩
    | cons second tail =>
      have few : (before ++ chunk).length < threshold options := by
        obtain ⟨front,final,split⟩ : ∃ front final, second :: tail = front ++ [final] :=
          ⟨_,_,(List.dropLast_append_getLast (List.cons_ne_nil second tail)).symm⟩
        obtain ⟨bytes',framer'',holds',less⟩ :=
          full.early (kept ++ [document] ++ front) final (by simp only [split,List.append_assoc]) (by simp)
        obtain ⟨shorter,_,start',fewer⟩ := unclosed_shorter holds'
        obtain ⟨rfl,-⟩ := unclosed_unique start start'
        exact fewer.trans_lt less
      rw [if_neg (Nat.not_le.mpr few)]
      exact ih ⟨start,fun _ => few⟩ (List.cons_ne_nil _ _) full

theorem groups_cut {groups : List (List Value)} {group : List Value} (rest : List (Except Error Value))
    (holding : Holding options framer buffer []) (groups_ : ∀ other ∈ groups, ∃ bytes, Full options other bytes)
    (full : Full options group bytes) :
    ∃ last, Holds options group bytes last ∧
      ⟨group,bytes ++ last.close⟩ ∈ cutting options
        ((groups.flatten ++ group).map .ok ++ rest) framer buffer [] cut := by
  induction groups generalizing framer buffer cut with
  | nil =>
    obtain ⟨last,holds,cuts⟩ := @full_cut options [] cut framer buffer bytes group rest holding full.some_ full
    rw [List.nil_append] at holds cuts
    exact ⟨last,holds,by rw [List.flatten_nil,List.nil_append,cuts]; exact List.mem_cons_self⟩
  | cons first groups ih =>
    obtain ⟨⟨size,whole⟩,others⟩ := List.forall_mem_cons.mp groups_
    obtain ⟨last,holds,cuts⟩ :=
      @full_cut options [] cut framer buffer size first ((groups.flatten ++ group).map .ok ++ rest) holding
      whole.some_ whole
    rw [List.nil_append] at holds cuts
    obtain ⟨opened,next,begun⟩ := full_opened full
    have again : last.open options.encoder = .ok (opened,next) := (reopen_same holds).trans begun
    obtain ⟨final,ends,member⟩ := @ih (cut+1) next opened ⟨.opened begun,fun some_ => absurd rfl some_⟩ others
    refine ⟨final,ends,?_⟩
    rw [List.flatten_cons,List.append_assoc,List.map_append,List.append_assoc,cuts,again]
    exact List.mem_cons_of_mem _ member

-- How a part came about: groups and this group before the rest, or what was left at the end.
inductive Placed (options : SplitOptions) (documents : List (Except Error Value)) (part : Part) : Prop where
  | group {bytes : Bytes} {groups : List (List Value)} {rest : List (Except Error Value)} {last : PartFramer} :
      documents = (groups.flatten ++ part.documents).map .ok ++ rest →
      (∀ other ∈ groups, ∃ bytes, Full options other bytes) →
      Full options part.documents bytes → Holds options part.documents bytes last →
      part.payload = bytes ++ last.close →
      Placed options documents part
  | left {bytes : Bytes} {last : PartFramer} : Holds options part.documents bytes last →
      part.payload = bytes ++ last.close →
      (part.documents ≠ [] → bytes.length < threshold options) → Placed options documents part

theorem placed_later {group : List Value} {documents : List (Except Error Value)} {part : Part}
    (full : Full options group bytes)
    (placed : Placed options documents part) : Placed options (group.map .ok ++ documents) part := by
  cases placed with
  | @group bytes groups rest last split groups_ here holds payload =>
    have whole : group.map .ok ++ documents =
        ((group :: groups).flatten ++ part.documents).map .ok ++ rest := by
      rw [split]
      simp
    exact .group whole (List.forall_mem_cons.mpr ⟨⟨_,full⟩,groups_⟩) here holds payload
  | left holds payload short => exact .left holds payload short

theorem cutting_placed (documents : List (Except Error Value)) (holding : Holding options framer buffer kept) :
    ∀ part ∈ cutting options documents framer buffer kept cut,
    Placed options (kept.map .ok ++ documents) part := by
  induction documents generalizing framer buffer kept cut with
  | nil =>
    rw [cutting]
    split_ifs with more
    · intro part member
      rw [List.mem_singleton.mp member]
      exact .left holding.holds rfl holding.short
    · exact List.forall_mem_nil _
  | cons item rest ih => cases item with
    | error err => exact List.forall_mem_nil _
    | ok document =>
      rcases cutting_cons options document rest framer buffer kept cut
        with ⟨err,-,none_⟩ | ⟨chunk,next,recorded,full,ends⟩ |
        ⟨chunk,next,recorded,few,more⟩
      · rw [none_]
        exact List.forall_mem_nil _
      · have holds : Holds options (kept ++ [document]) (buffer ++ chunk) next :=
          .recorded holding.holds recorded
        have whole : Full options (kept ++ [document]) (buffer ++ chunk) :=
          ⟨⟨next,holds⟩,full,filled_early holding document,by simp⟩
        have first : kept.map .ok ++ .ok document :: rest =
            ([].flatten ++ (kept ++ [document])).map .ok ++ rest := by simp
        have here : Placed options (kept.map .ok ++ .ok document :: rest)
            ⟨kept ++ [document],buffer ++ chunk ++ next.close⟩ :=
          .group first (List.forall_mem_nil _) whole holds rfl
        rcases ends with ⟨err,-,single⟩ | ⟨opened,reopened,again,more⟩
        · rw [single]
          exact fun part member => List.mem_singleton.mp member ▸ here
        · rw [more]
          refine List.forall_mem_cons.mpr ⟨here,fun part member => ?_⟩
          have later := placed_later whole
              (@ih [] (cut+1) reopened opened (reopened_holding holding recorded again) part member)
          simpa using later
      · rw [more]
        intro part member
        have later := ih (added_holding holding recorded few) part member
        simpa using later

theorem array_begun {last : PartFramer} (holds : Holds options kept bytes last)
    (array : options.format = .jsonArray) : 1 ≤ bytes.length := by
  obtain ⟨-,body,-,rfl⟩ := unclosed_elements holds array
  simp [asciiBytes]

theorem close_length {last : PartFramer} (holds : Holds options kept bytes last) :
    last.close.length = if options.format = .jsonArray then 1 else 0 := by
  have format : last.format = options.format := (unclosed_kept holds).1
  rw [PartFramer.close,format]
  cases options.format <;> rfl

-- An export puts its parts; those with several documents are as small as asked for when
-- each of them is as large as that.
theorem parts_sized_iff (codec : Codec) (documents : List (Except Error Value)) (store : Nat)
    (options : SplitOptions) (reporting : Bool) :
    (∀ q w', Runs Logs (runSplitExportWithProgress codec documents store options reporting) {} q w' →
      ∃ front rest, written options documents = front ++ rest ∧ Wrote codec store options front w'.objects) ∧
    (∃ q w', Runs Logs (runSplitExportWithProgress codec documents store options reporting) {} q w' ∧
      Wrote codec store options (written options documents) w'.objects) ∧
    ((∀ part ∈ written options documents, 2 ≤ part.documents.length →
      part.payload.length ≤ options.maxPartBytes) ↔
      Snug options documents) := by
  refine ⟨fun q w' runs => ?_,export_writes codec documents store options reporting,?_,?_⟩
  · obtain ⟨front,rest,split,put,-⟩ := export_logs runs
    exact ⟨front,rest,split,put⟩
  · intro sized framer groups group bytes rest built split groups_ full several
    obtain ⟨rfl,-⟩ := new_framer built
    obtain ⟨opened,next,begun⟩ := full_opened full
    obtain ⟨last,holds,member⟩ := @groups_cut options 0 next opened bytes groups group rest
        ⟨.opened begun,fun some_ => absurd rfl some_⟩
      groups_ full
    have here : ⟨group,bytes ++ last.close⟩ ∈ written options documents := by
      unfold written
      simp only [built,show PartFramer.open options.encoder
        {format := options.format,fields := options.fields} = _ from begun]
      rw [split]
      exact member
    have bound := sized _ here several
    rw [List.length_append,close_length holds] at bound
    have reached := full.reached
    unfold threshold at reached
    split_ifs at bound with array
    · omega
    · exact ⟨by omega,array⟩
  · intro snug part member several
    unfold written at member
    cases built : PartFramer.new options.format options.fields with
    | error err =>
      rw [built] at member
      cases member
    | ok framer =>
      obtain ⟨rfl,-⟩ := new_framer built
      rw [built] at member
      cases begun : PartFramer.open options.encoder {format := options.format,fields := options.fields} with
      | error err =>
        simp only [begun] at member
        cases member
      | ok result =>
        simp only [begun] at member
        have placed := cutting_placed documents ⟨.opened begun,fun some_ => absurd rfl some_⟩ part member
        rw [List.map_nil,List.nil_append] at placed
        cases placed with
        | group split groups_ full holds payload =>
          obtain ⟨size,other⟩ := snug _ _ _ _ _ built split groups_ full several
          rw [payload,List.length_append,close_length holds,if_neg other,size]
          exact Nat.le_refl _
        | left holds payload short =>
          have few := short (List.ne_nil_of_length_pos (by omega))
          unfold threshold at few
          rw [payload,List.length_append,close_length holds]
          split_ifs with array
          · have begun := array_begun holds array
            omega
          · omega

-- Two lines of five bytes under a limit of six.
theorem two_nulls_oversized :
    (∃ q w', Runs Logs (runSplitExport ManifestExactness.exportCodec [.ok .null,.ok .null] 0
        {ManifestExactness.nullOptions with maxPartBytes := 6}) {} q w' ∧
      Wrote ManifestExactness.exportCodec 0 {ManifestExactness.nullOptions with maxPartBytes := 6}
        (written {ManifestExactness.nullOptions with maxPartBytes := 6} [.ok .null,.ok .null]) w'.objects) ∧
    written {ManifestExactness.nullOptions with maxPartBytes := 6} [.ok .null,.ok .null] =
      [⟨[.null,.null],asciiBytes "null\nnull\n"⟩] ∧ (asciiBytes "null\nnull\n").length = 10 :=
  ⟨export_writes _ _ _ _ _,rfl,rfl⟩

end Sizes
end ArangoDataTools.SplitSizes
