import ArangoDataTools.CursorExactness
import ArangoDataTools.Dump

namespace ArangoDataTools.DumpPaging
open Interaction Interaction.Program Dump CursorExactness

structure Page where
  body : Bytes
  lastTick : UInt64

-- The pages a server holds of a collection.
structure Paged where
  pages : List Page
  positive : ∀ page ∈ pages, page.lastTick ≠ 0
  increasing : pages.Pairwise fun one two => one.lastTick < two.lastTick

def beyond (tick : UInt64) (pages : List Page) : List Page := pages.dropWhile fun page => page.lastTick ≤ tick

def firstChunk : List Page → DumpChunk
  | [] => {body := [],lastIncludedTick := 0,hasMore := false}
  | page :: rest => {body := page.body,lastIncludedTick := page.lastTick,hasMore := !rest.isEmpty}

variable (collections : String → Paged) (fates : Nat → Fate)

def answer : (request : Request) → Except Error request.Response
  | .replicationDumpChunk collection _ fromTick _ =>
      .ok (firstChunk (beyond fromTick (collections collection).pages))
  | request => Op.refuse (.send "" request)

-- The world is the number of attempts made: a request for data changes nothing
-- on the server, so a lost response is like a lost request.
def serving : Handler Op Op.Answer Nat
  | .send _ request, attempts => (if fates attempts = .delivered then answer collections request
      else .error lost,attempts+1)
  | op, attempts => (op.refuse,attempts)

-- The schedule lets that many calls in a row through, each with `left` attempts
-- to spare.
def absorbs (left : Nat) : Nat → Nat → Bool
  | 0, _ => true
  | calls+1, start => match answered fates left start with
    | none => false
    | some reply => absorbs left calls reply.2

-- What a stream yields of the pages: every body but the empty ones.
def bodies (pages : List Page) : List Bytes := (pages.map Page.body).filter fun body => !body.isEmpty

section Calls
variable {collections fates}

theorem count_quiet (counter : Counter) (attempts : Nat) :
    run (ε:=Error) (serving collections fates) (ask (.count counter)) attempts = (.ok (),attempts) := rfl

theorem retryLoop_run {request : Request} {value : request.Response}
    (accepted : answer collections request = .ok value)
    (policy : RetryPolicy) (database : String) (left start : Nat) :
    run (serving collections fates)
      (retryLoop policy (fun counter => ask (.count counter)) (ask (.send database request)) left)
      start = match answered fates left start with
        | some reply => (.ok value,reply.2)
        | none => (.error lost,start+left+1) := by
  have sent : ∀ start, run (ε:=Error) (serving collections fates) (ask (.send database request)) start =
      (.ok (if fates start = .delivered then .ok value else .error lost),start+1) := by
    intro start
    unfold ask
    rw [run_perform]
    simp only [serving,accepted]
  induction left generalizing start with
  | zero =>
    have first := sent start
    by_cases through : fates start = .delivered
    · rw [if_pos through] at first
      simp [retryLoop_ok first,answered,through]
    · rw [if_neg through] at first
      simp [retryLoop_last count_quiet first,answered,through]
  | succ left ih =>
    have first := sent start
    have later := ih (start+1)
    cases fate : fates start with
    | delivered =>
      rw [if_pos fate] at first
      simp [retryLoop_ok first,answered,fate]
    | lostRequest =>
      rw [if_neg (by simp [fate])] at first
      rw [retryLoop_again count_quiet first rfl,later]
      simp only [answered,fate]
      cases answered fates left (start+1) with
      | none => simp only [Prod.mk.injEq,true_and]; omega
      | some reply => rfl
    | lostResponse =>
      rw [if_neg (by simp [fate])] at first
      rw [retryLoop_again count_quiet first rfl,later]
      simp only [answered,fate]
      cases answered fates left (start+1) with
      | none => simp only [Option.map_none,Prod.mk.injEq,true_and]; omega
      | some reply => rfl

theorem answered_bound {left start : Nat} {reply : Nat × Nat}
    (reached : answered fates left start = some reply) :
    reply.2 ≤ start+left+1 := by
  induction left generalizing start reply with
  | zero =>
    unfold answered at reached
    split at reached
    · cases reached; omega
    · cases reached
  | succ left ih =>
    unfold answered at reached
    cases fate : fates start with
    | delivered => rw [fate] at reached; cases reached; omega
    | lostRequest =>
      rw [fate] at reached
      have bound := ih reached
      omega
    | lostResponse =>
      rw [fate] at reached
      obtain ⟨inner,found,rfl⟩ := Option.map_eq_some_iff.mp reached
      have bound := ih found
      simp only
      omega

end Calls

section Pages

theorem beyond_next {pages rest : List Page} {page : Page} {tick : UInt64}
    (increasing : pages.Pairwise fun one two => one.lastTick < two.lastTick)
      (left : beyond tick pages = page :: rest) :
    tick < page.lastTick ∧ beyond page.lastTick pages = rest := by
  induction pages with
  | nil => cases left
  | cons head tail ih =>
    obtain ⟨below,increasing⟩ := List.pairwise_cons.mp increasing
    unfold beyond at left
    rw [List.dropWhile_cons] at left
    split at left
    · rename_i passed
      obtain ⟨grows,after⟩ := ih increasing left
      refine ⟨grows,?_⟩
      have passed' : head.lastTick ≤ page.lastTick :=
        UInt64.le_trans (of_decide_eq_true passed) (UInt64.le_of_lt grows)
      unfold beyond
      rw [List.dropWhile_cons,if_pos (decide_eq_true passed')]
      exact after
    · rename_i reached
      cases left
      have grows : tick < page.lastTick := UInt64.not_le.mp fun below => reached (decide_eq_true below)
      refine ⟨grows,?_⟩
      unfold beyond
      rw [List.dropWhile_cons,if_pos (decide_eq_true (UInt64.le_refl _))]
      cases rest with
      | nil => rfl
      | cons next rest =>
        rw [List.dropWhile_cons,if_neg]
        have next_ := below next List.mem_cons_self
        intro passed
        exact absurd next_ (UInt64.not_lt.mpr (of_decide_eq_true passed))

theorem beyond_mem {pages : List Page} {page : Page} {tick : UInt64}
    (left : page ∈ beyond tick pages) : page ∈ pages :=
  (List.dropWhile_suffix _).subset left

theorem beyond_zero (paged : Paged) : beyond 0 paged.pages = paged.pages := by
  unfold beyond
  cases held : paged.pages with
  | nil => rfl
  | cons page rest =>
    rw [List.dropWhile_cons,if_neg]
    intro low
    apply paged.positive page (by simp [held])
    have none_ : page.lastTick ≤ 0 := of_decide_eq_true low
    exact UInt64.le_antisymm none_ (UInt64.zero_le)

end Pages

section Stream
variable {collections fates}

-- The calls it takes to read the pages: one for each, and one where there is none.
def calls (pages : List Page) : Nat := max 1 pages.length

def kept (body : Bytes) : List Bytes := if body.isEmpty then [] else [body]

theorem keep_eq (read : List Bytes) (body : Bytes) :
    (if body.isEmpty then read else read ++ [body]) = read ++ kept body := by
  unfold kept
  split <;> simp

theorem bodies_cons (page : Page) (rest : List Page) : bodies (page :: rest) = kept page.body ++
    bodies rest := by
  unfold bodies kept
  cases empty : page.body.isEmpty <;> simp [empty]

theorem bodies_flatten (pages : List Page) : (bodies pages).flatten = pages.flatMap Page.body := by
  induction pages with
  | nil => rfl
  | cons page rest ih =>
    rw [bodies_cons,List.flatten_append,ih,List.flatMap_cons]
    unfold kept
    split
    · rename_i empty
      simp [List.isEmpty_iff.mp empty]
    · simp

-- What a stream that has `rest` left to read yields under a schedule.
structure Yields (fates : Nat → Fate) (spare start : Nat) (rest : List Page) (yielded : List Bytes)
    (ending : Option Error)
    (next : Nat) : Prop where
  bounded : next ≤ start + (spare+1) * calls rest
  absorbed : ending = none ↔ absorbs fates spare (calls rest) start = true
  whole : ending = none → yielded = bodies rest
  part : yielded <+: bodies rest

theorem yields_lost {spare start : Nat} (rest : List Page) (unanswered : answered fates spare start = none) :
    Yields fates spare start rest [] (some lost) (start+spare+1) := by
  have one : 1 ≤ calls rest := le_max_left _ _
  obtain ⟨others,count⟩ := Nat.exists_eq_add_of_le one
  refine ⟨?_,?_,by simp,List.nil_prefix⟩
  · have more := Nat.mul_le_mul_left (spare+1) one
    omega
  · rw [count,Nat.add_comm]
    simp [absorbs,unanswered]

theorem yields_last {spare start : Nat} {reply : Nat × Nat} {rest : List Page} (few : rest.length ≤ 1)
    (reached : answered fates spare start = some reply) :
    Yields fates spare start rest (bodies rest) none reply.2 := by
  have one : calls rest = 1 := by unfold calls; omega
  have bound := answered_bound reached
  refine ⟨?_,?_,fun _ => rfl,List.prefix_refl _⟩
  · rw [one]
    omega
  · simp [one,absorbs,reached]

theorem yields_more {spare start next : Nat} {reply : Nat × Nat} {page : Page} {rest : List Page}
    (some_ : rest ≠ [])
    (reached : answered fates spare start = some reply)
      (yields : Yields fates spare reply.2 rest yielded ending next) :
    Yields fates spare start (page :: rest) (kept page.body ++ yielded) ending next := by
  have counted : calls (page :: rest) = calls rest + 1 := by
    have filled := List.length_pos_iff.mpr some_
    simp only [calls,List.length_cons]
    omega
  have bound := answered_bound reached
  have later := yields.bounded
  refine ⟨?_,?_,?_,?_⟩
  · rw [counted,Nat.mul_add]
    omega
  · rw [counted,yields.absorbed]
    simp [absorbs,reached]
  · intro clean
    rw [yields.whole clean,bodies_cons]
  · rw [bodies_cons]
    exact (List.prefix_append_right_inj _).mpr yields.part

theorem fetch_run (client : Client) (name batch : String) (size : Nat) (tick : UInt64) (start : Nat) :
    run (serving collections fates) (attempt (client.replicationDumpChunk name batch tick size)) start =
      match answered fates (client.retry.maxAttempts - 1) start with
        | some reply => (.ok (.ok (firstChunk (beyond tick (collections name).pages))),reply.2)
        | none => (.ok (.error lost),start + (client.retry.maxAttempts - 1) + 1) := by
  have called := @retryLoop_run collections fates (.replicationDumpChunk name batch tick size) _ rfl
      client.retry client.database
    (client.retry.maxAttempts - 1) start
  rw [run_attempt]
  unfold Client.replicationDumpChunk Client.execute Client.executeOn ArangoDataTools.retry
  rw [called]
  cases answered fates (client.retry.maxAttempts - 1) start with
  | none => rfl
  | some reply => rfl

-- Induction on the pages that are left: each answered call takes the first of
-- them, and the tick it ends at asks for the one after it.
theorem stream_run (client : Client) (name batch : String) (size : Nat) (rest : List Page) {tick : UInt64}
    (left : beyond tick (collections name).pages = rest) (read : List Bytes) (start : Nat) :
    ∃ yielded ending next,
      run (serving collections fates) (dumpDataStream client name batch size tick read) start =
        (.ok (read ++ yielded,ending),next) ∧
      Yields fates (client.retry.maxAttempts - 1) start rest yielded ending next := by
  induction rest generalizing tick read start with
  | nil =>
    have fetched := @fetch_run collections fates client name batch size tick start
    rw [dumpDataStream]
    cases reply_ : answered fates (client.retry.maxAttempts - 1) start with
    | none =>
      rw [reply_] at fetched
      rw [run_bind_ok _ fetched]
      exact ⟨[],some lost,_,by rw [List.append_nil]; rfl,yields_lost [] reply_⟩
    | some reply =>
      rw [reply_,left] at fetched
      rw [run_bind_ok _ fetched]
      exact ⟨[],none,_,by rw [List.append_nil]; rfl,yields_last (Nat.zero_le 1) reply_⟩
  | cons page rest ih =>
    have fetched := @fetch_run collections fates client name batch size tick start
    obtain ⟨grows,after⟩ := beyond_next (collections name).increasing left
    have positive := (collections name).positive page (beyond_mem (by rw [left]; exact List.mem_cons_self))
    rw [dumpDataStream]
    cases reply_ : answered fates (client.retry.maxAttempts - 1) start with
    | none =>
      rw [reply_] at fetched
      rw [run_bind_ok _ fetched]
      exact ⟨[],some lost,_,by rw [List.append_nil]; rfl,yields_lost _ reply_⟩
    | some reply =>
      rw [reply_,left] at fetched
      rw [run_bind_ok _ fetched]
      simp only [keep_eq]
      cases rest with
      | nil =>
        refine ⟨_,none,reply.2,?_,yields_last (Nat.le_refl 1) reply_⟩
        rw [dif_neg (by simp [firstChunk]),bodies_cons]
        simp [firstChunk,bodies]
      | cons second rest =>
        have advances : (firstChunk (page :: second :: rest)).hasMore = true ∧
          (firstChunk (page :: second :: rest)).lastIncludedTick ≠ 0 ∧
          tick < (firstChunk (page :: second :: rest)).lastIncludedTick := ⟨rfl,positive,grows⟩
        rw [dif_pos advances]
        obtain ⟨yielded,ending,next,ran,yields⟩ := ih after (read ++ kept page.body) reply.2
        rw [List.append_assoc] at ran
        exact ⟨_,ending,next,ran,yields_more (List.cons_ne_nil _ _) reply_ yields⟩

-- Under any schedule of lost requests and responses the stream ends, without an
-- error exactly where the retries absorb the losses, and then it has yielded
-- every page once.
theorem paged_dump_exact (collections : String → Paged) (fates : Nat → Fate) (client : Client)
    (name batch : String)
    (size start : Nat) :
    ∃ yielded ending next,
      run (serving collections fates) (dumpDataStream client name batch size 0 []) start =
      (.ok (yielded,ending),next) ∧
      next ≤ start + (client.retry.maxAttempts - 1 + 1) * calls (collections name).pages ∧
      (ending = none ↔ absorbs fates (client.retry.maxAttempts - 1)
        (calls (collections name).pages) start = true) ∧
      (ending = none → yielded = bodies (collections name).pages ∧
        yielded.flatten = (collections name).pages.flatMap Page.body) ∧
      yielded <+: bodies (collections name).pages := by
  obtain ⟨yielded,ending,next,ran,yields⟩ := 
    @stream_run collections fates client name batch size _ 0 (beyond_zero (collections name)) [] start
  refine ⟨yielded,ending,next,ran,yields.bounded,yields.absorbed,?_,yields.part⟩
  intro clean
  exact ⟨yields.whole clean,by rw [yields.whole clean,bodies_flatten]⟩

end Stream
end ArangoDataTools.DumpPaging
