import ArangoDataTools.Interleaving

namespace Interaction
open Program

section Outcomes
variable {Op : Type} {Ans : Op → Type} {ε α β Q : Type} {protocol : Protocol Op Ans Q} {q : Q}

theorem follows_lift {result : Except ε α} {post : Except ε α → Q → Prop} (holds : post result q) :
    Follows protocol post (lift result) q := by
  cases result with
  | ok value => exact holds
  | error error => exact holds

theorem follows_lift_bind {result : Except ε α} {f : α → Program Op Ans ε β} {post : Except ε β → Q → Prop}
    (rest : ∀ value, result = .ok value → Follows protocol post (f value) q)
    (failed : ∀ error, result = .error error → post (.error error) q) :
    Follows protocol post ((lift result).bind f) q := by
  cases result with
  | ok value => exact rest value rfl
  | error error => exact failed error rfl

theorem follows_attempt_bind {middle : Except ε α → Q → Prop} {p : Program Op Ans ε α}
    {f : Except ε α → Program Op Ans ε β}
    {post : Except ε β → Q → Prop} (first : Follows protocol middle p q)
    (rest : ∀ result q, middle result q → Follows protocol post (f result) q) :
    Follows protocol post ((attempt p).bind f) q := by
  refine @follows_seq _ _ _ _ _ _ protocol (fun outcome q => ∃ result, outcome = .ok result ∧
    middle result q) _ _ _ _ ?_ ?_ ?_
  · exact follows_attempt (follows_mono (fun result q holds => ⟨result,rfl,holds⟩) first)
  · rintro outcome q ⟨result,same,holds⟩
    cases same
    exact rest _ q holds
  · rintro error q ⟨result,same,-⟩
    cases same

theorem follows_kept {kept : Q → Prop} (permits : ∀ q op, kept q → protocol.permits q op)
    (keeps : ∀ q op answer, kept q → kept (protocol.advance q op answer)) (p : Program Op Ans ε α) :
    ∀ q, kept q → Follows protocol (fun _ later => kept later) p q := by
  induction p with
  | done value => exact fun _ holds => holds
  | fail error => exact fun _ holds => holds
  | call op next ih =>
    exact fun q holds => ⟨permits q op holds,fun answer => ih answer _ (keeps q op answer holds)⟩

theorem followed_unless_stopped {ι W : Type} [DecidableEq ι] {environment : Environment ι Op Ans W}
    {allowed : Pool ι Op Ans ε α W Q → Event ι Op Ans → Prop} {posts : ι → Except ε α → Q → Prop}
    {start s : Pool ι Op Ans ε α W Q}
    (stopped : ∀ i error q, posts i (.error error) q)
      (followed : ∀ i, Follows protocol (posts i) (start.threads i) (start.phases i))
    (path : PoolReached environment protocol allowed start s) : ∀ i,
      Follows protocol (posts i) (s.threads i) (s.phases i) := by
  induction path with
  | start => exact followed
  | step path _ step ih =>
    cases step with
    | @call i op rest answer w head answered =>
      intro j
      by_cases equal : j = i
      · subst j
        have own := ih i
        rw [head] at own
        simpa using own.2 answer
      · simpa [equal] using ih j
    | @stop i op rest error head =>
      intro j
      by_cases equal : j = i
      · subst j
        simpa [Follows] using stopped i error _
      · simpa [equal] using ih j

theorem follows_concluded {post : Except ε α → Q → Prop} {p : Program Op Ans ε α} {result : Except ε α}
    (follows : Follows protocol post p q)
    (concluded : p.conclusion = some result) : post result q := by
  cases p with
  | done value =>
    cases concluded
    exact follows
  | fail error =>
    cases concluded
    exact follows
  | call op next => cases concluded

end Outcomes

section RelyGuarantee
variable {Op : Type} {Ans : Op → Type} {ε α W Q ι : Type} [DecidableEq ι]
  {environment : Environment ι Op Ans W} {protocol : Protocol Op Ans Q}
  {allowed : Pool ι Op Ans ε α W Q → Event ι Op Ans → Prop} {holds : ι → Q → W → Prop} {rely : ι → W → W → Prop}
  {start s next : Pool ι Op Ans ε α W Q} {event : Event ι Op Ans}

-- What is known of a party in its phase is kept by its own operations, and by all that it must rely
-- on the others for; what a party does is what the others rely on.
structure Guarded (environment : Environment ι Op Ans W) (protocol : Protocol Op Ans Q)
    (holds : ι → Q → W → Prop)
    (rely : ι → W → W → Prop) : Prop where
  keeps : ∀ i q op w answer w', holds i q w → protocol.permits q op → environment i op w answer w' →
    holds i (protocol.advance q op answer) w'
  stable : ∀ i q w w', holds i q w → rely i w w' → holds i q w'
  guarantees : ∀ i j q op w answer w', i ≠ j → holds i q w → protocol.permits q op →
    environment i op w answer w' → rely j w w'

end RelyGuarantee
end Interaction
