import ArangoDataTools.Errors
import ArangoDataTools.Interleaving

namespace ArangoDataTools
open Interaction Interaction.Program

section RetryRules
variable {Op : Type} {Ans : Op → Type} {α Q : Type} {protocol : Protocol Op Ans Q}
  {post : Except Error α → Q → Prop} {ready : Q → Prop}
  {count : Counter → Program Op Ans Error Unit} {attempted : Program Op Ans Error (Except Error α)}

def Tried (post : Except Error α → Q → Prop) (ready : Q → Prop) : Except Error (Except Error α) → Q → Prop
  | .ok (.ok value),q => post (.ok value) q
  | .ok (.error err),q => post (.error err) q ∧ (err.isRetryable = true → ready q)
  | .error err,q => post (.error err) q

def Unbroken (post : Except Error α → Q → Prop) (ready : Q → Prop) (q : Q)
    (outcome : Except Error Unit) (later : Q) : Prop :=
  outcome = .ok () ∧ (∀ err, post (.error err) q → post (.error err) later) ∧ (ready q → ready later)

theorem follows_record (counts : ∀ counter q,
    Follows protocol (Unbroken post ready q) (count counter) q) (policy : RetryPolicy)
    (counter : Counter) (q : Q) : Follows protocol (Unbroken post ready q) (policy.record count counter) q := by
  unfold RetryPolicy.record
  split
  · exact counts counter q
  · exact ⟨rfl,fun _ holds => holds,id⟩

theorem follows_recordFailure
    (counts : ∀ counter q, Follows protocol (Unbroken post ready q) (count counter) q) (policy : RetryPolicy)
    (err : Error) (q : Q) : Follows protocol (Unbroken post ready q) (policy.recordFailure count err) q := by
  unfold RetryPolicy.recordFailure
  split
  · exact follows_record counts policy _ q
  · exact ⟨rfl,fun _ holds => holds,id⟩

theorem follows_retryLoop
    (counts : ∀ counter q, Follows protocol (Unbroken post ready q) (count counter) q) (policy : RetryPolicy)
    (tries : ∀ q, ready q → Follows protocol (Tried post ready) attempted q) (left : Nat) (q : Q)
      (begins : ready q) :
    Follows protocol post (retryLoop policy count attempted left) q := by
  have counted : ∀ {q : Q} {err : Error} {later : Q}, ¬ Unbroken post ready q (.error err) later :=
    fun unbroken => by cases unbroken.1
  induction left generalizing q with
  | zero =>
    refine follows_seq (tries q begins) (fun outcome q tried => ?_) (fun _ _ failed => failed)
    cases outcome with
    | ok value => exact tried
    | error err =>
      exact follows_seq (follows_recordFailure counts policy err q)
        (fun _ _ unbroken => unbroken.2.1 err tried.1)
        (fun _ _ unbroken => absurd unbroken counted)
  | succ left ih =>
    refine follows_seq (tries q begins) (fun outcome q tried => ?_) (fun _ _ failed => failed)
    cases outcome with
    | ok value => exact tried
    | error err =>
      refine follows_seq (follows_recordFailure counts policy err q) (fun _ later unbroken => ?_)
        (fun _ _ unbroken => absurd unbroken counted)
      split
      · rename_i transient
        exact follows_seq (follows_record counts policy _ later)
          (fun _ last kept => ih last (kept.2.2 (unbroken.2.2 (tried.2 transient))))
            (fun _ _ kept => absurd kept counted)
      · exact unbroken.2.1 err tried.1

theorem follows_retry (counts : ∀ counter q,
    Follows protocol (Unbroken post ready q) (count counter) q) (policy : RetryPolicy)
    (tries : ∀ q, ready q → Follows protocol (Tried post ready) attempted q) (q : Q) (begins : ready q) :
    Follows protocol post (retry policy count attempted) q := follows_retryLoop counts policy tries _ q begins

end RetryRules
end ArangoDataTools
